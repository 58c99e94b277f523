import Mathlib.Data.List.Perm.Basic

/-!
# Local operations

A state is seen through its views, one for each place. An operation is local to a place if it depends
on the view of this place alone, and leaves the other views as they are. A loop over operations on
different places gives the same results in any order, and shows the same views afterwards.

* `runAll`: the loop; it stops at the first operation that fails.
* `LocalAt.swap`: two operations commute.
* `runAll_congr`: the loop on states with the same views; `runAll_perm`: the loop in another order.
-/

variable {σ ι κ ν α : Type}

/-- The operations one after another, with their results. -/
def runAll (op : ι → σ → Option (σ × α)) : List ι → σ → Option (σ × List (ι × α))
  | [], s => some (s, [])
  | i :: is, s => do
    let (s, a) ← op i s
    let (s, rest) ← runAll op is s
    return (s, (i, a) :: rest)

theorem runAll_cons {op : ι → σ → Option (σ × α)} {i : ι} {is : List ι} {s s' : σ}
    {xs : List (ι × α)} :
    runAll op (i :: is) s = some (s', xs) ↔
      ∃ s₁ a rest, op i s = some (s₁, a) ∧ runAll op is s₁ = some (s', rest) ∧
        xs = (i, a) :: rest := by
  rw [runAll]
  simp only [bind, Option.bind_eq_some_iff, pure, Option.some.injEq, Prod.mk.injEq, Prod.exists]
  constructor
  · rintro ⟨s₁, a, hop, s₂, rest, hrun, rfl, rfl⟩
    exact ⟨s₁, a, rest, hop, hrun, rfl⟩
  · rintro ⟨s₁, a, rest, hop, hrun, rfl⟩
    exact ⟨s₁, a, hop, s', rest, hrun, rfl, rfl⟩

/-- The results come with the operations that gave them. -/
theorem runAll_keys {op : ι → σ → Option (σ × α)} {is : List ι} {s s' : σ} {xs : List (ι × α)}
    (h : runAll op is s = some (s', xs)) : xs.map (·.1) = is := by
  induction is generalizing s xs with
  | nil =>
    cases h
    rfl
  | cons i is ih =>
    obtain ⟨s₁, a, rest, -, hrun, rfl⟩ := runAll_cons.mp h
    rw [List.map_cons, ih hrun]

/-- The states show the same. -/
def SameViews (view : κ → σ → ν) (s t : σ) : Prop := ∀ k, view k s = view k t

/-- The operation works on place `k` alone. -/
structure LocalAt (view : κ → σ → ν) (k : κ) (f : σ → Option (σ × α)) : Prop where
  frame : ∀ {s s' a}, f s = some (s', a) → ∀ l, l ≠ k → view l s' = view l s
  congr : ∀ {s s' a t}, f s = some (s', a) → view k s = view k t →
    ∃ t', f t = some (t', a) ∧ view k s' = view k t'

namespace LocalAt

variable {view : κ → σ → ν} {k l : κ} {f g : σ → Option (σ × α)} {a b : α} {s s' t : σ}

/-- The operation on states that show the same. -/
theorem step (h : LocalAt view k f) (hf : f s = some (s', a)) (hsame : SameViews view s t) :
    ∃ t', f t = some (t', a) ∧ SameViews view s' t' := by
  obtain ⟨t', hf', hview⟩ := h.congr hf (hsame k)
  refine ⟨t', hf', fun m => ?_⟩
  by_cases hm : m = k
  · rw [hm, hview]
  · rw [h.frame hf m hm, h.frame hf' m hm, hsame m]

/-- **Operations on different places commute.** -/
theorem swap (h : LocalAt view k f) (h' : LocalAt view l g) (hkl : k ≠ l) {s₁ s₂ : σ}
    (hf : f s = some (s₁, a)) (hg : g s₁ = some (s₂, b)) :
    ∃ t₁ t₂, g s = some (t₁, b) ∧ f t₁ = some (t₂, a) ∧ SameViews view s₂ t₂ := by
  obtain ⟨t₁, hg', hview⟩ := h'.congr hg (h.frame hf l hkl.symm)
  obtain ⟨t₂, hf', hview'⟩ := h.congr hf (h'.frame hg' k hkl).symm
  refine ⟨t₁, t₂, hg', hf', fun m => ?_⟩
  by_cases hmk : m = k
  · rw [hmk, h'.frame hg k hkl, hview']
  · by_cases hml : m = l
    · rw [hml, hview, h.frame hf' l hkl.symm]
    · rw [h'.frame hg m hml, h.frame hf m hmk, h.frame hf' m hmk, h'.frame hg' m hml]

end LocalAt

section RunAll

variable {view : κ → σ → ν} {place : ι → κ} {op : ι → σ → Option (σ × α)} {s s' t : σ}

theorem runAll_congr {is : List ι} (h : ∀ i ∈ is, LocalAt view (place i) (op i))
    {xs : List (ι × α)} (hrun : runAll op is s = some (s', xs)) (hsame : SameViews view s t) :
    ∃ t', runAll op is t = some (t', xs) ∧ SameViews view s' t' := by
  induction is generalizing s t xs with
  | nil =>
    cases hrun
    exact ⟨t, rfl, hsame⟩
  | cons i is ih =>
    obtain ⟨hi, his⟩ := List.forall_mem_cons.mp h
    obtain ⟨s₁, a, rest, hop, hrest, rfl⟩ := runAll_cons.mp hrun
    obtain ⟨t₁, hop', hsame₁⟩ := hi.step hop hsame
    obtain ⟨t', hrest', hsame'⟩ := ih his hrest hsame₁
    exact ⟨t', runAll_cons.mpr ⟨t₁, a, rest, hop', hrest', rfl⟩, hsame'⟩

/-- **A loop in another order** has the same results, and shows the same views afterwards. -/
theorem runAll_perm {is is' : List ι} (hperm : is.Perm is')
    (h : ∀ i ∈ is, LocalAt view (place i) (op i)) (hplaces : (is.map place).Nodup)
    {xs : List (ι × α)} (hrun : runAll op is s = some (s', xs)) :
    ∃ t ys, runAll op is' s = some (t, ys) ∧ xs.Perm ys ∧ SameViews view s' t := by
  induction hperm generalizing s s' xs with
  | nil => exact ⟨s', xs, hrun, .rfl, fun _ => rfl⟩
  | cons i _ ih =>
    obtain ⟨-, his⟩ := List.forall_mem_cons.mp h
    obtain ⟨s₁, a, rest, hop, hrest, rfl⟩ := runAll_cons.mp hrun
    obtain ⟨t, ys, hrun', hys, hsame⟩ := ih his (List.nodup_cons.mp hplaces).2 hrest
    exact ⟨t, (i, a) :: ys, runAll_cons.mpr ⟨s₁, a, ys, hop, hrun', rfl⟩, hys.cons _, hsame⟩
  | swap i j is =>
    obtain ⟨hj, his⟩ := List.forall_mem_cons.mp h
    obtain ⟨hi, his⟩ := List.forall_mem_cons.mp his
    have hne : place j ≠ place i := fun he =>
      (List.nodup_cons.mp hplaces).1 (he ▸ List.mem_cons_self)
    obtain ⟨s₁, a, later, hopj, hlater, rfl⟩ := runAll_cons.mp hrun
    obtain ⟨s₂, b, rest, hopi, hrest, rfl⟩ := runAll_cons.mp hlater
    obtain ⟨t₁, t₂, hopi', hopj', hsame⟩ := hj.swap hi hne hopj hopi
    obtain ⟨t, hrest', hsame'⟩ := runAll_congr his hrest hsame
    exact ⟨t, (i, b) :: (j, a) :: rest,
      runAll_cons.mpr ⟨t₁, b, _, hopi', runAll_cons.mpr ⟨t₂, a, rest, hopj', hrest', rfl⟩, rfl⟩,
      .swap _ _ _, hsame'⟩
  | trans hp _ ih₁ ih₂ =>
    obtain ⟨t, ys, hrun₁, hys, hsame⟩ := ih₁ h hplaces hrun
    obtain ⟨t', zs, hrun₂, hzs, hsame'⟩ :=
      ih₂ (fun i hi => h i (hp.mem_iff.mpr hi)) ((hp.map place).nodup_iff.mp hplaces) hrun₁
    exact ⟨t', zs, hrun₂, hys.trans hzs, fun k => (hsame k).trans (hsame' k)⟩

end RunAll
