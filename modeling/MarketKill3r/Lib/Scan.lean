import Mathlib.Data.List.Find
import Mathlib.Data.List.MinMax

/-!
# Scans over index ranges

Loops `for j in range(a, n)` that look for the first index that satisfies a test (`firstHit`) or,
counting down, for the last one (`lastHit`), a list collected over the range, and a slice of a list
around an index. For each, what happens when the range or the list is cut at `m`: an index below the
cut is not affected by what lies behind it.
-/

namespace Scan

variable {α β : Type}

/-- The first index `j` of `range(a, n)` with `p j`. -/
def firstHit (p : Nat → Bool) (a n : Nat) : Option Nat := (List.range' a (n - a)).find? p

theorem firstHit_eq_some {p : Nat → Bool} {a n k : Nat} :
    firstHit p a n = some k ↔ p k ∧ (a ≤ k ∧ k < n) ∧ ∀ j, a ≤ j → j < k → !p j := by
  simp only [firstHit, List.find?_range'_eq_some, List.mem_range'_1]
  constructor
  · rintro ⟨hp, ⟨h1, h2⟩, h3⟩
    exact ⟨hp, ⟨h1, by omega⟩, h3⟩
  · rintro ⟨hp, ⟨h1, h2⟩, h3⟩
    exact ⟨hp, ⟨h1, by omega⟩, h3⟩

theorem firstHit_eq_none {p : Nat → Bool} {a n : Nat} :
    firstHit p a n = none ↔ ∀ j, a ≤ j → j < n → !p j := by
  simp only [firstHit, List.find?_range'_eq_none]
  constructor
  · exact fun h j h1 h2 => h j h1 (by omega)
  · exact fun h j h1 h2 => h j h1 (by omega)

theorem firstHit_congr {p q : Nat → Bool} {a n : Nat} (h : ∀ j, a ≤ j → j < n → p j = q j) :
    firstHit p a n = firstHit q a n :=
  List.find?_congr fun j hj => by
    rw [List.mem_range'_1] at hj
    exact h j hj.1 (by omega)

/-- Cutting the range at `m` keeps a hit exactly when it lies before the cut. -/
theorem firstHit_cut {p : Nat → Bool} {a m n : Nat} (hmn : m ≤ n) :
    firstHit p a m = (firstHit p a n).filter (· < m) := by
  cases hn : firstHit p a n with
  | none =>
    rw [firstHit_eq_none] at hn
    rw [Option.filter_none, firstHit_eq_none]
    exact fun j h1 h2 => hn j h1 (Nat.lt_of_lt_of_le h2 hmn)
  | some k =>
    obtain ⟨hp, ⟨h1, h2⟩, h3⟩ := firstHit_eq_some.mp hn
    by_cases hk : k < m
    · simp only [Option.filter, hk, decide_true, ↓reduceIte]
      exact firstHit_eq_some.mpr ⟨hp, ⟨h1, hk⟩, h3⟩
    · simp only [Option.filter, hk, decide_false, Bool.false_eq_true, ↓reduceIte]
      exact firstHit_eq_none.mpr fun j hj hm => h3 j hj (by omega)

/-- A scan over the positions of a list finds nothing where no item passes. -/
theorem firstHit_any_eq_none {xs : List α} {q : α → Bool} {a : Nat} :
    firstHit (fun j => (xs[j]?).any q) a xs.length = none ↔
      ∀ j x, xs[j]? = some x → a ≤ j → q x = false := by
  rw [firstHit_eq_none]
  constructor
  · intro h j x hx hj
    obtain ⟨hlt, -⟩ := List.getElem?_eq_some_iff.mp hx
    simpa [hx] using h j hj hlt
  · intro h j hj hlt
    simpa [List.getElem?_eq_getElem hlt] using h j _ (List.getElem?_eq_getElem hlt) hj

/-- A scan over the positions of a list: in the list cut at `n` it finds the hit if that lies before
the cut. -/
theorem firstHit_take {xs : List α} {q : α → Bool} {a n : Nat} :
    firstHit (fun j => ((xs.take n)[j]?).any q) a (xs.take n).length =
      (firstHit (fun j => (xs[j]?).any q) a xs.length).filter (· < n) := by
  have hle : (xs.take n).length ≤ xs.length := List.length_take_le' _ _
  rw [firstHit_congr (q := fun j => (xs[j]?).any q) fun j _ hj => by
    rw [List.getElem?_take_of_lt (by rw [List.length_take] at hj; omega)], firstHit_cut hle]
  cases h : firstHit (fun j => (xs[j]?).any q) a xs.length with
  | none => rfl
  | some k =>
    obtain ⟨-, ⟨-, hk⟩, -⟩ := firstHit_eq_some.mp h
    have : k < (xs.take n).length ↔ k < n := by rw [List.length_take]; omega
    simp only [Option.filter, this]

/-- The last index `j` of `range(a, n)` with `p j`, found by counting down. -/
def lastHit (p : Nat → Bool) (a n : Nat) : Option Nat := (List.range' a (n - a)).reverse.find? p

theorem lastHit_succ {p : Nat → Bool} {a n : Nat} (h : a ≤ n) :
    lastHit p a (n + 1) = if p n then some n else lastHit p a n := by
  rw [lastHit, show n + 1 - a = n - a + 1 by omega, List.range'_1_concat, List.reverse_append,
    List.reverse_singleton, List.singleton_append, List.find?_cons, Nat.add_sub_cancel' h]
  cases p n <;> rfl

theorem lastHit_eq_some {p : Nat → Bool} {a n k : Nat} :
    lastHit p a n = some k ↔ p k ∧ (a ≤ k ∧ k < n) ∧ ∀ j, k < j → j < n → !p j := by
  induction n with
  | zero => simp [lastHit]
  | succ n ih =>
    by_cases hn : a ≤ n
    · rw [lastHit_succ hn]
      cases hp : p n with
      | true =>
        simp only [↓reduceIte, Option.some.injEq]
        constructor
        · rintro rfl
          exact ⟨hp, ⟨hn, by omega⟩, fun j h1 h2 => by omega⟩
        · rintro ⟨-, ⟨-, h2⟩, h3⟩
          refine Nat.le_antisymm ?_ (by omega)
          by_contra hlt
          have := h3 n (by omega) (by omega)
          simp [hp] at this
      | false =>
        simp only [Bool.false_eq_true, ↓reduceIte, ih]
        constructor
        · rintro ⟨h1, ⟨h2, h3⟩, h4⟩
          refine ⟨h1, ⟨h2, by omega⟩, fun j hj hjn => ?_⟩
          by_cases hjn' : j = n
          · rw [hjn', hp]; rfl
          · exact h4 j hj (by omega)
        · rintro ⟨h1, ⟨h2, h3⟩, h4⟩
          have hkn : k ≠ n := fun h => by rw [h, hp] at h1; cases h1
          exact ⟨h1, ⟨h2, by omega⟩, fun j hj hjn => h4 j hj (by omega)⟩
    · have hempty : lastHit p a (n + 1) = none := by
        rw [lastHit, show n + 1 - a = 0 by omega]
        rfl
      rw [hempty]
      constructor
      · intro h; cases h
      · rintro ⟨-, ⟨h2, h3⟩, -⟩; omega

/-- Two searches that start at `m` and at a later `n` find the same number exactly when there is no
hit from `m` on. -/
theorem lastHit_eq_lastHit_iff {p : Nat → Bool} {a b m n i j : Nat} (hi : lastHit p a m = some i)
    (hj : lastHit p b n = some j) (hmn : m ≤ n) : i = j ↔ ∀ l, m ≤ l → l < n → !p l := by
  obtain ⟨hpi, ⟨-, him⟩, hilast⟩ := lastHit_eq_some.mp hi
  obtain ⟨hpj, ⟨-, hjn⟩, hjlast⟩ := lastHit_eq_some.mp hj
  constructor
  · rintro rfl l hl hln
    exact hjlast l (by omega) hln
  · intro hnone
    have hjm : j < m := by
      by_contra hjm
      simpa [hpj] using hnone j (by omega) hjn
    rcases Nat.lt_trichotomy i j with hij | hij | hij
    · simpa [hpj] using hilast j hij hjm
    · exact hij
    · simpa [hpi] using hjlast i hij (by omega)

theorem lastHit_congr {p q : Nat → Bool} {a n : Nat} (h : ∀ j, j < n → p j = q j) :
    lastHit p a n = lastHit q a n :=
  List.find?_congr fun j hj => by
    rw [List.mem_reverse, List.mem_range'_1] at hj
    exact h j (by omega)

/-- A list collected over `range(a, a + l)`, filtered by a property that holds exactly below
`a + l'`, is the list collected over the shorter range. -/
theorem filter_flatMap_range' {f : Nat → List β} {P : β → Bool} {a l : Nat} (l' : Nat) (hl : l' ≤ l)
    (hin : ∀ j, a ≤ j → j < a + l' → ∀ b ∈ f j, P b)
    (hout : ∀ j, a + l' ≤ j → j < a + l → ∀ b ∈ f j, ¬ P b) :
    ((List.range' a l).flatMap f).filter P = (List.range' a l').flatMap f := by
  have hsplit : List.range' a l = List.range' a l' ++ List.range' (a + l') (l - l') := by
    rw [List.range'_append_1, Nat.add_sub_cancel' hl]
  rw [hsplit, List.flatMap_append, List.filter_append,
    List.filter_eq_self.mpr, List.filter_eq_nil_iff.mpr, List.append_nil]
  · intro b hb
    obtain ⟨j, hj, hb⟩ := List.mem_flatMap.mp hb
    rw [List.mem_range'_1] at hj
    exact hout j hj.1 (by omega) b hb
  · intro b hb
    obtain ⟨j, hj, hb⟩ := List.mem_flatMap.mp hb
    rw [List.mem_range'_1] at hj
    exact hin j hj.1 hj.2 b hb

/-- A slice `xs[i : i + l]` that ends before the cut is the slice of the cut list. -/
theorem slice_take {xs : List α} {i l n : Nat} (h : i + l ≤ n) :
    ((xs.take n).drop i).take l = (xs.drop i).take l := by
  rw [List.drop_take, List.take_take, Nat.min_eq_left (by omega)]

/-- Membership in the slice `xs[i : i + l]`, by position. -/
theorem mem_slice {xs : List α} {i l : Nat} {x : α} :
    x ∈ (xs.drop i).take l ↔ ∃ j, i ≤ j ∧ j < i + l ∧ xs[j]? = some x := by
  rw [List.mem_iff_getElem?]
  constructor
  · rintro ⟨j, hj⟩
    rw [List.getElem?_take] at hj
    split at hj
    · exact ⟨i + j, by omega, by omega, by rwa [List.getElem?_drop] at hj⟩
    · cases hj
  · rintro ⟨j, h1, h2, h3⟩
    refine ⟨j - i, ?_⟩
    rw [List.getElem?_take, if_pos (by omega), List.getElem?_drop, Nat.add_sub_cancel' h1, h3]

/-- In a sorted list the elements of a downward closed property come first. -/
theorem exists_eq_filter_append {r : α → α → Prop} {p : α → Bool} {xs : List α}
    (h : xs.Pairwise r) (hp : ∀ a b, r a b → p b → p a) : ∃ rest, xs = xs.filter p ++ rest := by
  induction xs with
  | nil => exact ⟨[], rfl⟩
  | cons x xs ih =>
    obtain ⟨hx, hxs⟩ := List.pairwise_cons.mp h
    by_cases hpx : p x
    · obtain ⟨rest, hrest⟩ := ih hxs
      exact ⟨rest, by rw [List.filter_cons_of_pos hpx, List.cons_append, ← hrest]⟩
    · have hnil : (x :: xs).filter p = [] := by
        refine List.filter_eq_nil_iff.mpr fun b hb hpb => ?_
        rcases List.mem_cons.mp hb with rfl | hb
        · exact hpx hpb
        · exact hpx (hp x b (hx b hb) hpb)
      exact ⟨x :: xs, by rw [hnil, List.nil_append]⟩

/-- Two filters of a list that has no element of the second one before an element of the first. -/
theorem filter_append_filter {p q : α → Bool} {xs : List α} (hpq : ∀ a ∈ xs, p a → ¬ q a)
    (h : xs.Pairwise fun a b => q a → ¬ p b) :
    xs.filter p ++ xs.filter q = xs.filter fun a => p a || q a := by
  induction xs with
  | nil => rfl
  | cons x xs ih =>
    obtain ⟨hx, hxs⟩ := List.pairwise_cons.mp h
    obtain ⟨hpx, hpxs⟩ := List.forall_mem_cons.mp hpq
    have ih := ih hpxs hxs
    by_cases hp : p x
    · rw [List.filter_cons_of_pos hp, List.filter_cons_of_neg (hpx hp),
        List.filter_cons_of_pos (by simp [hp]), List.cons_append, ih]
    · by_cases hq : q x
      · have hnil : xs.filter p = [] := List.filter_eq_nil_iff.mpr fun b hb => hx b hb hq
        rw [hnil, List.nil_append] at ih
        rw [List.filter_cons_of_neg hp, hnil, List.filter_cons_of_pos hq,
          List.filter_cons_of_pos (by simp [hq]), ← ih]
        rfl
      · rw [List.filter_cons_of_neg hp, List.filter_cons_of_neg hq,
          List.filter_cons_of_neg (by simp [hp, hq]), ih]

/-- A list in the order of a key, cut into the items below, at and above a value. -/
theorem split_at_key {κ : Type} [LinearOrder κ] {f : α → κ} {xs : List α}
    (h : xs.Pairwise fun a b => f a ≤ f b) (p : κ) :
    xs = xs.filter (f · < p) ++ (xs.filter (f · = p) ++ xs.filter (p < f ·)) := by
  have hupper : xs.filter (f · = p) ++ xs.filter (p < f ·) =
      xs.filter fun x => f x = p || p < f x := by
    refine filter_append_filter (fun x _ hx hlt => ?_) (h.imp fun {x y} hxy hx hy => ?_)
    · simp only [decide_eq_true_eq] at hx hlt
      exact absurd hlt (hx ▸ lt_irrefl _)
    · simp only [decide_eq_true_eq] at hx hy
      exact absurd (lt_of_lt_of_le hx hxy) (hy ▸ lt_irrefl _)
  rw [hupper, filter_append_filter]
  · rw [eq_comm, List.filter_eq_self]
    intro x _
    rcases lt_trichotomy (f x) p with h | h | h <;> simp [h]
  · intro x _ hx hge
    simp only [Bool.or_eq_true, decide_eq_true_eq] at hx hge
    rcases hge with rfl | hge
    · exact lt_irrefl _ hx
    · exact lt_asymm hx hge
  · refine h.imp fun {x y} hxy hx hy => ?_
    simp only [Bool.or_eq_true, decide_eq_true_eq] at hx hy
    have hlt := lt_of_le_of_lt hxy hy
    rcases hx with rfl | hx
    · exact lt_irrefl _ hlt
    · exact lt_asymm hx hlt

/-- The last item of a list in the strict order of a key has the greatest key. -/
theorem getLast?_eq_some_iff_max {κ : Type} [LinearOrder κ] {f : α → κ} {xs : List α}
    (h : xs.Pairwise fun a b => f a < f b) {x : α} :
    xs.getLast? = some x ↔ x ∈ xs ∧ ∀ y ∈ xs, f y ≤ f x := by
  induction xs using List.reverseRecOn with
  | nil => simp
  | append_singleton xs last _ =>
    obtain ⟨-, -, hlast⟩ := List.pairwise_append.mp h
    rw [List.getLast?_concat, Option.some_inj]
    constructor
    · rintro rfl
      refine ⟨List.mem_append_right _ (List.mem_singleton_self _), fun y hy => ?_⟩
      rcases List.mem_append.mp hy with hy | hy
      · exact (hlast y hy last (List.mem_singleton_self _)).le
      · rw [List.mem_singleton.mp hy]
    · rintro ⟨hx, hmax⟩
      rcases List.mem_append.mp hx with hx | hx
      · have hlt := hlast x hx last (List.mem_singleton_self _)
        exact absurd (hmax last (List.mem_append_right _ (List.mem_singleton_self _)))
          (not_le.mpr hlt)
      · exact (List.mem_singleton.mp hx).symm

/-- A relabelling that keeps the order of the keys keeps the first minimum. -/
theorem argmin_map {γ δ : Type} [Preorder γ] [DecidableLT γ] [Preorder δ] [DecidableLT δ]
    {f : α → β} {g : α → γ} {g' : β → δ} {xs : List α}
    (h : ∀ x ∈ xs, ∀ y ∈ xs, g' (f x) < g' (f y) ↔ g x < g y) :
    (xs.map f).argmin g' = (xs.argmin g).map f := by
  induction xs using List.reverseRecOn with
  | nil => rfl
  | append_singleton xs x ih =>
    have ih' := ih fun a ha b hb => h a (List.mem_append_left _ ha) b (List.mem_append_left _ hb)
    rw [List.map_append, List.map_singleton, List.argmin_concat, List.argmin_concat, ih']
    cases hm : xs.argmin g with
    | none => rfl
    | some m =>
      have hmem : m ∈ xs := List.argmin_mem (by rw [hm]; rfl)
      have hcmp := h x (by simp) m (List.mem_append_left _ hmem)
      simp only [Option.map_some, hcmp]
      split <;> rfl

/-- The last element is the first minimum exactly when it is below all elements before it. -/
theorem argmin_concat_eq_iff {γ : Type} [LinearOrder γ] {g : α → γ} {xs : List α} {m : α}
    (hm : m ∉ xs) : (xs ++ [m]).argmin g = some m ↔ ∀ x ∈ xs, g m < g x := by
  rw [List.argmin_concat]
  cases hc : xs.argmin g with
  | none =>
    rw [List.argmin_eq_none.mp hc]
    simp
  | some c =>
    have hmem : c ∈ xs := List.argmin_mem hc
    by_cases hlt : g m < g c
    · simp only [hlt, ↓reduceIte, true_iff]
      exact fun x hx => lt_of_lt_of_le hlt (List.le_of_mem_argmin hx hc)
    · simp only [hlt, ↓reduceIte, Option.some.injEq]
      refine iff_of_false ?_ fun h => hlt (h c hmem)
      rintro rfl
      exact hm hmem

/-! ## Splits of a list -/

theorem exists_split_cons {x : α} {xs : List α} {Q : List α → α → List α → Prop} :
    (∃ past y later, x :: xs = past ++ y :: later ∧ Q past y later) ↔
      Q [] x xs ∨ ∃ past y later, xs = past ++ y :: later ∧ Q (x :: past) y later := by
  constructor
  · rintro ⟨past, y, later, heq, hq⟩
    cases past with
    | nil =>
      obtain ⟨rfl, rfl⟩ := List.cons.inj heq
      exact Or.inl hq
    | cons p past =>
      obtain ⟨rfl, hxs⟩ := List.cons.inj heq
      exact Or.inr ⟨past, y, later, hxs, hq⟩
  · rintro (hq | ⟨past, y, later, rfl, hq⟩)
    · exact ⟨[], x, xs, rfl, hq⟩
    · exact ⟨x :: past, y, later, rfl, hq⟩

theorem forall_split_cons {x : α} {xs : List α} {Q : List α → α → List α → Prop} :
    (∀ past y later, x :: xs = past ++ y :: later → Q past y later) ↔
      Q [] x xs ∧ ∀ past y later, xs = past ++ y :: later → Q (x :: past) y later := by
  have h := @exists_split_cons α x xs fun past y later => ¬ Q past y later
  rw [← not_iff_not]
  simpa only [not_forall, not_and_or, exists_prop] using h

/-- An element with `S` stands before all elements with `U` exactly when there is one, and no element
with `U` has elements with `S` behind it only. -/
theorem exists_before_iff {S U : α → Prop} (hSU : ∀ x, U x → ¬ S x) {xs : List α} :
    (∃ past x later, xs = past ++ x :: later ∧ S x ∧ ∀ p ∈ past, ¬ U p) ↔
      (∃ x ∈ xs, S x) ∧ ∀ past u later, xs = past ++ u :: later → U u →
        (∃ x ∈ later, S x) → ∃ x ∈ past, S x := by
  induction xs with
  | nil => simp
  | cons x xs ih =>
    rw [exists_split_cons, forall_split_cons]
    by_cases hx : S x
    · have hno : ¬ U x := fun hu => hSU x hu hx
      simp [hx, hno]
    · by_cases hu : U x
      · -- `x` has `U` and stands before all elements with `S`.
        constructor
        · rintro (⟨hs, -⟩ | ⟨past, y, later, -, -, hpast⟩)
          · exact absurd hs hx
          · exact absurd hu (hpast x (by simp))
        · rintro ⟨hex, hfirst, -⟩
          obtain ⟨y, hy, -⟩ := hfirst hu (by simpa [hx] using hex)
          cases hy
      · simpa [hx, hu] using ih

end Scan
