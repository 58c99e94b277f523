import Mathlib.Data.List.Basic

/-!
# Machines that read a list and emit outputs

A loop `for i, x in enumerate(xs)` that updates a state and appends to a result list is a machine:
`step s i x` is the next state and the outputs of this input. The library gives the state and the
outputs of a run (`stateFrom`, `outputsFrom`) and the rules of proof about them:

* `stateFrom_append`, `outputsFrom_append`: a run over a concatenation.
* `stateFrom_invariant`: what every step keeps holds at the end of a run.
* `mem_outputsFrom`: an output is emitted by one step, in the state that the inputs before it
  reach. `run_invariant` and `mem_run` are the two rules for a run from position 0.
* `run_map`: a machine that makes the steps of another one on relabelled states, inputs and outputs
  has its relabelled run.
* `outputsFrom_split`, `outputsFrom_pairwise`: a machine with at most one output for each input.
* `outputsFrom_take`: a machine whose outputs carry the position at which they were emitted does
  not look ahead: the outputs of a prefix are the outputs with a smaller position.
-/

namespace Machine

variable {σ α β : Type}

/-- The state after the inputs `xs`, the first of which has position `i`. -/
def stateFrom (step : σ → Nat → α → σ × List β) : σ → Nat → List α → σ
  | s, _, [] => s
  | s, i, x :: xs => stateFrom step (step s i x).1 (i + 1) xs

/-- The outputs of the inputs `xs`, the first of which has position `i`. -/
def outputsFrom (step : σ → Nat → α → σ × List β) : σ → Nat → List α → List β
  | _, _, [] => []
  | s, i, x :: xs => (step s i x).2 ++ outputsFrom step (step s i x).1 (i + 1) xs

variable {step step' : σ → Nat → α → σ × List β}

@[simp] theorem stateFrom_nil (s : σ) (i : Nat) : stateFrom step s i [] = s := rfl

@[simp] theorem outputsFrom_nil (s : σ) (i : Nat) : outputsFrom step s i [] = [] := rfl

theorem stateFrom_cons (s : σ) (i : Nat) (x : α) (xs : List α) :
    stateFrom step s i (x :: xs) = stateFrom step (step s i x).1 (i + 1) xs := rfl

theorem outputsFrom_cons (s : σ) (i : Nat) (x : α) (xs : List α) :
    outputsFrom step s i (x :: xs) =
      (step s i x).2 ++ outputsFrom step (step s i x).1 (i + 1) xs := rfl

theorem stateFrom_append (s : σ) (i : Nat) (xs ys : List α) :
    stateFrom step s i (xs ++ ys) =
      stateFrom step (stateFrom step s i xs) (i + xs.length) ys := by
  induction xs generalizing s i with
  | nil => rfl
  | cons x xs ih =>
    rw [List.cons_append, stateFrom_cons, stateFrom_cons, ih, List.length_cons,
      Nat.add_assoc i 1, Nat.add_comm 1]

theorem outputsFrom_append (s : σ) (i : Nat) (xs ys : List α) :
    outputsFrom step s i (xs ++ ys) =
      outputsFrom step s i xs ++ outputsFrom step (stateFrom step s i xs) (i + xs.length) ys := by
  induction xs generalizing s i with
  | nil => rfl
  | cons x xs ih =>
    rw [List.cons_append, outputsFrom_cons, outputsFrom_cons, stateFrom_cons, ih,
      List.append_assoc, List.length_cons, Nat.add_assoc i 1, Nat.add_comm 1]

/-- One more input. -/
theorem stateFrom_take_succ {s : σ} {i j : Nat} {xs : List α} {x : α} (hx : xs[j]? = some x) :
    stateFrom step s i (xs.take (j + 1)) =
      (step (stateFrom step s i (xs.take j)) (i + j) x).1 := by
  obtain ⟨hj, -⟩ := List.getElem?_eq_some_iff.mp hx
  rw [List.take_add_one, hx, Option.toList_some, stateFrom_append, List.length_take,
    Nat.min_eq_left (Nat.le_of_lt hj)]
  rfl

/-- **Invariants.** What every step keeps, at its own position, holds after each prefix of the
run. -/
theorem stateFrom_invariant (step : σ → Nat → α → σ × List β) (I : Nat → σ → Prop) {s : σ} {i : Nat}
    {xs : List α} (h0 : I i s)
    (hstep : ∀ j x s, xs[j]? = some x → I (i + j) s → I (i + j + 1) (step s (i + j) x).1) :
    ∀ j ≤ xs.length, I (i + j) (stateFrom step s i (xs.take j)) := by
  intro j hj
  induction j with
  | zero => simpa using h0
  | succ j ih =>
    have hx := List.getElem?_eq_getElem (show j < xs.length by omega)
    rw [stateFrom_take_succ hx]
    exact hstep j _ _ hx (ih (by omega))

/-- Each output comes from one step, in the state that the inputs before it reach. -/
theorem mem_outputsFrom {s : σ} {i : Nat} {xs : List α} {b : β} :
    b ∈ outputsFrom step s i xs ↔
      ∃ j x, xs[j]? = some x ∧ b ∈ (step (stateFrom step s i (xs.take j)) (i + j) x).2 := by
  induction xs generalizing s i with
  | nil => simp
  | cons y ys ih =>
    rw [outputsFrom_cons, List.mem_append, ih]
    constructor
    · rintro (h | ⟨j, x, hx, h⟩)
      · exact ⟨0, y, rfl, h⟩
      · refine ⟨j + 1, x, by simpa using hx, ?_⟩
        rw [List.take_succ_cons, stateFrom_cons, ← Nat.add_assoc, Nat.add_right_comm]
        exact h
    · rintro ⟨j, x, hx, h⟩
      cases j with
      | zero =>
        obtain rfl : y = x := by simpa using hx
        exact Or.inl h
      | succ j =>
        rw [List.take_succ_cons, stateFrom_cons, ← Nat.add_assoc, Nat.add_right_comm] at h
        exact Or.inr ⟨j, x, by simpa using hx, h⟩

/-! A run that starts at position 0, as an `enumerate` does. -/

/-- What every step keeps holds before each input of the run. -/
theorem run_invariant (step : σ → Nat → α → σ × List β) (I : Nat → σ → Prop) {s : σ} {xs : List α}
    (h0 : I 0 s) (hstep : ∀ j x s, xs[j]? = some x → I j s → I (j + 1) (step s j x).1) :
    ∀ j ≤ xs.length, I j (stateFrom step s 0 (xs.take j)) := by
  intro j hj
  have h := stateFrom_invariant step I h0 (fun j x s hx hs => by
    rw [Nat.zero_add] at hs ⊢
    exact hstep j x s hx hs) j hj
  rwa [Nat.zero_add] at h

theorem mem_run {s : σ} {xs : List α} {b : β} : b ∈ outputsFrom step s 0 xs ↔
    ∃ j x, xs[j]? = some x ∧ b ∈ (step (stateFrom step s 0 (xs.take j)) j x).2 := by
  simp only [mem_outputsFrom, Nat.zero_add]

/-- Two machines that make the same steps at the positions of the run. -/
theorem run_congr {s : σ} {i : Nat} {xs : List α}
    (h : ∀ j x s, xs[j]? = some x → step s (i + j) x = step' s (i + j) x) :
    stateFrom step s i xs = stateFrom step' s i xs ∧
      outputsFrom step s i xs = outputsFrom step' s i xs := by
  induction xs generalizing s i with
  | nil => exact ⟨rfl, rfl⟩
  | cons x xs ih =>
    have h0 : step s i x = step' s i x := h 0 x s rfl
    have ih' := @ih (step s i x).1 (i + 1) fun j y t hy => by
      have := h (j + 1) y t (by simpa using hy)
      rwa [← Nat.add_assoc, Nat.add_right_comm] at this
    rw [stateFrom_cons, stateFrom_cons, outputsFrom_cons, outputsFrom_cons, ← h0]
    exact ⟨ih'.1, by rw [ih'.2]⟩

/-- **Simulation.** Relabel the states by `f`, the inputs by `g` and the outputs by `h`. If the
machine `step'` makes the relabelled step of `step` in every state that the invariant `I` allows, it
has the relabelled run. -/
theorem run_map {σ' α' β' : Type} {step' : σ' → Nat → α' → σ' × List β'} {f : σ → σ'} {g : α → α'}
    {h : β → β'} {I : Nat → σ → Prop} {s : σ} {i : Nat} {xs : List α} (h0 : I i s)
    (hinv : ∀ j x s, xs[j]? = some x → I (i + j) s → I (i + j + 1) (step s (i + j) x).1)
    (hstep : ∀ j x s, xs[j]? = some x → I (i + j) s →
      step' (f s) (i + j) (g x) = (f (step s (i + j) x).1, (step s (i + j) x).2.map h)) :
    stateFrom step' (f s) i (xs.map g) = f (stateFrom step s i xs) ∧
      outputsFrom step' (f s) i (xs.map g) = (outputsFrom step s i xs).map h := by
  induction xs generalizing s i with
  | nil => exact ⟨rfl, rfl⟩
  | cons x xs ih =>
    have hx : step' (f s) i (g x) = (f (step s i x).1, (step s i x).2.map h) := hstep 0 x s rfl h0
    have hpos : ∀ j, i + 1 + j = i + (j + 1) := fun j => by omega
    have ih' := @ih (step s i x).1 (i + 1) (hinv 0 x s rfl h0)
      (fun j y t hy ht => by rw [hpos] at ht ⊢; exact hinv (j + 1) y t hy ht)
      (fun j y t hy ht => by rw [hpos] at ht ⊢; exact hstep (j + 1) y t hy ht)
    rw [List.map_cons, stateFrom_cons, outputsFrom_cons, stateFrom_cons, outputsFrom_cons, hx]
    exact ⟨ih'.1, by rw [ih'.2, List.map_append]⟩

/-- A part of the state that every step sets to its last output, or keeps without one, is the last
output of the run. -/
theorem stateFrom_last {γ : Type} (step : σ → Nat → α → σ × List β) (view : σ → Option γ) (f : β → γ)
    (hstep : ∀ s i x, view (step s i x).1 = ((step s i x).2.getLast?.map f).or (view s))
    (s : σ) (i : Nat) (xs : List α) :
    view (stateFrom step s i xs) = ((outputsFrom step s i xs).getLast?.map f).or (view s) := by
  induction xs generalizing s i with
  | nil => simp
  | cons x xs ih =>
    rw [stateFrom_cons, outputsFrom_cons, ih, hstep, List.getLast?_append, Option.map_or,
      Option.or_assoc]

/-- **No look-ahead.** If each output carries the position of its step (`tag`), the outputs of the
first `n` inputs are the outputs of the whole run with a position below `n`. -/
theorem outputsFrom_take {tag : β → Nat} {s : σ} {xs : List α} (n : Nat)
    (htag : ∀ s i x, ∀ b ∈ (step s i x).2, tag b = i) :
    outputsFrom step s 0 (xs.take n) = (outputsFrom step s 0 xs).filter (fun b => tag b < n) := by
  have hlt : ∀ b ∈ outputsFrom step s 0 (xs.take n), tag b < n := by
    intro b hb
    obtain ⟨j, x, hx, hb⟩ := mem_outputsFrom.mp hb
    obtain ⟨hj, -⟩ := List.getElem?_eq_some_iff.mp hx
    rw [htag _ _ _ b hb, Nat.zero_add]
    exact Nat.lt_of_lt_of_le hj (List.length_take_le _ _)
  rcases Nat.le_total xs.length n with hn | hn
  · rw [List.take_of_length_le hn] at hlt ⊢
    exact (List.filter_eq_self.mpr fun b hb => by simpa using hlt b hb).symm
  conv => rhs; rw [← List.take_append_drop n xs, outputsFrom_append]
  rw [List.filter_append, List.filter_eq_self.mpr fun b hb => by simpa using hlt b hb,
    List.filter_eq_nil_iff.mpr, List.append_nil]
  intro b hb
  obtain ⟨j, x, -, hb⟩ := mem_outputsFrom.mp hb
  rw [htag _ _ _ b hb, List.length_take, Nat.min_eq_left hn]
  simp

/-- A machine that makes the same steps before position `n` has the same outputs there. -/
theorem outputsFrom_take_congr {tag : β → Nat} {s : σ} {xs : List α} (n : Nat)
    (htag : ∀ s i x, ∀ b ∈ (step s i x).2, tag b = i)
    (hstep : ∀ j < n, ∀ s x, step' s j x = step s j x) :
    outputsFrom step' s 0 (xs.take n) = (outputsFrom step s 0 xs).filter (fun b => tag b < n) := by
  rw [← outputsFrom_take n htag]
  refine (run_congr fun j x t hj => ?_).2
  obtain ⟨hj, -⟩ := List.getElem?_eq_some_iff.mp hj
  rw [List.length_take] at hj
  rw [Nat.zero_add]
  exact hstep j (by omega) t x

/-! ## At most one output for each input -/

section One

variable {s : σ} {i : Nat} {xs : List α} (hone : ∀ s i x, (step s i x).2.length ≤ 1)

include hone

/-- The inputs before an output are those that gave the outputs before it. -/
theorem outputsFrom_split {past later : List β} {b : β}
    (h : outputsFrom step s i xs = past ++ b :: later) :
    ∃ j x, xs[j]? = some x ∧ past = outputsFrom step s i (xs.take j) ∧
      b ∈ (step (stateFrom step s i (xs.take j)) (i + j) x).2 := by
  induction xs generalizing s i past with
  | nil => simp at h
  | cons x xs ih =>
    have hx := hone s i x
    rw [outputsFrom_cons] at h
    have hlater : ∀ p, outputsFrom step (step s i x).1 (i + 1) xs = p ++ b :: later →
        past = (step s i x).2 ++ p → ∃ j y, (x :: xs)[j]? = some y ∧
          past = outputsFrom step s i ((x :: xs).take j) ∧
          b ∈ (step (stateFrom step s i ((x :: xs).take j)) (i + j) y).2 := by
      intro p hp hpast
      obtain ⟨j, y, hy, rfl, hb⟩ := ih hp
      refine ⟨j + 1, y, by simpa using hy, by rw [hpast, List.take_succ_cons, outputsFrom_cons], ?_⟩
      rwa [List.take_succ_cons, stateFrom_cons, ← Nat.add_assoc, Nat.add_right_comm]
    match hout : (step s i x).2 with
    | [] =>
      rw [hout, List.nil_append] at h
      exact hlater past h (by rw [hout, List.nil_append])
    | [c] =>
      rw [hout, List.singleton_append] at h
      cases past with
      | nil =>
        obtain rfl := (List.cons.inj h).1
        exact ⟨0, x, rfl, rfl, by simp [hout]⟩
      | cons c' p =>
        obtain ⟨rfl, hp⟩ := List.cons.inj h
        exact hlater p hp (by rw [hout, List.singleton_append])
    | c :: c' :: cs => simp [hout] at hx

/-- Outputs that carry the position of their step are in the order of their positions. -/
theorem outputsFrom_pairwise {tag : β → Nat}
    (htag : ∀ s i x, ∀ b ∈ (step s i x).2, tag b = i) :
    (outputsFrom step s i xs).Pairwise fun b c => tag b < tag c := by
  induction xs generalizing s i with
  | nil => exact List.Pairwise.nil
  | cons x xs ih =>
    rw [outputsFrom_cons, List.pairwise_append]
    refine ⟨?_, ih, fun b hb c hc => ?_⟩
    · have hx := hone s i x
      match hout : (step s i x).2 with
      | [] => exact List.Pairwise.nil
      | [c] => exact List.pairwise_singleton _ _
      | c :: c' :: cs => simp [hout] at hx
    · obtain ⟨j, y, -, hc⟩ := mem_outputsFrom.mp hc
      rw [htag _ _ _ b hb, htag _ _ _ c hc]
      omega

end One

end Machine
