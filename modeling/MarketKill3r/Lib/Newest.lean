import Mathlib.Data.List.Sort

/-!
# The newest rows of a selection

`newest key n rows` is what a query with `ORDER BY key DESC LIMIT n` returns, in reverse: the `n`
rows with the greatest keys, the oldest of them first. `IsNewest` says what it is for, without the
sort; `newest_isNewest`: with distinct keys it is that.

A queue that is read by such queries, each of which takes its rows away, is read page by page.

* `eq_of_perm`, `sort_filter`: there is one descending order, and a selection keeps it.
* `insertionSort_filter`, `take_filter`: a sort that breaks no ties keeps a selection, and so does its
  first page.
* `pages_flatten`, `pages_end`: the pages are the list, and then there are none.
-/

namespace Newest

variable {α κ : Type} [LinearOrder κ] (key : α → κ)

/-- The rows with the `n` greatest keys, in ascending order. -/
def newest (n : Nat) (rows : List α) : List α :=
  ((rows.insertionSort fun a b => key b ≤ key a).take n).reverse

/-- `found` are the `n` newest of `rows` (all of them if there are fewer), strictly ascending. -/
structure IsNewest (n : Nat) (rows found : List α) : Prop where
  ascending : found.Pairwise fun a b => key a < key b
  selected : ∀ x ∈ found, x ∈ rows
  length : found.length = min n rows.length
  others : ∀ x ∈ rows, x ∉ found → ∀ y ∈ found, key x < key y

variable {key} {rows : List α}

/-- A sort by distinct keys is strict. -/
theorem pairwise_sort (h : (rows.map key).Nodup) :
    (rows.insertionSort fun a b => key b ≤ key a).Pairwise fun a b => key b < key a := by
  have : Std.Total fun a b : α => key b ≤ key a := ⟨fun a b => le_total (key b) (key a)⟩
  have : IsTrans α fun a b => key b ≤ key a := ⟨fun a b c h1 h2 => le_trans h2 h1⟩
  have hle := List.pairwise_insertionSort (fun a b => key b ≤ key a) rows
  have hne : (rows.insertionSort fun a b => key b ≤ key a).Pairwise fun a b => key a ≠ key b := by
    rw [← List.pairwise_map (f := key) (R := (· ≠ ·))]
    exact ((List.perm_insertionSort _ rows).map key).nodup_iff.mpr h
  exact (hle.and hne).imp fun hab => lt_of_le_of_ne hab.1 (Ne.symm hab.2)

theorem newest_isNewest (n : Nat) (h : (rows.map key).Nodup) :
    IsNewest key n rows (newest key n rows) where
  ascending := List.pairwise_reverse.mpr ((pairwise_sort h).sublist (List.take_sublist n _))
  selected x hx := by
    rw [newest, List.mem_reverse] at hx
    exact (List.mem_insertionSort _).mp (List.mem_of_mem_take hx)
  length := by rw [newest, List.length_reverse, List.length_take, List.length_insertionSort]
  others x hx hn y hy := by
    rw [newest, List.mem_reverse] at hn hy
    have hsort := pairwise_sort h
    rw [← List.take_append_drop n (rows.insertionSort _), List.pairwise_append] at hsort
    rw [← List.mem_insertionSort fun a b => key b ≤ key a,
      ← List.take_append_drop n (rows.insertionSort _), List.mem_append] at hx
    exact hsort.2.2 y hy x (hx.resolve_left hn)

/-- Two lists of the same rows in descending order are the same. -/
theorem eq_of_perm {xs ys : List α} (hperm : xs.Perm ys) (hx : xs.Pairwise fun a b => key b < key a)
    (hy : ys.Pairwise fun a b => key b < key a) : xs = ys :=
  hperm.eq_of_pairwise (fun _ _ _ _ h1 h2 => absurd h1 (lt_asymm h2)) hx hy

/-- A selection from sorted rows is sorted. -/
theorem sort_filter (h : (rows.map key).Nodup) (P : α → Bool) :
    ((rows.filter P).insertionSort fun a b => key b ≤ key a) =
      (rows.insertionSort fun a b => key b ≤ key a).filter P := by
  refine @eq_of_perm _ _ _ key _ _ ?_ (pairwise_sort ?_) ((pairwise_sort h).filter P)
  · exact (List.perm_insertionSort _ _).trans ((List.perm_insertionSort _ rows).filter P).symm
  · exact h.sublist (List.filter_sublist.map key)

omit [LinearOrder κ] in
/-- Without the rows of the first page the rest remains. -/
theorem filter_not_taken {ι : Type} [DecidableEq ι] {id : α → ι} (h : (rows.map id).Nodup) (n : Nat) :
    (rows.filter fun x => id x ∉ (rows.take n).map id) = rows.drop n := by
  have hsplit := h
  rw [← List.take_append_drop n rows, List.map_append, List.nodup_append] at hsplit
  have hpage : (rows.take n).filter (fun x => id x ∉ (rows.take n).map id) = [] := by
    rw [List.filter_eq_nil_iff]
    intro x hx
    simp only [decide_eq_true_eq, not_not]
    exact List.mem_map_of_mem hx
  have hrest : (rows.drop n).filter (fun x => id x ∉ (rows.take n).map id) = rows.drop n := by
    rw [List.filter_eq_self]
    intro x hx
    simp only [decide_eq_true_eq]
    exact fun hmem => hsplit.2.2 _ hmem _ (List.mem_map_of_mem hx) rfl
  have happend := @List.filter_append _ (fun x => decide (id x ∉ (rows.take n).map id)) (rows.take n)
    (rows.drop n)
  rwa [List.take_append_drop, hpage, hrest, List.nil_append] at happend

/-! ## Selections -/

omit [LinearOrder κ] in
/-- Rows that are left out do not change where a row is inserted. -/
theorem orderedInsert_filter {r : α → α → Prop} [DecidableRel r] [IsTrans α r]
    (P : α → Bool) (a : α) {rows : List α} (h : rows.Pairwise r) : (rows.orderedInsert r a).filter P =
      if P a then (rows.filter P).orderedInsert r a else rows.filter P := by
  induction rows with
  | nil => by_cases ha : P a = true <;> simp [ha]
  | cons b rows ih =>
    obtain ⟨hb, hrows⟩ := List.pairwise_cons.mp h
    rw [List.orderedInsert_cons]
    by_cases hab : r a b
    · rw [if_pos hab, List.filter_cons]
      by_cases ha : P a = true
      · rw [if_pos ha, if_pos ha]
        -- What is left of the rows stands behind `a` as well.
        cases hleft : (b :: rows).filter P with
        | nil => rfl
        | cons c left =>
          have hc : c ∈ b :: rows := (List.mem_filter.mp (hleft ▸ List.mem_cons_self)).1
          have hac : r a c := by
            obtain rfl | hc := List.mem_cons.mp hc
            · exact hab
            · exact IsTrans.trans a b c hab (hb c hc)
          rw [List.orderedInsert_cons, if_pos hac]
      · rw [if_neg ha, if_neg ha]
    · rw [if_neg hab, List.filter_cons, ih hrows]
      by_cases hPb : P b = true
      · by_cases ha : P a = true
        · simp only [ha, hPb, if_true, List.filter_cons, List.orderedInsert_cons, if_neg hab]
        · simp only [hPb, if_true, if_neg ha, List.filter_cons]
      · by_cases ha : P a = true
        · simp only [ha, if_true, if_neg hPb, List.filter_cons]
        · simp only [if_neg hPb, if_neg ha, List.filter_cons]

omit [LinearOrder κ] in
/-- **A stable sort keeps selections**, whether or not rows are tied. -/
theorem insertionSort_filter {r : α → α → Prop} [DecidableRel r] [IsTrans α r] [Std.Total r]
    (P : α → Bool) (rows : List α) :
    (rows.filter P).insertionSort r = (rows.insertionSort r).filter P := by
  induction rows with
  | nil => rfl
  | cons a rows ih =>
    rw [List.insertionSort_cons, orderedInsert_filter P a (List.pairwise_insertionSort r rows), ← ih,
      List.filter_cons]
    split <;> rfl

omit [LinearOrder κ] in
/-- A selection that keeps the first page. -/
theorem take_filter {P : α → Bool} {n : Nat} {rows : List α} (h : ∀ x ∈ rows.take n, P x = true) :
    (rows.filter P).take n = rows.take n := by
  induction rows generalizing n with
  | nil => rfl
  | cons a rows ih =>
    cases n with
    | zero => rfl
    | succ n =>
      rw [List.take_succ_cons] at h ⊢
      rw [List.filter_cons_of_pos (h a List.mem_cons_self), List.take_succ_cons,
        ih fun x hx => h x (List.mem_cons_of_mem _ hx)]

/-! ## Pages -/

/-- The first `m` pages of `n` rows each. -/
def pages (n m : Nat) (xs : List α) : List (List α) :=
  (List.range m).map fun i => (xs.drop (n * i)).take n

omit [LinearOrder κ] in
theorem pages_succ (n m : Nat) (xs : List α) :
    pages n (m + 1) xs = xs.take n :: pages n m (xs.drop n) := by
  simp only [pages, List.range_succ_eq_map, List.map_cons, Nat.mul_zero, List.drop_zero, List.map_map,
    List.drop_drop]
  refine congrArg _ (List.map_congr_left fun i _ => ?_)
  rw [Function.comp_apply, Nat.mul_succ, Nat.add_comm]

/-- The pages are the beginning of the list. -/
theorem pages_flatten (n m : Nat) (xs : List α) : (pages n m xs).flatten = xs.take (n * m) := by
  induction m generalizing xs with
  | zero => rfl
  | succ m ih => rw [pages_succ, List.flatten_cons, ih, ← List.take_add, Nat.mul_succ, Nat.add_comm]

/-- The pages behind the end are empty. -/
theorem pages_end {n c m : Nat} {xs : List α} (h : xs.length ≤ n * c) :
    ∀ page ∈ (pages n m xs).drop c, page = [] := by
  intro page hpage
  rw [pages, ← List.map_drop, List.mem_map] at hpage
  obtain ⟨i, hi, rfl⟩ := hpage
  have hci : c ≤ i := by
    obtain ⟨j, hj⟩ := List.getElem?_of_mem hi
    rw [List.getElem?_drop] at hj
    have := (List.getElem?_eq_some_iff.mp hj).2
    rw [List.getElem_range] at this
    omega
  rw [List.drop_eq_nil_of_le (h.trans (Nat.mul_le_mul_left n hci)), List.take_nil]

/-- The first `c` of `m` pages. -/
theorem take_pages {n c m : Nat} (h : c ≤ m) (xs : List α) : (pages n m xs).take c = pages n c xs := by
  rw [pages, ← List.map_take, List.take_range, Nat.min_eq_left h]
  rfl

end Newest
