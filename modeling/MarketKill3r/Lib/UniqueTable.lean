import Mathlib.Data.List.Nodup
import Mathlib.Data.List.Count

/-!
# Tables with a unique key

A table is a list of rows with a unique constraint on a key of the row. A transaction collects new
rows and commits them at once; the constraint is checked at the commit and rejects the transaction
as a whole.

* `commit_eq_some`: what a commit does; `commit_isSome`: when it succeeds.
* `find?_eq_some_iff`: a search by the key.
* `newRows`: the rows of a batch whose key is absent from the table; `newRows_append`: what is left
  of them after another transaction.
* `update`: an update of the rows that keeps the keys; `commit_update`: it commutes with a commit.
* `mem_newRows_iff_first`: with distinct keys, they are the first occurrences in the batch.
* `mem_key_map`, `exists_key_map`, `exists_key_map_and`, `countP_key_map`: what is left after the
  row of a key was updated.
* `restrict`: the rows with a property; `restrict_commit`, `restrict_update`: how they change.
-/

/-- Rows with pairwise different keys. -/
structure UniqueTable {α κ : Type} (key : α → κ) where
  rows : List α
  nodup : (rows.map key).Nodup

namespace UniqueTable

variable {α κ : Type} {key : α → κ}

theorem ext_rows {t t' : UniqueTable key} (h : t.rows = t'.rows) : t = t' := by
  cases t
  cases t'
  cases h
  rfl

/-- The table without rows. -/
def empty : UniqueTable key := ⟨[], List.nodup_nil⟩

/-- There is a row with this key. -/
def Has (t : UniqueTable key) (k : κ) : Prop := k ∈ t.rows.map key

instance [DecidableEq κ] (t : UniqueTable key) (k : κ) : Decidable (t.Has k) :=
  inferInstanceAs (Decidable (k ∈ t.rows.map key))

/-- A longer table has what the shorter one has. -/
theorem Has.append {t t' : UniqueTable key} {added : List α} {k : κ} (h : t.Has k)
    (hrows : t'.rows = t.rows ++ added) : t'.Has k := by
  unfold Has at *
  rw [hrows, List.map_append]
  exact List.mem_append_left _ h

/-- A search by the key finds the row of the key. -/
theorem find?_eq_some_iff [DecidableEq κ] (t : UniqueTable key) {k : κ} {x : α} :
    t.rows.find? (fun y => key y = k) = some x ↔ x ∈ t.rows ∧ key x = k := by
  constructor
  · intro h
    exact ⟨List.mem_of_find?_eq_some h, by simpa using List.find?_some h⟩
  · rintro ⟨hx, rfl⟩
    cases hfind : t.rows.find? fun y => key y = key x with
    | none => exact absurd (List.find?_eq_none.mp hfind x hx) (by simp)
    | some y =>
      have hy : key y = key x := by simpa using List.find?_some hfind
      rw [List.inj_on_of_nodup_map t.nodup (List.mem_of_find?_eq_some hfind) hx hy]

/-- The key of a new row is new. -/
theorem not_has_of_append {t t' : UniqueTable key} {x : α} (h : t'.rows = t.rows ++ [x]) :
    ¬ t.Has (key x) := by
  have hnodup := t'.nodup
  rw [h, List.map_append, List.nodup_append] at hnodup
  exact fun hx => hnodup.2.2 _ hx _ List.mem_cons_self rfl

/-- The table after an update of its rows that keeps their keys. -/
def update (t : UniqueTable key) (f : α → α) (hf : ∀ x, key (f x) = key x) : UniqueTable key where
  rows := t.rows.map f
  nodup := by
    rw [List.map_map, show key ∘ f = key from funext hf]
    exact t.nodup

/-- An update keeps the keys. -/
theorem update_has (t : UniqueTable key) {f : α → α} (hf : ∀ x, key (f x) = key x) {k : κ} :
    (t.update f hf).Has k ↔ t.Has k := by
  unfold Has update
  rw [List.map_map, show key ∘ f = key from funext hf]

section Commit

variable [DecidableEq κ]

/-- The table with the rows of a transaction, unless two rows would share a key. -/
def commit (t : UniqueTable key) (added : List α) : Option (UniqueTable key) :=
  if h : ((t.rows ++ added).map key).Nodup then some ⟨t.rows ++ added, h⟩ else none

theorem commit_eq_some {t t' : UniqueTable key} {added : List α} :
    t.commit added = some t' ↔ t'.rows = t.rows ++ added := by
  unfold commit
  split
  case isTrue h =>
    constructor
    · intro he
      rw [← Option.some.inj he]
    · intro he
      exact congrArg some (ext_rows he.symm)
  case isFalse h =>
    constructor
    · intro he
      cases he
    · intro he
      refine absurd ?_ h
      rw [← he]
      exact t'.nodup

/-- A transaction of rows with absent keys succeeds exactly when these keys are distinct. -/
theorem commit_isSome {t : UniqueTable key} {added : List α} (habs : ∀ x ∈ added, ¬ t.Has (key x)) :
    (t.commit added).isSome = true ↔ (added.map key).Nodup := by
  unfold commit
  rw [Option.isSome_dite, List.map_append, List.nodup_append]
  constructor
  · exact fun h => h.2.1
  · refine fun h => ⟨t.nodup, h, ?_⟩
    rintro a ha b hb rfl
    obtain ⟨x, hx, rfl⟩ := List.mem_map.mp hb
    exact habs x hx ha

/-- A commit after an update is the update of a commit. -/
theorem commit_update (t : UniqueTable key) (f : α → α) (hf : ∀ x, key (f x) = key x)
    (added : List α) :
    (t.update f hf).commit (added.map f) = (t.commit added).map (·.update f hf) := by
  have hkeys : ((t.update f hf).rows ++ added.map f).map key = (t.rows ++ added).map key := by
    simp only [update, ← List.map_append, List.map_map]
    rw [show key ∘ f = key from funext hf]
  unfold commit
  by_cases h : ((t.rows ++ added).map key).Nodup
  · rw [dif_pos h, dif_pos (hkeys ▸ h), Option.map_some]
    exact congrArg some (ext_rows List.map_append.symm)
  · rw [dif_neg h, dif_neg (hkeys ▸ h), Option.map_none]

/-- The rows of a batch whose key is not among those of `rows`. -/
def newRows (key : α → κ) (rows batch : List α) : List α :=
  batch.filter fun x => key x ∉ rows.map key

theorem mem_newRows {rows batch : List α} {x : α} :
    x ∈ newRows key rows batch ↔ x ∈ batch ∧ key x ∉ rows.map key := by
  simp only [newRows, List.mem_filter, decide_eq_true_eq]

@[simp] theorem newRows_nil (rows : List α) : newRows key rows [] = [] := rfl

variable (key) in
theorem newRows_length_le (rows batch : List α) : (newRows key rows batch).length ≤ batch.length :=
  List.length_filter_le _ _

theorem newRows_cons (rows batch : List α) (x : α) :
    newRows key rows (x :: batch) =
      if key x ∈ rows.map key then newRows key rows batch else x :: newRows key rows batch := by
  unfold newRows
  by_cases hx : key x ∈ rows.map key
  · rw [if_pos hx, List.filter_cons_of_neg (by rwa [decide_eq_true_eq, not_not])]
  · rw [if_neg hx, List.filter_cons_of_pos (by rwa [decide_eq_true_eq])]

/-- Rows with other keys do not change what is new in a batch. -/
theorem newRows_append {rows other batch : List α}
    (h : ∀ x ∈ newRows key rows batch, key x ∉ other.map key) :
    newRows key (rows ++ other) batch = newRows key rows batch := by
  refine List.filter_congr fun x hx => ?_
  rw [decide_eq_decide, List.map_append, List.mem_append, not_or]
  exact ⟨fun hn => hn.1, fun hn => ⟨hn, h x (mem_newRows.mpr ⟨hx, hn⟩)⟩⟩

/-- After its new rows were added, nothing of a batch is new. -/
theorem newRows_eq_nil {rows batch : List α} :
    newRows key (rows ++ newRows key rows batch) batch = [] := by
  refine List.filter_eq_nil_iff.mpr fun x hx => ?_
  rw [decide_eq_true_eq, not_not, List.map_append, List.mem_append]
  by_cases hk : key x ∈ rows.map key
  · exact Or.inl hk
  · exact Or.inr (List.mem_map_of_mem (mem_newRows.mpr ⟨hx, hk⟩))

/-- If the absent keys of a batch are distinct, a row is new exactly when it is the first of the
batch with its key. -/
theorem mem_newRows_iff_first {rows batch : List α}
    (h : ((newRows key rows batch).map key).Nodup) {x : α} :
    x ∈ newRows key rows batch ↔
      key x ∉ rows.map key ∧ batch.find? (fun y => key y = key x) = some x := by
  rw [mem_newRows]
  constructor
  · rintro ⟨hx, hk⟩
    refine ⟨hk, ?_⟩
    cases hf : batch.find? (fun y => key y = key x) with
    | none => exact absurd (by simp) (List.find?_eq_none.mp hf x hx)
    | some y =>
      have hy : key y = key x := by simpa using List.find?_some hf
      have hmem : y ∈ newRows key rows batch :=
        mem_newRows.mpr ⟨List.mem_of_find?_eq_some hf, by rw [hy]; exact hk⟩
      rw [List.inj_on_of_nodup_map h hmem (mem_newRows.mpr ⟨hx, hk⟩) hy]
  · exact fun ⟨hk, hf⟩ => ⟨List.mem_of_find?_eq_some hf, hk⟩

/-! ## Updating the row of a key -/

variable {k : κ} {f : α → α}

variable (key) in
/-- An update of the row with the key `k` that keeps the keys. -/
theorem exists_key_map (hf : ∀ x, key (f x) = key x) (rows : List α) (k' : κ) :
    (∃ y ∈ rows.map fun x => if key x = k then f x else x, key y = k') ↔
      ∃ x ∈ rows, key x = k' := by
  have hkey (x : α) : key (if key x = k then f x else x) = key x := by
    split
    · exact hf x
    · rfl
  constructor
  · rintro ⟨y, hy, rfl⟩
    obtain ⟨x, hx, rfl⟩ := List.mem_map.mp hy
    exact ⟨x, hx, (hkey x).symm⟩
  · rintro ⟨x, hx, rfl⟩
    exact ⟨_, List.mem_map_of_mem hx, hkey x⟩

variable (key) in
/-- If the update takes a property away, the property is left to the rows with other keys. -/
theorem exists_key_map_and {p : α → Prop} (hp : ∀ x, ¬ p (f x)) (rows : List α) (k' : κ) :
    (∃ y ∈ rows.map fun x => if key x = k then f x else x, key y = k' ∧ p y) ↔
      (∃ x ∈ rows, key x = k' ∧ p x) ∧ k' ≠ k := by
  constructor
  · rintro ⟨y, hy, rfl, hpy⟩
    obtain ⟨x, hx, rfl⟩ := List.mem_map.mp hy
    by_cases hk : key x = k
    · rw [if_pos hk] at hpy
      exact absurd hpy (hp x)
    · rw [if_neg hk] at hpy ⊢
      exact ⟨⟨x, hx, rfl, hpy⟩, hk⟩
  · rintro ⟨⟨x, hx, rfl, hpx⟩, hk⟩
    exact ⟨x, List.mem_map.mpr ⟨x, hx, if_neg hk⟩, rfl, hpx⟩

/-- A row after the update: one with another key, or the updated row. -/
theorem mem_key_map {rows : List α} (hn : (rows.map key).Nodup) {x y : α} (hx : x ∈ rows)
    (hy : y ∈ rows.map fun z => if key z = key x then f z else z) :
    (y ∈ rows ∧ key y ≠ key x) ∨ y = f x := by
  obtain ⟨z, hz, rfl⟩ := List.mem_map.mp hy
  by_cases hk : key z = key x
  · obtain rfl := List.inj_on_of_nodup_map hn hz hx hk
    exact Or.inr (if_pos rfl)
  · rw [if_neg hk]
    exact Or.inl ⟨hz, hk⟩

/-- If the update takes a property away, the property is lost by the row of the key at most. -/
theorem countP_key_map {p : α → Bool} (hp : ∀ x, p (f x) = false) {rows : List α}
    (hn : (rows.map key).Nodup) {x : α} (hx : x ∈ rows) :
    rows.countP p =
      (rows.map fun y => if key y = key x then f y else y).countP p + if p x then 1 else 0 := by
  induction rows with
  | nil => cases hx
  | cons y ys ih =>
    rw [List.map_cons, List.nodup_cons] at hn
    rw [List.map_cons, List.countP_cons, List.countP_cons]
    rcases List.mem_cons.mp hx with rfl | hmem
    · have hrest : (ys.map fun y => if key y = key x then f y else y) = ys := by
        refine (List.map_congr_left fun y hy => ?_).trans (List.map_id ys)
        exact if_neg fun he => hn.1 (List.mem_map.mpr ⟨y, hy, he⟩)
      rw [hrest, if_pos rfl, hp x]
      simp
    · have hne : key y ≠ key x := fun he => hn.1 (he ▸ List.mem_map_of_mem hmem)
      rw [if_neg hne, ih hn.2 hmem]
      omega

end Commit

/-! ## The rows with a property -/

/-- The rows with a property. -/
def restrict (p : α → Bool) (t : UniqueTable key) : UniqueTable key where
  rows := t.rows.filter p
  nodup := t.nodup.sublist (List.filter_sublist.map key)

section Restrict

variable {p : α → Bool}

theorem Has.of_restrict {t : UniqueTable key} {k : κ} (h : (t.restrict p).Has k) : t.Has k := by
  obtain ⟨x, hx, rfl⟩ := List.mem_map.mp h
  exact List.mem_map_of_mem (List.mem_filter.mp hx).1

/-- A key that only rows with the property can have is in both tables or in neither. -/
theorem restrict_has {t : UniqueTable key} {k : κ}
    (h : ∀ x ∈ t.rows, key x = k → p x = true) : (t.restrict p).Has k ↔ t.Has k := by
  refine ⟨Has.of_restrict, fun hk => ?_⟩
  obtain ⟨x, hx, hk⟩ := List.mem_map.mp hk
  exact List.mem_map.mpr ⟨x, List.mem_filter.mpr ⟨hx, h x hx hk⟩, hk⟩

/-- An update that keeps the property is one of the rows with it. -/
theorem restrict_update (t : UniqueTable key) {f : α → α}
    (hf : ∀ x, key (f x) = key x) (hp : ∀ x, p (f x) = p x) :
    (t.update f hf).restrict p = (t.restrict p).update f hf := by
  refine ext_rows ?_
  simp only [restrict, update, List.filter_map]
  exact congrArg (List.map f) (List.filter_congr fun x _ => hp x)

/-- An update of other rows. -/
theorem restrict_update_other {t : UniqueTable key} {f : α → α}
    (hf : ∀ x, key (f x) = key x) (hp : ∀ x, p (f x) = p x)
    (hother : ∀ x ∈ t.rows, p x = true → f x = x) :
    (t.update f hf).restrict p = t.restrict p := by
  rw [restrict_update t hf hp]
  refine ext_rows ?_
  simp only [restrict, update]
  refine (List.map_congr_left fun x hx => ?_).trans (List.map_id _)
  obtain ⟨hx, hpx⟩ := List.mem_filter.mp hx
  exact hother x hx hpx

/-- One more row. -/
theorem restrict_has_append {t t' : UniqueTable key} {x : α} (h : t'.rows = t.rows ++ [x]) {k : κ} :
    (t'.restrict p).Has k ↔ (t.restrict p).Has k ∨ (p x = true ∧ key x = k) := by
  simp only [Has, restrict, h, List.filter_append, List.map_append, List.mem_append]
  refine or_congr_right ?_
  rw [List.filter_singleton]
  cases p x with
  | true => simp [eq_comm]
  | false => simp

/-- More rows without the property. -/
theorem restrict_append_other {t t' : UniqueTable key} {added : List α}
    (hp : ∀ x ∈ added, p x = false) (h : t'.rows = t.rows ++ added) :
    t'.restrict p = t.restrict p := by
  refine ext_rows ?_
  have hnone : added.filter p = [] := List.filter_eq_nil_iff.mpr fun x hx => by simp [hp x hx]
  simp only [restrict, h, List.filter_append, hnone, List.append_nil]

/-- **A transaction of rows with the property**, whose keys no other row has. -/
theorem restrict_commit [DecidableEq κ] {t : UniqueTable key} {added : List α}
    (hp : ∀ x ∈ added, p x = true) (hkeys : ∀ x ∈ added, ∀ y ∈ t.rows, key y = key x → p y = true) :
    (t.restrict p).commit added = (t.commit added).map (restrict p) := by
  have hnodup : (((t.restrict p).rows ++ added).map key).Nodup ↔
      ((t.rows ++ added).map key).Nodup := by
    simp only [List.map_append, List.nodup_append, t.nodup, (t.restrict p).nodup, true_and]
    refine and_congr_right fun _ => ?_
    constructor
    · rintro h a ha b hb rfl
      obtain ⟨x, hx, rfl⟩ := List.mem_map.mp hb
      exact h _ ((restrict_has (hkeys x hx)).mpr ha) _ hb rfl
    · rintro h a ha b hb rfl
      obtain ⟨x, hx, rfl⟩ := List.mem_map.mp hb
      exact h _ ((restrict_has (hkeys x hx)).mp ha) _ hb rfl
  unfold commit
  by_cases h : ((t.rows ++ added).map key).Nodup
  · rw [dif_pos h, dif_pos (hnodup.mpr h), Option.map_some]
    refine congrArg some (ext_rows ?_)
    simp only [restrict, List.filter_append, List.filter_eq_self.mpr hp]
  · rw [dif_neg h, dif_neg (mt hnodup.mp h), Option.map_none]

end Restrict

end UniqueTable
