import Mathlib.Data.List.Nodup

/-!
# Tables of derived rows

A transaction that inserts a parent row inserts with it the child rows that are derived from it. If
this is the only way in which either table changes, the children are a view of the parents: at any
time they can be computed from them.

* `IsView.snoc`: one transaction keeps the view; `IsView.mem_iff`: where a child comes from.
* `IsView.children_of`: with distinct parents, the children that name a parent are those derived
  from it, in order; `IsView.has_parent`: no child is an orphan.
-/

variable {π χ κ : Type}

/-- The children are the rows derived from the parents, one parent after another. -/
def IsView (derive : π → List χ) (parents : List π) (children : List χ) : Prop :=
  children = parents.flatMap derive

namespace IsView

variable {derive : π → List χ} {parents : List π} {children : List χ}

theorem nil : IsView derive [] [] := rfl

/-- A transaction with one parent and its children. -/
theorem snoc (h : IsView derive parents children) (p : π) :
    IsView derive (parents ++ [p]) (children ++ derive p) := by
  unfold IsView at *
  rw [List.flatMap_append, List.flatMap_singleton, ← h]

theorem mem_iff (h : IsView derive parents children) {c : χ} :
    c ∈ children ↔ ∃ p ∈ parents, c ∈ derive p := by
  rw [h, List.mem_flatMap]

variable {key : π → κ} {parentOf : χ → κ}

/-- Every child has its parent. -/
theorem has_parent (h : IsView derive parents children)
    (hnames : ∀ p, ∀ c ∈ derive p, parentOf c = key p) {c : χ} (hc : c ∈ children) :
    ∃ p ∈ parents, key p = parentOf c := by
  obtain ⟨p, hp, hcp⟩ := h.mem_iff.mp hc
  exact ⟨p, hp, (hnames p c hcp).symm⟩

variable [DecidableEq κ]

/-- No child names a parent that is not there. -/
theorem children_of_absent (h : IsView derive parents children)
    (hnames : ∀ p, ∀ c ∈ derive p, parentOf c = key p) {k : κ} (hk : k ∉ parents.map key) :
    children.filter (fun c => parentOf c = k) = [] := by
  refine List.filter_eq_nil_iff.mpr fun c hc => ?_
  obtain ⟨p, hp, hpc⟩ := h.has_parent hnames hc
  rw [decide_eq_true_eq, ← hpc]
  exact fun he => hk (he ▸ List.mem_map_of_mem hp)

/-- **The children of a parent** are those derived from it. -/
theorem children_of (h : IsView derive parents children)
    (hnames : ∀ p, ∀ c ∈ derive p, parentOf c = key p) (hnodup : (parents.map key).Nodup) {p : π}
    (hp : p ∈ parents) : children.filter (fun c => parentOf c = key p) = derive p := by
  induction parents generalizing children with
  | nil => cases hp
  | cons q parents ih =>
    rw [List.map_cons, List.nodup_cons] at hnodup
    have hown : ∀ r : π, (derive r).filter (fun c => parentOf c = key r) = derive r := fun r =>
      List.filter_eq_self.mpr fun c hc => decide_eq_true (hnames r c hc)
    rw [h, List.flatMap_cons, List.filter_append]
    rcases List.mem_cons.mp hp with rfl | hp
    · rw [hown, children_of_absent rfl hnames hnodup.1, List.append_nil]
    · have hne : key q ≠ key p := fun he => hnodup.1 (he ▸ List.mem_map_of_mem hp)
      have hother : (derive q).filter (fun c => parentOf c = key p) = [] := by
        refine List.filter_eq_nil_iff.mpr fun c hc => ?_
        rw [decide_eq_true_eq, hnames q c hc]
        exact hne
      rw [hother, List.nil_append, ih rfl hnodup.2 hp]

end IsView
