import Mathlib.Data.Set.Lattice
import Mathlib.Logic.Function.Basic
import Mathlib.Logic.Relation
import Mathlib.Order.CompletePartialOrder

/-!
# Read, then claim

Several requests compete for resources. Each first reads a set of available resources, and a later
step of its own claims what it has read; nothing locks the resources in between. The second step
does not look at the resources again. It may also give up (`take` of the empty set), or use up what it
holds and win only a part of it. New resources may appear at any time.

* `Step.inv`, `reach_inv`: if no request reads what another one is holding, every resource is
  claimed by at most one request (`Inv.won_disjoint`).
-/

namespace Reservation

variable {ρ α : Type} [DecidableEq ρ]

/-- The resources that are still available, those that each request has read and not yet claimed,
and those that it has claimed. -/
structure State (ρ α : Type) where
  avail : Set α
  held : ρ → Set α
  won : ρ → Set α

/-- The steps of the requests that read nothing another request is holding. -/
inductive Step : State ρ α → State ρ α → Prop
  | take (s : State ρ α) (r : ρ) (x : Set α) (havail : x ⊆ s.avail)
      (hfree : ∀ r', Disjoint x (s.held r')) :
      Step s { s with held := Function.update s.held r x }
  | settle (s : State ρ α) (r : ρ) (x : Set α) (hheld : x ⊆ s.held r) :
      Step s ⟨s.avail \ s.held r, Function.update s.held r ∅,
        Function.update s.won r (s.won r ∪ x)⟩
  | offer (s : State ρ α) (x : Set α) (hnew : ∀ r, Disjoint (s.won r) x) :
      Step s { s with avail := s.avail ∪ x }

/-- What is held is available, and no resource is held twice, won twice, or won and still
available. -/
structure Inv (s : State ρ α) : Prop where
  held_avail : ∀ r, s.held r ⊆ s.avail
  held_disjoint : ∀ r r', r ≠ r' → Disjoint (s.held r) (s.held r')
  won_disjoint : ∀ r r', r ≠ r' → Disjoint (s.won r) (s.won r')
  won_gone : ∀ r, Disjoint (s.won r) s.avail

omit [DecidableEq ρ] in
/-- Before any request. -/
theorem Inv.init (avail : Set α) : Inv (⟨avail, fun _ => ∅, fun _ => ∅⟩ : State ρ α) where
  held_avail _ := Set.empty_subset _
  held_disjoint _ _ _ := Set.disjoint_empty _
  won_disjoint _ _ _ := Set.disjoint_empty _
  won_gone _ := Set.empty_disjoint _

/-- Disjoint sets stay so when one of them becomes another set that is disjoint from the rest. -/
theorem disjoint_update {f : ρ → Set α} (hf : ∀ r r', r ≠ r' → Disjoint (f r) (f r')) (r : ρ)
    {x : Set α} (hx : ∀ r', r' ≠ r → Disjoint x (f r')) (r₁ r₂ : ρ) (hne : r₁ ≠ r₂) :
    Disjoint (Function.update f r x r₁) (Function.update f r x r₂) := by
  by_cases h₁ : r₁ = r
  · subst h₁
    rw [Function.update_self, Function.update_of_ne (Ne.symm hne)]
    exact hx r₂ (Ne.symm hne)
  · rw [Function.update_of_ne h₁]
    by_cases h₂ : r₂ = r
    · subst h₂
      rw [Function.update_self]
      exact (hx r₁ h₁).symm
    · rw [Function.update_of_ne h₂]
      exact hf r₁ r₂ hne

theorem Inv.take {s : State ρ α} (h : Inv s) (r : ρ) {x : Set α} (havail : x ⊆ s.avail)
    (hfree : ∀ r', Disjoint x (s.held r')) :
    Inv { s with held := Function.update s.held r x } where
  held_avail := (Function.forall_update_iff s.held fun _ y => y ⊆ s.avail).mpr
    ⟨havail, fun r' _ => h.held_avail r'⟩
  held_disjoint := disjoint_update h.held_disjoint r fun r' _ => hfree r'
  won_disjoint := h.won_disjoint
  won_gone := h.won_gone

theorem Inv.settle {s : State ρ α} (h : Inv s) (r : ρ) {x : Set α} (hheld : x ⊆ s.held r) :
    Inv (⟨s.avail \ s.held r, Function.update s.held r ∅,
      Function.update s.won r (s.won r ∪ x)⟩ : State ρ α) where
  held_avail := (Function.forall_update_iff s.held fun _ y => y ⊆ s.avail \ s.held r).mpr
    ⟨Set.empty_subset _, fun r' hr => Set.subset_sdiff.mpr ⟨h.held_avail r', h.held_disjoint r' r hr⟩⟩
  held_disjoint := disjoint_update h.held_disjoint r fun _ _ => Set.empty_disjoint _
  -- What `r` wins was available, so nobody had won it.
  won_disjoint := disjoint_update h.won_disjoint r fun r' hr => Set.disjoint_union_left.mpr
    ⟨h.won_disjoint r r' (Ne.symm hr),
      ((h.won_gone r').mono_right (hheld.trans (h.held_avail r))).symm⟩
  won_gone := (Function.forall_update_iff s.won fun _ y => Disjoint y (s.avail \ s.held r)).mpr
    ⟨Set.disjoint_union_left.mpr ⟨(h.won_gone r).mono_right Set.sdiff_subset,
      Set.disjoint_sdiff_right.mono_left hheld⟩,
    fun r' _ => (h.won_gone r').mono_right Set.sdiff_subset⟩

omit [DecidableEq ρ] in
theorem Inv.offer {s : State ρ α} (h : Inv s) {x : Set α} (hnew : ∀ r, Disjoint (s.won r) x) :
    Inv { s with avail := s.avail ∪ x } where
  held_avail r := (h.held_avail r).trans Set.subset_union_left
  held_disjoint := h.held_disjoint
  won_disjoint := h.won_disjoint
  won_gone r := Set.disjoint_union_right.mpr ⟨h.won_gone r, hnew r⟩

theorem Step.inv {s s' : State ρ α} (h : Step s s') (hi : Inv s) : Inv s' := by
  cases h with
  | take r x havail hfree => exact hi.take r havail hfree
  | settle r x hheld => exact hi.settle r hheld
  | offer x hnew => exact hi.offer hnew

/-- **No resource is claimed twice**, whatever the order of the steps. -/
theorem reach_inv {s s' : State ρ α} (h : Relation.ReflTransGen Step s s') (hi : Inv s) : Inv s' := by
  induction h with
  | refl => exact hi
  | tail _ hst ih => exact hst.inv ih

omit [DecidableEq ρ] in
/-- A resource that two requests have claimed makes them one request. -/
theorem Inv.won_inj {s : State ρ α} (h : Inv s) {r r' : ρ} {x : α} (hx : x ∈ s.won r)
    (hx' : x ∈ s.won r') : r = r' := by
  by_contra hne
  exact Set.disjoint_left.mp (h.won_disjoint r r' hne) hx hx'

/-! ## Requests with a local state -/

section Local

variable {φ : Type} (avail : Set α) (held won : φ → Set α) (f : ρ → φ)

theorem local_update (r : ρ) (x : φ) :
    (⟨avail, fun r' => held (Function.update f r x r'), fun r' => won (Function.update f r x r')⟩ :
        State ρ α) =
      ⟨avail, Function.update (fun r' => held (f r')) r (held x),
        Function.update (fun r' => won (f r')) r (won x)⟩ :=
  congrArg₂ (State.mk avail) (Function.comp_update held f r x) (Function.comp_update won f r x)

/-- A request moves to a local state that holds free resources. -/
theorem Step.take_local (r : ρ) (x : φ) (havail : held x ⊆ avail)
    (hfree : ∀ r', Disjoint (held x) (held (f r'))) (hwon : won x = won (f r)) :
    Step ⟨avail, fun r' => held (f r'), fun r' => won (f r')⟩
      ⟨avail, fun r' => held (Function.update f r x r'),
        fun r' => won (Function.update f r x r')⟩ := by
  rw [local_update, hwon, Function.update_eq_self r fun r' => won (f r')]
  exact .take ⟨avail, fun r' => held (f r'), fun r' => won (f r')⟩ r (held x) havail hfree

/-- A request moves to a local state that holds nothing, and wins `y` of what it held. -/
theorem Step.settle_local (r : ρ) (x : φ) (y : Set α) (hheld : held x = ∅) (hy : y ⊆ held (f r))
    (hwon : won x = won (f r) ∪ y) :
    Step ⟨avail, fun r' => held (f r'), fun r' => won (f r')⟩
      ⟨avail \ held (f r), fun r' => held (Function.update f r x r'),
        fun r' => won (Function.update f r x r')⟩ := by
  rw [local_update, hheld, hwon]
  exact .settle ⟨avail, fun r' => held (f r'), fun r' => won (f r')⟩ r y hy

end Local

end Reservation
