import Mathlib.Logic.Relation

/-!
# Relations that never branch

A relation in which every element has at most one successor and at most one predecessor. Its
connected components are chains.

* `linear_of_eqvGen`: of two connected elements, one leads to the other.
* `eq_of_eqvGen`: a component has at most one element without a successor.
-/

namespace Chains

variable {α : Type} {r : α → α → Prop}

/-- Of two connected elements, one leads to the other. -/
theorem linear_of_eqvGen (hr : Relator.RightUnique r) (hl : Relator.LeftUnique r) {x y : α}
    (h : Relation.EqvGen r x y) : Relation.ReflTransGen r x y ∨ Relation.ReflTransGen r y x := by
  induction h with
  | rel x y hxy => exact Or.inl (.single hxy)
  | refl x => exact Or.inl .refl
  | symm x y _ ih => exact ih.symm
  | trans x y z _ _ ih1 ih2 =>
    rcases ih1 with hxy | hyx
    · rcases ih2 with hyz | hzy
      · exact Or.inl (hxy.trans hyz)
      · -- Both lead to `y`: compare them backwards.
        have hback : Relator.RightUnique (Function.swap r) := fun _ _ _ h1 h2 => hl h1 h2
        rw [← Relation.reflTransGen_swap] at hxy hzy
        rcases Relation.ReflTransGen.total_of_right_unique hback hxy hzy with h | h
        · exact Or.inr (Relation.reflTransGen_swap.mp h)
        · exact Or.inl (Relation.reflTransGen_swap.mp h)
    · rcases ih2 with hyz | hzy
      · exact Relation.ReflTransGen.total_of_right_unique hr hyx hyz
      · exact Or.inr (hzy.trans hyx)

/-- An element without a successor leads to itself only. -/
theorem eq_of_reflTransGen {x y : α} (hx : ∀ z, ¬ r x z) (h : Relation.ReflTransGen r x y) :
    x = y := by
  rcases h.cases_head with he | ⟨z, hxz, -⟩
  · exact he
  · exact absurd hxz (hx z)

/-- A component has at most one element without a successor. -/
theorem eq_of_eqvGen (hr : Relator.RightUnique r) (hl : Relator.LeftUnique r) {x y : α}
    (hx : ∀ z, ¬ r x z) (hy : ∀ z, ¬ r y z) (h : Relation.EqvGen r x y) : x = y := by
  rcases linear_of_eqvGen hr hl h with h | h
  · exact eq_of_reflTransGen hx h
  · exact (eq_of_reflTransGen hy h).symm

end Chains
