import MarketKill3r.Engine.EqualLevels
import MarketKill3r.Lib.Greedy

/-!
# Levels and their members

`_cluster` measures a price against the last level only, and opens a level when it is too far away.
The sweep detector measures every swing against every level. The two agree on the levels that are not
above the swing; a level above it may be near it, too.

* `cluster_eq_anchors`: the clustering is the greedy pass over the sorted prices.
* `cluster_pools`: **a price has one level at or below it**, and belongs to no other one exactly when
  the levels above it are out of reach.
* `existsUnique_pool_iff`: the same for the pools of the sweep detector.
-/

namespace MarketKill3r

/-- The price is farther from the level than the tolerance. -/
def OutOfReach (tol level price : ℚ) : Prop := tol < levelDistance level price

instance (tol : ℚ) : DecidableRel (OutOfReach tol) := fun level price =>
  inferInstanceAs (Decidable (tol < levelDistance level price))

theorem cluster_eq_anchors (prices : List ℚ) (tol : ℚ) :
    cluster prices tol = Greedy.anchors (OutOfReach tol) (prices.insertionSort (· ≤ ·)) := by
  have hstep : clusterStep tol = Greedy.openIf (OutOfReach tol) := by
    funext levels p
    unfold clusterStep Greedy.openIf
    cases levels.getLast? <;> rfl
  rw [cluster, hstep]
  rfl

/-- Above a level the distance grows with the price. -/
theorem levelDistance_mono {level p q : ℚ} (hp : level ≤ p) (hpq : p ≤ q) :
    levelDistance level p ≤ levelDistance level q := by
  unfold levelDistance
  rw [abs_of_nonneg (sub_nonneg.mpr hp), abs_of_nonneg (sub_nonneg.mpr (hp.trans hpq))]
  gcongr

theorem outOfReach_upward {tol : ℚ} (htol : 0 ≤ tol) : Greedy.Upward (OutOfReach tol) where
  irrefl level := by
    rw [OutOfReach, levelDistance_self]
    exact not_lt.mpr htol
  mono hp hpq h := h.trans_le (levelDistance_mono hp hpq)

/-- The levels of the clustering cover the prices. -/
theorem cluster_covers (prices : List ℚ) {tol : ℚ} (htol : 0 ≤ tol) :
    Greedy.Covers (OutOfReach tol) (prices.insertionSort (· ≤ ·)) (cluster prices tol) := by
  rw [cluster_eq_anchors]
  exact Greedy.anchors_covers (outOfReach_upward htol) (List.pairwise_insertionSort _ _)

/-- A price has one level exactly when every level above it is out of reach. -/
theorem existsUnique_level_iff {prices : List ℚ} {tol p : ℚ} (htol : 0 ≤ tol) (hp : p ∈ prices) :
    (∃! level, level ∈ cluster prices tol ∧ levelDistance level p ≤ tol) ↔
      ∀ level ∈ cluster prices tol, p < level → tol < levelDistance level p := by
  have hiff := (cluster_covers prices htol).existsUnique_iff (outOfReach_upward htol)
    ((List.mem_insertionSort (· ≤ ·)).mpr hp)
  simp only [OutOfReach, not_lt] at hiff
  exact hiff

/-- **The levels and their members.** The levels are strictly increasing prices, each of which is out
of the reach of the lower ones. Each price is within the tolerance of exactly one level that is not
above it, and of exactly one level at all when every level above it is out of reach. -/
theorem cluster_pools (prices : List ℚ) {tol : ℚ} (htol : 0 ≤ tol) :
    (∀ level ∈ cluster prices tol, level ∈ prices) ∧
    (cluster prices tol).Pairwise
      (fun level level' => level < level' ∧ tol < levelDistance level level') ∧
    ∀ p ∈ prices,
      (∃! level, level ∈ cluster prices tol ∧ level ≤ p ∧ levelDistance level p ≤ tol) ∧
      ((∃! level, level ∈ cluster prices tol ∧ levelDistance level p ≤ tol) ↔
        ∀ level ∈ cluster prices tol, p < level → tol < levelDistance level p) := by
  have hcovers := cluster_covers prices htol
  refine ⟨fun level hlevel => ?_, hcovers.apart, fun p hp => ⟨?_, existsUnique_level_iff htol hp⟩⟩
  · exact (List.mem_insertionSort _).mp (hcovers.mem level hlevel)
  · have hone := hcovers.existsUnique (outOfReach_upward htol)
      ((List.mem_insertionSort (· ≤ ·)).mpr hp)
    simp only [OutOfReach, not_lt] at hone
    exact hone

/-- **The pools of a swing**: the sweep detector counts it at one level exactly when the levels above
it are out of reach. -/
theorem existsUnique_pool_iff {bars : List Bar} {lookback : Int} {tol : ℚ} (htol : 0 ≤ tol)
    {side : SweepSide} {n : Nat} {s : SwingPoint}
    (hs : s ∈ confirmedBefore (findSwingPoints bars lookback) side.swings n) :
    (∃! level, level ∈ levelsBefore bars lookback tol side n ∧
        s ∈ poolBefore bars lookback tol side n level) ↔
      ∀ level ∈ levelsBefore bars lookback tol side n, s.price < level →
        tol < levelDistance level s.price := by
  have hmember : ∀ level, s ∈ poolBefore bars lookback tol side n level ↔
      levelDistance level s.price ≤ tol := by
    intro level
    rw [poolBefore, List.mem_filter, decide_eq_true_eq, and_iff_right hs]
  simp only [hmember]
  exact existsUnique_level_iff htol (List.mem_map_of_mem hs)

/-- Three prices in steps of 0.04. -/
def chainPrices : List ℚ := [100, 100 + 1 / 25, 100 + 2 / 25]

/-- The middle price is within the tolerance of the level below it and of the one above it. -/
theorem chain_in_two_pools :
    cluster chainPrices defaultTolerance = [100, 100 + 2 / 25] ∧
      ¬ ∃! level, level ∈ cluster chainPrices defaultTolerance ∧
        levelDistance level (100 + 1 / 25) ≤ defaultTolerance := by
  have hlevels : cluster chainPrices defaultTolerance = [100, 100 + 2 / 25] := by decide +kernel
  refine ⟨hlevels, fun hone => ?_⟩
  rw [hlevels] at hone
  have heq : (100 : ℚ) = 100 + 2 / 25 :=
    hone.unique ⟨by simp, by decide +kernel⟩ ⟨by simp, by decide +kernel⟩
  norm_num at heq

theorem chain_pools :
    (∃! level, level ∈ cluster chainPrices defaultTolerance ∧ level ≤ 100 + 1 / 25 ∧
      levelDistance level (100 + 1 / 25) ≤ defaultTolerance) ∧
    (cluster chainPrices defaultTolerance).Pairwise
      fun level level' => level < level' ∧ defaultTolerance < levelDistance level level' := by
  obtain ⟨-, hapart, hpools⟩ := cluster_pools chainPrices
    (show (0 : ℚ) ≤ defaultTolerance by decide +kernel)
  exact ⟨(hpools (100 + 1 / 25) (by decide +kernel)).1, hapart⟩

end MarketKill3r
