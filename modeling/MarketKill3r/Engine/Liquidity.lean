import Mathlib.Data.List.MinMax
import MarketKill3r.Engine.Structure

/-!
# Liquidity pools and sweeps (`app/engine/liquidity.py`)

`detectLiquiditySweeps` is a machine over the bars. Its state is the two lists of swings confirmed
so far; at each bar it clusters their prices anew and reports the levels that the bar sweeps. The
same swings are confirmed at the bars of a prefix, so there is no look-ahead
(`detectLiquiditySweeps_take`).
-/

namespace MarketKill3r

/-- `abs(price - level) / max(abs(level), 1e-12) * 100` -/
def levelDistance (level price : ℚ) : ℚ := |price - level| / max |level| (1 / 10 ^ 12) * 100

/-- The body of the loop of `_cluster`: a price too far from the last level opens a new one. -/
def clusterStep (tolerancePct : ℚ) (levels : List ℚ) (p : ℚ) : List ℚ :=
  match levels.getLast? with
  | none => levels ++ [p]
  | some level => if tolerancePct < levelDistance level p then levels ++ [p] else levels

/-- `_cluster` -/
def cluster (prices : List ℚ) (tolerancePct : ℚ) : List ℚ :=
  (prices.insertionSort (· ≤ ·)).foldl (clusterStep tolerancePct) []

/-- The prices of the swings of one kind. -/
def pricesOf (kind : SwingType) (swings : List SwingPoint) : List ℚ :=
  (swings.filter (·.kind = kind)).map (·.price)

/-- The result of `find_equal_levels`. -/
structure EqualLevels where
  highs : List ℚ
  lows : List ℚ
  deriving DecidableEq, Repr

/-- `find_equal_levels` -/
def findEqualLevels (bars : List Bar) (lookback : Int) (tolerancePct : ℚ) : EqualLevels :=
  let swings := findSwingPoints bars lookback
  ⟨cluster (pricesOf .high swings) tolerancePct, cluster (pricesOf .low swings) tolerancePct⟩

/-- The state of the loop of `detect_liquidity_sweeps`. -/
structure SweepState where
  confirmedHighs : List SwingPoint
  confirmedLows : List SwingPoint

/-- The bar wicks through the level and closes back on the original side. -/
def SweepSide.Wicks (side : SweepSide) (bar : Bar) (level : ℚ) : Prop :=
  match side with
  | .buySide => level < bar.high ∧ bar.close < level
  | .sellSide => bar.low < level ∧ level < bar.close

instance (side : SweepSide) (bar : Bar) (level : ℚ) : Decidable (side.Wicks bar level) := by
  unfold SweepSide.Wicks; cases side <;> infer_instance

/-- The confirmed swings before bar `i` that belong to the level. -/
def poolMembers (confirmed : List SwingPoint) (tolerancePct : ℚ) (i : Nat) (level : ℚ) :
    List SwingPoint :=
  confirmed.filter (fun s => s.index < i ∧ levelDistance level s.price ≤ tolerancePct)

/-- The body of the loop over the levels of one side. -/
def sweepOfLevel (side : SweepSide) (confirmed : List SwingPoint) (tolerancePct : ℚ) (i : Nat)
    (bar : Bar) (level : ℚ) : List LiquiditySweep :=
  let prior := poolMembers confirmed tolerancePct i level
  if 2 ≤ prior.length ∧ side.Wicks bar level then
    match prior.argmin (fun s => |s.price - level|) with
    | none => []
    | some nearest => [⟨i, bar.time, side, level, nearest.index⟩]
  else []

/-- The sweeps of one side at bar `i`. -/
def sweepsOfSide (side : SweepSide) (confirmed : List SwingPoint) (tolerancePct : ℚ) (i : Nat)
    (bar : Bar) : List LiquiditySweep :=
  (cluster (confirmed.map (·.price)) tolerancePct).flatMap
    (sweepOfLevel side confirmed tolerancePct i bar)

/-- The body of the loop of `detect_liquidity_sweeps`. -/
def sweepStep (swings : List SwingPoint) (tolerancePct : ℚ) (st : SweepState) (i : Nat) (bar : Bar) :
    SweepState × List LiquiditySweep :=
  let confirmed := swings.filter (fun s => s.confirmedAt = some i)
  let highs := st.confirmedHighs ++ confirmed.filter (·.kind = .high)
  let lows := st.confirmedLows ++ confirmed.filter (·.kind = .low)
  (⟨highs, lows⟩,
    sweepsOfSide .buySide highs tolerancePct i bar ++ sweepsOfSide .sellSide lows tolerancePct i bar)

/-- `detect_liquidity_sweeps` -/
def detectLiquiditySweeps (bars : List Bar) (lookback : Int) (tolerancePct : ℚ) :
    List LiquiditySweep :=
  Machine.outputsFrom (sweepStep (findSwingPoints bars lookback) tolerancePct) ⟨[], []⟩ 0 bars

theorem sweepsOfSide_index {side : SweepSide} {confirmed : List SwingPoint} {tol : ℚ} {i : Nat}
    {bar : Bar} {s : LiquiditySweep} (h : s ∈ sweepsOfSide side confirmed tol i bar) :
    s.index = i := by
  obtain ⟨level, -, h⟩ := List.mem_flatMap.mp h
  unfold sweepOfLevel at h
  dsimp only at h
  split at h
  · split at h
    · cases h
    · rw [List.mem_singleton] at h; rw [h]
  · cases h

theorem sweepStep_index (swings : List SwingPoint) (tol : ℚ) (st : SweepState) (i : Nat)
    (bar : Bar) : ∀ s ∈ (sweepStep swings tol st i bar).2, s.index = i := by
  intro s hs
  rcases List.mem_append.mp hs with hs | hs
  · exact sweepsOfSide_index hs
  · exact sweepsOfSide_index hs

/-- A bar before position `n` makes the same step in the run on the prefix. -/
theorem sweepStep_take {bars : List Bar} {lookback : Int} {tol : ℚ} {n i : Nat} (hi : i < n)
    (st : SweepState) (bar : Bar) :
    sweepStep (findSwingPoints (bars.take n) lookback) tol st i bar =
      sweepStep (findSwingPoints bars lookback) tol st i bar := by
  have h : (findSwingPoints (bars.take n) lookback).filter (fun s => s.confirmedAt = some i) =
      (findSwingPoints bars lookback).filter (fun s => s.confirmedAt = some i) := by
    rw [findSwingPoints_take, List.filter_filter]
    refine List.filter_congr fun s _ => ?_
    by_cases hs : s.confirmedAt = some i
    · simp [hs, hi]
    · simp [hs]
  unfold sweepStep
  rw [h]

/-- **The sweeps of a prefix** are the sweeps within it. -/
theorem detectLiquiditySweeps_take (bars : List Bar) (lookback : Int) (tol : ℚ) (n : Nat) :
    detectLiquiditySweeps (bars.take n) lookback tol =
      (detectLiquiditySweeps bars lookback tol).filter (fun s => s.index < n) := by
  unfold detectLiquiditySweeps
  exact Machine.outputsFrom_take_congr n (sweepStep_index _ _) fun _ => sweepStep_take

end MarketKill3r
