import Mathlib.Data.List.MinMax
import MarketKill3r.Engine.Structure

/-!
# Dealing range, sessions and SMT divergence

`app/engine/premium_discount.py`, `app/engine/sessions.py` and `app/engine/smt.py`.
-/

namespace MarketKill3r

/-! ## Premium and discount -/

/-- `DealingRange` -/
structure DealingRange where
  rangeHigh : ℚ
  rangeLow : ℚ
  equilibrium : ℚ
  highIndex : Nat
  lowIndex : Nat
  deriving DecidableEq, Repr

/-- The zones that `zone_for` names. -/
inductive PriceZone where
  | premium
  | discount
  | equilibrium
  deriving DecidableEq, Repr

/-- `DealingRange.zone_for` -/
def DealingRange.zoneFor (dr : DealingRange) (price : ℚ) : PriceZone :=
  if dr.equilibrium < price then .premium
  else if price < dr.equilibrium then .discount
  else .equilibrium

/-- `xs[start:]`: a negative start counts from the end. -/
def sliceFrom {α : Type} (xs : List α) (start : Int) : List α :=
  xs.drop (if start < 0 then start + xs.length else start).toNat

/-- `bars[-window:] if len(bars) > window else bars` -/
def recentBars (bars : List Bar) (window : Int) : List Bar :=
  if window < bars.length then sliceFrom bars (-window) else bars

/-- `compute_dealing_range` -/
def computeDealingRange (bars : List Bar) (lookback window : Int) : Option DealingRange :=
  let swings := findSwingPoints (recentBars bars window) lookback
  match (swings.filter (·.kind = .high)).getLast?, (swings.filter (·.kind = .low)).getLast? with
  | some high, some low =>
    some ⟨high.price, low.price, (high.price + low.price) / 2, high.index, low.index⟩
  | _, _ => none

/-! ## Sessions -/

/-- `SESSION_HOURS_UTC`: name, inclusive start and exclusive end. -/
def sessionHoursUtc : List (String × Nat × Nat) :=
  [("asian", 0, 8), ("london", 7, 16), ("new_york", 12, 21)]

/-- `session_for_hour` -/
def sessionForHour (hourUtc : Nat) : List String :=
  (sessionHoursUtc.filter fun s => s.2.1 ≤ hourUtc ∧ hourUtc < s.2.2).map (·.1)

/-- The update of a window by a bar of its session. -/
def SessionWindow.extend (w : SessionWindow) (bar : Bar) : SessionWindow :=
  { w with
    high := some (match w.high with | none => bar.high | some h => max h bar.high)
    low := some (match w.low with | none => bar.low | some l => min l bar.low) }

/-- `compute_session_windows`: the windows in the order of `SESSION_HOURS_UTC`. -/
def computeSessionWindows (bars : List Bar) : List SessionWindow :=
  bars.foldl
    (fun windows bar =>
      (sessionForHour bar.time.hour).foldl
        (fun ws name => ws.map fun w => if w.name = name then w.extend bar else w) windows)
    (sessionHoursUtc.map fun s => ⟨s.1, none, none, false⟩)

/-! ## SMT -/

/-- `nearest_by_time`: among the swings up to `maxIndex` the first with the least distance. -/
def nearestByTime (swings : List SwingPoint) (idx maxIndex : Nat) : Option SwingPoint :=
  (swings.filter (·.index ≤ maxIndex)).argmin (fun s => ((s.index : Int) - idx).natAbs)

/-- `a, b = swings[-2:]`, of at least two. -/
def lastTwo (swings : List SwingPoint) : Option (SwingPoint × SwingPoint) :=
  match swings.reverse with
  | b :: a :: _ => some (a, b)
  | _ => none

/-- One of the four comparisons of `detect_smt_divergence`: the correlated swings matched to `a`
and `b` exist and `fails` to confirm the primary's move. -/
def smtCompare (a b : SwingPoint) (correlated : List SwingPoint) (direction : Direction)
    (fails : ℚ → ℚ → Bool) (detail : String) : List SMTDivergence :=
  match nearestByTime correlated a.index b.index, nearestByTime correlated b.index b.index with
  | some ca, some cb => if fails ca.price cb.price then [⟨b.index, b.time, direction, detail⟩] else []
  | _, _ => []

/-- `detect_smt_divergence` -/
def detectSmtDivergence (primaryBars correlatedBars : List Bar) (lookback : Int)
    (inverseCorrelation : Bool) : List SMTDivergence :=
  let p := findSwingPoints primaryBars lookback
  let c := findSwingPoints correlatedBars lookback
  if p.length < 2 ∨ c.length < 2 then []
  else
    let cLows := c.filter (·.kind = .low)
    let cHighs := c.filter (·.kind = .high)
    (match lastTwo (p.filter (·.kind = .low)) with
      | none => []
      | some (a, b) =>
        if b.price < a.price then
          if inverseCorrelation then
            smtCompare a b cHighs .bullish (fun ca cb => cb ≤ ca)
              "Primary made a lower low while the inverse instrument failed to make a higher high."
          else
            smtCompare a b cLows .bullish (fun ca cb => ca ≤ cb)
              ("Primary made a lower low while the correlated instrument failed to confirm with " ++
                "a lower low.")
        else []) ++
    (match lastTwo (p.filter (·.kind = .high)) with
      | none => []
      | some (a, b) =>
        if a.price < b.price then
          if inverseCorrelation then
            smtCompare a b cLows .bearish (fun ca cb => ca ≤ cb)
              "Primary made a higher high while the inverse instrument failed to make a lower low."
          else
            smtCompare a b cHighs .bearish (fun ca cb => cb ≤ ca)
              ("Primary made a higher high while the correlated instrument failed to confirm with " ++
                "a higher high.")
        else [])

end MarketKill3r
