import MarketKill3r.Lib.Rounding

/-!
# Domain types of the SMC engine (`app/engine/types.py`)

The dataclasses that the detectors consume and produce. A price is an exact `ℚ`: the engine is
modelled in exact arithmetic, where a float literal of the source (`1e-12`, `0.0001`, `1.5`) is the
decimal number it writes. String enumerations of the source (`"bullish"`, `"buy_side"`, …) are
inductive types.

* `DateTime`: an aware `datetime`, compared by its instant. A naive one of the source is the case
  `utcoffset = 0` (the engine never mixes both: Python refuses to compare them).
* `Bar.Valid`: the containment that `_validate_bars` checks of one candle.
* `pyRound`: Python's `round(x, digits)` on exact values (half to even); it keeps the order
  (`pyRound_mono`).
-/

namespace MarketKill3r

open Rounding

/-- An aware `datetime`: its instant in microseconds since the epoch and the offset of its wall
clock, also in microseconds. -/
structure DateTime where
  utc : Int
  utcoffset : Int
  deriving DecidableEq, Repr

/-- `dt.hour`: the hour that the wall clock of `t` shows. -/
def DateTime.hour (t : DateTime) : Nat := ((t.utc + t.utcoffset) / 3600000000 % 24).toNat

/-- The two sides `"bullish"` and `"bearish"`. -/
inductive Direction where
  | bullish
  | bearish
  deriving DecidableEq, Repr

namespace Direction

/-- The other side. -/
def opposite : Direction → Direction
  | bullish => bearish
  | bearish => bullish

theorem opposite_opposite (d : Direction) : d.opposite.opposite = d := by
  cases d <;> rfl

theorem opposite_eq_iff {d e : Direction} : d.opposite = e.opposite ↔ d = e := by
  cases d <;> cases e <;> simp [opposite]

/-- There are only two sides. -/
theorem ne_iff_eq_opposite {d e : Direction} : d ≠ e ↔ d = e.opposite := by
  cases d <;> cases e <;> simp [opposite]

/-- `best.upper()` -/
def upper : Direction → String
  | bullish => "BULLISH"
  | bearish => "BEARISH"

end Direction

/-- `Bar` -/
structure Bar where
  time : DateTime
  open_ : ℚ
  high : ℚ
  low : ℚ
  close : ℚ
  volume : ℚ
  deriving DecidableEq, Repr

/-- The candle passes the containment test of `_validate_bars`: none of
`high < max(open, close)`, `low > min(open, close)`, `high < low`. -/
def Bar.Valid (b : Bar) : Prop :=
  ¬ (b.high < max b.open_ b.close ∨ min b.open_ b.close < b.low ∨ b.high < b.low)

instance (b : Bar) : Decidable b.Valid := inferInstanceAs (Decidable (¬ _))

namespace Bar.Valid

variable {b : Bar}

theorem close_le_high (h : b.Valid) : b.close ≤ b.high := by
  simp only [Bar.Valid, not_or, not_lt, max_le_iff] at h
  exact h.1.2

theorem open_le_high (h : b.Valid) : b.open_ ≤ b.high := by
  simp only [Bar.Valid, not_or, not_lt, max_le_iff] at h
  exact h.1.1

theorem low_le_close (h : b.Valid) : b.low ≤ b.close := by
  simp only [Bar.Valid, not_or, not_lt, le_min_iff] at h
  exact h.2.1.2

theorem low_le_open (h : b.Valid) : b.low ≤ b.open_ := by
  simp only [Bar.Valid, not_or, not_lt, le_min_iff] at h
  exact h.2.1.1

end Bar.Valid

/-- Every candle of the list passes the containment test. -/
def OhlcValid (bars : List Bar) : Prop := ∀ b ∈ bars, b.Valid

instance (bars : List Bar) : Decidable (OhlcValid bars) :=
  inferInstanceAs (Decidable (∀ b ∈ bars, b.Valid))

theorem OhlcValid.getElem? {bars : List Bar} (h : OhlcValid bars) {i : Nat} {b : Bar}
    (hb : bars[i]? = some b) : b.Valid := h b (List.mem_of_getElem? hb)

/-- `SwingType` -/
inductive SwingType where
  | high
  | low
  deriving DecidableEq, Repr

/-- `SwingPoint` -/
structure SwingPoint where
  index : Nat
  time : DateTime
  price : ℚ
  kind : SwingType
  /-- A fractal at index `i` is only known once bar `i + lookback` is closed. -/
  confirmedAt : Option Nat
  deriving DecidableEq, Repr

/-- `s.confirmed_at or s.index`: a `None` or a zero falls through to the index. -/
def SwingPoint.confirmKey (s : SwingPoint) : Nat :=
  match s.confirmedAt with
  | none | some 0 => s.index
  | some (n + 1) => n + 1

/-- `StructureLabel` -/
inductive StructureLabel where
  | HH
  | HL
  | LH
  | LL
  deriving DecidableEq, Repr

/-- `StructureEventType` -/
inductive StructureEventType where
  | BOS
  | CHOCH
  deriving DecidableEq, Repr

/-- `event_type.value` -/
def StructureEventType.value : StructureEventType → String
  | BOS => "BOS"
  | CHOCH => "CHoCH"

/-- `StructureEvent` -/
structure StructureEvent where
  eventType : StructureEventType
  index : Nat
  time : DateTime
  price : ℚ
  direction : Direction
  brokenSwing : SwingPoint
  deriving DecidableEq, Repr

/-- `FairValueGap` -/
structure FairValueGap where
  index : Nat
  time : DateTime
  direction : Direction
  top : ℚ
  bottom : ℚ
  filled : Bool
  fillIndex : Option Nat
  deriving DecidableEq, Repr

/-- `OrderBlock` -/
structure OrderBlock where
  index : Nat
  time : DateTime
  direction : Direction
  top : ℚ
  bottom : ℚ
  mitigated : Bool
  mitigationIndex : Option Nat
  breakIndex : Nat
  deriving DecidableEq, Repr

/-- The side of the liquidity that a sweep takes: `"buy_side"` above highs, `"sell_side"` below
lows. -/
inductive SweepSide where
  | buySide
  | sellSide
  deriving DecidableEq, Repr

/-- `LiquiditySweep` -/
structure LiquiditySweep where
  index : Nat
  time : DateTime
  direction : SweepSide
  sweptLevel : ℚ
  sweptSwingIndex : Nat
  deriving DecidableEq, Repr

/-- `SessionWindow` -/
structure SessionWindow where
  name : String
  high : Option ℚ
  low : Option ℚ
  swept : Bool
  deriving DecidableEq, Repr

/-- `SMTDivergence` -/
structure SMTDivergence where
  index : Nat
  time : DateTime
  direction : Direction
  detail : String
  deriving DecidableEq, Repr

/-! ## Rounding -/

/-- `round(x, digits)` -/
def pyRound (x : ℚ) (digits : Nat) : ℚ := roundHalfEven (x * 10 ^ digits) / 10 ^ digits

theorem pyRound_mono {x y : ℚ} (h : x ≤ y) (digits : Nat) : pyRound x digits ≤ pyRound y digits := by
  have hpow : (0 : ℚ) < 10 ^ digits := by positivity
  have hle := roundHalfEven_mono (mul_le_mul_of_nonneg_right h hpow.le)
  exact div_le_div_of_nonneg_right (by exact_mod_cast hle) hpow.le

end MarketKill3r
