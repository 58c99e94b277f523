import MarketKill3r.Engine.Structure

/-!
# Displacement, fair value gaps and order blocks

`app/engine/displacement.py`, `app/engine/fvg.py` and `app/engine/order_blocks.py`. A gap and a
block are found first and then tracked over the later bars: a gap is filled by the first later bar
that traverses it, a block is mitigated by the first bar after its break that overlaps it.

* `gap_spec`, `unfilled_gap_spec`: the three candles of a gap, and every later bar of an unfilled
  one stays on the gap's side.
* `block_spec`: the candle of a block, and the break it stands before.
* `detectFairValueGaps_take`, `detectOrderBlocks_take`: no look-ahead. The zones of a prefix are
  those that exist within it, with a fill or a mitigation behind the cut reset (`upTo`).
-/

namespace MarketKill3r

/-! ## Displacement -/

/-- `average_range` -/
def averageRange (bars : List Bar) (endIndex window : Nat) : ℚ :=
  let segment := (bars.take endIndex).drop (endIndex - window)
  if segment = [] then 0 else (segment.map fun b => b.high - b.low).sum / segment.length

/-- `is_displacement_candle`, at its defaults `window = 14` and `multiplier = 1.5`. -/
def isDisplacementCandle (bars : List Bar) (index : Nat) : Bool :=
  if index = 0 then false
  else
    match bars[index]? with
    | none => false
    | some bar =>
      let body := |bar.close - bar.open_|
      let avgRange := averageRange bars index 14
      if avgRange = 0 then false else decide (3 / 2 * avgRange ≤ body)

theorem averageRange_take {bars : List Bar} {i n : Nat} (window : Nat) (h : i ≤ n) :
    averageRange (bars.take n) i window = averageRange bars i window := by
  simp only [averageRange, List.take_take, Nat.min_eq_left h]

theorem isDisplacementCandle_take {bars : List Bar} {i n : Nat} (h : i < n) :
    isDisplacementCandle (bars.take n) i = isDisplacementCandle bars i := by
  simp only [isDisplacementCandle, averageRange_take _ (Nat.le_of_lt h),
    List.getElem?_take_of_lt h]

/-! ## Fair value gaps -/

/-- The gap at index `i`: the body of the first loop of `detect_fair_value_gaps`. -/
def gapAt (bars : List Bar) (requireDisplacement : Bool) (minGapSize : ℚ) (i : Nat) :
    List FairValueGap :=
  match bars[i - 1]?, bars[i]?, bars[i + 1]? with
  | some prevBar, some mid, some nextBar =>
    if requireDisplacement && !isDisplacementCandle bars i then []
    else if prevBar.high < nextBar.low ∧ minGapSize ≤ nextBar.low - prevBar.high then
      [⟨i, mid.time, .bullish, nextBar.low, prevBar.high, false, none⟩]
    else if nextBar.high < prevBar.low ∧ minGapSize ≤ prevBar.low - nextBar.high then
      [⟨i, mid.time, .bearish, prevBar.low, nextBar.high, false, none⟩]
    else []
  | _, _, _ => []

/-- The bar traverses the complete gap. -/
def FairValueGap.fills (g : FairValueGap) (bar : Bar) : Bool :=
  match g.direction with
  | .bullish => bar.low ≤ g.bottom
  | .bearish => g.top ≤ bar.high

/-- The second loop of `detect_fair_value_gaps`, for one gap. -/
def FairValueGap.track (bars : List Bar) (g : FairValueGap) : FairValueGap :=
  match Scan.firstHit (fun j => (bars[j]?).any g.fills) (g.index + 2) bars.length with
  | none => g
  | some j => { g with filled := true, fillIndex := some j }

/-- `detect_fair_value_gaps` -/
def detectFairValueGaps (bars : List Bar) (requireDisplacement : Bool) (minGapSize : ℚ) :
    List FairValueGap :=
  ((List.range' 1 (bars.length - 2)).flatMap (gapAt bars requireDisplacement minGapSize)).map
    (FairValueGap.track bars)

/-- The three candles around the gap `g`, before it is tracked. -/
def FairValueGap.Between (g : FairValueGap) (prevBar nextBar : Bar) : Prop :=
  match g.direction with
  | .bullish => g.bottom = prevBar.high ∧ g.top = nextBar.low ∧ prevBar.high < nextBar.low
  | .bearish => g.top = prevBar.low ∧ g.bottom = nextBar.high ∧ nextBar.high < prevBar.low

theorem gapAt_spec {bars : List Bar} {req : Bool} {m : ℚ} {i : Nat} {g : FairValueGap}
    (h : g ∈ gapAt bars req m i) :
    g.index = i ∧ g.filled = false ∧ g.fillIndex = none ∧
      ∃ prevBar nextBar, bars[i - 1]? = some prevBar ∧ bars[i + 1]? = some nextBar ∧
        g.Between prevBar nextBar := by
  unfold gapAt at h
  split at h
  · rename_i p mid n hp _ hn
    split at h
    · cases h
    · split at h
      · rename_i hgap
        rw [List.mem_singleton] at h
        subst h
        exact ⟨rfl, rfl, rfl, p, n, hp, hn, rfl, rfl, hgap.1⟩
      · split at h
        · rename_i hgap
          rw [List.mem_singleton] at h
          subst h
          exact ⟨rfl, rfl, rfl, p, n, hp, hn, rfl, rfl, hgap.1⟩
        · cases h
  · cases h

/-- Tracking a gap changes at most its fill. -/
theorem FairValueGap.track_cases (bars : List Bar) (g : FairValueGap) :
    (g.track bars = g ∧
      ∀ j b, bars[j]? = some b → g.index + 2 ≤ j → g.fills b = false) ∨
    ∃ j, g.track bars = { g with filled := true, fillIndex := some j } := by
  unfold FairValueGap.track
  split
  · rename_i h
    exact Or.inl ⟨rfl, Scan.firstHit_any_eq_none.mp h⟩
  · exact Or.inr ⟨_, rfl⟩

@[simp] theorem FairValueGap.track_index (bars : List Bar) (g : FairValueGap) :
    (g.track bars).index = g.index := by
  obtain ⟨h, -⟩ | ⟨j, h⟩ := g.track_cases bars <;> rw [h]

@[simp] theorem FairValueGap.track_direction (bars : List Bar) (g : FairValueGap) :
    (g.track bars).direction = g.direction := by
  obtain ⟨h, -⟩ | ⟨j, h⟩ := g.track_cases bars <;> rw [h]

/-- **What a gap is**: its edges are the facing ends of the candles around it. -/
theorem gap_spec {bars : List Bar} {req : Bool} {m : ℚ} {g : FairValueGap}
    (h : g ∈ detectFairValueGaps bars req m) :
    1 ≤ g.index ∧ ∃ prevBar nextBar, bars[g.index - 1]? = some prevBar ∧
      bars[g.index + 1]? = some nextBar ∧ g.Between prevBar nextBar := by
  obtain ⟨g₀, hg₀, rfl⟩ := List.mem_map.mp h
  obtain ⟨i, hi, hg₀⟩ := List.mem_flatMap.mp hg₀
  rw [List.mem_range'_1] at hi
  obtain ⟨rfl, -, -, p, n, hp, hn, hb⟩ := gapAt_spec hg₀
  refine ⟨by simpa using hi.1, p, n, by simpa using hp, by simpa using hn, ?_⟩
  obtain ⟨e, -⟩ | ⟨j, e⟩ := g₀.track_cases bars <;> rw [e] <;> exact hb

/-- A gap has a positive height. -/
theorem gap_bottom_lt_top {bars : List Bar} {req : Bool} {m : ℚ} {g : FairValueGap}
    (h : g ∈ detectFairValueGaps bars req m) : g.bottom < g.top := by
  obtain ⟨-, p, n, -, -, hb⟩ := gap_spec h
  unfold FairValueGap.Between at hb
  cases hd : g.direction <;> simp only [hd] at hb <;> linarith [hb.2.2, hb.1, hb.2.1]

/-- `_bearish(candidate) if event.direction == "bullish" else _bullish(candidate)` -/
def Direction.validCandidate (d : Direction) (b : Bar) : Bool :=
  match d with
  | .bullish => b.close < b.open_
  | .bearish => b.open_ < b.close

/-- The bar overlaps the block. -/
def OrderBlock.touches (o : OrderBlock) (bar : Bar) : Bool :=
  bar.low ≤ o.top ∧ o.bottom ≤ bar.high

/-- The mitigation loop of `detect_order_blocks`: only bars after the break count. -/
def OrderBlock.track (bars : List Bar) (o : OrderBlock) : OrderBlock :=
  match Scan.firstHit (fun k => (bars[k]?).any o.touches) (o.breakIndex + 1) bars.length with
  | none => o
  | some k => { o with mitigated := true, mitigationIndex := some k }

/-- The index of the candidate candle of `event`: the last one before the break that closes against
the direction, at most `searchWindow` bars back. -/
def blockCandidate (bars : List Bar) (searchWindow : Int) (event : StructureEvent) : Option Nat :=
  let start := (max 0 ((event.index : Int) - searchWindow)).toNat
  Scan.lastHit (fun j => (bars[j]?).any event.direction.validCandidate) start event.index

/-- The body of the loop of `detect_order_blocks`. -/
def orderBlockFor (bars : List Bar) (searchWindow : Int) (event : StructureEvent) :
    Option OrderBlock :=
  if !isDisplacementCandle bars event.index then none
  else
    match blockCandidate bars searchWindow event with
    | none => none
    | some j => (bars[j]?).map fun candidate =>
        OrderBlock.track bars
          ⟨j, candidate.time, event.direction, candidate.high, candidate.low, false, none,
            event.index⟩

/-- `detect_order_blocks` -/
def detectOrderBlocks (bars : List Bar) (lookback searchWindow : Int) : List OrderBlock :=
  (detectStructureEvents bars lookback).1.filterMap (orderBlockFor bars searchWindow)

/-- Tracking a block changes at most its mitigation. -/
theorem OrderBlock.track_cases (bars : List Bar) (o : OrderBlock) :
    (o.track bars = o ∧
      ∀ j b, bars[j]? = some b → o.breakIndex < j → o.touches b = false) ∨
    ∃ j, o.track bars = { o with mitigated := true, mitigationIndex := some j } := by
  unfold OrderBlock.track
  split
  · rename_i h
    exact Or.inl ⟨rfl, Scan.firstHit_any_eq_none.mp h⟩
  · exact Or.inr ⟨_, rfl⟩

@[simp] theorem OrderBlock.track_breakIndex (bars : List Bar) (o : OrderBlock) :
    (o.track bars).breakIndex = o.breakIndex := by
  obtain ⟨h, -⟩ | ⟨j, h⟩ := o.track_cases bars <;> rw [h]

@[simp] theorem OrderBlock.track_index (bars : List Bar) (o : OrderBlock) :
    (o.track bars).index = o.index := by
  obtain ⟨h, -⟩ | ⟨j, h⟩ := o.track_cases bars <;> rw [h]

@[simp] theorem OrderBlock.touches_track (bars : List Bar) (o : OrderBlock) (bar : Bar) :
    (o.track bars).touches bar = o.touches bar := by
  obtain ⟨h, -⟩ | ⟨j, h⟩ := o.track_cases bars
  · rw [h]
  · rw [h]
    rfl

@[simp] theorem OrderBlock.track_direction (bars : List Bar) (o : OrderBlock) :
    (o.track bars).direction = o.direction := by
  obtain ⟨h, -⟩ | ⟨j, h⟩ := o.track_cases bars <;> rw [h]

/-- The block of an event: the candle found, untracked and tracked. -/
theorem orderBlockFor_eq_some {bars : List Bar} {w : Int} {e : StructureEvent} {o : OrderBlock} :
    orderBlockFor bars w e = some o ↔
      isDisplacementCandle bars e.index = true ∧
      ∃ j c, blockCandidate bars w e = some j ∧ bars[j]? = some c ∧
        o = OrderBlock.track bars ⟨j, c.time, e.direction, c.high, c.low, false, none, e.index⟩ := by
  unfold orderBlockFor
  cases hd : isDisplacementCandle bars e.index with
  | false => simp
  | true =>
    cases hj : blockCandidate bars w e with
    | none => simp
    | some j =>
      simp only [Bool.not_true, Bool.false_eq_true, ↓reduceIte, Option.map_eq_some_iff, true_and,
        Option.some.injEq]
      constructor
      · rintro ⟨c, hc, rfl⟩; exact ⟨j, c, rfl, hc, rfl⟩
      · rintro ⟨_, c, rfl, hc, rfl⟩; exact ⟨c, hc, rfl⟩

/-- The candle of block `o`, which a break in direction `d` at `e` selected. -/
structure OrderBlock.From (bars : List Bar) (o : OrderBlock) (e : StructureEvent) (c : Bar) :
    Prop where
  displaced : isDisplacementCandle bars e.index = true
  before : o.index < e.index
  candle : bars[o.index]? = some c
  against : e.direction.validCandidate c = true
  direction : o.direction = e.direction
  top : o.top = c.high
  bottom : o.bottom = c.low
  breakIndex : o.breakIndex = e.index
  /-- No later candle before the break closes against the direction. -/
  last : ∀ j b, bars[j]? = some b → o.index < j → j < e.index → e.direction.validCandidate b = false

/-- **What an order block is.** -/
theorem block_spec {bars : List Bar} {lookback w : Int} {o : OrderBlock}
    (h : o ∈ detectOrderBlocks bars lookback w) :
    ∃ e ∈ (detectStructureEvents bars lookback).1, ∃ c, o.From bars e c := by
  obtain ⟨e, he, ho⟩ := List.mem_filterMap.mp h
  obtain ⟨hd, j, c, hj, hc, rfl⟩ := orderBlockFor_eq_some.mp ho
  obtain ⟨hv, ⟨-, hlt⟩, hlast⟩ := Scan.lastHit_eq_some.mp hj
  refine ⟨e, he, c, ?_⟩
  have hv' : e.direction.validCandidate c = true := by simpa [hc] using hv
  have hl : ∀ i b, bars[i]? = some b → j < i → i < e.index →
      e.direction.validCandidate b = false := fun i b hb h1 h2 => by simpa [hb] using hlast i h1 h2
  obtain ⟨ht, -⟩ | ⟨i, ht⟩ := OrderBlock.track_cases bars
    ⟨j, c.time, e.direction, c.high, c.low, false, none, e.index⟩
  · rw [ht]; exact ⟨hd, hlt, hc, hv', rfl, rfl, rfl, rfl, hl⟩
  · rw [ht]; exact ⟨hd, hlt, hc, hv', rfl, rfl, rfl, rfl, hl⟩

/-- A block of OHLC-valid bars has a positive height: its candle has a body. -/
theorem block_bottom_lt_top {bars : List Bar} (hv : OhlcValid bars) {lookback w : Int}
    {o : OrderBlock} (h : o ∈ detectOrderBlocks bars lookback w) : o.bottom < o.top := by
  obtain ⟨e, -, c, ho⟩ := block_spec h
  have hc := hv.getElem? ho.candle
  have h1 := hc.low_le_close
  have h2 := hc.close_le_high
  have h3 := hc.low_le_open
  have h4 := hc.open_le_high
  have hag := ho.against
  rw [ho.top, ho.bottom]
  cases hd : e.direction <;>
    simp only [hd, Direction.validCandidate, decide_eq_true_eq] at hag <;> linarith

/-! ## No look-ahead -/

/-- The gap as the first `n` bars show it: a fill at a later bar is reset. -/
def FairValueGap.upTo (n : Nat) (g : FairValueGap) : FairValueGap :=
  if g.fillIndex.any (· < n) then g else { g with filled := false, fillIndex := none }

/-- The block as the first `n` bars show it: a mitigation at a later bar is reset. -/
def OrderBlock.upTo (n : Nat) (o : OrderBlock) : OrderBlock :=
  if o.mitigationIndex.any (· < n) then o
  else { o with mitigated := false, mitigationIndex := none }

theorem FairValueGap.track_take {bars : List Bar} (n : Nat) {g : FairValueGap}
    (hf : g.filled = false) (hi : g.fillIndex = none) :
    g.track (bars.take n) = (g.track bars).upTo n := by
  obtain ⟨i, t, d, top, bottom, filled, fillIndex⟩ := g
  simp only at hf hi
  subst hf hi
  unfold FairValueGap.track
  rw [Scan.firstHit_take]
  cases h : Scan.firstHit (fun j => (bars[j]?).any _) (i + 2) bars.length with
  | none => simp [FairValueGap.upTo]
  | some k => by_cases hk : k < n <;> simp [FairValueGap.upTo, Option.filter, hk]

theorem OrderBlock.track_take {bars : List Bar} (n : Nat) {o : OrderBlock}
    (hm : o.mitigated = false) (hi : o.mitigationIndex = none) :
    o.track (bars.take n) = (o.track bars).upTo n := by
  obtain ⟨i, t, d, top, bottom, mitigated, mitigationIndex, breakIndex⟩ := o
  simp only at hm hi
  subst hm hi
  unfold OrderBlock.track
  rw [Scan.firstHit_take]
  cases h : Scan.firstHit (fun j => (bars[j]?).any _) (breakIndex + 1) bars.length with
  | none => simp [OrderBlock.upTo]
  | some k => by_cases hk : k < n <;> simp [OrderBlock.upTo, Option.filter, hk]

theorem gapAt_take {bars : List Bar} {req : Bool} {m : ℚ} {i n : Nat} (h : i + 1 < n) :
    gapAt (bars.take n) req m i = gapAt bars req m i := by
  simp only [gapAt, isDisplacementCandle_take (show i < n by omega),
    List.getElem?_take_of_lt (show i < n by omega), List.getElem?_take_of_lt h,
    List.getElem?_take_of_lt (show i - 1 < n by omega)]

/-- **The gaps of a prefix** are the gaps whose third candle lies within it. -/
theorem detectFairValueGaps_take (bars : List Bar) (req : Bool) (m : ℚ) (n : Nat) :
    detectFairValueGaps (bars.take n) req m =
      ((detectFairValueGaps bars req m).filter (fun g => g.index + 1 < n)).map (.upTo n) := by
  unfold detectFairValueGaps
  rw [List.filter_map, List.map_map, List.length_take]
  have hfilter : ((List.range' 1 (bars.length - 2)).flatMap (gapAt bars req m)).filter
        ((fun g => decide (g.index + 1 < n)) ∘ FairValueGap.track bars) =
      (List.range' 1 (min n bars.length - 2)).flatMap (gapAt bars req m) := by
    apply Scan.filter_flatMap_range' (min n bars.length - 2) (by omega)
    · intro i h1 h2 g hg
      simp only [Function.comp_apply, FairValueGap.track_index, (gapAt_spec hg).1,
        decide_eq_true_eq]
      omega
    · intro i h1 h2 g hg
      simp only [Function.comp_apply, FairValueGap.track_index, (gapAt_spec hg).1,
        decide_eq_true_eq]
      omega
  have htake : (List.range' 1 (min n bars.length - 2)).flatMap (gapAt (bars.take n) req m) =
      (List.range' 1 (min n bars.length - 2)).flatMap (gapAt bars req m) := by
    refine List.flatMap_congr fun i hi => gapAt_take ?_
    rw [List.mem_range'_1] at hi
    omega
  rw [hfilter, htake]
  refine List.map_congr_left fun g hg => ?_
  obtain ⟨i, -, hg⟩ := List.mem_flatMap.mp hg
  obtain ⟨-, hf, hi, -⟩ := gapAt_spec hg
  exact FairValueGap.track_take n hf hi

/-- The block that an event within the prefix selects there. -/
theorem orderBlockFor_take {bars : List Bar} {w : Int} {e : StructureEvent} {n : Nat}
    (h : e.index < n) :
    orderBlockFor (bars.take n) w e = (orderBlockFor bars w e).map (.upTo n) := by
  unfold orderBlockFor
  rw [isDisplacementCandle_take h]
  have hcand : blockCandidate (bars.take n) w e = blockCandidate bars w e :=
    Scan.lastHit_congr fun j hj => by rw [List.getElem?_take_of_lt (Nat.lt_trans hj h)]
  rw [hcand]
  cases isDisplacementCandle bars e.index with
  | false => rfl
  | true =>
    simp only [Bool.not_true, Bool.false_eq_true, ↓reduceIte]
    cases hj : blockCandidate bars w e with
    | none => rfl
    | some j =>
      obtain ⟨-, ⟨-, hlt⟩, -⟩ := Scan.lastHit_eq_some.mp hj
      simp only [List.getElem?_take_of_lt (Nat.lt_trans hlt h), Option.map_map]
      congr 1
      funext c
      exact OrderBlock.track_take n rfl rfl

theorem orderBlockFor_breakIndex {bars : List Bar} {w : Int} {e : StructureEvent} {o : OrderBlock}
    (h : orderBlockFor bars w e = some o) : o.breakIndex = e.index := by
  obtain ⟨-, j, c, -, -, rfl⟩ := orderBlockFor_eq_some.mp h
  rw [OrderBlock.track_breakIndex]

/-- **The order blocks of a prefix** are the blocks whose break lies within it. -/
theorem detectOrderBlocks_take {bars : List Bar} (hv : OhlcValid bars) (lookback w : Int) (n : Nat) :
    detectOrderBlocks (bars.take n) lookback w =
      ((detectOrderBlocks bars lookback w).filter (fun o => o.breakIndex < n)).map (.upTo n) := by
  unfold detectOrderBlocks
  rw [detectStructureEvents_take hv, List.filterMap_filter, List.filter_filterMap,
    List.map_filterMap]
  refine List.filterMap_congr fun e _ => ?_
  by_cases he : e.index < n
  · simp only [he, decide_true, ↓reduceIte, orderBlockFor_take he]
    cases ho : orderBlockFor bars w e with
    | none => rfl
    | some o => simp [Option.filter, orderBlockFor_breakIndex ho, he]
  · simp only [he, decide_false, Bool.false_eq_true, ↓reduceIte]
    cases ho : orderBlockFor bars w e with
    | none => rfl
    | some o => simp [Option.filter, orderBlockFor_breakIndex ho, he]

end MarketKill3r
