import Mathlib.Algebra.BigOperators.Ring.List
import MarketKill3r.Engine.Levels
import MarketKill3r.Engine.Zones

/-!
# Rescaled prices

A `Rescaling` multiplies every price by a factor. A positive factor is another price unit; a
negative one turns the market upside down, so that highs become lows and bullish becomes bearish.
The detectors of structure, displacement, gaps and blocks commute with every rescaling.

* `Rescaling.lt_iff`, `gap_iff`, `beyond_iff`, `respects_iff`: the comparisons of the detectors.
* `findSwingPoints_filter`: the swings of one kind are the rescaled swings of the kind it comes from.
* `structureStep_rescale`: one bar. With a negative factor the order of the two branches matters
  only for a bar that breaks both levels, and on OHLC-valid bars no bar does (`structure_held`).
* `detectStructureEvents_rescale`, `isDisplacementCandle_rescale`, `detectFairValueGaps_rescale`,
  `detectOrderBlocks_rescale`: the detectors.
-/

namespace MarketKill3r

/-- The other kind. -/
def SwingType.other : SwingType → SwingType
  | high => low
  | low => high

/-- Multiplication of all prices by `factor`; `flip` says that the factor is negative. -/
structure Rescaling where
  factor : ℚ
  flip : Bool
  sign : if flip then factor < 0 else 0 < factor

namespace Rescaling

/-- Another price unit. -/
def unit (c : ℚ) (hc : 0 < c) : Rescaling := ⟨c, false, hc⟩

/-- All prices negated. -/
def mirror : Rescaling := ⟨-1, true, by norm_num⟩

variable (m : Rescaling)

def price (p : ℚ) : ℚ := m.factor * p

def dir (d : Direction) : Direction := if m.flip then d.opposite else d

def kind (κ : SwingType) : SwingType := if m.flip then κ.other else κ

/-- The candle at the new prices. -/
def bar (b : Bar) : Bar where
  time := b.time
  open_ := m.price b.open_
  high := m.price (if m.flip then b.low else b.high)
  low := m.price (if m.flip then b.high else b.low)
  close := m.price b.close
  volume := b.volume

def swing (s : SwingPoint) : SwingPoint := { s with price := m.price s.price, kind := m.kind s.kind }

def event (e : StructureEvent) : StructureEvent :=
  { e with
    price := m.price e.price
    direction := m.dir e.direction
    brokenSwing := m.swing e.brokenSwing }

def gap (g : FairValueGap) : FairValueGap :=
  { g with
    direction := m.dir g.direction
    top := m.price (if m.flip then g.bottom else g.top)
    bottom := m.price (if m.flip then g.top else g.bottom) }

def block (o : OrderBlock) : OrderBlock :=
  { o with
    direction := m.dir o.direction
    top := m.price (if m.flip then o.bottom else o.top)
    bottom := m.price (if m.flip then o.top else o.bottom) }

/-! ## Comparisons -/

variable {m}

theorem factor_pos (h : m.flip = false) : 0 < m.factor := by simpa [h] using m.sign

theorem factor_neg (h : m.flip = true) : m.factor < 0 := by simpa [h] using m.sign

theorem factor_ne_zero : m.factor ≠ 0 := by
  cases h : m.flip with
  | false => exact (factor_pos h).ne'
  | true => exact (factor_neg h).ne

theorem abs_factor_pos : 0 < |m.factor| := abs_pos.mpr factor_ne_zero

theorem lt_iff (x y : ℚ) : m.price x < m.price y ↔ if m.flip then y < x else x < y := by
  unfold price
  cases h : m.flip with
  | false => simpa using mul_lt_mul_iff_right₀ (factor_pos h)
  | true => simpa using mul_lt_mul_left_of_neg (factor_neg h)

theorem le_iff (x y : ℚ) : m.price x ≤ m.price y ↔ if m.flip then y ≤ x else x ≤ y := by
  rw [← not_lt, lt_iff]
  cases m.flip <;> simp

theorem price_sub (x y : ℚ) : m.price x - m.price y = m.factor * (x - y) := by
  unfold price
  ring

theorem abs_price_sub (x y : ℚ) : |m.price x - m.price y| = |m.factor| * |x - y| := by
  rw [price_sub, abs_mul]

/-- A gap from one price up to another, of at least some size. -/
theorem gap_iff (x y minGap : ℚ) :
    m.price x < m.price y ∧ |m.factor| * minGap ≤ m.price y - m.price x ↔
      if m.flip then y < x ∧ minGap ≤ x - y else x < y ∧ minGap ≤ y - x := by
  rw [lt_iff, price_sub]
  cases h : m.flip with
  | false =>
    rw [abs_of_pos (factor_pos h), mul_le_mul_iff_right₀ (factor_pos h)]
    rfl
  | true =>
    rw [abs_of_neg (factor_neg h), ← neg_sub x y, mul_neg, ← neg_mul,
      mul_le_mul_iff_right₀ (neg_pos.mpr (factor_neg h))]
    rfl

@[simp] theorem dir_dir (d : Direction) : m.dir (m.dir d) = d := by
  unfold dir
  cases m.flip <;> cases d <;> rfl

@[simp] theorem kind_kind (κ : SwingType) : m.kind (m.kind κ) = κ := by
  unfold kind
  cases m.flip <;> cases κ <;> rfl

theorem dir_inj {d d' : Direction} : m.dir d = m.dir d' ↔ d = d' := by
  constructor
  · intro h
    rw [← m.dir_dir d, h, m.dir_dir]
  · rintro rfl; rfl

theorem level_eq (κ : SwingType) (b : Bar) : (m.kind κ).level (m.bar b) = m.price (κ.level b) := by
  cases h : m.flip <;> cases κ <;> simp [kind, bar, h, SwingType.level, SwingType.other]

theorem beyond_iff (κ : SwingType) (p : ℚ) (b : Bar) :
    (m.kind κ).Beyond (m.price p) (m.bar b) ↔ κ.Beyond p b := by
  cases h : m.flip <;> cases κ <;>
    simp [kind, bar, h, SwingType.Beyond, SwingType.other, lt_iff]

theorem respects_iff (κ : SwingType) (p x : ℚ) :
    (m.kind κ).Respects (m.price p) (m.price x) ↔ κ.Respects p x := by
  cases h : m.flip <;> cases κ <;> simp [kind, h, SwingType.Respects, SwingType.other, le_iff]

/-- A rescaled candle is contained as the candle is. -/
theorem valid_iff (b : Bar) : (m.bar b).Valid ↔ b.Valid := by
  cases h : m.flip <;>
    simp only [Bar.Valid, bar, h, Bool.false_eq_true, ↓reduceIte, lt_max_iff, min_lt_iff, lt_iff]
  tauto

theorem ohlcValid_iff (bars : List Bar) : OhlcValid (bars.map m.bar) ↔ OhlcValid bars := by
  simp only [OhlcValid, List.forall_mem_map, valid_iff]

end Rescaling

/-! ## Swings -/

instance (κ : SwingType) (p : ℚ) (b : Bar) : Decidable (κ.Beyond p b) :=
  match κ with
  | .high => inferInstanceAs (Decidable (b.high < p))
  | .low => inferInstanceAs (Decidable (p < b.low))

instance (κ : SwingType) (p x : ℚ) : Decidable (κ.Respects p x) :=
  match κ with
  | .high => inferInstanceAs (Decidable (x ≤ p))
  | .low => inferInstanceAs (Decidable (p ≤ x))

theorem filter_ite_singleton {α : Type} {P : Prop} [Decidable P] (p : α → Bool) (a : α) :
    (if P then [a] else []).filter p = if P ∧ p a then [a] else [] := by
  by_cases hP : P <;> cases ha : p a <;> simp [hP, ha]

/-- The swings of one kind at index `i`. -/
theorem swingsAt_filter (bars : List Bar) (k i : Nat) (κ : SwingType) :
    (swingsAt bars k i).filter (·.kind = κ) =
      match bars[i]? with
      | none => []
      | some c =>
        if (∀ b ∈ (bars.drop (i - k)).take k, κ.Beyond (κ.level c) b) ∧
            ∀ b ∈ (bars.drop (i + 1)).take k, κ.Beyond (κ.level c) b then
          [⟨i, c.time, κ.level c, κ, some (i + k)⟩] else [] := by
  unfold swingsAt
  cases bars[i]? with
  | none => rfl
  | some c =>
    simp only [List.filter_append, filter_ite_singleton]
    cases κ with
    | high =>
      rw [if_neg (c := _ ∧ decide (SwingType.low = .high) = true) (by simp), List.append_nil]
      exact if_congr (and_iff_left rfl) rfl rfl
    | low =>
      rw [if_neg (c := _ ∧ decide (SwingType.high = .low) = true) (by simp), List.nil_append]
      exact if_congr (and_iff_left rfl) rfl rfl

namespace Rescaling

variable {m : Rescaling}

theorem swingsAt_rescale (bars : List Bar) (k i : Nat) (κ : SwingType) :
    (swingsAt (bars.map m.bar) k i).filter (·.kind = m.kind κ) =
      ((swingsAt bars k i).filter (·.kind = κ)).map m.swing := by
  rw [swingsAt_filter, swingsAt_filter, List.getElem?_map]
  cases bars[i]? with
  | none => rfl
  | some c =>
    simp only [Option.map_some, ← List.map_drop, ← List.map_take, List.forall_mem_map, level_eq,
      beyond_iff]
    split <;> rfl

/-- The swings of one kind. -/
theorem findSwingPoints_filter (bars : List Bar) (lookback : Int) (κ : SwingType) :
    (findSwingPoints (bars.map m.bar) lookback).filter (·.kind = m.kind κ) =
      ((findSwingPoints bars lookback).filter (·.kind = κ)).map m.swing := by
  by_cases hlb : lookback < 1
  · rw [findSwingPoints_of_lt_one _ hlb, findSwingPoints_of_lt_one _ hlb]
    rfl
  obtain ⟨k, rfl⟩ : ∃ k : Nat, lookback = k := ⟨lookback.toNat, by omega⟩
  have hk : 1 ≤ k := by omega
  rw [findSwingPoints_eq _ hk, findSwingPoints_eq _ hk, List.length_map, List.filter_flatMap,
    List.filter_flatMap, List.map_flatMap]
  exact List.flatMap_congr fun i _ => swingsAt_rescale bars k i κ

/-! ## Structure -/

variable (m) in
/-- The state with the protected swings exchanged as the kinds are. -/
def state (st : StructureState) : StructureState :=
  ⟨st.trend.map m.dir, (st.protectedOf (m.kind .high)).map m.swing,
    (st.protectedOf (m.kind .low)).map m.swing⟩

theorem state_protectedOf (st : StructureState) (κ : SwingType) :
    (m.state st).protectedOf (m.kind κ) = (st.protectedOf κ).map m.swing := by
  have h : ∀ κ', (m.state st).protectedOf κ' = (st.protectedOf (m.kind κ')).map m.swing := by
    intro κ'
    cases κ' <;> rfl
  rw [h, kind_kind]

theorem confirmedOn_filter {swings swings' : List SwingPoint}
    (hs : ∀ κ, swings'.filter (·.kind = m.kind κ) = (swings.filter (·.kind = κ)).map m.swing)
    (i : Nat) (κ : SwingType) :
    (confirmedOn swings' i).filter (·.kind = m.kind κ) =
      ((confirmedOn swings i).filter (·.kind = κ)).map m.swing := by
  unfold confirmedOn
  rw [List.filter_comm, hs, List.filter_map, List.filter_comm]
  rfl

theorem learnAll_rescale {swings swings' : List SwingPoint}
    (hs : ∀ κ, swings'.filter (·.kind = m.kind κ) = (swings.filter (·.kind = κ)).map m.swing)
    (st : StructureState) (i : Nat) :
    (m.state st).learnAll swings' i = m.state (st.learnAll swings i) := by
  refine StructureState.ext_protected ?_ fun κ => ?_
  · simp only [StructureState.learnAll_trend, state]
  · rw [← m.kind_kind κ]
    generalize m.kind κ = κ'
    rw [StructureState.learnAll_protectedOf, confirmedOn_filter hs, state_protectedOf,
      state_protectedOf, StructureState.learnAll_protectedOf, List.getLast?_map, Option.map_or]

end Rescaling

/-- The protected swing of the kind that the bar closes beyond. -/
def StructureState.brokeOf (st : StructureState) (bar : Bar) (κ : SwingType) : Option SwingPoint :=
  (st.protectedOf κ).filter (fun s => ¬ κ.Respects s.price bar.close)

theorem StructureState.brokeHigh_eq (st : StructureState) (bar : Bar) :
    st.brokeHigh bar = st.brokeOf bar .high := by
  simp only [brokeHigh, brokeOf, protectedOf, SwingType.Respects, not_le]

theorem StructureState.brokeLow_eq (st : StructureState) (bar : Bar) :
    st.brokeLow bar = st.brokeOf bar .low := by
  simp only [brokeLow, brokeOf, protectedOf, SwingType.Respects, not_le]

namespace Rescaling

variable {m : Rescaling}

theorem brokeOf_rescale (st : StructureState) (bar : Bar) (κ : SwingType) :
    (m.state st).brokeOf (m.bar bar) (m.kind κ) = (st.brokeOf bar κ).map m.swing := by
  unfold StructureState.brokeOf
  rw [state_protectedOf]
  cases st.protectedOf κ with
  | none => rfl
  | some s =>
    have h : (m.kind κ).Respects (m.swing s).price (m.bar bar).close ↔
        κ.Respects s.price bar.close := respects_iff κ s.price bar.close
    by_cases hr : κ.Respects s.price bar.close <;> simp [Option.filter, h, hr]

/-- The break that counts. Upside down the branches change places, which matters only if both
levels are broken. -/
theorem chooseBreak_rescale (bar : Bar) {bh bl : Option SwingPoint}
    (hone : m.flip = true → bh = none ∨ bl = none) :
    chooseBreak (m.bar bar) ((if m.flip then bl else bh).map m.swing)
        ((if m.flip then bh else bl).map m.swing) =
      (chooseBreak bar bh bl).map fun p => (m.dir p.1, m.swing p.2) := by
  cases hf : m.flip with
  | true =>
    rcases hone hf with rfl | rfl
    · cases bl <;> simp [chooseBreak, dir, hf, Direction.opposite]
    · cases bh <;> simp [chooseBreak, dir, hf, Direction.opposite]
  | false =>
    cases bh with
    | none => cases bl <;> simp [chooseBreak, dir, hf]
    | some h =>
      cases bl with
      | none => simp [chooseBreak, dir, hf]
      | some l =>
        have hcmp : |(m.bar bar).close - (m.swing l).price| ≤ |(m.bar bar).close - (m.swing h).price| ↔
            |bar.close - l.price| ≤ |bar.close - h.price| := by
          have hclose : (m.bar bar).close = m.price bar.close := rfl
          have hprice : ∀ s, (m.swing s).price = m.price s.price := fun _ => rfl
          rw [hclose, hprice, hprice, abs_price_sub, abs_price_sub]
          exact mul_le_mul_iff_right₀ abs_factor_pos
        simp only [Bool.false_eq_true, ↓reduceIte, Option.map_some, chooseBreak, hcmp]
        split <;> simp [dir, hf]

theorem emitBreak_rescale (st : StructureState) (i : Nat) (bar : Bar)
    (brk : Option (Direction × SwingPoint)) :
    emitBreak (m.state st) i (m.bar bar) (brk.map fun p => (m.dir p.1, m.swing p.2)) =
      (m.state (emitBreak st i bar brk).1, (emitBreak st i bar brk).2.map m.event) := by
  have htrend : ∀ d, (st.trend.map m.dir = some (m.dir d)) = (st.trend = some d) := by
    intro d
    cases st.trend <;> simp [dir_inj]
  cases brk with
  | none => rfl
  | some p =>
    obtain ⟨d, s⟩ := p
    have h1 := htrend .bullish
    have h2 := htrend .bearish
    cases hf : m.flip <;> cases d <;>
      simp [emitBreak, state, event, Rescaling.bar, dir, kind, hf, Direction.opposite,
        SwingType.other, StructureState.protectedOf] at h1 h2 ⊢ <;> simp [h1, h2]

/-- **One bar.** -/
theorem structureStep_rescale {swings swings' : List SwingPoint}
    (hs : ∀ κ, swings'.filter (·.kind = m.kind κ) = (swings.filter (·.kind = κ)).map m.swing)
    (st : StructureState) (i : Nat) (bar : Bar)
    (hone : m.flip = true → (st.learnAll swings i).brokeHigh bar = none ∨
      (st.learnAll swings i).brokeLow bar = none) :
    structureStep swings' (m.state st) i (m.bar bar) =
      (m.state (structureStep swings st i bar).1,
        (structureStep swings st i bar).2.map m.event) := by
  have hstep : ∀ swings st bar, structureStep swings st i bar =
      emitBreak (st.learnAll swings i) i bar
        (chooseBreak bar ((st.learnAll swings i).brokeHigh bar)
          ((st.learnAll swings i).brokeLow bar)) := fun _ _ _ => rfl
  rw [hstep, hstep, learnAll_rescale hs]
  generalize st.learnAll swings i = st₁ at hone
  have hhigh : (m.state st₁).brokeHigh (m.bar bar) =
      (if m.flip then st₁.brokeLow bar else st₁.brokeHigh bar).map m.swing := by
    have h := m.brokeOf_rescale st₁ bar (m.kind .high)
    rw [kind_kind] at h
    rw [StructureState.brokeHigh_eq, h, StructureState.brokeHigh_eq, StructureState.brokeLow_eq]
    cases hf : m.flip <;> simp [kind, hf, SwingType.other]
  have hlow : (m.state st₁).brokeLow (m.bar bar) =
      (if m.flip then st₁.brokeHigh bar else st₁.brokeLow bar).map m.swing := by
    have h := m.brokeOf_rescale st₁ bar (m.kind .low)
    rw [kind_kind] at h
    rw [StructureState.brokeLow_eq, h, StructureState.brokeHigh_eq, StructureState.brokeLow_eq]
    cases hf : m.flip <;> simp [kind, hf, SwingType.other]
  rw [hhigh, hlow, chooseBreak_rescale bar hone, emitBreak_rescale]

theorem state_init : m.state .init = .init := by
  cases h : m.flip <;> simp [state, kind, h, StructureState.init, StructureState.protectedOf,
    SwingType.other]

/-- **Structure events under a rescaling.** A change of the unit needs nothing of the bars. -/
theorem detectStructureEvents_rescale {bars : List Bar} {lookback : Int}
    (hv : m.flip = true → OhlcValid bars ∧ 1 ≤ lookback) :
    detectStructureEvents (bars.map m.bar) lookback =
      ((detectStructureEvents bars lookback).1.map m.event,
        (detectStructureEvents bars lookback).2.map m.dir) := by
  unfold detectStructureEvents
  rw [List.length_map]
  split
  · rfl
  have h : Machine.stateFrom (structureStep (findSwingPoints (bars.map m.bar) lookback))
        (m.state .init) 0 (bars.map m.bar) =
        m.state (Machine.stateFrom (structureStep (findSwingPoints bars lookback)) .init 0 bars) ∧
      Machine.outputsFrom (structureStep (findSwingPoints (bars.map m.bar) lookback))
        (m.state .init) 0 (bars.map m.bar) =
        (Machine.outputsFrom (structureStep (findSwingPoints bars lookback)) .init 0 bars).map
          m.event :=
    Machine.run_map (f := m.state) (g := m.bar) (h := m.event) (s := .init)
      (I := fun i st => m.flip = true → st.Held bars lookback.toNat i)
      (fun _ => StructureState.held_init bars _)
      (fun j bar st hb hst hf => by
        obtain ⟨hval, hlb⟩ := hv hf
        obtain ⟨k, rfl⟩ : ∃ k : Nat, lookback = k := ⟨lookback.toNat, by omega⟩
        rw [Nat.zero_add] at hst ⊢
        exact (hst hf).step hval (by omega) hb)
      (fun j bar st hb hst => by
        refine structureStep_rescale (findSwingPoints_filter bars lookback) st (0 + j) bar fun hf => ?_
        obtain ⟨hval, hlb⟩ := hv hf
        obtain ⟨k, rfl⟩ : ∃ k : Nat, lookback = k := ⟨lookback.toNat, by omega⟩
        rw [Nat.zero_add] at hst ⊢
        obtain ⟨hj, -⟩ := List.getElem?_eq_some_iff.mp hb
        have hheld := (hst hf).learnAll hval (by omega)
        cases hh : (st.learnAll (findSwingPoints bars k) j).brokeHigh bar with
        | none => exact Or.inl rfl
        | some s => exact Or.inr (hheld.not_both hj.le hh))
  rw [state_init] at h
  simp only [h.1, h.2]
  rfl

/-! ## Displacement -/

theorem range_rescale (b : Bar) :
    (m.bar b).high - (m.bar b).low = |m.factor| * (b.high - b.low) := by
  cases hf : m.flip with
  | false =>
    simp only [Rescaling.bar, hf, Bool.false_eq_true, ↓reduceIte, price_sub, abs_of_pos (factor_pos hf)]
  | true =>
    simp only [Rescaling.bar, hf, ↓reduceIte, price_sub, abs_of_neg (factor_neg hf)]
    ring

theorem averageRange_rescale (bars : List Bar) (endIndex window : Nat) :
    averageRange (bars.map m.bar) endIndex window =
      |m.factor| * averageRange bars endIndex window := by
  simp only [averageRange, ← List.map_take, ← List.map_drop, List.map_eq_nil_iff]
  generalize (bars.take endIndex).drop (endIndex - window) = segment
  split
  · rw [mul_zero]
  · rw [List.map_map, List.length_map, ← mul_div_assoc, ← List.sum_map_mul_left]
    congr 2
    exact List.map_congr_left fun b _ => range_rescale b

/-- **The displacement candles** do not depend on the scale of the prices. -/
theorem isDisplacementCandle_rescale (bars : List Bar) (index : Nat) :
    isDisplacementCandle (bars.map m.bar) index = isDisplacementCandle bars index := by
  unfold isDisplacementCandle
  split
  · rfl
  rw [List.getElem?_map]
  cases bars[index]? with
  | none => rfl
  | some b =>
    have hbody : |(m.bar b).close - (m.bar b).open_| = |m.factor| * |b.close - b.open_| :=
      abs_price_sub b.close b.open_
    have hpos : 0 < |m.factor| := abs_factor_pos
    simp only [Option.map_some, averageRange_rescale, hbody, mul_eq_zero, hpos.ne', false_or]
    have hcmp : 3 / 2 * (|m.factor| * averageRange bars index 14) ≤ |m.factor| * |b.close - b.open_| ↔
        3 / 2 * averageRange bars index 14 ≤ |b.close - b.open_| := by
      rw [mul_left_comm, mul_le_mul_iff_right₀ hpos]
    simp only [hcmp]

/-! ## Fair value gaps -/

/-- The two conditions of a gap exclude each other on OHLC-valid bars. -/
theorem gap_one_sided {p n : Bar} (hp : p.Valid) (hn : n.Valid) (h : p.high < n.low) :
    ¬ n.high < p.low := by
  have h1 := hp.low_le_close
  have h2 := hp.close_le_high
  have h3 := hn.low_le_close
  have h4 := hn.close_le_high
  linarith

theorem gapAt_rescale {bars : List Bar} (hv : m.flip = true → OhlcValid bars) (req : Bool)
    (minGap : ℚ) (i : Nat) :
    gapAt (bars.map m.bar) req (|m.factor| * minGap) i = (gapAt bars req minGap i).map m.gap := by
  unfold gapAt
  simp only [List.getElem?_map, isDisplacementCandle_rescale]
  cases hp : bars[i - 1]? with
  | none => rfl
  | some p =>
    cases hc : bars[i]? with
    | none => rfl
    | some c =>
      cases hn : bars[i + 1]? with
      | none => rfl
      | some n =>
        simp only [Option.map_some]
        by_cases hdisp : (req && !isDisplacementCandle bars i) = true
        · rw [if_pos hdisp, if_pos hdisp]; rfl
        rw [if_neg hdisp, if_neg hdisp]
        cases hf : m.flip with
        | false =>
          simp only [Rescaling.bar, hf, Bool.false_eq_true, ↓reduceIte, gap_iff]
          split
          · simp [gap, dir, hf]
          · split <;> simp [gap, dir, hf]
        | true =>
          simp only [Rescaling.bar, hf, ↓reduceIte, gap_iff]
          have hexcl := gap_one_sided ((hv hf).getElem? hp) ((hv hf).getElem? hn)
          by_cases hup : p.high < n.low ∧ minGap ≤ n.low - p.high
          · have hdown : ¬ (n.high < p.low ∧ minGap ≤ p.low - n.high) := fun h => hexcl hup.1 h.1
            simp [hup, hdown, gap, dir, hf, Direction.opposite]
          · by_cases hdown : n.high < p.low ∧ minGap ≤ p.low - n.high
            · simp [hup, hdown, gap, dir, hf, Direction.opposite]
            · simp [hup, hdown]

theorem fills_rescale (g : FairValueGap) (b : Bar) : (m.gap g).fills (m.bar b) = g.fills b := by
  cases hf : m.flip <;> cases hd : g.direction <;>
    simp [FairValueGap.fills, gap, Rescaling.bar, dir, hf, hd, Direction.opposite, le_iff]

theorem gap_track (bars : List Bar) (g : FairValueGap) :
    (m.gap g).track (bars.map m.bar) = m.gap (g.track bars) := by
  unfold FairValueGap.track
  have hhit : (fun j : Nat => ((bars.map m.bar)[j]?).any (m.gap g).fills) =
      fun j => (bars[j]?).any g.fills := by
    funext j
    rw [List.getElem?_map, Option.any_map]
    congr 1
    funext b
    exact fills_rescale g b
  have hidx : (m.gap g).index = g.index := rfl
  rw [hhit, List.length_map, hidx]
  cases Scan.firstHit (fun j => (bars[j]?).any g.fills) (g.index + 2) bars.length <;> rfl

/-- **Gaps under a rescaling.** -/
theorem detectFairValueGaps_rescale {bars : List Bar} (hv : m.flip = true → OhlcValid bars)
    (req : Bool) (minGap : ℚ) :
    detectFairValueGaps (bars.map m.bar) req (|m.factor| * minGap) =
      (detectFairValueGaps bars req minGap).map m.gap := by
  unfold detectFairValueGaps
  rw [List.length_map, List.map_map, List.map_flatMap, List.map_flatMap]
  refine List.flatMap_congr fun i _ => ?_
  rw [gapAt_rescale hv, List.map_map]
  exact List.map_congr_left fun g _ => gap_track bars g

/-! ## Order blocks -/

theorem validCandidate_rescale (d : Direction) (b : Bar) :
    (m.dir d).validCandidate (m.bar b) = d.validCandidate b := by
  cases hf : m.flip <;> cases d <;>
    simp [Direction.validCandidate, Rescaling.bar, dir, hf, Direction.opposite, lt_iff]

theorem touches_rescale (o : OrderBlock) (b : Bar) : (m.block o).touches (m.bar b) = o.touches b := by
  cases hf : m.flip <;> simp [OrderBlock.touches, block, Rescaling.bar, hf, le_iff, Bool.and_comm]

theorem block_track (bars : List Bar) (o : OrderBlock) :
    (m.block o).track (bars.map m.bar) = m.block (o.track bars) := by
  unfold OrderBlock.track
  have hhit : (fun j : Nat => ((bars.map m.bar)[j]?).any (m.block o).touches) =
      fun j => (bars[j]?).any o.touches := by
    funext j
    rw [List.getElem?_map, Option.any_map]
    congr 1
    funext b
    exact touches_rescale o b
  have hidx : (m.block o).breakIndex = o.breakIndex := rfl
  rw [hhit, List.length_map, hidx]
  cases Scan.firstHit (fun j => (bars[j]?).any o.touches) (o.breakIndex + 1) bars.length <;> rfl

theorem blockCandidate_rescale (bars : List Bar) (w : Int) (e : StructureEvent) :
    blockCandidate (bars.map m.bar) w (m.event e) = blockCandidate bars w e := by
  unfold blockCandidate
  refine Scan.lastHit_congr fun j _ => ?_
  rw [List.getElem?_map, Option.any_map]
  congr 1
  funext b
  exact validCandidate_rescale e.direction b

theorem orderBlockFor_rescale (bars : List Bar) (w : Int) (e : StructureEvent) :
    orderBlockFor (bars.map m.bar) w (m.event e) = (orderBlockFor bars w e).map m.block := by
  unfold orderBlockFor
  have hidx : (m.event e).index = e.index := rfl
  rw [blockCandidate_rescale, isDisplacementCandle_rescale, hidx]
  split
  · rfl
  cases blockCandidate bars w e with
  | none => rfl
  | some j =>
    simp only [List.getElem?_map]
    cases bars[j]? with
    | none => rfl
    | some c =>
      simp only [Option.map_some, ← block_track]
      congr 2

/-- **Order blocks under a rescaling.** -/
theorem detectOrderBlocks_rescale {bars : List Bar} {lookback : Int}
    (hv : m.flip = true → OhlcValid bars ∧ 1 ≤ lookback) (w : Int) :
    detectOrderBlocks (bars.map m.bar) lookback w = (detectOrderBlocks bars lookback w).map m.block := by
  unfold detectOrderBlocks
  rw [detectStructureEvents_rescale hv, List.filterMap_map, List.map_filterMap]
  exact List.filterMap_congr fun e _ => orderBlockFor_rescale bars w e

end Rescaling

/-! ## The mirrored market -/

/-- All prices negated: the high becomes the low. -/
def Bar.mirror (b : Bar) : Bar := ⟨b.time, -b.open_, -b.low, -b.high, -b.close, b.volume⟩

def SwingPoint.mirror (s : SwingPoint) : SwingPoint := { s with price := -s.price, kind := s.kind.other }

def StructureEvent.mirror (e : StructureEvent) : StructureEvent :=
  { e with price := -e.price, direction := e.direction.opposite, brokenSwing := e.brokenSwing.mirror }

def FairValueGap.mirror (g : FairValueGap) : FairValueGap :=
  { g with direction := g.direction.opposite, top := -g.bottom, bottom := -g.top }

def OrderBlock.mirror (o : OrderBlock) : OrderBlock :=
  { o with direction := o.direction.opposite, top := -o.bottom, bottom := -o.top }

namespace Rescaling

theorem mirror_price (p : ℚ) : mirror.price p = -p := by
  show -1 * p = -p
  ring

theorem mirror_flip : mirror.flip = true := rfl

theorem mirror_dir : mirror.dir = Direction.opposite := rfl

theorem mirror_bar : mirror.bar = Bar.mirror := by
  funext b
  simp [Rescaling.bar, Bar.mirror, mirror_price, mirror_flip]

theorem mirror_swing : mirror.swing = SwingPoint.mirror := by
  funext s
  simp [swing, SwingPoint.mirror, mirror_price, kind, mirror_flip]

theorem mirror_event : mirror.event = StructureEvent.mirror := by
  funext e
  simp [event, StructureEvent.mirror, mirror_price, mirror_dir, mirror_swing]

theorem mirror_gap : mirror.gap = FairValueGap.mirror := by
  funext g
  simp [gap, FairValueGap.mirror, mirror_price, mirror_dir, mirror_flip]

theorem mirror_block : mirror.block = OrderBlock.mirror := by
  funext o
  simp [block, OrderBlock.mirror, mirror_price, mirror_dir, mirror_flip]

end Rescaling

/-- **Bullish and bearish detection are mirror images.** On the mirrored bars the structure events
are the mirrored events, one by one and with the same indices and types, the trend is the opposite
one, the displacement candles are the same, and order blocks and gaps are the mirrored ones with the
same mitigation and fill indices. -/
theorem detection_mirrored {bars : List Bar} (hv : OhlcValid bars) {lookback : Int}
    (hk : 1 ≤ lookback) :
    (detectStructureEvents (bars.map Bar.mirror) lookback).1 =
        (detectStructureEvents bars lookback).1.map StructureEvent.mirror ∧
      (detectStructureEvents (bars.map Bar.mirror) lookback).2 =
        (detectStructureEvents bars lookback).2.map Direction.opposite ∧
      (∀ i, isDisplacementCandle (bars.map Bar.mirror) i = isDisplacementCandle bars i) ∧
      (∀ w, detectOrderBlocks (bars.map Bar.mirror) lookback w =
        (detectOrderBlocks bars lookback w).map OrderBlock.mirror) ∧
      ∀ req minGap, detectFairValueGaps (bars.map Bar.mirror) req minGap =
        (detectFairValueGaps bars req minGap).map FairValueGap.mirror := by
  have hevents := Rescaling.mirror.detectStructureEvents_rescale fun _ => ⟨hv, hk⟩
  have hblocks := Rescaling.mirror.detectOrderBlocks_rescale fun _ => ⟨hv, hk⟩
  have hdisp := Rescaling.mirror.isDisplacementCandle_rescale bars
  rw [Rescaling.mirror_bar, Rescaling.mirror_event, Rescaling.mirror_dir] at hevents
  rw [Rescaling.mirror_bar, Rescaling.mirror_block] at hblocks
  rw [Rescaling.mirror_bar] at hdisp
  refine ⟨by rw [hevents], by rw [hevents], hdisp, hblocks, fun req minGap => ?_⟩
  have hgaps := Rescaling.mirror.detectFairValueGaps_rescale (fun _ => hv) req minGap
  have hone : |Rescaling.mirror.factor| * minGap = minGap := by
    show |(-1 : ℚ)| * minGap = minGap
    rw [abs_neg, abs_one, one_mul]
  rwa [Rescaling.mirror_bar, Rescaling.mirror_gap, hone] at hgaps

/-- Four candles, the last of which closes above the swing high of the second one. -/
def breakoutBars : List Bar :=
  [⟨⟨0, 0⟩, 10, 11, 9, 10, 0⟩, ⟨⟨1, 0⟩, 10, 14, 10, 13, 0⟩, ⟨⟨2, 0⟩, 13, 13, 11, 12, 0⟩,
    ⟨⟨3, 0⟩, 12, 16, 12, 15, 0⟩]

theorem breakout_mirrored :
    (detectStructureEvents breakoutBars 1).1.map (·.direction) = [.bullish] ∧
      (detectStructureEvents (breakoutBars.map Bar.mirror) 1).1.map (·.direction) = [.bearish] := by
  have h : (detectStructureEvents breakoutBars 1).1.map (·.direction) = [.bullish] := by
    decide +kernel
  refine ⟨h, ?_⟩
  have hv : OhlcValid breakoutBars := by decide +kernel
  rw [(detection_mirrored hv (by decide)).1, List.map_map]
  have hcomp : (fun e : StructureEvent => e.direction) ∘ StructureEvent.mirror =
      Direction.opposite ∘ (·.direction) := rfl
  rw [hcomp, ← List.map_map, h]
  rfl

end MarketKill3r
