import Mathlib.Data.List.Sort
import Mathlib.Data.Prod.Lex
import MarketKill3r.Engine.Types
import MarketKill3r.Lib.Machine
import MarketKill3r.Lib.Scan

/-!
# Market structure (`app/engine/structure.py`)

* `findSwingPoints`: the strict fractals. A swing at index `i` is confirmed at `i + lookback`.
* `detectStructureEvents`: a machine (`Machine`) that reads the bars. Its state is the trend and
  the two protected swings; it emits a BOS or a CHoCH when a bar closes beyond one of them.
* `mem_findSwingPoints`, `findSwingPoints_take`: what a swing is, and the swings of a prefix.
* `structureStep_cases`: everything one bar can do; the facts about runs use it and not the
  definition.
-/

namespace MarketKill3r

/-! ## Swings -/

/-- The swings at index `i`: the body of the loop of `find_swing_points`. A strict inequality with
every bar of a non-empty slice is one with the slice's `max` (`min`); both slices have `k ≥ 1`
bars at the indices that the loop visits. -/
def swingsAt (bars : List Bar) (k i : Nat) : List SwingPoint :=
  match bars[i]? with
  | none => []
  | some center =>
    let left := (bars.drop (i - k)).take k
    let right := (bars.drop (i + 1)).take k
    (if (∀ b ∈ left, b.high < center.high) ∧ ∀ b ∈ right, b.high < center.high then
      [⟨i, center.time, center.high, .high, some (i + k)⟩] else []) ++
    (if (∀ b ∈ left, center.low < b.low) ∧ ∀ b ∈ right, center.low < b.low then
      [⟨i, center.time, center.low, .low, some (i + k)⟩] else [])

/-- The sort key `(s.confirmed_at or s.index, s.index)`. -/
def SwingPoint.sortKey (s : SwingPoint) : Nat ×ₗ Nat := toLex (s.confirmKey, s.index)

/-- `find_swing_points` -/
def findSwingPoints (bars : List Bar) (lookback : Int) : List SwingPoint :=
  if lookback < 1 ∨ (bars.length : Int) < 2 * lookback + 1 then []
  else
    let k := lookback.toNat
    ((List.range' k (bars.length - k - k)).flatMap (swingsAt bars k)).insertionSort
      (fun s t => s.sortKey ≤ t.sortKey)

/-- `labels[i] = l` on a `dict[int, str]`. -/
def setLabel (labels : Nat → Option StructureLabel) (i : Nat) (l : StructureLabel) :
    Nat → Option StructureLabel :=
  fun j => if j = i then some l else labels j

/-- The state of the loop of `label_swings`. -/
structure LabelState where
  labels : Nat → Option StructureLabel
  lastHigh : Option SwingPoint
  lastLow : Option SwingPoint

/-- The body of the loop of `label_swings`. -/
def labelStep (st : LabelState) (s : SwingPoint) : LabelState :=
  match s.kind with
  | .high =>
    { st with
      labels := match st.lastHigh with
        | none => st.labels
        | some p => setLabel st.labels s.index (if p.price < s.price then .HH else .LH)
      lastHigh := some s }
  | .low =>
    { st with
      labels := match st.lastLow with
        | none => st.labels
        | some p => setLabel st.labels s.index (if p.price < s.price then .HL else .LL)
      lastLow := some s }

/-- `label_swings` -/
def labelSwings (swings : List SwingPoint) : Nat → Option StructureLabel :=
  ((swings.insertionSort (fun s t => s.index ≤ t.index)).foldl labelStep
    ⟨fun _ => none, none, none⟩).labels

/-! ## BOS and CHoCH -/

/-- The state of the loop of `detect_structure_events`. -/
structure StructureState where
  trend : Option Direction
  protectedHigh : Option SwingPoint
  protectedLow : Option SwingPoint
  deriving DecidableEq, Repr

namespace StructureState

/-- The engine learns that the fractal `s` existed. -/
def learn (st : StructureState) (s : SwingPoint) : StructureState :=
  match s.kind with
  | .high => { st with protectedHigh := some s }
  | .low => { st with protectedLow := some s }

/-- `broke_high`, with the swing that is broken. -/
def brokeHigh (st : StructureState) (bar : Bar) : Option SwingPoint :=
  st.protectedHigh.filter (fun s => s.price < bar.close)

/-- `broke_low`, with the swing that is broken. -/
def brokeLow (st : StructureState) (bar : Bar) : Option SwingPoint :=
  st.protectedLow.filter (fun s => bar.close < s.price)

end StructureState

/-- The break that counts: of two, the one that the close is farther from, the high on a tie. -/
def chooseBreak (bar : Bar) : Option SwingPoint → Option SwingPoint → Option (Direction × SwingPoint)
  | some h, some l =>
    if |bar.close - l.price| ≤ |bar.close - h.price| then some (.bullish, h)
    else some (.bearish, l)
  | some h, none => some (.bullish, h)
  | none, some l => some (.bearish, l)
  | none, none => none

/-- The event of a break and the state after it: the broken swing is no longer protected. -/
def emitBreak (st : StructureState) (i : Nat) (bar : Bar) :
    Option (Direction × SwingPoint) → StructureState × List StructureEvent
  | none => (st, [])
  | some (.bullish, broken) =>
    ({ st with trend := some .bullish, protectedHigh := none },
      [⟨if st.trend = some .bearish then .CHOCH else .BOS, i, bar.time, bar.close, .bullish,
        broken⟩])
  | some (.bearish, broken) =>
    ({ st with trend := some .bearish, protectedLow := none },
      [⟨if st.trend = some .bullish then .CHOCH else .BOS, i, bar.time, bar.close, .bearish,
        broken⟩])

/-- `by_confirmation.get(i, [])` -/
def confirmedOn (swings : List SwingPoint) (i : Nat) : List SwingPoint :=
  swings.filter (fun s => s.confirmKey = i)

/-- The body of the loop of `detect_structure_events`. -/
def structureStep (swings : List SwingPoint) (st : StructureState) (i : Nat) (bar : Bar) :
    StructureState × List StructureEvent :=
  let st := (confirmedOn swings i).foldl .learn st
  emitBreak st i bar (chooseBreak bar (st.brokeHigh bar) (st.brokeLow bar))

/-- The state before the first bar. -/
def StructureState.init : StructureState := ⟨none, none, none⟩

/-- `detect_structure_events` -/
def detectStructureEvents (bars : List Bar) (lookback : Int) :
    List StructureEvent × Option Direction :=
  if (bars.length : Int) < 2 * lookback + 2 then ([], none)
  else
    let step := structureStep (findSwingPoints bars lookback)
    (Machine.outputsFrom step .init 0 bars, (Machine.stateFrom step .init 0 bars).trend)

/-! ## What a swing is -/

/-- The price of bar `b` that a swing of the kind reports. -/
def SwingType.level : SwingType → Bar → ℚ
  | .high, b => b.high
  | .low, b => b.low

/-- `p` lies strictly beyond the bar `b`, on the outer side of the kind. -/
def SwingType.Beyond : SwingType → ℚ → Bar → Prop
  | .high, p, b => b.high < p
  | .low, p, b => p < b.low

/-- `s` is a strict fractal of `bars`: bar `s.index` gives its price, and the price is strictly
beyond the `k` bars on each side, all of which exist. -/
structure SwingPoint.Fractal (bars : List Bar) (k : Nat) (s : SwingPoint) : Prop where
  confirmed : s.confirmedAt = some (s.index + k)
  left : k ≤ s.index
  right : s.index + k < bars.length
  center : ∃ b, bars[s.index]? = some b ∧ s.time = b.time ∧ s.price = s.kind.level b
  beyond : ∀ j b, bars[j]? = some b → s.index ≤ j + k → j ≤ s.index + k → j ≠ s.index →
    s.kind.Beyond s.price b

theorem swing_window {bars : List Bar} {k i : Nat} {P : Bar → Prop} (hk : k ≤ i) :
    ((∀ b ∈ (bars.drop (i - k)).take k, P b) ∧ ∀ b ∈ (bars.drop (i + 1)).take k, P b) ↔
      ∀ j b, bars[j]? = some b → i ≤ j + k → j ≤ i + k → j ≠ i → P b := by
  simp only [Scan.mem_slice]
  constructor
  · rintro ⟨hl, hr⟩ j b hb h1 h2 hne
    rcases Nat.lt_or_gt_of_ne hne with h | h
    · exact hl b ⟨j, by omega, by omega, hb⟩
    · exact hr b ⟨j, by omega, by omega, hb⟩
  · intro h
    constructor
    · rintro b ⟨j, h1, h2, hb⟩
      exact h j b hb (by omega) (by omega) (by omega)
    · rintro b ⟨j, h1, h2, hb⟩
      exact h j b hb (by omega) (by omega) (by omega)

/-- A fractal whose bars on the right may be missing: no bar of the list excludes `s`. -/
structure SwingPoint.Possible (bars : List Bar) (k : Nat) (s : SwingPoint) : Prop where
  confirmed : s.confirmedAt = some (s.index + k)
  left : k ≤ s.index
  center : ∃ b, bars[s.index]? = some b ∧ s.time = b.time ∧ s.price = s.kind.level b
  beyond : ∀ j b, bars[j]? = some b → s.index ≤ j + k → j ≤ s.index + k → j ≠ s.index →
    s.kind.Beyond s.price b

theorem SwingPoint.fractal_iff {bars : List Bar} {k : Nat} {s : SwingPoint} :
    s.Fractal bars k ↔ s.Possible bars k ∧ s.index + k < bars.length :=
  ⟨fun h => ⟨⟨h.confirmed, h.left, h.center, h.beyond⟩, h.right⟩,
   fun ⟨h, hr⟩ => ⟨h.confirmed, h.left, hr, h.center, h.beyond⟩⟩

/-- The slices of `swingsAt` stop at the end of the list. -/
theorem mem_swingsAt_possible {bars : List Bar} {k i : Nat} (hk : k ≤ i) {s : SwingPoint} :
    s ∈ swingsAt bars k i ↔ s.index = i ∧ s.Possible bars k := by
  unfold swingsAt
  cases hc : bars[i]? with
  | none =>
    constructor
    · intro h
      cases h
    · rintro ⟨rfl, h⟩
      obtain ⟨b, hb, -⟩ := h.center
      simp [hc] at hb
  | some c =>
    simp only [List.mem_append, List.mem_ite_nil_right, List.mem_singleton]
    constructor
    · rintro (⟨hw, rfl⟩ | ⟨hw, rfl⟩)
      · exact ⟨rfl, rfl, hk, ⟨c, hc, rfl, rfl⟩, (swing_window (P := (·.high < c.high)) hk).mp hw⟩
      · exact ⟨rfl, rfl, hk, ⟨c, hc, rfl, rfl⟩, (swing_window (P := (c.low < ·.low)) hk).mp hw⟩
    · obtain ⟨j, t, p, kind, conf⟩ := s
      rintro ⟨rfl, hconf, -, ⟨b, hb, ht, hp⟩, hw⟩
      obtain rfl : c = b := by simpa [hc] using hb
      simp only at hconf ht hp
      subst hconf ht hp
      cases kind
      · exact Or.inl ⟨(swing_window (P := (·.high < c.high)) hk).mpr hw, rfl⟩
      · exact Or.inr ⟨(swing_window (P := (c.low < ·.low)) hk).mpr hw, rfl⟩

theorem mem_swingsAt {bars : List Bar} {k i : Nat} (hk : k ≤ i) (hi : i + k < bars.length)
    {s : SwingPoint} : s ∈ swingsAt bars k i ↔ s.index = i ∧ s.Fractal bars k := by
  rw [mem_swingsAt_possible hk, SwingPoint.fractal_iff]
  constructor
  · rintro ⟨rfl, h⟩
    exact ⟨rfl, h, hi⟩
  · rintro ⟨rfl, h, -⟩
    exact ⟨rfl, h⟩

theorem swingsAt_index {bars : List Bar} {k i : Nat} {s : SwingPoint} (h : s ∈ swingsAt bars k i) :
    s.index = i ∧ s.confirmedAt = some (i + k) := by
  unfold swingsAt at h
  split at h
  · simp at h
  · rcases List.mem_append.mp h with h | h
    all_goals
      split at h
      · rw [List.mem_singleton] at h; subst h; exact ⟨rfl, rfl⟩
      · simp at h

theorem SwingPoint.confirmKey_of_pos {s : SwingPoint} {c : Nat} (h : s.confirmedAt = some c)
    (hc : 0 < c) : s.confirmKey = c := by
  obtain ⟨n, rfl⟩ := Nat.exists_eq_succ_of_ne_zero (Nat.pos_iff_ne_zero.mp hc)
  simp [SwingPoint.confirmKey, h]

theorem findSwingPoints_of_lt_one (bars : List Bar) {lookback : Int} (h : lookback < 1) :
    findSwingPoints bars lookback = [] := by
  rw [findSwingPoints, if_pos (Or.inl h)]

/-- The loop of `find_swing_points` already collects the swings in sort order, so the final
`sorted` changes nothing; and the length guard only skips an empty range. -/
theorem findSwingPoints_eq (bars : List Bar) {k : Nat} (hk : 1 ≤ k) :
    findSwingPoints bars k =
      (List.range' k (bars.length - k - k)).flatMap (swingsAt bars k) := by
  unfold findSwingPoints
  split
  · rename_i h
    rw [show bars.length - k - k = 0 by omega]
    rfl
  · rw [Int.toNat_natCast]
    apply List.Pairwise.insertionSort_eq
    have hkey : ∀ i, ∀ s ∈ swingsAt bars k i, s.sortKey = toLex (i + k, i) := by
      intro i s hs
      obtain ⟨hidx, hconf⟩ := swingsAt_index hs
      rw [SwingPoint.sortKey, SwingPoint.confirmKey_of_pos hconf (by omega), hidx]
    rw [List.pairwise_flatMap]
    constructor
    · intro i _
      refine List.pairwise_of_forall_mem_list fun s hs t ht => ?_
      rw [hkey i s hs, hkey i t ht]
    · refine List.Pairwise.imp ?_ List.pairwise_lt_range'
      intro i j hij s hs t ht
      rw [hkey i s hs, hkey j t ht, Prod.Lex.toLex_le_toLex]
      exact Or.inl (by omega)

/-- **What `find_swing_points` returns**: the strict fractals of the list. -/
theorem mem_findSwingPoints {bars : List Bar} {k : Nat} (hk : 1 ≤ k) {s : SwingPoint} :
    s ∈ findSwingPoints bars k ↔ s.Fractal bars k := by
  rw [findSwingPoints_eq bars hk, List.mem_flatMap]
  constructor
  · rintro ⟨i, hi, hs⟩
    rw [List.mem_range'_1] at hi
    exact ((mem_swingsAt hi.1 (by omega)).mp hs).2
  · intro h
    have h1 := h.left
    have h2 := h.right
    exact ⟨s.index, List.mem_range'_1.mpr ⟨h1, by omega⟩, (mem_swingsAt h1 h2).mpr ⟨rfl, h⟩⟩

theorem SwingPoint.Fractal.confirmKey {bars : List Bar} {k : Nat} {s : SwingPoint} (hk : 1 ≤ k)
    (h : s.Fractal bars k) : s.confirmKey = s.index + k :=
  confirmKey_of_pos h.confirmed (by omega)

/-! ## What one bar can do -/

/-- The state in which bar `i` is judged: the swings that it confirms are known. -/
def StructureState.learnAll (st : StructureState) (swings : List SwingPoint) (i : Nat) :
    StructureState := (confirmedOn swings i).foldl .learn st

theorem StructureState.learn_trend (st : StructureState) (s : SwingPoint) :
    (st.learn s).trend = st.trend := by
  unfold learn
  split <;> rfl

theorem StructureState.learnAll_trend (st : StructureState) (swings : List SwingPoint) (i : Nat) :
    (st.learnAll swings i).trend = st.trend := by
  refine List.foldlRecOn (confirmedOn swings i) learn (motive := fun st' => st'.trend = st.trend) rfl
    fun st' h s _ => ?_
  rw [learn_trend, h]

/-- Everything that bar `i` can do: nothing, because it closes beyond no protected swing, or break
one of the two. -/
theorem structureStep_cases (swings : List SwingPoint) (st : StructureState) (i : Nat) (bar : Bar) :
    let st₁ := st.learnAll swings i
    (structureStep swings st i bar = (st₁, []) ∧
      st₁.brokeHigh bar = none ∧ st₁.brokeLow bar = none) ∨
    (∃ h, st₁.protectedHigh = some h ∧ h.price < bar.close ∧
      structureStep swings st i bar =
        ({ st₁ with trend := some .bullish, protectedHigh := none },
          [⟨if st₁.trend = some .bearish then .CHOCH else .BOS, i, bar.time, bar.close, .bullish,
            h⟩])) ∨
    (∃ l, st₁.protectedLow = some l ∧ bar.close < l.price ∧
      structureStep swings st i bar =
        ({ st₁ with trend := some .bearish, protectedLow := none },
          [⟨if st₁.trend = some .bullish then .CHOCH else .BOS, i, bar.time, bar.close, .bearish,
            l⟩])) := by
  intro st₁
  have hhigh : ∀ h, st₁.brokeHigh bar = some h → st₁.protectedHigh = some h ∧ h.price < bar.close := by
    intro h hh
    simpa [StructureState.brokeHigh, Option.filter_eq_some_iff] using hh
  have hlow : ∀ l, st₁.brokeLow bar = some l → st₁.protectedLow = some l ∧ bar.close < l.price := by
    intro l hl
    simpa [StructureState.brokeLow, Option.filter_eq_some_iff] using hl
  have hstep : structureStep swings st i bar =
      emitBreak st₁ i bar (chooseBreak bar (st₁.brokeHigh bar) (st₁.brokeLow bar)) := rfl
  cases hh : st₁.brokeHigh bar with
  | none =>
    cases hl : st₁.brokeLow bar with
    | none =>
      left
      rw [hstep, hh, hl]
      exact ⟨rfl, rfl, rfl⟩
    | some l =>
      right; right
      rw [hstep, hh, hl]
      exact ⟨l, (hlow l hl).1, (hlow l hl).2, rfl⟩
  | some h =>
    cases hl : st₁.brokeLow bar with
    | none =>
      right; left
      rw [hstep, hh, hl]
      exact ⟨h, (hhigh h hh).1, (hhigh h hh).2, rfl⟩
    | some l =>
      right
      rw [hstep, hh, hl]
      by_cases hc : |bar.close - l.price| ≤ |bar.close - h.price|
      · left
        simp only [chooseBreak, if_pos hc]
        exact ⟨h, (hhigh h hh).1, (hhigh h hh).2, rfl⟩
      · right
        simp only [chooseBreak, if_neg hc]
        exact ⟨l, (hlow l hl).1, (hlow l hl).2, rfl⟩

/-- The protected swings are swings of the list, of the right kind, confirmed before bar `i`. -/
structure StructureState.Known (swings : List SwingPoint) (i : Nat) (st : StructureState) : Prop where
  high : ∀ h, st.protectedHigh = some h → h ∈ swings ∧ h.kind = .high ∧ h.confirmKey < i
  low : ∀ l, st.protectedLow = some l → l ∈ swings ∧ l.kind = .low ∧ l.confirmKey < i

theorem StructureState.Known.learn {swings : List SwingPoint} {i : Nat} {st : StructureState}
    (h : st.Known swings i) {s : SwingPoint} (hs : s ∈ swings) (hk : s.confirmKey < i) :
    (st.learn s).Known swings i := by
  unfold StructureState.learn
  split
  · rename_i hkind
    refine ⟨fun t ht => ?_, h.low⟩
    obtain rfl : s = t := by simpa using ht
    exact ⟨hs, hkind, hk⟩
  · rename_i hkind
    refine ⟨h.high, fun t ht => ?_⟩
    obtain rfl : s = t := by simpa using ht
    exact ⟨hs, hkind, hk⟩

theorem StructureState.Known.learnAll {swings : List SwingPoint} {i : Nat} {st : StructureState}
    (h : st.Known swings i) : (st.learnAll swings i).Known swings (i + 1) := by
  have h' : st.Known swings (i + 1) :=
    ⟨fun s hs => let ⟨h1, h2, h3⟩ := h.high s hs; ⟨h1, h2, by omega⟩,
     fun s hs => let ⟨h1, h2, h3⟩ := h.low s hs; ⟨h1, h2, by omega⟩⟩
  refine List.foldlRecOn (confirmedOn swings i) StructureState.learn h' fun st hst s hs => ?_
  obtain ⟨hs, hk⟩ := List.mem_filter.mp hs
  exact hst.learn hs (by simp only [decide_eq_true_eq] at hk; omega)

theorem StructureState.Known.step {swings : List SwingPoint} {i : Nat} {st : StructureState}
    (h : st.Known swings i) (bar : Bar) :
    (structureStep swings st i bar).1.Known swings (i + 1) := by
  have h₁ := h.learnAll
  obtain ⟨e, -, -⟩ | ⟨s, -, -, e⟩ | ⟨s, -, -, e⟩ := structureStep_cases swings st i bar
  · rw [e]; exact h₁
  · rw [e]; exact ⟨fun _ hs => by simp at hs, h₁.low⟩
  · rw [e]; exact ⟨h₁.high, fun _ hs => by simp at hs⟩

/-- The protected swings before bar `i` of a run. -/
theorem structure_known (swings : List SwingPoint) (bars : List Bar) {i : Nat} (hi : i ≤ bars.length) :
    (Machine.stateFrom (structureStep swings) .init 0 (bars.take i)).Known swings i :=
  Machine.run_invariant (structureStep swings) (fun i st => st.Known swings i)
    ⟨fun _ h => by simp [StructureState.init] at h, fun _ h => by simp [StructureState.init] at h⟩
    (fun _ bar _ _ hst => hst.step bar) i hi

/-! ## What an event is -/

/-- The swing `s` is one that a break in direction `d` closes beyond. -/
def Direction.Crosses : Direction → Bar → SwingPoint → Prop
  | .bullish, bar, s => s.kind = .high ∧ s.price < bar.close
  | .bearish, bar, s => s.kind = .low ∧ bar.close < s.price

theorem structureStep_out {swings : List SwingPoint} {st : StructureState} {i : Nat} {bar : Bar}
    (hk : st.Known swings i) {e : StructureEvent} (he : e ∈ (structureStep swings st i bar).2) :
    e.index = i ∧ e.time = bar.time ∧ e.price = bar.close ∧ e.brokenSwing ∈ swings ∧
      e.brokenSwing.confirmKey ≤ i ∧ e.direction.Crosses bar e.brokenSwing := by
  have hk₁ := hk.learnAll
  obtain ⟨h, -, -⟩ | ⟨s, hs, hp, h⟩ | ⟨s, hs, hp, h⟩ := structureStep_cases swings st i bar
  · rw [h] at he; cases he
  · rw [h, List.mem_singleton] at he
    subst he
    obtain ⟨h1, h2, h3⟩ := hk₁.high s hs
    exact ⟨rfl, rfl, rfl, h1, by simp only; omega, h2, hp⟩
  · rw [h, List.mem_singleton] at he
    subst he
    obtain ⟨h1, h2, h3⟩ := hk₁.low s hs
    exact ⟨rfl, rfl, rfl, h1, by simp only; omega, h2, hp⟩

theorem structureStep_index (swings : List SwingPoint) (st : StructureState) (i : Nat) (bar : Bar) :
    ∀ e ∈ (structureStep swings st i bar).2, e.index = i := by
  intro e he
  obtain ⟨h, -, -⟩ | ⟨s, -, -, h⟩ | ⟨s, -, -, h⟩ := structureStep_cases swings st i bar
  all_goals rw [h] at he
  · cases he
  · rw [List.mem_singleton] at he; subst he; rfl
  · rw [List.mem_singleton] at he; subst he; rfl

/-- **What a structure event is**: bar `e.index` closes beyond `e.brokenSwing`, a confirmed swing
of the kind that the direction breaks. -/
theorem event_spec {bars : List Bar} {lookback : Int} {e : StructureEvent}
    (he : e ∈ (detectStructureEvents bars lookback).1) :
    ∃ bar, bars[e.index]? = some bar ∧ e.time = bar.time ∧ e.price = bar.close ∧
      e.brokenSwing ∈ findSwingPoints bars lookback ∧ e.brokenSwing.confirmKey ≤ e.index ∧
      e.direction.Crosses bar e.brokenSwing := by
  unfold detectStructureEvents at he
  split at he
  · cases he
  · obtain ⟨j, bar, hb, he⟩ := Machine.mem_run.mp he
    obtain ⟨hj, -⟩ := List.getElem?_eq_some_iff.mp hb
    obtain ⟨h1, h2, h3, h4, h5, h6⟩ :=
      structureStep_out (structure_known _ bars (Nat.le_of_lt hj)) he
    exact ⟨bar, by rwa [h1], h2, h3, h4, by omega, h6⟩

/-- A swing is broken after the bar that confirms it: on OHLC-valid bars its neighbours, the
confirming bar included, close strictly inside it. -/
theorem event_after_confirmation {bars : List Bar} (hv : OhlcValid bars) {k : Nat} (hk : 1 ≤ k)
    {e : StructureEvent} (he : e ∈ (detectStructureEvents bars k).1) :
    e.brokenSwing.index + k < e.index := by
  obtain ⟨bar, hb, -, -, hs, hc, hx⟩ := event_spec he
  have hf := (mem_findSwingPoints hk).mp hs
  rw [hf.confirmKey hk] at hc
  refine Nat.lt_of_le_of_ne hc fun heq => ?_
  have hbeyond := hf.beyond e.index bar hb (by omega) (by omega) (by omega)
  have hbar := hv.getElem? hb
  have h1 := hbar.close_le_high
  have h2 := hbar.low_le_close
  cases hd : e.direction with
  | bullish =>
    simp only [hd, Direction.Crosses] at hx
    simp only [hx.1, SwingType.Beyond] at hbeyond
    linarith [hx.2]
  | bearish =>
    simp only [hd, Direction.Crosses] at hx
    simp only [hx.1, SwingType.Beyond] at hbeyond
    linarith [hx.2]

/-- The trend after a bar is the direction of its event, or the trend before it. -/
theorem structureStep_trend (swings : List SwingPoint) (st : StructureState) (i : Nat) (bar : Bar) :
    (structureStep swings st i bar).1.trend =
      ((structureStep swings st i bar).2.getLast?.map (·.direction)).or st.trend := by
  obtain ⟨h, -, -⟩ | ⟨s, -, -, h⟩ | ⟨s, -, -, h⟩ := structureStep_cases swings st i bar
  all_goals simp [h, StructureState.learnAll_trend]

/-- The returned trend is the direction of the last event. -/
theorem detectStructureEvents_trend (bars : List Bar) (lookback : Int) :
    (detectStructureEvents bars lookback).2 =
      (detectStructureEvents bars lookback).1.getLast?.map (·.direction) := by
  unfold detectStructureEvents
  split
  · rfl
  · have h := Machine.stateFrom_last (structureStep (findSwingPoints bars lookback))
      (·.trend) (·.direction) (structureStep_trend _) .init 0 bars
    simpa [StructureState.init] using h

/-! ## No look-ahead -/

theorem swingsAt_take {bars : List Bar} {k i n : Nat} (hi : i + k < n) :
    swingsAt (bars.take n) k i = swingsAt bars k i := by
  unfold swingsAt
  rw [List.getElem?_take_of_lt (by omega)]
  cases bars[i]? with
  | none => rfl
  | some center =>
    by_cases hk : k ≤ i
    · simp only [Scan.slice_take (show i - k + k ≤ n by omega),
        Scan.slice_take (show i + 1 + k ≤ n by omega)]
    · rw [show i - k = 0 by omega]
      simp only [Scan.slice_take (show 0 + k ≤ n by omega),
        Scan.slice_take (show i + 1 + k ≤ n by omega)]

/-- The swings of a prefix are the swings confirmed within it. -/
theorem findSwingPoints_take (bars : List Bar) (lookback : Int) (n : Nat) :
    findSwingPoints (bars.take n) lookback =
      (findSwingPoints bars lookback).filter (fun s => s.confirmedAt.any (· < n)) := by
  by_cases hlb : lookback < 1
  · rw [findSwingPoints_of_lt_one _ hlb, findSwingPoints_of_lt_one _ hlb, List.filter_nil]
  obtain ⟨k, rfl⟩ : ∃ k : Nat, lookback = k := ⟨lookback.toNat, by omega⟩
  have hk : 1 ≤ k := by omega
  rw [findSwingPoints_eq _ hk, findSwingPoints_eq _ hk, List.length_take]
  rw [Scan.filter_flatMap_range' (min n bars.length - k - k) (by omega)]
  · refine List.flatMap_congr fun i hi => swingsAt_take ?_
    rw [List.mem_range'_1] at hi
    omega
  · intro i h1 h2 s hs
    rw [(swingsAt_index hs).2]
    simp only [Option.any_some, decide_eq_true_eq]
    omega
  · intro i h1 h2 s hs
    rw [(swingsAt_index hs).2]
    simp only [Option.any_some, decide_eq_true_eq]
    omega

theorem confirmedOn_take {bars : List Bar} {lookback : Int} {n i : Nat} (hi : i < n) :
    confirmedOn (findSwingPoints (bars.take n) lookback) i =
      confirmedOn (findSwingPoints bars lookback) i := by
  unfold confirmedOn
  rw [findSwingPoints_take, List.filter_filter]
  refine List.filter_congr fun s hs => ?_
  by_cases hlb : lookback < 1
  · rw [findSwingPoints_of_lt_one _ hlb] at hs; cases hs
  obtain ⟨k, rfl⟩ : ∃ k : Nat, lookback = k := ⟨lookback.toNat, by omega⟩
  have hf := (mem_findSwingPoints (by omega)).mp hs
  rw [hf.confirmKey (by omega), hf.confirmed]
  by_cases hi' : s.index + k = i
  · simp [hi', hi]
  · simp [hi']

/-- A bar before position `n` makes the same step in the run on the prefix. -/
theorem structureStep_take {bars : List Bar} {lookback : Int} {n i : Nat} (hi : i < n)
    (st : StructureState) (bar : Bar) :
    structureStep (findSwingPoints (bars.take n) lookback) st i bar =
      structureStep (findSwingPoints bars lookback) st i bar := by
  unfold structureStep
  rw [confirmedOn_take hi]

/-- **The events of a prefix** are the events within it. -/
theorem detectStructureEvents_take {bars : List Bar} (hv : OhlcValid bars) (lookback : Int) (n : Nat) :
    (detectStructureEvents (bars.take n) lookback).1 =
      (detectStructureEvents bars lookback).1.filter (fun e => e.index < n) := by
  have hevents : ∀ e ∈ (detectStructureEvents bars lookback).1, 2 * lookback + 1 ≤ e.index := by
    intro e he
    by_cases hlb : lookback < 1
    · obtain ⟨_, _, _, _, hs, -⟩ := event_spec he
      rw [findSwingPoints_of_lt_one _ hlb] at hs
      cases hs
    obtain ⟨k, rfl⟩ : ∃ k : Nat, lookback = k := ⟨lookback.toNat, by omega⟩
    have h1 := event_after_confirmation hv (by omega) he
    obtain ⟨_, _, _, _, hs, -⟩ := event_spec he
    have h2 := ((mem_findSwingPoints (by omega)).mp hs).left
    omega
  by_cases hlen : ((bars.take n).length : Int) < 2 * lookback + 2
  · -- The length guard of the prefix hides no event.
    have hnil : (detectStructureEvents (bars.take n) lookback).1 = [] := by
      rw [detectStructureEvents, if_pos hlen]
    rw [hnil, eq_comm, List.filter_eq_nil_iff]
    intro e he
    have h1 := hevents e he
    obtain ⟨bar, hb, -⟩ := event_spec he
    obtain ⟨h2, -⟩ := List.getElem?_eq_some_iff.mp hb
    rw [List.length_take] at hlen
    simp only [decide_eq_true_eq]
    omega
  · have hlen' : ¬ (bars.length : Int) < 2 * lookback + 2 := by
      rw [List.length_take] at hlen
      omega
    simp only [detectStructureEvents, if_neg hlen, if_neg hlen']
    exact Machine.outputsFrom_take_congr n (structureStep_index _) fun _ => structureStep_take

end MarketKill3r
