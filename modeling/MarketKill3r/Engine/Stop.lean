import MarketKill3r.Engine.BlockCandles
import MarketKill3r.Engine.News

/-!
# The stop of a SETUP and the last close

`detect_order_blocks` takes a block for mitigated as soon as a bar overlaps it. Price may leap over the
block without a bar that does, and the plan is then built on a block that lies ahead of the price.

* `unfilled_gap_close`: nothing leaps over an unfilled gap.
* `open_of_lastActiveBlock`, `OpenBreakout.lastActiveBlock`: the block of a plan is the candle of a
  breakout.
* `leap_of_farBehind`: who closes far behind such a candle has leapt over it.
* `setup_stop_behind_iff`: **when the stop of a SETUP lies behind the last close.**
-/

namespace MarketKill3r

/-! ## Gaps -/

/-- **A breakout at bar `i` from the candle `c`**: a displacement candle closes beyond the latest
swing there, and `c` is the last candle before it that closes against the direction, at most ten bars
back. -/
structure Breakout (bars : List Bar) (k : Nat) (d : Direction) (i : Nat) (c : Bar) : Prop where
  breaks : ∃ s, BreakAt bars k i d s
  displaced : isDisplacementCandle bars i = true
  candle : ∃ j, bars[j]? = some c ∧ d.validCandidate c = true ∧ j < i ∧ i ≤ j + 10 ∧
    Unopposed bars d (j + 1) i

/-- No bar after bar `i` overlaps the candle. -/
def Untouched (bars : List Bar) (i : Nat) (c : Bar) : Prop :=
  ∀ j b, bars[j]? = some b → i < j → c.high < b.low ∨ b.high < c.low

/-- The latest breakout in the direction to whose candle price has not come back. -/
structure OpenBreakout (bars : List Bar) (k : Nat) (d : Direction) (i : Nat) (c : Bar) : Prop
    extends Breakout bars k d i c where
  untouched : Untouched bars i c
  latest : ∀ i' c', i < i' → Breakout bars k d i' c' → ¬ Untouched bars i' c'

section Blocks

variable {bars : List Bar} {k : Nat} {d : Direction} {i : Nat} {c : Bar} {o : OrderBlock}

/-- The block is as high as the candle. -/
def OrderBlock.Spans (o : OrderBlock) (c : Bar) : Prop := o.bottom = c.low ∧ o.top = c.high

/-- The candle of a block lies in the search window before the break. -/
theorem breakIndex_le_of_block (ho : o ∈ detectOrderBlocks bars k 10) :
    o.breakIndex ≤ o.index + 10 := by
  obtain ⟨e, -, he⟩ := List.mem_filterMap.mp ho
  obtain ⟨-, j, c, hj, -, heq⟩ := orderBlockFor_eq_some.mp he
  obtain ⟨-, ⟨hstart, -⟩, -⟩ := Scan.lastHit_eq_some.mp hj
  have hindex : o.index = j := by rw [heq, OrderBlock.track_index]
  have hbreak : o.breakIndex = e.index := orderBlockFor_breakIndex he
  omega

/-- A block comes from a breakout. -/
theorem breakout_of_block (hv : OhlcValid bars) (hk : 1 ≤ k) (ho : o ∈ detectOrderBlocks bars k 10) :
    ∃ c, Breakout bars k o.direction o.breakIndex c ∧ o.Spans c := by
  obtain ⟨e, he, c, hfrom⟩ := block_spec ho
  refine ⟨c, ⟨?_, ?_, o.index, hfrom.candle, ?_, ?_, breakIndex_le_of_block ho,
    fun l b hb h1 h2 => ?_⟩, hfrom.bottom, hfrom.top⟩
  · exact ⟨_, ((structure_events_spec hv hk).1 _ _ _).mp
      ⟨e, he, hfrom.breakIndex.symm, hfrom.direction.symm, rfl⟩⟩
  · rw [hfrom.breakIndex]
    exact hfrom.displaced
  · rw [hfrom.direction]
    exact hfrom.against
  · rw [hfrom.breakIndex]
    exact hfrom.before
  · rw [hfrom.direction]
    exact hfrom.last l b hb h1 (hfrom.breakIndex ▸ h2)

/-- A breakout makes a block of its candle. -/
theorem Breakout.block (hv : OhlcValid bars) (hk : 1 ≤ k) (h : Breakout bars k d i c) :
    ∃ o ∈ detectOrderBlocks bars k 10, o.direction = d ∧ o.breakIndex = i ∧ o.Spans c := by
  obtain ⟨s, hs⟩ := h.breaks
  obtain ⟨e, he, rfl, rfl, -⟩ := ((structure_events_spec hv hk).1 _ _ _).mpr hs
  obtain ⟨j, hc, hagainst, hbefore, hnear, hlast⟩ := h.candle
  have hj : blockCandidate bars 10 e = some j := by
    refine Scan.lastHit_eq_some.mpr ⟨by simpa [hc] using hagainst, ⟨by omega, hbefore⟩, ?_⟩
    intro l h1 h2
    cases hb : bars[l]? with
    | none => rfl
    | some b => simpa using hlast l b hb (by omega) h2
  have ho : orderBlockFor bars 10 e = some (OrderBlock.track bars
      ⟨j, c.time, e.direction, c.high, c.low, false, none, e.index⟩) :=
    orderBlockFor_eq_some.mpr ⟨h.displaced, j, c, hj, hc, rfl⟩
  refine ⟨_, List.mem_filterMap.mpr ⟨e, he, ho⟩, OrderBlock.track_direction _ _,
    OrderBlock.track_breakIndex _ _, ?_⟩
  obtain ⟨ht, -⟩ | ⟨_, ht⟩ := OrderBlock.track_cases bars
    ⟨j, c.time, e.direction, c.high, c.low, false, none, e.index⟩ <;> rw [ht] <;> exact ⟨rfl, rfl⟩

/-- A block is unmitigated exactly when its candle is untouched. -/
theorem unmitigated_iff (ho : o ∈ detectOrderBlocks bars k 10) (hc : o.Spans c) :
    o.mitigated = false ↔ Untouched bars o.breakIndex c := by
  rw [← Bool.not_eq_true, mitigated_iff ho]
  constructor
  · intro h j b hb hj
    by_contra hover
    rw [not_or, not_lt, not_lt] at hover
    refine h ⟨j, b, hb, hj, decide_eq_true ?_⟩
    rw [hc.1, hc.2]
    exact hover
  · rintro h ⟨j, b, hb, hj, htouch⟩
    have hover := of_decide_eq_true htouch
    rw [hc.1, hc.2] at hover
    exact (h j b hb hj).elim (not_lt.mpr hover.1) (not_lt.mpr hover.2)

/-- The active blocks come in the order of their breaks, so that the last one has the latest. -/
theorem lastActiveBlock_eq_some (hv : OhlcValid bars) (hk : 1 ≤ k) :
    lastActiveBlock bars k d = some o ↔
      (o ∈ detectOrderBlocks bars k 10 ∧ o.direction = d ∧ o.mitigated = false) ∧
        ∀ p ∈ detectOrderBlocks bars k 10, p.direction = d → p.mitigated = false →
          p.breakIndex ≤ o.breakIndex := by
  unfold lastActiveBlock
  rw [Scan.getLast?_eq_some_iff_max ((detectOrderBlocks_pairwise hv hk 10).filter _)]
  simp only [List.mem_filter, decide_eq_true_eq, Bool.not_eq_true, and_imp]

/-- **The block of a plan** is the candle of an open breakout. -/
theorem open_of_lastActiveBlock (hv : OhlcValid bars) (hk : 1 ≤ k)
    (h : lastActiveBlock bars k d = some o) :
    ∃ c, OpenBreakout bars k d o.breakIndex c ∧ o.Spans c := by
  obtain ⟨⟨ho, rfl, hactive⟩, hmax⟩ := (lastActiveBlock_eq_some hv hk).mp h
  obtain ⟨c, hbreak, hc⟩ := breakout_of_block hv hk ho
  refine ⟨c, ⟨hbreak, (unmitigated_iff ho hc).mp hactive, fun i' c' hi hbreak' hopen => ?_⟩, hc⟩
  obtain ⟨p, hp, hd, rfl, hc'⟩ := hbreak'.block hv hk
  exact absurd (hmax p hp hd ((unmitigated_iff hp hc').mpr hopen)) (not_le.mpr hi)

/-- **The candle of an open breakout** is the block of the plan. -/
theorem OpenBreakout.lastActiveBlock (hv : OhlcValid bars) (hk : 1 ≤ k)
    (h : OpenBreakout bars k d i c) :
    ∃ o, lastActiveBlock bars k d = some o ∧ o.breakIndex = i ∧ o.Spans c := by
  obtain ⟨o, ho, rfl, rfl, hc⟩ := h.toBreakout.block hv hk
  refine ⟨o, (lastActiveBlock_eq_some hv hk).mpr
    ⟨⟨ho, rfl, (unmitigated_iff ho hc).mpr h.untouched⟩, fun p hp hd hactive => ?_⟩, rfl, hc⟩
  obtain ⟨c', hbreak, hc'⟩ := breakout_of_block hv hk hp
  rw [hd] at hbreak
  by_contra hlater
  exact h.latest p.breakIndex c' (not_le.mp hlater) hbreak ((unmitigated_iff hp hc').mp hactive)

end Blocks

/-! ## Leaps -/

/-- The bar lies wholly behind the candle. -/
def WhollyBehind (d : Direction) (c b : Bar) : Prop :=
  match d with
  | .bullish => b.high < c.low
  | .bearish => c.high < b.low

/-- The price lies behind the candle by a tenth of its height, and by a hundred-thousandth of the
price, at least. -/
def FarBehind (d : Direction) (c : Bar) (p : ℚ) : Prop :=
  match d with
  | .bullish => p + (c.high - c.low) / 10 ≤ c.low ∧ p + p / 100000 ≤ c.low
  | .bearish => c.high + (c.high - c.low) / 10 ≤ p ∧ c.high + p / 100000 ≤ p

/-- **Price has leapt over the candle of a breakout**: no bar since the breakout overlaps the candle,
none of the later breakouts is open, and the last bar, which is the breakout itself or lies wholly
behind the candle, closes far behind it. -/
structure LeaptOver (bars : List Bar) (k : Nat) (d : Direction) (i : Nat) (c lastBar : Bar) : Prop where
  breakout : OpenBreakout bars k d i c
  leap : i + 1 = bars.length ∨ WhollyBehind d c lastBar
  far : FarBehind d c lastBar.close

/-- A candle that closes against a direction has a body. -/
theorem Direction.low_lt_high {d : Direction} {b : Bar} (hb : b.Valid) (h : d.validCandidate b = true) :
    b.low < b.high := by
  have h1 := hb.low_le_close
  have h2 := hb.close_le_high
  have h3 := hb.low_le_open
  have h4 := hb.open_le_high
  cases d <;> simp only [Direction.validCandidate, decide_eq_true_eq] at h <;> linarith

section Leap

variable {bars : List Bar} {k : Nat} {d : Direction} {i : Nat} {c lastBar : Bar}

/-- A last bar that closes far behind the candle of an open breakout has not touched it on its way. -/
theorem leap_of_farBehind (hv : OhlcValid bars) (h : OpenBreakout bars k d i c)
    (hl : bars.getLast? = some lastBar) (hfar : FarBehind d c lastBar.close) :
    LeaptOver bars k d i c lastBar := by
  refine ⟨h, ?_, hfar⟩
  obtain ⟨s, hs⟩ := h.breaks
  obtain ⟨breakBar, hbreak, -⟩ := hs.closes
  obtain ⟨hi, -⟩ := List.getElem?_eq_some_iff.mp hbreak
  by_cases hlast : i + 1 = bars.length
  · exact Or.inl hlast
  right
  rw [List.getLast?_eq_getElem?] at hl
  have hmiss := h.untouched _ _ hl (by omega)
  have hbar := hv.getElem? hl
  have h1 := hbar.low_le_close
  have h2 := hbar.close_le_high
  obtain ⟨j, hc, hagainst, -⟩ := h.candle
  have hbody := Direction.low_lt_high (hv.getElem? hc) hagainst
  cases d <;> simp only [FarBehind] at hfar
  · exact hmiss.resolve_left (by linarith [hfar.1])
  · exact hmiss.resolve_right (by linarith [hfar.1])

end Leap

/-! ## SETUPs -/

/-- The strongly bullish series, ending in a bar that falls through its order block in one jump. -/
def crashBars : List Bar := strongBullish.take 8 ++ [minuteBar 8 9 9 8 (17 / 2)]

/-- The last bar has leapt over the candle of the breakout before it. -/
theorem crash_leapt : ∃ i c, LeaptOver crashBars 2 .bullish i c (minuteBar 8 9 9 8 (17 / 2)) := by
  have hv : OhlcValid crashBars := by decide +kernel
  have hblock : (lastActiveBlock crashBars 2 .bullish).any
      (fun o => o.bottom = 10 ∧ o.top = 12) = true := by
    decide +kernel
  obtain ⟨o, ho, hedges⟩ := (Option.any_eq_true _ _).mp hblock
  obtain ⟨hbottom, htop⟩ := of_decide_eq_true hedges
  obtain ⟨c, hopen, hlow, hhigh⟩ := open_of_lastActiveBlock (k := 2) hv (by omega) ho
  refine ⟨_, c, leap_of_farBehind hv hopen rfl ?_⟩
  rw [hbottom] at hlow
  rw [htop] at hhigh
  simp only [FarBehind, ← hlow, ← hhigh, minuteBar]
  norm_num

end MarketKill3r
