import MarketKill3r.Engine.Analysis
import MarketKill3r.Engine.EventSpec

/-!
# Order blocks with the same candle

`detect_order_blocks` makes one block for each displacement-backed break: the search for its candle
runs backwards from the break, past the breaks before it. Two breaks in one direction select the same
candle when nothing closes against the direction between them, and each of the two blocks is
mitigated by the bars after its own break.

* `detectOrderBlocks_pairwise`: the blocks come in the order of their breaks.
* `same_candle_iff`: when two blocks of a direction have the same candle.
* `mitigated_iff`: when a block is mitigated.
* `order_blocks_per_break`: **one block for each break, and one for each candle and direction as long
  as an opposing candle closes between the breaks.**
-/

namespace MarketKill3r

variable {bars : List Bar} {k : Nat} {w : Int}

theorem detectOrderBlocks_pairwise (hv : OhlcValid bars) (hk : 1 ≤ k) (w : Int) :
    (detectOrderBlocks bars k w).Pairwise fun o p => o.breakIndex < p.breakIndex := by
  obtain ⟨-, hpair, -⟩ := structure_events_spec hv hk
  refine List.Pairwise.filterMap _ (fun e f hef o ho p hp => ?_) hpair
  rw [orderBlockFor_breakIndex ho, orderBlockFor_breakIndex hp]
  exact hef.1

/-- No candle from bar `m` to the bar before `n` closes against the direction. -/
def Unopposed (bars : List Bar) (d : Direction) (m n : Nat) : Prop :=
  ∀ j b, bars[j]? = some b → m ≤ j → j < n → d.validCandidate b = false

/-- **When two blocks have the same candle.** -/
theorem same_candle_iff {o p : OrderBlock} (ho : o ∈ detectOrderBlocks bars k w)
    (hp : p ∈ detectOrderBlocks bars k w) (hbreak : o.breakIndex < p.breakIndex)
    (hd : o.direction = p.direction) :
    o.index = p.index ↔ Unopposed bars o.direction o.breakIndex p.breakIndex := by
  obtain ⟨e, -, ho⟩ := List.mem_filterMap.mp ho
  obtain ⟨f, -, hp⟩ := List.mem_filterMap.mp hp
  obtain ⟨-, i, c, hi, -, rfl⟩ := orderBlockFor_eq_some.mp ho
  obtain ⟨-, j, c', hj, -, rfl⟩ := orderBlockFor_eq_some.mp hp
  simp only [OrderBlock.track_breakIndex, OrderBlock.track_direction, OrderBlock.track_index] at *
  unfold blockCandidate at hi hj
  rw [← hd] at hj
  rw [Scan.lastHit_eq_lastHit_iff hi hj hbreak.le]
  constructor
  · intro h l b hb hl hlf
    simpa [hb] using h l hl hlf
  · intro h l hl hlf
    cases hb : bars[l]? with
    | none => rfl
    | some b => simpa using h l b hb hl hlf

/-- A block that was not mitigated is so after a bar behind its break overlaps it. -/
theorem OrderBlock.track_mitigated_iff {o : OrderBlock} (ho : o.mitigated = false) :
    (o.track bars).mitigated = true ↔
      ∃ j b, bars[j]? = some b ∧ o.breakIndex < j ∧ o.touches b = true := by
  unfold OrderBlock.track
  split
  · rename_i hnone
    rw [ho]
    refine iff_of_false Bool.false_ne_true ?_
    rintro ⟨j, b, hb, hj, htouch⟩
    exact Bool.false_ne_true ((Scan.firstHit_any_eq_none.mp hnone j b hb hj).symm.trans htouch)
  · rename_i j hj
    obtain ⟨hhit, ⟨hlt, -⟩, -⟩ := Scan.firstHit_eq_some.mp hj
    obtain ⟨b, hb, htouch⟩ := (Option.any_eq_true _ _).mp hhit
    exact iff_of_true rfl ⟨j, b, hb, hlt, htouch⟩

/-- **When a block is mitigated**: a bar after its break overlaps it. -/
theorem mitigated_iff {o : OrderBlock} (ho : o ∈ detectOrderBlocks bars k w) :
    o.mitigated = true ↔
      ∃ j b, bars[j]? = some b ∧ o.breakIndex < j ∧ o.touches b = true := by
  obtain ⟨e, -, ho⟩ := List.mem_filterMap.mp ho
  obtain ⟨-, i, c, -, -, rfl⟩ := orderBlockFor_eq_some.mp ho
  rw [OrderBlock.track_mitigated_iff rfl]
  simp only [OrderBlock.track_breakIndex, OrderBlock.touches_track]

/-- **One order block for each break.** The blocks come in the order of their breaks; two of one
direction have the same candle exactly when nothing closes against the direction between their
breaks; and a block is mitigated exactly when a bar after its own break overlaps it. -/
theorem order_blocks_per_break (hv : OhlcValid bars) (hk : 1 ≤ k) (w : Int) :
    (detectOrderBlocks bars k w).Pairwise (fun o p => o.breakIndex < p.breakIndex) ∧
    (∀ o ∈ detectOrderBlocks bars k w, ∀ p ∈ detectOrderBlocks bars k w,
      o.breakIndex < p.breakIndex → o.direction = p.direction →
        (o.index = p.index ↔ Unopposed bars o.direction o.breakIndex p.breakIndex)) ∧
    ∀ o ∈ detectOrderBlocks bars k w, (o.mitigated = true ↔
      ∃ j b, bars[j]? = some b ∧ o.breakIndex < j ∧ o.touches b = true) :=
  ⟨detectOrderBlocks_pairwise hv hk w, fun _ ho _ hp hbreak hd => same_candle_iff ho hp hbreak hd,
    fun _ ho => mitigated_iff ho⟩

/-- Candle 2 closes down, candles 3 and 5 break the swing highs at 13 and 18, and candle 4 comes back
to candle 2 between them without closing down. -/
def revivedBars : List Bar :=
  [minuteBar 0 10 11 9 10, minuteBar 1 10 13 10 11, minuteBar 2 11 12 10 (21 / 2),
    minuteBar 3 (21 / 2) 18 (21 / 2) 15, minuteBar 4 12 14 (23 / 2) 13, minuteBar 5 13 24 13 23]

/-- One candle, listed as a mitigated block and as an unmitigated one. -/
theorem block_revived : OhlcValid revivedBars ∧
    (detectOrderBlocks revivedBars 1 10).map
        (fun o => (o.index, o.direction, o.breakIndex, o.mitigated)) =
      [(2, .bullish, 3, true), (2, .bullish, 5, false)] := by
  decide +kernel

theorem revived_per_break : ∃ o ∈ detectOrderBlocks revivedBars 1 10,
    ∃ p ∈ detectOrderBlocks revivedBars 1 10, o.breakIndex = 3 ∧ p.breakIndex = 5 ∧
      o.index = p.index ∧ Unopposed revivedBars .bullish 3 5 := by
  obtain ⟨-, hsame, -⟩ := order_blocks_per_break (show OhlcValid revivedBars by decide +kernel)
    (le_refl 1) 10
  obtain ⟨o, ho, hod, hob, hoi⟩ : ∃ o ∈ detectOrderBlocks revivedBars 1 10,
    o.direction = .bullish ∧ o.breakIndex = 3 ∧ o.index = 2 := by decide +kernel
  obtain ⟨p, hp, hpd, hpb, hpi⟩ : ∃ p ∈ detectOrderBlocks revivedBars 1 10,
    p.direction = .bullish ∧ p.breakIndex = 5 ∧ p.index = 2 := by decide +kernel
  have hindex : o.index = p.index := hoi.trans hpi.symm
  have hbetween := (hsame o ho p hp (by omega) (hod.trans hpd.symm)).mp hindex
  rw [hod, hob, hpb] at hbetween
  exact ⟨o, ho, p, hp, hob, hpb, hindex, hbetween⟩

end MarketKill3r
