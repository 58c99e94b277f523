import MarketKill3r.Engine.Liquidity
import MarketKill3r.Engine.Zones

/-!
# No look-ahead

Every detector scans the whole list of bars up front. Running it on a prefix nevertheless finds
exactly what it finds on the whole list within that prefix.

* `no_look_ahead`: the detections of a prefix, for all detectors at once.
* `append_keeps_gap`, `append_keeps_block`: what bars that arrive later can change.
-/

namespace MarketKill3r

/-- **No look-ahead.** Each detector, run on the first `n` bars, finds what its run on all bars
finds within them; later fills and mitigations are reset. -/
theorem no_look_ahead {bars : List Bar} (hv : OhlcValid bars) (lookback searchWindow : Int)
    (tolerance minGapSize : ℚ) (requireDisplacement : Bool) (n : Nat) :
    findSwingPoints (bars.take n) lookback =
        (findSwingPoints bars lookback).filter (fun s => s.confirmedAt.any (· < n)) ∧
      (let events := (detectStructureEvents bars lookback).1.filter (fun e => e.index < n);
        detectStructureEvents (bars.take n) lookback =
          (events, events.getLast?.map (·.direction))) ∧
      detectLiquiditySweeps (bars.take n) lookback tolerance =
        (detectLiquiditySweeps bars lookback tolerance).filter (fun s => s.index < n) ∧
      detectOrderBlocks (bars.take n) lookback searchWindow =
        ((detectOrderBlocks bars lookback searchWindow).filter
          (fun o => o.breakIndex < n)).map (.upTo n) ∧
      detectFairValueGaps (bars.take n) requireDisplacement minGapSize =
        ((detectFairValueGaps bars requireDisplacement minGapSize).filter
          (fun g => g.index + 1 < n)).map (.upTo n) := by
  refine ⟨findSwingPoints_take bars lookback n, ?_, detectLiquiditySweeps_take bars lookback _ n,
    detectOrderBlocks_take hv lookback searchWindow n, detectFairValueGaps_take bars _ _ n⟩
  refine Prod.ext (detectStructureEvents_take hv lookback n) ?_
  rw [detectStructureEvents_trend, detectStructureEvents_take hv]

/-- Two equal highs that the sixth bar sweeps, a rise that leaves a gap and a block, and a fall that comes
back to both. -/
def riseAndFall : List Bar :=
  [⟨⟨0, 0⟩, 10, 11, 9, 10, 0⟩, ⟨⟨60, 0⟩, 10, 12, 10, 11, 0⟩, ⟨⟨120, 0⟩, 11, 11, 9, 9, 0⟩,
    ⟨⟨180, 0⟩, 9, 12, 8, 9, 0⟩, ⟨⟨240, 0⟩, 9, 10, 9, 10, 0⟩, ⟨⟨300, 0⟩, 10, 13, 9, 11, 0⟩,
    ⟨⟨360, 0⟩, 11, 11, 10, 10, 0⟩, ⟨⟨420, 0⟩, 10, 17, 10, 16, 0⟩, ⟨⟨480, 0⟩, 17, 19, 14, 18, 0⟩,
    ⟨⟨540, 0⟩, 18, 18, 10, 11, 0⟩, ⟨⟨600, 0⟩, 11, 12, 6, 7, 0⟩, ⟨⟨660, 0⟩, 7, 8, 3, 4, 0⟩]

/-- The series, cut before the bar that fills the gap and mitigates the block. -/
theorem no_look_ahead_cut :
    (detectStructureEvents riseAndFall 1).1.map (·.index) = [7, 10] ∧
      (detectLiquiditySweeps riseAndFall 1 0).map (·.index) = [5, 9] ∧
      (detectOrderBlocks riseAndFall 1 10).map (fun o => (o.breakIndex, o.mitigationIndex)) =
        [(7, some 9)] ∧
      (detectFairValueGaps riseAndFall true 0).map (fun g => (g.index, g.fillIndex)) =
        [(7, some 9), (9, none)] ∧
      findSwingPoints (riseAndFall.take 9) 1 =
        (findSwingPoints riseAndFall 1).filter (fun s => s.confirmedAt.any (· < 9)) ∧
      (let events := (detectStructureEvents riseAndFall 1).1.filter (fun e => e.index < 9);
        detectStructureEvents (riseAndFall.take 9) 1 =
          (events, events.getLast?.map (·.direction))) ∧
      detectLiquiditySweeps (riseAndFall.take 9) 1 0 =
        (detectLiquiditySweeps riseAndFall 1 0).filter (fun s => s.index < 9) ∧
      detectOrderBlocks (riseAndFall.take 9) 1 10 =
        ((detectOrderBlocks riseAndFall 1 10).filter (fun o => o.breakIndex < 9)).map (.upTo 9) ∧
      detectFairValueGaps (riseAndFall.take 9) true 0 =
        ((detectFairValueGaps riseAndFall true 0).filter (fun g => g.index + 1 < 9)).map (.upTo 9) := by
  have hv : OhlcValid riseAndFall := by decide +kernel
  exact ⟨by decide +kernel, by decide +kernel, by decide +kernel, by decide +kernel,
    no_look_ahead hv 1 10 0 0 true 9⟩

theorem FairValueGap.upTo_eq (n : Nat) (g : FairValueGap) :
    (g.upTo n).fillIndex.isSome = true → g.upTo n = g := by
  unfold FairValueGap.upTo
  split
  · exact fun _ => rfl
  · intro h; cases h

theorem OrderBlock.upTo_eq (n : Nat) (o : OrderBlock) :
    (o.upTo n).mitigationIndex.isSome = true → o.upTo n = o := by
  unfold OrderBlock.upTo
  split
  · exact fun _ => rfl
  · intro h; cases h

/-- Bars that arrive later keep every gap. All they can do to it is to fill it. -/
theorem append_keeps_gap {bars : List Bar} (later : List Bar) {requireDisplacement : Bool}
    {minGapSize : ℚ} {g : FairValueGap}
    (hg : g ∈ detectFairValueGaps bars requireDisplacement minGapSize) :
    ∃ g' ∈ detectFairValueGaps (bars ++ later) requireDisplacement minGapSize,
      g = g'.upTo bars.length ∧ (g.fillIndex.isSome = true → g = g') := by
  have h := detectFairValueGaps_take (bars ++ later) requireDisplacement minGapSize bars.length
  rw [List.take_left] at h
  rw [h] at hg
  obtain ⟨g', hg', rfl⟩ := List.mem_map.mp hg
  exact ⟨g', (List.mem_filter.mp hg').1, rfl, g'.upTo_eq _⟩

/-- Bars that arrive later keep every block. All they can do to it is to mitigate it. -/
theorem append_keeps_block {bars later : List Bar} (hv : OhlcValid (bars ++ later))
    {lookback searchWindow : Int} {o : OrderBlock}
    (ho : o ∈ detectOrderBlocks bars lookback searchWindow) :
    ∃ o' ∈ detectOrderBlocks (bars ++ later) lookback searchWindow,
      o = o'.upTo bars.length ∧ (o.mitigationIndex.isSome = true → o = o') := by
  have h := detectOrderBlocks_take hv lookback searchWindow bars.length
  rw [List.take_left] at h
  rw [h] at ho
  obtain ⟨o', ho', rfl⟩ := List.mem_map.mp ho
  exact ⟨o', (List.mem_filter.mp ho').1, rfl, o'.upTo_eq _⟩

end MarketKill3r
