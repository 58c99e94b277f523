import Mathlib.Tactic.Linarith
import MarketKill3r.Engine.Analysis

/-!
# The risk plan of a SETUP

The decision aggregates the evidence of all timeframes, the plan is built from the active zones of
the primary timeframe alone.

* `riskPlan_zone`: the plan of a zone of positive height, in numbers of its risk; its stop lies
  strictly behind the zone (`stop_behind_zone`).
* `setup_plan`: a SETUP has a complete plan if the primary timeframe has an active zone in its
  direction, and no plan at all otherwise.
-/

namespace MarketKill3r

/-! ## Zones and plans -/

/-- `x` lies strictly behind `y`, seen in the direction of a trade. -/
def Direction.Behind (d : Direction) (x y : ℚ) : Prop :=
  match d with
  | .bullish => x < y
  | .bearish => y < x

theorem Direction.Behind.trans {d : Direction} {x y z : ℚ} (h1 : d.Behind x y) (h2 : d.Behind y z) :
    d.Behind x z := by
  cases d with
  | bullish => exact lt_trans h1 h2
  | bearish => exact lt_trans h2 h1

theorem Direction.along_add (d : Direction) (x a b : ℚ) :
    d.along (d.along x a) b = d.along x (a + b) := by
  cases d <;> simp only [Direction.along] <;> ring

/-- A step is as long as its amount. -/
theorem Direction.abs_along_sub (d : Direction) (x a : ℚ) : |d.along x a - x| = |a| := by
  cases d with
  | bullish =>
    show |x + a - x| = |a|
    rw [add_sub_cancel_left]
  | bearish =>
    show |x - a - x| = |a|
    rw [sub_sub_cancel_left, abs_neg]

/-- A step leads forward exactly when its amount is positive. -/
theorem Direction.behind_along_iff (d : Direction) (x a : ℚ) : d.Behind x (d.along x a) ↔ 0 < a := by
  cases d <;> simp only [Direction.Behind, Direction.along] <;> constructor <;> intro h <;> linarith

/-- The width of a zone of positive height is positive. -/
theorem zone_width_pos {d : Direction} {bottom top p : ℚ} (h : bottom < top) :
    0 < (d.zone bottom top).width p := by
  have h1 : |(d.zone bottom top).high - (d.zone bottom top).low| = top - bottom := by
    show |top - bottom| = top - bottom
    exact abs_of_pos (by linarith)
  exact lt_of_lt_of_le (by rw [h1]; linarith) (le_max_left _ _)

/-- The stop lies a buffer behind the edge that invalidates the zone. -/
theorem stop_behind_zone {d : Direction} {bottom top p : ℚ} (h : bottom < top) :
    d.Behind ((d.zone bottom top).stop d p) (d.zone bottom top).invalidation := by
  have hw := zone_width_pos (d := d) (p := p) h
  cases d <;> simp only [Direction.Behind, PlanZone.stop, Direction.opposite, Direction.along] <;>
    linarith

theorem invalidation_behind_entry {d : Direction} {bottom top : ℚ} (h : bottom < top) :
    d.Behind (d.zone bottom top).invalidation (d.zone bottom top).entry := by
  cases d <;> simp only [Direction.Behind, Direction.zone, PlanZone.entry] <;> linarith

theorem Direction.Behind.abs_sub_pos {d : Direction} {x y : ℚ} (h : d.Behind x y) : 0 < |y - x| := by
  rw [abs_pos]
  intro heq
  have hxy : y = x := by linarith
  cases d <;> simp only [Direction.Behind, hxy, lt_irrefl] at h

/-- The distance from the entry to the stop. -/
def PlanZone.risk (z : PlanZone) (stop : ℚ) : ℚ := |z.entry - stop|

/-- The risk of a zone of positive height is positive. -/
theorem zone_risk_pos (d : Direction) {bottom top : ℚ} (h : bottom < top) (p : ℚ) :
    0 < (d.zone bottom top).risk ((d.zone bottom top).stop d p) :=
  ((stop_behind_zone h).trans (invalidation_behind_entry h)).abs_sub_pos

/-- **The plan of a zone of positive height**: the take-profits are one risk apart. -/
theorem riskPlan_zone (d : Direction) {bottom top : ℚ} (h : bottom < top) (p target : ℚ) :
    let z := d.zone bottom top
    let risk := z.risk (z.stop d p)
    let tp := d.along z.entry (risk * target)
    riskPlan z d p target =
      ⟨some (z.stop d p), [tp, d.along tp risk, d.along (d.along tp risk) risk],
        some (pyRound |target| 2)⟩ := by
  intro z risk tp
  have hrisk : 0 < risk := zone_risk_pos d h p
  have htp1 : d.along z.entry (risk * (target + 1)) = d.along tp risk := by
    rw [Direction.along_add]
    congr 1
    ring
  have htp2 : d.along z.entry (risk * (target + 2)) = d.along (d.along tp risk) risk := by
    rw [Direction.along_add, Direction.along_add]
    congr 1
    ring
  have hrr : |tp - z.entry| / risk = |target| := by
    rw [Direction.abs_along_sub, abs_mul, abs_of_pos hrisk]
    exact mul_div_cancel_left₀ _ hrisk.ne'
  calc riskPlan z d p target
      = ⟨some (z.stop d p), [tp, d.along z.entry (risk * (target + 1)),
          d.along z.entry (risk * (target + 2))], some (pyRound (|tp - z.entry| / risk) 2)⟩ :=
        if_pos hrisk
    _ = _ := by rw [htp1, htp2, hrr]

/-! ## Active zones -/

/-- The bars show an unmitigated order block or an unfilled gap in the direction. -/
def ActiveZone (bars : List Bar) (lookback : Int) (d : Direction) : Prop :=
  (∃ o ∈ detectOrderBlocks bars lookback 10, o.direction = d ∧ o.mitigated = false) ∨
    ∃ g ∈ detectFairValueGaps bars true 0, g.direction = d ∧ g.filled = false

/-- The last unmitigated block in the direction. -/
def lastActiveBlock (bars : List Bar) (lookback : Int) (d : Direction) : Option OrderBlock :=
  ((detectOrderBlocks bars lookback 10).filter fun o => o.direction = d ∧ ¬ o.mitigated).getLast?

theorem mem_activeObs {inp : AnalysisInput} {tf : String} {bars : List Bar} {d : Direction}
    {o : OrderBlock} :
    o ∈ activeObs (inp.evidenceOn tf bars) d ↔
      o ∈ detectOrderBlocks bars inp.lookback 10 ∧ o.direction = d ∧ o.mitigated = false := by
  simp [activeObs, AnalysisInput.evidenceOn, tfEvidence]

theorem mem_activeFvgs {inp : AnalysisInput} {tf : String} {bars : List Bar} {d : Direction}
    {g : FairValueGap} :
    g ∈ activeFvgs (inp.evidenceOn tf bars) d ↔
      g ∈ detectFairValueGaps bars true 0 ∧ g.direction = d ∧ g.filled = false := by
  simp [activeFvgs, AnalysisInput.evidenceOn, tfEvidence]

/-- Where the zone of a plan comes from: the last active block, or, without one, an active gap. -/
theorem zoneOf_cases (inp : AnalysisInput) (tf : String) (bars : List Bar) (d : Direction) :
    (∃ o, lastActiveBlock bars inp.lookback d = some o ∧
      o ∈ activeObs (inp.evidenceOn tf bars) d ∧
      zoneOf (inp.evidenceOn tf bars) d = some (d.zone o.bottom o.top)) ∨
    (∃ g, lastActiveBlock bars inp.lookback d = none ∧ g ∈ activeFvgs (inp.evidenceOn tf bars) d ∧
      zoneOf (inp.evidenceOn tf bars) d = some (d.zone g.bottom g.top)) ∨
    (¬ ActiveZone bars inp.lookback d ∧ zoneOf (inp.evidenceOn tf bars) d = none) := by
  have hlast : lastActiveBlock bars inp.lookback d =
    (activeObs (inp.evidenceOn tf bars) d).getLast? := rfl
  rw [hlast]
  unfold zoneOf
  cases ho : (activeObs (inp.evidenceOn tf bars) d).getLast? with
  | some o => exact Or.inl ⟨o, rfl, List.mem_of_getLast? ho, rfl⟩
  | none =>
    right
    cases hg : (activeFvgs (inp.evidenceOn tf bars) d).getLast? with
    | some g => exact Or.inl ⟨g, rfl, List.mem_of_getLast? hg, rfl⟩
    | none =>
      right
      rw [List.getLast?_eq_none_iff] at ho hg
      refine ⟨?_, rfl⟩
      rintro (⟨o, hm, hd, hmit⟩ | ⟨g, hm, hd, hf⟩)
      · have hmem : o ∈ activeObs (inp.evidenceOn tf bars) d := mem_activeObs.mpr ⟨hm, hd, hmit⟩
        rw [ho] at hmem; cases hmem
      · have hmem : g ∈ activeFvgs (inp.evidenceOn tf bars) d := mem_activeFvgs.mpr ⟨hm, hd, hf⟩
        rw [hg] at hmem; cases hmem

/-! ## SETUPs -/

/-- A SETUP went through every step, and trades in the direction of its favoured side. -/
theorem setup_full {inp : AnalysisInput} {r : AnalysisResult} (h : analyzeMultiTimeframe inp = .ok r)
    (hs : r.status = .setup) :
    ∃ primaryBars lastBar, FullAnalysis inp primaryBars lastBar r ∧
      r.direction = (inp.decided primaryBars lastBar).best.trade := by
  obtain ⟨reason, rfl⟩ | ⟨bars, lastBar, hf⟩ := analyze_ok_cases h
  · cases hs
  · exact ⟨bars, lastBar, hf, by rw [hf.direction, if_pos hs]⟩

theorem FullAnalysis.ohlcValid {inp : AnalysisInput} {bars : List Bar} {lastBar : Bar}
    {r : AnalysisResult} (h : FullAnalysis inp bars lastBar r) : OhlcValid bars :=
  (h.validated _ (TfMap.get?_eq_some.mp h.primary)).1

/-- Every level of the plan is there. -/
def AnalysisResult.CompletePlan (r : AnalysisResult) : Prop :=
  r.entryZone ≠ none ∧ r.invalidation ≠ none ∧ r.stopLoss ≠ none ∧ r.riskReward ≠ none ∧
    r.takeProfits.length = 3

/-- No level of the plan is there. -/
def AnalysisResult.NoPlan (r : AnalysisResult) : Prop :=
  r.entryZone = none ∧ r.invalidation = none ∧ r.stopLoss = none ∧ r.riskReward = none ∧
    r.takeProfits = []

/-- The plan that a SETUP builds on a zone of positive height. -/
theorem FullAnalysis.plan_of_zone {inp : AnalysisInput} {bars : List Bar} {lastBar : Bar}
    {r : AnalysisResult} (hf : FullAnalysis inp bars lastBar r) (hs : r.status = .setup)
    {bottom top : ℚ} (hlt : bottom < top)
    (hz : zoneOf (inp.evidenceOn inp.primaryTimeframe bars) (inp.decided bars lastBar).best =
      some ((inp.decided bars lastBar).best.zone bottom top)) :
    r.CompletePlan ∧
      r.stopLoss = some (((inp.decided bars lastBar).best.zone bottom top).stop
        (inp.decided bars lastBar).best lastBar.close) := by
  have hp := hf.plan
  rw [hz] at hp
  simp only [if_pos hs, riskPlan_zone _ hlt, RiskPlan.mk.injEq] at hp
  obtain ⟨hstop, htps, hrr⟩ := hp
  refine ⟨⟨?_, ?_, ?_, ?_, ?_⟩, hstop⟩
  · rw [hf.entryZone, hz]; simp
  · rw [hf.invalidation, hz]; simp
  · rw [hstop]; simp
  · rw [hrr]; simp
  · rw [htps]; rfl

/-- **The plan of a SETUP**: complete if the primary timeframe has an active zone in the direction
of the trade, absent otherwise. -/
theorem setup_plan {inp : AnalysisInput} {r : AnalysisResult}
    (h : analyzeMultiTimeframe inp = .ok r) (hs : r.status = .setup) :
    ∃ d primaryBars, r.direction = d.trade ∧
      inp.timeframeBars.get? inp.primaryTimeframe = some primaryBars ∧
      (ActiveZone primaryBars inp.lookback d → r.CompletePlan) ∧
      (¬ ActiveZone primaryBars inp.lookback d → r.NoPlan) := by
  obtain ⟨bars, lastBar, hf, hdir⟩ := setup_full h hs
  have hv := hf.ohlcValid
  refine ⟨_, bars, hdir, hf.primary, ?_⟩
  obtain ⟨o, -, ho, hz⟩ | ⟨g, -, hg, hz⟩ | ⟨hnone, hz⟩ := zoneOf_cases inp inp.primaryTimeframe bars
    (inp.decided bars lastBar).best
  · obtain ⟨hm, hd, hmit⟩ := mem_activeObs.mp ho
    refine ⟨fun _ => (hf.plan_of_zone hs (block_bottom_lt_top hv hm) hz).1, fun hn => ?_⟩
    exact absurd (Or.inl ⟨o, hm, hd, hmit⟩) hn
  · obtain ⟨hm, hd, hfill⟩ := mem_activeFvgs.mp hg
    refine ⟨fun _ => (hf.plan_of_zone hs (gap_bottom_lt_top hm) hz).1, fun hn => ?_⟩
    exact absurd (Or.inr ⟨g, hm, hd, hfill⟩) hn
  · refine ⟨fun ha => absurd ha hnone, fun _ => ?_⟩
    have hp := hf.plan
    rw [hz] at hp
    simp only [RiskPlan.mk.injEq] at hp
    obtain ⟨hstop, htps, hrr⟩ := hp
    exact ⟨by rw [hf.entryZone, hz]; rfl, by rw [hf.invalidation, hz]; rfl, hstop, hrr, htps⟩

/-- A result with a decidable property is found by running the analysis. -/
theorem exists_result {x : Except PyError AnalysisResult} {p : AnalysisResult → Prop}
    [DecidablePred p] (h : x.toOption.any (fun r => decide (p r)) = true) : ∃ r, x = .ok r ∧ p r := by
  cases x with
  | error e => cases h
  | ok r => exact ⟨r, rfl, of_decide_eq_true h⟩

theorem strong_setup : ∃ r, analyzeMultiTimeframe strongInput = .ok r ∧ r.status = .setup ∧
    r.stopLoss = some (49 / 5) :=
  exists_result (by decide +kernel)

theorem strong_setup_plan : ∃ r, analyzeMultiTimeframe strongInput = .ok r ∧ r.status = .setup ∧
    ∃ d primaryBars, r.direction = d.trade ∧
      strongInput.timeframeBars.get? strongInput.primaryTimeframe = some primaryBars ∧
      (ActiveZone primaryBars strongInput.lookback d → r.CompletePlan) ∧
      (¬ ActiveZone primaryBars strongInput.lookback d → r.NoPlan) := by
  obtain ⟨r, hr, hs, -⟩ := strong_setup
  exact ⟨r, hr, hs, setup_plan hr hs⟩

/-- The strongly bullish series on H1, while M15 breaks its structure after a slow start that
leaves no block and no gap. -/
def zonelessInput : AnalysisInput :=
  goldInput ⟨[("H1", strongBullish),
    ("M15", [minuteBar 0 10 (21 / 2) (19 / 2) 10, minuteBar 1 10 11 (19 / 2) (21 / 2),
      minuteBar 2 (21 / 2) 13 10 12, minuteBar 3 12 (25 / 2) 11 (23 / 2),
      minuteBar 4 (23 / 2) 12 (21 / 2) 11, minuteBar 5 11 (25 / 2) (21 / 2) 12,
      minuteBar 6 12 (27 / 2) 12 (133 / 10)])], by decide⟩ (some (1 / 2))

/-- A SETUP without any plan. -/
theorem zoneless_setup : ValidInput zonelessInput ∧
    ∃ r, analyzeMultiTimeframe zonelessInput = .ok r ∧ r.status = .setup ∧
      r.direction = .bullish ∧ r.entryZone = none ∧ r.invalidation = none ∧ r.stopLoss = none ∧
      r.riskReward = none ∧ r.takeProfits = [] :=
  ⟨⟨by decide, by decide +kernel⟩, exists_result (by decide +kernel)⟩

end MarketKill3r
