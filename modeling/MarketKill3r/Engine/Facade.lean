import MarketKill3r.Engine.News
import MarketKill3r.Engine.PlanGeometry

/-!
# The confluence facade (`app/engine/confluence.py`)

`analyze` keeps the contract of the first engine: one list of bars in, one `TradePlan` out. It hands
the bars to the pipeline as the only timeframe, so the break that its reasoning quotes is always there.

* `returns_iff_noForeignBreak`: when the pipeline returns, for any `lookback`.
* `facade_exact`: **when `analyze` returns, and what its plan is.**
-/

namespace MarketKill3r

/-- The evidence of a plan, with the key `"blackout"` that the facade adds to it. -/
structure Confluence where
  evidence : Option Evidence
  blackout : Bool

/-- `TradePlan` -/
structure TradePlan where
  direction : TradeDirection
  confidence : ℚ
  entry : Option ℚ
  stopLoss : Option ℚ
  takeProfit : Option ℚ
  riskReward : Option ℚ
  confluence : Confluence
  reasoning : String

/-- The arguments of `analyze`. -/
structure FacadeInput where
  bars : List Bar
  correlatedBars : Option (List Bar)
  newsSentiment : Option ℚ
  calendarBlackout : Bool
  lookback : Int
  minConfidenceToTrade : ℚ
  riskRewardTarget : ℚ

/-- A `dict` with one item. -/
def TfMap.single {α : Type} (key : String) (a : α) : TfMap α := ⟨[(key, a)], List.nodup_singleton key⟩

/-- The call of `analyze_multi_timeframe`. -/
def FacadeInput.pipeline (args : FacadeInput) : AnalysisInput where
  symbol := "UNKNOWN"
  timeframeBars := .single "M15" args.bars
  primaryTimeframe := "M15"
  correlatedTimeframeBars :=
    match args.correlatedBars with
    | none | some [] => none
    | some bars => some (.single "M15" bars)
  newsSentiment := args.newsSentiment
  highImpactEvents := some
    (if args.calendarBlackout then [[("impact", some "high"), ("name", some "blackout")]] else [])
  calendarBlackout := args.calendarBlackout
  lookback := args.lookback
  minConfidence := args.minConfidenceToTrade
  riskRewardTarget := args.riskRewardTarget

/-- The plan of a result. -/
def AnalysisResult.tradePlan (result : AnalysisResult) (blackout : Bool) : TradePlan where
  direction := result.direction
  confidence := result.confidence
  entry := result.entryZone.map fun zone => (zone.1 + zone.2) / 2
  stopLoss := result.stopLoss
  takeProfit := result.takeProfits.head?
  riskReward := result.riskReward
  confluence := ⟨result.evidence, blackout⟩
  reasoning := result.reasoning

/-- `analyze` -/
def analyze (args : FacadeInput) : Except PyError TradePlan := do
  let result ← analyzeMultiTimeframe args.pipeline
  return result.tradePlan args.calendarBlackout

/-! ## When the pipeline returns -/

/-- **The pipeline on non-empty lists** that `_validate_bars` accepts, for any `lookback`. -/
theorem returns_iff_noForeignBreak {inp : AnalysisInput} {primaryBars : List Bar}
    (hp : inp.timeframeBars.get? inp.primaryTimeframe = some primaryBars)
    (hval : ∀ e ∈ inp.timeframeBars.entries, Validated e.2)
    (hne : ∀ e ∈ inp.timeframeBars.entries, e.2 ≠ []) :
    (∃ r, analyzeMultiTimeframe inp = .ok r) ↔ ¬ ForeignBreak inp := by
  obtain ⟨lastBar, hlast⟩ : ∃ lastBar, primaryBars.getLast? = some lastBar :=
    ⟨_, List.getLast?_eq_some_getLast (hne _ (TfMap.get?_eq_some.mp hp))⟩
  have hforeign : ForeignBreak inp ↔ Evaluated inp.lookback primaryBars ∧
      (inp.decided primaryBars lastBar).structureOk = true ∧
        (detectStructureEvents primaryBars inp.lookback).1 = [] := by
    rw [structureOk_iff]
    constructor
    · rintro ⟨bars, lastBar', hp', hev, hl, hnil, hex⟩
      obtain rfl : primaryBars = bars := Option.some.inj (hp.symm.trans hp')
      obtain rfl := Option.some.inj (hlast.symm.trans hl)
      exact ⟨hev, hex, hnil⟩
    · rintro ⟨hev, hex, hnil⟩
      exact ⟨primaryBars, lastBar, hp, hev, hlast, hnil, hex⟩
  rw [hforeign]
  by_cases hev : Evaluated inp.lookback primaryBars
  · obtain ⟨js, hjs⟩ : ∃ js, evidenceTimeframes inp.timeframeBars inp.evidences = .ok js := by
      refine evidenceTimeframes_ok fun e he => ?_
      obtain ⟨⟨tf, bars⟩, hm, rfl⟩ := List.mem_map.mp he
      have hm := (List.mem_filter.mp hm).1
      exact ⟨bars, TfMap.get?_eq_some.mpr hm, hne _ hm⟩
    constructor
    · rintro ⟨r, hr⟩ ⟨-, hstructure, hnil⟩
      obtain ⟨hp', -⟩ | ⟨bars, hp', -, ⟨hshort, -⟩ | ⟨-, hc⟩⟩ := analyze_eq_ok.mp hr
      · rw [hp] at hp'
        cases hp'
      · obtain rfl : primaryBars = bars := Option.some.inj (hp.symm.trans hp')
        exact hshort hev
      · obtain rfl : primaryBars = bars := Option.some.inj (hp.symm.trans hp')
        obtain ⟨lastBar', js', rs, hl, -, hrs, -⟩ := concludeAnalysis_eq_ok.mp hc
        obtain rfl := Option.some.inj (hlast.symm.trans hl)
        exact reasonsOf_eq_ok.mp ⟨rs, hrs⟩ hstructure hnil
    · intro hquoted
      have hthere : (inp.decided primaryBars lastBar).structureOk = true →
          (inp.evidenceOn inp.primaryTimeframe primaryBars).structureEvents ≠ [] :=
        fun hs hnil => hquoted ⟨hev, hs, hnil⟩
      obtain ⟨rs, hrs⟩ := reasonsOf_eq_ok.mpr hthere
      have hc := concludeAnalysis_eq_ok.mpr ⟨lastBar, js, rs, hlast, hjs, hrs, rfl⟩
      exact ⟨_, analyze_eq_ok.mpr (Or.inr ⟨primaryBars, hp, hval, Or.inr ⟨hev, hc⟩⟩)⟩
  · have hshort := analyze_eq_ok.mpr (Or.inr ⟨primaryBars, hp, hval, Or.inl ⟨hev, rfl⟩⟩)
    exact ⟨fun _ h => hev h.1, fun _ => ⟨_, hshort⟩⟩

/-! ## The facade -/

/-- What a plan says that trades in direction `d`: the last structure event of the bars points there,
no blackout is on, and the confidence is as high as asked. -/
structure TradePlan.Trades (args : FacadeInput) (plan : TradePlan) (d : Direction) : Prop where
  event : ∃ e, (detectStructureEvents args.bars args.lookback).1.getLast? = some e ∧ e.direction = d
  noBlackout : args.calendarBlackout = false
  confident : args.minConfidenceToTrade ≤ plan.confidence
  levels : (plan.entry = none ∧ plan.stopLoss = none ∧ plan.takeProfit = none ∧ plan.riskReward = none) ∨
    ∃ z stop tps rr, plan.entry = some z.entry ∧ plan.stopLoss = some stop ∧
      plan.takeProfit = tps.head? ∧ plan.riskReward = some rr ∧
      PlanGeometry d z stop args.riskRewardTarget tps rr

/-- A plan without a direction has no levels but the entry. -/
def TradePlan.Idle (plan : TradePlan) : Prop :=
  plan.direction = .noTrade ∧ plan.stopLoss = none ∧ plan.takeProfit = none ∧ plan.riskReward = none

/-- The break that the reasoning quotes is that of the only timeframe. -/
theorem FacadeInput.noForeignBreak (args : FacadeInput) : ¬ ForeignBreak args.pipeline := by
  rintro ⟨bars, lastBar, hp, -, -, hnil, e, he, -, hlast⟩
  obtain rfl := List.mem_singleton.mp he
  have hsame := TfMap.get?_eq_some.mp hp
  obtain rfl : bars = args.bars := congrArg Prod.snd (List.mem_singleton.mp hsame)
  simp only [hnil, List.getLast?_nil, Option.map_none] at hlast
  cases hlast

theorem FacadeInput.get?_bars (args : FacadeInput) :
    args.pipeline.timeframeBars.get? args.pipeline.primaryTimeframe = some args.bars := by
  simp [pipeline, TfMap.single, TfMap.get?]

/-- The facade returns exactly when the pipeline does. -/
theorem analyze_eq_ok_iff {args : FacadeInput} {plan : TradePlan} : analyze args = .ok plan ↔
    ∃ r, analyzeMultiTimeframe args.pipeline = .ok r ∧ plan = r.tradePlan args.calendarBlackout := by
  unfold analyze
  cases analyzeMultiTimeframe args.pipeline with
  | error e => simp [bind, Except.bind]
  | ok r => simp [bind, Except.bind, pure, Except.pure, eq_comm]

theorem facade_returns_iff (args : FacadeInput) : (∃ plan, analyze args = .ok plan) ↔
    Validated args.bars ∧ (args.bars ≠ [] ∨ -1 ≤ args.lookback) := by
  have hreturns : (∃ plan, analyze args = .ok plan) ↔
      ∃ r, analyzeMultiTimeframe args.pipeline = .ok r := by
    simp only [analyze_eq_ok_iff]
    exact ⟨fun ⟨_, r, hr, _⟩ => ⟨r, hr⟩, fun ⟨r, hr⟩ => ⟨_, r, hr, rfl⟩⟩
  have hentries : ∀ e ∈ args.pipeline.timeframeBars.entries, e = ("M15", args.bars) :=
    fun e he => List.mem_singleton.mp he
  have hvalidated : ∀ {r}, analyzeMultiTimeframe args.pipeline = .ok r → Validated args.bars := by
    intro r hr
    obtain ⟨hp, -⟩ | ⟨bars, hp, hval, -⟩ := analyze_eq_ok.mp hr
    · rw [args.get?_bars] at hp
      cases hp
    · exact hval ("M15", args.bars) (List.mem_singleton.mpr rfl)
  rw [hreturns]
  by_cases hnil : args.bars = []
  · -- Without bars there is no last one, so the list must not be evaluated.
    have hev : Evaluated args.pipeline.lookback args.bars ↔ args.lookback < -1 := by
      simp only [Evaluated, hnil, FacadeInput.pipeline, List.length_nil]
      omega
    constructor
    · rintro ⟨r, hr⟩
      refine ⟨hvalidated hr, Or.inr ?_⟩
      obtain ⟨hp, -⟩ | ⟨bars, hp, -, ⟨hshort, -⟩ | ⟨-, hc⟩⟩ := analyze_eq_ok.mp hr
      · rw [args.get?_bars] at hp
        cases hp
      · rw [args.get?_bars] at hp
        cases hp
        rw [hev] at hshort
        omega
      · rw [args.get?_bars] at hp
        cases hp
        obtain ⟨lastBar, _, _, hl, -⟩ := concludeAnalysis_eq_ok.mp hc
        rw [hnil] at hl
        cases hl
    · rintro ⟨hval, hlook⟩
      have hshort : ¬ Evaluated args.pipeline.lookback args.bars := by
        rw [hev]
        rcases hlook with h | h
        · exact absurd hnil h
        · omega
      have hvals : ∀ e ∈ args.pipeline.timeframeBars.entries, Validated e.2 := by
        intro e he
        rw [hentries e he]
        exact hval
      exact ⟨_, analyze_eq_ok.mpr
        (Or.inr ⟨args.bars, args.get?_bars, hvals, Or.inl ⟨hshort, rfl⟩⟩)⟩
  · constructor
    · exact fun ⟨r, hr⟩ => ⟨hvalidated hr, Or.inl hnil⟩
    · rintro ⟨hval, -⟩
      refine (returns_iff_noForeignBreak args.get?_bars ?_ ?_).mpr args.noForeignBreak
      · intro e he
        rw [hentries e he]
        exact hval
      · intro e he
        rw [hentries e he]
        exact hnil

/-- A result without a SETUP is an idle plan. -/
theorem idle_of_noSetup {inp : AnalysisInput} {r : AnalysisResult}
    (h : analyzeMultiTimeframe inp = .ok r) (hs : r.status ≠ .setup) (blackout : Bool) :
    (r.tradePlan blackout).Idle := by
  obtain ⟨reason, rfl⟩ | ⟨bars, lastBar, hf⟩ := analyze_ok_cases h
  · exact ⟨rfl, rfl, rfl, rfl⟩
  · have hplan : (⟨r.stopLoss, r.takeProfits, r.riskReward⟩ : RiskPlan) = ⟨none, [], none⟩ := by
      rw [hf.plan]
      split
      · exact if_neg hs
      · rfl
    obtain ⟨hstop, htps, hrr⟩ := RiskPlan.mk.inj hplan
    refine ⟨?_, hstop, ?_, hrr⟩
    · exact hf.direction.trans (if_neg hs)
    · simp only [AnalysisResult.tradePlan, htps, List.head?_nil]

/-- The levels of a SETUP: none, or those of a zone. -/
theorem FullAnalysis.levels {inp : AnalysisInput} {bars : List Bar} {lastBar : Bar}
    {r : AnalysisResult} (hf : FullAnalysis inp bars lastBar r) (hs : r.status = .setup) :
    (r.entryZone = none ∧ r.invalidation = none ∧ r.stopLoss = none ∧ r.takeProfits = [] ∧
      r.riskReward = none) ∨
    ∃ z stop rr, r.entryZone = some (z.low, z.high) ∧ r.invalidation = some z.invalidation ∧
      r.stopLoss = some stop ∧ r.riskReward = some rr ∧
      PlanGeometry (inp.decided bars lastBar).best z stop inp.riskRewardTarget r.takeProfits rr := by
  have hplan := hf.plan
  by_cases hinv : r.invalidation = none
  · have hzone : zoneOf (inp.evidenceOn inp.primaryTimeframe bars) (inp.decided bars lastBar).best =
        none := by
      rw [hf.invalidation, Option.map_eq_none_iff] at hinv
      exact hinv
    rw [hzone] at hplan
    obtain ⟨hstop, htps, hrr⟩ := RiskPlan.mk.inj hplan
    refine Or.inl ⟨?_, hinv, hstop, htps, hrr⟩
    rw [hf.entryZone, hzone]
    rfl
  · obtain ⟨bottom, top, hlt, hz⟩ := hf.zone_height hinv
    obtain ⟨stop, rr, hstop, hrr, hgeo⟩ :=
      planGeometry_zone (inp.decided bars lastBar).best hlt lastBar.close inp.riskRewardTarget
    rw [hz] at hplan
    simp only [if_pos hs] at hplan
    rw [← hplan] at hstop hrr hgeo
    refine Or.inr ⟨_, stop, rr, ?_, ?_, hstop, hrr, hgeo⟩
    · rw [hf.entryZone, hz]
      rfl
    · rw [hf.invalidation, hz]
      rfl

/-- A SETUP of the only timeframe is a plan that trades. -/
theorem trades_of_setup {args : FacadeInput} {r : AnalysisResult}
    (h : analyzeMultiTimeframe args.pipeline = .ok r) (hs : r.status = .setup) :
    ∃ d : Direction, r.direction = d.trade ∧
      (r.tradePlan args.calendarBlackout).Trades args d := by
  obtain ⟨bars, lastBar, hf, hdir⟩ := setup_full h hs
  obtain rfl : bars = args.bars := Option.some.inj (hf.primary.symm.trans args.get?_bars)
  have hset := decision_setup_iff.mp (hf.status.symm.trans hs)
  refine ⟨_, hdir, ⟨?_, hset.2.2.2.2.2, ?_, ?_⟩⟩
  · obtain ⟨e, he, -, hlast⟩ := structureOk_iff.mp
      (show (args.pipeline.decided args.bars lastBar).structureOk = true from hset.1)
    obtain rfl := List.mem_singleton.mp he
    exact Option.map_eq_some_iff.mp hlast
  · have hconf := hset.2.2.2.2.1
    exact hconf.trans_eq hf.confidence.symm
  · obtain ⟨hzone, -, hstop, htps, hrr⟩ | ⟨z, stop, rr, hzone, -, hstop, hrr, hgeo⟩ := hf.levels hs
    · left
      simp [AnalysisResult.tradePlan, hzone, hstop, htps, hrr]
    · right
      refine ⟨z, stop, r.takeProfits, rr, ?_, hstop, rfl, hrr, hgeo⟩
      simp only [AnalysisResult.tradePlan, hzone, Option.map_some]
      rfl

/-- **The facade.** `analyze` returns exactly when `_validate_bars` accepts the bars, unless there are
none and `lookback` is below `-1`. A plan either has no direction, and then no levels but the entry,
or trades in the direction of the last structure event, outside a blackout, with the confidence asked
for, and with all the levels of a zone or none of them. -/
theorem facade_exact (args : FacadeInput) :
    ((∃ plan, analyze args = .ok plan) ↔
      Validated args.bars ∧ (args.bars ≠ [] ∨ -1 ≤ args.lookback)) ∧
    ∀ plan, analyze args = .ok plan →
      plan.Idle ∨ ∃ d : Direction, plan.direction = d.trade ∧ plan.Trades args d := by
  refine ⟨facade_returns_iff args, fun plan hplan => ?_⟩
  obtain ⟨r, hr, rfl⟩ := analyze_eq_ok_iff.mp hplan
  by_cases hs : r.status = .setup
  · exact Or.inr (trades_of_setup hr hs)
  · exact Or.inl (idle_of_noSetup hr hs _)

end MarketKill3r
