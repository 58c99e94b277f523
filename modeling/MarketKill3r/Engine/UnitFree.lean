import MarketKill3r.Engine.Units

/-!
# The analysis does not depend on the price unit

* `tfEvidence_scale`, `factorHit_scale`: the evidence is scaled, the factors are the same.
* `riskPlan_scale`: the plan is scaled, the reward per risk is the same.
* `analyze_scale`: the result of the scaled input is the scaled result.
-/

namespace MarketKill3r

/-! ## Scaled inputs and results -/

/-- `{k: f(v) for k, v in m.items()}` -/
def TfMap.mapValues {α β : Type} (f : α → β) (m : TfMap α) : TfMap β where
  entries := m.entries.map fun e => (e.1, f e.2)
  nodup := by
    rw [List.map_map]
    exact m.nodup

/-- The prices of the symbol multiplied by `c`, those of the correlated market by `c'`. -/
def AnalysisInput.scale (c c' : ℚ) (inp : AnalysisInput) : AnalysisInput :=
  { inp with
    timeframeBars := inp.timeframeBars.mapValues (List.map (Bar.scale c))
    correlatedTimeframeBars :=
      inp.correlatedTimeframeBars.map (TfMap.mapValues (List.map (Bar.scale c'))) }

def TimeframeEvidence.scale (c : ℚ) (e : TimeframeEvidence) : TimeframeEvidence :=
  { e with
    structureEvents := e.structureEvents.map (StructureEvent.scale c)
    swings := e.swings.map (SwingPoint.scale c)
    fvgs := e.fvgs.map (FairValueGap.scale c)
    orderBlocks := e.orderBlocks.map (OrderBlock.scale c)
    sweeps := e.sweeps.map (LiquiditySweep.scale c)
    dealingRange := e.dealingRange.map (DealingRange.scale c)
    session := e.session.map (SessionWindow.scale c) }

def EvidenceJson.scale (c : ℚ) (e : EvidenceJson) : EvidenceJson :=
  { e with
    swings := e.swings.map fun s => { s with swing := s.swing.scale c }
    structureEvents := e.structureEvents.map (StructureEvent.scale c)
    fvgs := e.fvgs.map (FairValueGap.scale c)
    orderBlocks := e.orderBlocks.map (OrderBlock.scale c)
    liquiditySweeps := e.liquiditySweeps.map (LiquiditySweep.scale c)
    equalLevels := ⟨e.equalLevels.highs.map (c * ·), e.equalLevels.lows.map (c * ·)⟩
    dealingRange := e.dealingRange.map fun dr =>
      { dr with high := c * dr.high, low := c * dr.low, equilibrium := c * dr.equilibrium }
    sessions := e.sessions.map (SessionWindow.scale c) }

def Evidence.scale (c : ℚ) (e : Evidence) : Evidence :=
  { e with timeframes := e.timeframes.map fun t => (t.1, t.2.scale c) }

/-- The levels of the plan and of the evidence multiplied by `c`. Everything else is unchanged. -/
def AnalysisResult.scale (c : ℚ) (r : AnalysisResult) : AnalysisResult :=
  { r with
    entryZone := r.entryZone.map fun z => (c * z.1, c * z.2)
    invalidation := r.invalidation.map (c * ·)
    stopLoss := r.stopLoss.map (c * ·)
    takeProfits := r.takeProfits.map (c * ·)
    evidence := r.evidence.map (Evidence.scale c) }

def PlanZone.scale (c : ℚ) (z : PlanZone) : PlanZone := ⟨c * z.low, c * z.high, c * z.invalidation⟩

def RiskPlan.scale (c : ℚ) (p : RiskPlan) : RiskPlan :=
  { p with stop := p.stop.map (c * ·), takeProfits := p.takeProfits.map (c * ·) }

theorem lookup_map_values {α β : Type} (f : α → β) (es : List (String × α)) (key : String) :
    (es.map fun e => (e.1, f e.2)).lookup key = (es.lookup key).map f := by
  induction es with
  | nil => rfl
  | cons e es ih =>
    obtain ⟨k, a⟩ := e
    rw [List.map_cons, List.lookup_cons, List.lookup_cons]
    cases key == k with
    | true => rfl
    | false => exact ih

theorem TfMap.get?_mapValues {α β : Type} (f : α → β) (m : TfMap α) (key : String) :
    (m.mapValues f).get? key = (m.get? key).map f := by
  exact lookup_map_values f m.entries key

theorem lastItem_map {α β : Type} (f : α → β) (xs : List α) :
    lastItem (xs.map f) = (lastItem xs).map f := by
  unfold lastItem
  rw [List.getLast?_map]
  cases xs.getLast? <;> rfl

section Unit

variable {c c' : ℚ} (hc : 0 < c) (hc' : 0 < c')

/-! ## Evidence -/

include hc in
theorem validateBars_scale (bars : List Bar) :
    validateBars (bars.map (Bar.scale c)) = (validateBars bars).map (List.map (Bar.scale c)) := by
  have hohlc : OhlcValid (bars.map (Bar.scale c)) ↔ OhlcValid bars :=
    (Rescaling.unit c hc).ohlcValid_iff bars
  have hchron : Chronological (bars.map (Bar.scale c)) ↔ Chronological bars :=
    List.isChain_map (Bar.scale c)
  unfold validateBars
  simp only [hohlc, hchron]
  split
  · rfl
  · split <;> rfl

include hc hc' in
theorem tfEvidence_scale (tf : String) {bars : List Bar} (h : ∀ b ∈ bars, b.Floored c)
    (corr : Option (List Bar)) (lookback : Int) :
    tfEvidence tf (bars.map (Bar.scale c)) (corr.map (List.map (Bar.scale c'))) lookback =
      (tfEvidence tf bars corr lookback).scale c := by
  have hdisp : (List.range (bars.map (Bar.scale c)).length).filter
        (isDisplacementCandle (bars.map (Bar.scale c))) =
      (List.range bars.length).filter (isDisplacementCandle bars) := by
    rw [List.length_map]
    exact List.filter_congr fun i _ => isDisplacementCandle_scale hc bars i
  have hsmt : (tfEvidence tf (bars.map (Bar.scale c)) (corr.map (List.map (Bar.scale c')))
      lookback).smt = (tfEvidence tf bars corr lookback).smt := by
    rcases corr with _ | _ | ⟨b, bs⟩
    · rfl
    · rfl
    · exact detectSmtDivergence_scale hc hc' bars (b :: bs) lookback true
  have heta : ∀ e : TimeframeEvidence, e = ⟨e.timeframe, e.trend, e.structureEvents, e.swings, e.fvgs,
    e.orderBlocks, e.sweeps, e.dealingRange, e.displacementIndices, e.session, e.smt⟩ := fun _ => rfl
  rw [heta (tfEvidence tf (bars.map (Bar.scale c)) _ lookback), hsmt]
  simp only [tfEvidence, TimeframeEvidence.scale, detectStructureEvents_scale hc,
    findSwingPoints_scale hc, detectFairValueGaps_scale hc, detectOrderBlocks_scale hc,
    detectLiquiditySweeps_scale hc h, computeDealingRange_scale hc, computeSessionWindows_scale hc,
    hdisp]

include hc hc' in
/-- The evidence of all timeframes, or the error of the first list that does not validate. -/
theorem collectEvidence_scale (corr : Option (TfMap (List Bar))) (lookback : Int)
    {entries : List (String × List Bar)} (h : ∀ e ∈ entries, ∀ b ∈ e.2, b.Floored c) :
    collectEvidence (corr.map (TfMap.mapValues (List.map (Bar.scale c')))) lookback
        (entries.map fun e => (e.1, e.2.map (Bar.scale c))) =
      (collectEvidence corr lookback entries).map
        (List.map fun e => (e.1, e.2.scale c)) := by
  induction entries with
  | nil => rfl
  | cons e rest ih =>
    obtain ⟨tf, raw⟩ := e
    have hcorr : (corr.map (TfMap.mapValues (List.map (Bar.scale c')))).bind (·.get? tf) =
        (corr.bind (·.get? tf)).map (List.map (Bar.scale c')) := by
      cases corr with
      | none => rfl
      | some m => exact TfMap.get?_mapValues _ m tf
    rw [List.map_cons, collectEvidence, collectEvidence, validateBars_scale hc,
      ih fun e he => h e (List.mem_cons_of_mem _ he), hcorr]
    cases hv : validateBars raw with
    | error err => rfl
    | ok bars =>
      obtain ⟨-, rfl⟩ := validateBars_eq_ok hv
      cases collectEvidence corr lookback rest with
      | error err => rfl
      | ok later =>
        simp only [Except.map, bind, Except.bind, List.length_map]
        split
        · rfl
        · simp only [pure, Except.pure, List.map_cons]
          rw [tfEvidence_scale hc hc' tf (h (tf, bars) List.mem_cons_self)]

/-! ## Decision -/

include hc in
/-- No factor depends on the unit. -/
theorem factorHit_scale (es : List TimeframeEvidence) (primary : TimeframeEvidence) (lastBar : Bar)
    (news : Option ℚ) (eventRisk : Bool) :
    factorHit (es.map (TimeframeEvidence.scale c)) (primary.scale c) (lastBar.scale c) news
      eventRisk = factorHit es primary lastBar news eventRisk := by
  funext d k
  cases k with
  | marketStructure =>
    simp only [factorHit, List.any_map]
    congr 1
    funext e
    simp only [Function.comp_apply, TimeframeEvidence.scale, List.getLast?_map, Option.any_map]
    rfl
  | orderBlock =>
    simp only [factorHit, List.any_map]
    congr 1
    funext e
    simp only [Function.comp_apply, TimeframeEvidence.scale, List.any_map]
    rfl
  | fvg =>
    simp only [factorHit, List.any_map]
    congr 1
    funext e
    simp only [Function.comp_apply, TimeframeEvidence.scale, List.any_map]
    rfl
  | liquidity =>
    simp only [factorHit, List.any_map]
    congr 1
    funext e
    simp only [Function.comp_apply, TimeframeEvidence.scale, List.any_map]
    rfl
  | premiumDiscount =>
    simp only [factorHit, TimeframeEvidence.scale, Option.any_map]
    congr 1
    funext dr
    have hclose : (lastBar.scale c).close = c * lastBar.close := rfl
    simp only [hclose, zoneFor_scale hc]
  | _ => rfl

theorem trendVotes_scale (es : List TimeframeEvidence) :
    trendVotes (es.map (TimeframeEvidence.scale c)) = trendVotes es := by
  funext d
  unfold trendVotes
  rw [List.filter_map, List.length_map]
  rfl

/-! ## Plan -/

theorem activeObs_scale (e : TimeframeEvidence) (d : Direction) :
    activeObs (e.scale c) d = (activeObs e d).map (OrderBlock.scale c) := by
  unfold activeObs TimeframeEvidence.scale
  rw [List.filter_map]
  rfl

theorem activeFvgs_scale (e : TimeframeEvidence) (d : Direction) :
    activeFvgs (e.scale c) d = (activeFvgs e d).map (FairValueGap.scale c) := by
  unfold activeFvgs TimeframeEvidence.scale
  rw [List.filter_map]
  rfl

theorem zone_scale (d : Direction) (bottom top : ℚ) :
    d.zone (c * bottom) (c * top) = (d.zone bottom top).scale c := by
  cases d <;> rfl

theorem zoneOf_scale (e : TimeframeEvidence) (d : Direction) :
    zoneOf (e.scale c) d = (zoneOf e d).map (PlanZone.scale c) := by
  unfold zoneOf
  rw [activeObs_scale, activeFvgs_scale, List.getLast?_map, List.getLast?_map]
  cases (activeObs e d).getLast? with
  | some o => exact congrArg some (zone_scale d o.bottom o.top)
  | none =>
    cases (activeFvgs e d).getLast? with
    | some g => exact congrArg some (zone_scale d g.bottom g.top)
    | none => rfl

theorem along_scale (d : Direction) (x y : ℚ) : d.along (c * x) (c * y) = c * d.along x y := by
  cases d <;> simp only [Direction.along] <;> ring

include hc in
theorem width_scale (z : PlanZone) (p : ℚ) : (z.scale c).width (c * p) = c * z.width p := by
  simp only [PlanZone.width, PlanZone.scale, abs_scale_sub hc, mul_assoc]
  rw [mul_max_of_nonneg _ _ hc.le]

include hc in
theorem stop_scale (z : PlanZone) (d : Direction) (p : ℚ) :
    (z.scale c).stop d (c * p) = c * z.stop d p := by
  unfold PlanZone.stop
  rw [width_scale hc, mul_assoc]
  exact along_scale d.opposite _ _

theorem entry_scale (z : PlanZone) : (z.scale c).entry = c * z.entry := by
  simp only [PlanZone.entry, PlanZone.scale]
  ring

include hc in
/-- The plan is scaled. The reward per risk is a ratio of two distances. -/
theorem riskPlan_scale (z : PlanZone) (d : Direction) (p target : ℚ) :
    riskPlan (z.scale c) d (c * p) target = (riskPlan z d p target).scale c := by
  have hrisk : |(z.scale c).entry - (z.scale c).stop d (c * p)| = c * |z.entry - z.stop d p| := by
    rw [entry_scale, stop_scale hc, abs_scale_sub hc]
  have htp : ∀ t, d.along (z.scale c).entry (c * |z.entry - z.stop d p| * t) =
      c * d.along z.entry (|z.entry - z.stop d p| * t) := by
    intro t
    rw [entry_scale, mul_assoc, along_scale]
  have hpos : 0 < c * |z.entry - z.stop d p| ↔ 0 < |z.entry - z.stop d p| :=
    mul_pos_iff_of_pos_left hc
  unfold riskPlan
  simp only [hrisk, htp, hpos]
  split
  · have hrr : |c * d.along z.entry (|z.entry - z.stop d p| * target) - (z.scale c).entry| /
          (c * |z.entry - z.stop d p|) =
        |d.along z.entry (|z.entry - z.stop d p| * target) - z.entry| / |z.entry - z.stop d p| := by
      rw [entry_scale, abs_scale_sub hc, mul_div_mul_left _ _ hc.ne']
    simp only [hrr, stop_scale hc]
    rfl
  · simp only [stop_scale hc]
    rfl

/-! ## The result -/

include hc in
theorem evidenceJson_scale {e : TimeframeEvidence} (h : ∀ s ∈ e.swings, Floored c s.price) (p : ℚ) :
    evidenceJson (e.scale c) (c * p) = (evidenceJson e p).scale c := by
  have hlevels : ∀ κ, clusterSwingLevels (pricesOf κ (e.swings.map (SwingPoint.scale c)))
      defaultTolerance = (clusterSwingLevels (pricesOf κ e.swings) defaultTolerance).map (c * ·) := by
    intro κ
    rw [clusterSwingLevels_eq, pricesOf_scale]
    refine cluster_scale hc fun x hx => ?_
    obtain ⟨s, hs, rfl⟩ := List.mem_map.mp hx
    exact h s (List.mem_of_mem_filter hs)
  have hrange : (e.dealingRange.map (DealingRange.scale c)).map
        (fun dr => (⟨dr.rangeHigh, dr.rangeLow, dr.equilibrium, dr.zoneFor (c * p)⟩ :
          DealingRangeJson)) =
      (e.dealingRange.map fun dr =>
        (⟨dr.rangeHigh, dr.rangeLow, dr.equilibrium, dr.zoneFor p⟩ : DealingRangeJson)).map
        fun dr => { dr with high := c * dr.high, low := c * dr.low, equilibrium := c * dr.equilibrium } := by
    cases e.dealingRange with
    | none => rfl
    | some dr =>
      simp only [Option.map_some, zoneFor_scale hc]
      rfl
  simp only [evidenceJson, EvidenceJson.scale, TimeframeEvidence.scale, hlevels, hrange,
    labelSwings_scale hc, List.map_map]
  rfl

include hc in
theorem evidenceTimeframes_scale (m : TfMap (List Bar)) {evs : List (String × TimeframeEvidence)}
    (h : ∀ e ∈ evs, ∀ s ∈ e.2.swings, Floored c s.price) :
    evidenceTimeframes (m.mapValues (List.map (Bar.scale c))) (evs.map fun e => (e.1, e.2.scale c)) =
      (evidenceTimeframes m evs).map (List.map fun e => (e.1, e.2.scale c)) := by
  induction evs with
  | nil => rfl
  | cons e rest ih =>
    obtain ⟨tf, e⟩ := e
    have hget : ((m.mapValues (List.map (Bar.scale c))).get? tf).getD [] =
        ((m.get? tf).getD []).map (Bar.scale c) := by
      rw [TfMap.get?_mapValues]
      cases m.get? tf <;> rfl
    rw [List.map_cons, evidenceTimeframes, evidenceTimeframes, hget, lastItem_map,
      ih fun e he => h e (List.mem_cons_of_mem _ he)]
    cases lastItem ((m.get? tf).getD []) with
    | error err => rfl
    | ok last =>
      cases evidenceTimeframes m rest with
      | error err => rfl
      | ok later =>
        have hjson := evidenceJson_scale hc (h (tf, e) List.mem_cons_self) last.close
        simp only [Except.map, bind, Except.bind, pure, Except.pure, List.map_cons]
        rw [← hjson]
        rfl

theorem reasonsOf_scale (d : Decision) (factors : Direction → Factor → Bool)
    (primary : TimeframeEvidence) (eventRisk : Bool) :
    reasonsOf d factors (primary.scale c) eventRisk = reasonsOf d factors primary eventRisk := by
  have hlast : lastItem (primary.scale c).structureEvents =
      (lastItem primary.structureEvents).map (StructureEvent.scale c) := lastItem_map _ _
  have hobs : (activeObs (primary.scale c) d.best ≠ []) ↔ activeObs primary d.best ≠ [] := by
    rw [activeObs_scale, ne_eq, List.map_eq_nil_iff]
  have hfvgs : (activeFvgs (primary.scale c) d.best ≠ []) ↔ activeFvgs primary d.best ≠ [] := by
    rw [activeFvgs_scale, ne_eq, List.map_eq_nil_iff]
  unfold reasonsOf
  simp only [hlast, hobs, hfvgs]
  cases lastItem primary.structureEvents <;> rfl

include hc' in
/-- The trends of the correlated markets are those in the other unit. -/
theorem correlatedTrends_scale (inp : AnalysisInput) :
    (((inp.scale c c').correlatedTimeframeBars.map (·.entries)).getD []).map
        (fun e => (e.1, (tfEvidence e.1 e.2 none (inp.scale c c').lookback).trend)) =
      ((inp.correlatedTimeframeBars.map (·.entries)).getD []).map
        fun e => (e.1, (tfEvidence e.1 e.2 none inp.lookback).trend) := by
  unfold AnalysisInput.scale
  cases inp.correlatedTimeframeBars with
  | none => rfl
  | some m =>
    show ((m.entries.map fun e => (e.1, e.2.map (Bar.scale c'))).map fun e =>
      (e.1, (tfEvidence e.1 e.2 none inp.lookback).trend)) = m.entries.map _
    rw [List.map_map]
    refine List.map_congr_left fun e _ => ?_
    have ht := congrArg Prod.snd (detectStructureEvents_scale hc' e.2 inp.lookback)
    exact congrArg (Prod.mk e.1) ht

include hc hc' in
/-- The part after the evidence. -/
theorem concludeAnalysis_scale (inp : AnalysisInput) {evs : List (String × TimeframeEvidence)}
    (h : ∀ e ∈ evs, ∀ s ∈ e.2.swings, Floored c s.price) (primary : TimeframeEvidence)
    (bars : List Bar) :
    concludeAnalysis (inp.scale c c') (evs.map fun e => (e.1, e.2.scale c)) (primary.scale c)
        (bars.map (Bar.scale c)) =
      (concludeAnalysis inp evs primary bars).map (AnalysisResult.scale c) := by
  have hes : (evs.map fun e => (e.1, e.2.scale c)).map (·.2) =
      (evs.map (·.2)).map (TimeframeEvidence.scale c) := by
    rw [List.map_map, List.map_map]
    rfl
  have htfs : (evs.map fun e => (e.1, e.2.scale c)).map (·.1) = evs.map (·.1) := by
    rw [List.map_map]
    rfl
  have htrends := correlatedTrends_scale (c := c) hc' inp
  simp only [concludeAnalysis, planZone_eq, lastItem_map, hes, htfs, trendVotes_scale, reasonsOf_scale,
    zoneOf_scale]
  cases lastItem bars with
  | error err => rfl
  | ok lastBar =>
    have hclose : (lastBar.scale c).close = c * lastBar.close := rfl
    have hmaps : (inp.scale c c').timeframeBars = inp.timeframeBars.mapValues (List.map (Bar.scale c)) :=
      rfl
    simp only [Except.map, bind, Except.bind, factorHit_scale hc, List.length_map, hmaps,
      evidenceTimeframes_scale hc inp.timeframeBars h]
    cases evidenceTimeframes inp.timeframeBars evs with
    | error err => rfl
    | ok js =>
      have hnews : (inp.scale c c').newsSentiment = inp.newsSentiment := rfl
      have hrisk : (inp.scale c c').calendarBlackout = inp.calendarBlackout := rfl
      have hmin : (inp.scale c c').minConfidence = inp.minConfidence := rfl
      have htarget : (inp.scale c c').riskRewardTarget = inp.riskRewardTarget := rfl
      simp only [hnews, hrisk, hmin, htarget, htrends, hclose]
      generalize factorHit (evs.map (·.2)) primary lastBar inp.newsSentiment inp.calendarBlackout =
        factors
      generalize decision factors (trendVotes (evs.map (·.2))) evs.length inp.calendarBlackout
        inp.minConfidence = d
      cases reasonsOf d factors primary inp.calendarBlackout with
      | error err => rfl
      | ok rs =>
        cases zoneOf primary d.best with
        | none => rfl
        | some z =>
          simp only [Option.map_some, riskPlan_scale hc]
          by_cases hs : d.status = .setup
          · simp only [hs, ↓reduceIte]
            rfl
          · simp only [hs, ↓reduceIte]
            rfl

theorem unconfirmed_scale (inp : AnalysisInput) (reasoning : String) :
    unconfirmed (inp.scale c c') reasoning = (unconfirmed inp reasoning).scale c := by
  have hkeys : (inp.scale c c').timeframeBars.entries.map (·.1) =
      inp.timeframeBars.entries.map (·.1) := by
    show (inp.timeframeBars.entries.map fun e => (e.1, e.2.map (Bar.scale c))).map (·.1) = _
    rw [List.map_map]
    rfl
  unfold unconfirmed
  rw [hkeys]
  rfl

/-- The swings of the collected evidence have floored prices. -/
theorem floored_evidence {inp : AnalysisInput}
    (h : ∀ e ∈ inp.timeframeBars.entries, ∀ b ∈ e.2, b.Floored c)
    {evs : List (String × TimeframeEvidence)}
    (he : collectEvidence inp.correlatedTimeframeBars inp.lookback inp.timeframeBars.entries =
      .ok evs) : ∀ e ∈ evs, ∀ s ∈ e.2.swings, Floored c s.price := by
  obtain ⟨-, rfl⟩ := collectEvidence_eq_ok he
  intro e hm
  obtain ⟨entry, hentry, rfl⟩ := List.mem_map.mp hm
  exact floored_swings (h entry (List.mem_of_mem_filter hentry)) inp.lookback

end Unit

/-- **The analysis does not depend on the price unit.** Multiply the prices of the symbol by `c` and
those of the correlated market by `c'`, both positive. If no price of the symbol is below the
clustering floor, before or after, then the result is the scaled result: status, direction,
confidence, score, bias, reward per risk, factors and all indices are the same, and the zone, the
invalidation, the stop and the take-profits are multiplied by `c`. -/
theorem analyze_scale {inp : AnalysisInput} {c c' : ℚ} (hc : 0 < c) (hc' : 0 < c')
    (h : ∀ e ∈ inp.timeframeBars.entries, ∀ b ∈ e.2, b.Floored c) :
    analyzeMultiTimeframe (inp.scale c c') =
      (analyzeMultiTimeframe inp).map (AnalysisResult.scale c) := by
  have hget : (inp.scale c c').timeframeBars.get? (inp.scale c c').primaryTimeframe =
      (inp.timeframeBars.get? inp.primaryTimeframe).map (List.map (Bar.scale c)) :=
    TfMap.get?_mapValues _ inp.timeframeBars inp.primaryTimeframe
  have hev : collectEvidence (inp.scale c c').correlatedTimeframeBars (inp.scale c c').lookback
        (inp.scale c c').timeframeBars.entries =
      (collectEvidence inp.correlatedTimeframeBars inp.lookback inp.timeframeBars.entries).map
        (List.map fun e => (e.1, e.2.scale c)) :=
    collectEvidence_scale hc hc' inp.correlatedTimeframeBars inp.lookback h
  have hprim : (inp.scale c c').primaryTimeframe = inp.primaryTimeframe := rfl
  unfold analyzeMultiTimeframe
  rw [hget, hev, hprim]
  cases inp.timeframeBars.get? inp.primaryTimeframe with
  | none => exact congrArg Except.ok (unconfirmed_scale inp _)
  | some bars =>
    cases hcol : collectEvidence inp.correlatedTimeframeBars inp.lookback
        inp.timeframeBars.entries with
    | error err => rfl
    | ok evs =>
      simp only [Option.map_some, Except.map, bind, Except.bind, lookup_map_values]
      cases evs.lookup inp.primaryTimeframe with
      | none => exact congrArg Except.ok (unconfirmed_scale inp _)
      | some primary =>
        have hcon := concludeAnalysis_scale hc hc' inp (floored_evidence h hcol) primary bars
        simp only [Option.map_some]
        exact hcon

/-- The strongly bullish series in cents: the SETUP has its stop at a hundred times the price. -/
theorem strong_in_cents :
    ∃ r, analyzeMultiTimeframe (strongInput.scale 100 1) = .ok r ∧ r.status = .setup ∧
      r.stopLoss = some 980 := by
  obtain ⟨r, hr, hs, hstop⟩ := strong_setup
  have hscale := @analyze_scale strongInput 100 1 (by norm_num) (by norm_num) (by decide +kernel)
  rw [hr] at hscale
  refine ⟨r.scale 100, hscale, hs, ?_⟩
  show r.stopLoss.map (100 * ·) = some 980
  rw [hstop]
  norm_num

end MarketKill3r
