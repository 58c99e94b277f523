import MarketKill3r.Engine.Context
import MarketKill3r.Engine.Liquidity
import MarketKill3r.Engine.Zones

/-!
# The analysis pipeline (`app/engine/pipeline.py`)

Validated bars → detectors per timeframe → factors for both sides → decision → risk plan →
explanation. `analyzeMultiTimeframe` runs in `Except PyError`: a `ValueError` of `_validate_bars`
and an `IndexError` of a `[-1]` on an empty list end it. The detectors index the bars only inside
`range(len(bars))` and cannot fail.

* `tfEvidence`: the detectors on one timeframe.
* `factorHit`, `rawScore`: the ten factors of a side and their weighted sum.
* `decision`: the favoured side, its confidence and the status.
* `planZone`, `riskPlan`: the zone that carries the trade, stop and take-profits.
-/

namespace MarketKill3r

/-- The exceptions of the pipeline. -/
inductive PyError where
  | valueError (message : String)
  | indexError
  deriving DecidableEq, Repr

/-- `xs[-1]` -/
def lastItem {α : Type} (xs : List α) : Except PyError α :=
  match xs.getLast? with
  | none => .error .indexError
  | some x => .ok x

/-- A `dict[str, α]` in insertion order. -/
structure TfMap (α : Type) where
  entries : List (String × α)
  nodup : (entries.map (·.1)).Nodup

/-- `m.get(key)` -/
def TfMap.get? {α : Type} (m : TfMap α) (key : String) : Option α := m.entries.lookup key

/-- An event of the economic calendar, as the `dict` the route builds. -/
abbrev EventDict := List (String × Option String)

/-- The parameters of `analyze_multi_timeframe`. -/
structure AnalysisInput where
  symbol : String
  timeframeBars : TfMap (List Bar)
  primaryTimeframe : String
  correlatedTimeframeBars : Option (TfMap (List Bar))
  newsSentiment : Option ℚ
  highImpactEvents : Option (List EventDict)
  calendarBlackout : Bool
  lookback : Int
  minConfidence : ℚ
  riskRewardTarget : ℚ

/-! ## Evidence per timeframe -/

/-- The bars are strictly chronological. -/
def Chronological (bars : List Bar) : Prop :=
  bars.IsChain (fun a b => a.time.utc < b.time.utc)

instance (bars : List Bar) : Decidable (Chronological bars) :=
  inferInstanceAs (Decidable (bars.IsChain _))

theorem chronological_iff_pairwise {bars : List Bar} :
    Chronological bars ↔ bars.Pairwise (fun a b => a.time.utc < b.time.utc) := by
  let r := fun a b : Bar => a.time.utc < b.time.utc
  have : Trans r r r := ⟨Int.lt_trans⟩
  exact List.isChain_iff_pairwise

theorem chronological_append {bars more : List Bar} : Chronological (bars ++ more) ↔
    Chronological bars ∧ Chronological more ∧ ∀ b ∈ bars, ∀ c ∈ more, b.time.utc < c.time.utc := by
  simp only [chronological_iff_pairwise, List.pairwise_append]

theorem Chronological.time_le {bars : List Bar} (h : Chronological bars) {i j : Nat} {b c : Bar}
    (hb : bars[i]? = some b) (hc : bars[j]? = some c) (hij : i ≤ j) : b.time.utc ≤ c.time.utc := by
  obtain ⟨hi, rfl⟩ := List.getElem?_eq_some_iff.mp hb
  obtain ⟨hj, rfl⟩ := List.getElem?_eq_some_iff.mp hc
  rcases Nat.lt_or_eq_of_le hij with hlt | rfl
  · exact Int.le_of_lt (List.pairwise_iff_getElem.mp (chronological_iff_pairwise.mp h) i j hi hj hlt)
  · exact Int.le_refl _

theorem Chronological.time_le_last {bars : List Bar} (h : Chronological bars) {b l : Bar}
    (hb : b ∈ bars) (hl : bars.getLast? = some l) : b.time.utc ≤ l.time.utc := by
  obtain ⟨i, hi⟩ := List.getElem?_of_mem hb
  obtain ⟨hlt, -⟩ := List.getElem?_eq_some_iff.mp hi
  rw [List.getLast?_eq_getElem?] at hl
  exact h.time_le hi hl (by omega)

/-- `_validate_bars` -/
def validateBars (bars : List Bar) : Except PyError (List Bar) :=
  if ¬ OhlcValid bars then
    .error (.valueError "Invalid OHLC data: high/low do not contain open/close.")
  else if ¬ Chronological bars then .error (.valueError "Bars must be strictly chronological.")
  else .ok bars

/-- `TimeframeEvidence` -/
structure TimeframeEvidence where
  timeframe : String
  trend : Option Direction
  structureEvents : List StructureEvent
  swings : List SwingPoint
  fvgs : List FairValueGap
  orderBlocks : List OrderBlock
  sweeps : List LiquiditySweep
  dealingRange : Option DealingRange
  displacementIndices : List Nat
  session : List SessionWindow
  smt : List SMTDivergence

/-- The default `tolerance_pct = 0.05` of the level functions. -/
def defaultTolerance : ℚ := 5 / 100

/-- `_tf_evidence` -/
def tfEvidence (timeframe : String) (bars : List Bar) (correlated : Option (List Bar))
    (lookback : Int) : TimeframeEvidence where
  timeframe := timeframe
  trend := (detectStructureEvents bars lookback).2
  structureEvents := (detectStructureEvents bars lookback).1
  swings := findSwingPoints bars lookback
  fvgs := detectFairValueGaps bars true 0
  orderBlocks := detectOrderBlocks bars lookback 10
  sweeps := detectLiquiditySweeps bars lookback defaultTolerance
  dealingRange := computeDealingRange bars lookback 50
  displacementIndices := (List.range bars.length).filter (isDisplacementCandle bars)
  session := computeSessionWindows bars
  smt := match correlated with
    | none | some [] => []
    | some corr => detectSmtDivergence bars corr lookback true

/-- The loop over `timeframe_bars`: every list is validated, the short ones are skipped. -/
def collectEvidence (correlated : Option (TfMap (List Bar))) (lookback : Int) :
    List (String × List Bar) → Except PyError (List (String × TimeframeEvidence))
  | [] => .ok []
  | (tf, raw) :: rest => do
    let bars ← validateBars raw
    let later ← collectEvidence correlated lookback rest
    if (bars.length : Int) < 2 * lookback + 3 then pure later
    else pure ((tf, tfEvidence tf bars (correlated.bind (·.get? tf)) lookback) :: later)

/-! ## Factors -/

/-- The keys of `WEIGHTS`. `marketStructure` is the key `"structure"`. -/
inductive Factor where
  | marketStructure
  | orderBlock
  | fvg
  | liquidity
  | premiumDiscount
  | displacement
  | smt
  | session
  | fundamental
  | news
  deriving DecidableEq, Repr

/-- The keys of `WEIGHTS`, in order. -/
def Factor.all : List Factor :=
  [.marketStructure, .orderBlock, .fvg, .liquidity, .premiumDiscount, .displacement, .smt, .session,
    .fundamental, .news]

/-- `WEIGHTS` -/
def Factor.weight : Factor → Nat
  | .marketStructure => 28
  | .orderBlock => 14
  | .fvg => 10
  | .liquidity => 10
  | .premiumDiscount => 10
  | .displacement => 10
  | .smt => 5
  | .session => 3
  | .fundamental => 5
  | .news => 5

/-- `TECHNICAL_KEYS`. The source has a `set`: only how many of them hit is used, and their order in
the evidence is unspecified. -/
def technicalKeys : List Factor :=
  [.marketStructure, .orderBlock, .fvg, .liquidity, .premiumDiscount, .displacement, .smt, .session]

/-- The sweep that supports a reversal in the direction. -/
def Direction.sweepDir : Direction → SweepSide
  | .bullish => .sellSide
  | .bearish => .buySide

/-- The zone of the dealing range that the direction prefers. -/
def Direction.preferredZone : Direction → PriceZone
  | .bullish => .discount
  | .bearish => .premium

/-- `factors[direction]["news"]` -/
def newsHit (news : Option ℚ) (d : Direction) : Bool :=
  match news, d with
  | none, _ => false
  | some s, .bullish => 15 / 100 < s
  | some s, .bearish => s < -(15 / 100)

/-- `factors[direction]["fundamental"]`: the side that the sentiment points to, unless there is an
event risk. -/
def fundamentalHit (news : Option ℚ) (eventRisk : Bool) (d : Direction) : Bool :=
  match news with
  | none => false
  | some s =>
    decide (15 / 100 ≤ |s|) && decide ((if 0 < s then Direction.bullish else .bearish) = d) &&
      !eventRisk

/-- `factors[direction][key]` -/
def factorHit (evidences : List TimeframeEvidence) (primary : TimeframeEvidence) (lastBar : Bar)
    (news : Option ℚ) (eventRisk : Bool) (d : Direction) : Factor → Bool
  | .marketStructure => evidences.any fun e => e.structureEvents.getLast?.any (·.direction = d)
  | .orderBlock => evidences.any fun e => e.orderBlocks.any fun o => o.direction = d && !o.mitigated
  | .fvg => evidences.any fun e => e.fvgs.any fun g => g.direction = d && !g.filled
  | .liquidity => evidences.any fun e => e.sweeps.any (·.direction = d.sweepDir)
  | .premiumDiscount =>
    primary.dealingRange.any fun dr => dr.zoneFor lastBar.close = d.preferredZone
  | .displacement => !primary.displacementIndices.isEmpty
  | .smt => primary.smt.any (·.direction = d)
  | .session => 7 ≤ lastBar.time.hour ∧ lastBar.time.hour < 21
  | .fundamental => fundamentalHit news eventRisk d
  | .news => newsHit news d

/-- `raw_scores[d]` -/
def rawScore (factors : Direction → Factor → Bool) (d : Direction) : Nat :=
  ((Factor.all.filter (factors d)).map Factor.weight).sum

/-- `technical_hits` of a side. -/
def technicalHits (factors : Direction → Factor → Bool) (d : Direction) : List Factor :=
  technicalKeys.filter (factors d)

/-! ## Decision -/

/-- `AnalysisResult.status` -/
inductive AnalysisStatus where
  | setup
  | noSetup
  | insufficientConfirmation
  deriving DecidableEq, Repr

/-- `AnalysisResult.direction` -/
inductive TradeDirection where
  | bullish
  | bearish
  | noTrade
  deriving DecidableEq, Repr

/-- The direction of a trade on the side. -/
def Direction.trade : Direction → TradeDirection
  | .bullish => .bullish
  | .bearish => .bearish

theorem Direction.trade_injective : Function.Injective Direction.trade := by
  intro d e h
  cases d <;> cases e <;> simp [Direction.trade] at h ⊢

/-- `AnalysisResult.market_bias` -/
inductive MarketBias where
  | bullish
  | bearish
  | neutral
  | unknown
  deriving DecidableEq, Repr

/-- `directions[d]`: the timeframes that trend in the direction. -/
def trendVotes (evidences : List TimeframeEvidence) (d : Direction) : Nat :=
  (evidences.filter (·.trend = some d)).length

/-- `htf_bias`: the direction with more votes, the first of the `dict` on a tie. -/
def htfBias (votes : Direction → Nat) : MarketBias :=
  if max (votes .bullish) (votes .bearish) = 0 then .neutral
  else if votes .bearish ≤ votes .bullish then .bullish
  else .bearish

/-- `best` -/
def favoured (factors : Direction → Factor → Bool) : Direction :=
  if rawScore factors .bearish < rawScore factors .bullish then .bullish else .bearish

/-- `materially_conflicted`. The truncated `score - 10` makes no difference below the `20`. -/
def materiallyConflicted (score opposing : Nat) : Bool := max 20 (score - 10) ≤ opposing

/-- `confidence` -/
def confidenceOf (score : Nat) (conflicted : Bool) : ℚ :=
  pyRound (min 100 (score * (if conflicted then 3 / 4 else 1))) 1

/-- `cross_tf_ok` -/
def crossTfOk (evaluated : Nat) (votes : Nat) : Bool :=
  evaluated = 1 || max 1 ((evaluated + 1) / 2) ≤ votes

/-- The variables of the decision part of `analyze_multi_timeframe`. -/
structure Decision where
  best : Direction
  score : Nat
  conflicted : Bool
  crossTf : Bool
  structureOk : Bool
  confidence : ℚ
  status : AnalysisStatus

/-- The decision part of `analyze_multi_timeframe`, from the factors and the trend votes of
`evaluated` timeframes. -/
def decision (factors : Direction → Factor → Bool) (votes : Direction → Nat) (evaluated : Nat)
    (eventRisk : Bool) (minConfidence : ℚ) : Decision :=
  let best := favoured factors
  let score := rawScore factors best
  let hits := technicalHits factors best
  let structureOk := factors best .marketStructure
  let crossTf := crossTfOk evaluated (votes best)
  let conflicted := materiallyConflicted score (rawScore factors best.opposite)
  let confidence := confidenceOf score conflicted
  let status : AnalysisStatus :=
    if structureOk ∧ 3 ≤ hits.length ∧ crossTf ∧ ¬ conflicted ∧ minConfidence ≤ confidence ∧
      ¬ eventRisk then .setup else .noSetup
  let status := if hits = [] then .insufficientConfirmation else status
  let status := if eventRisk ∧ status = .setup then .noSetup else status
  ⟨best, score, conflicted, crossTf, structureOk, confidence, status⟩

/-! ## Risk plan -/

/-- `entry_zone` with `invalidation`, which are set together. -/
structure PlanZone where
  low : ℚ
  high : ℚ
  invalidation : ℚ
  deriving DecidableEq, Repr

/-- The zone of a block or a gap: its far edge invalidates it. -/
def Direction.zone (best : Direction) (bottom top : ℚ) : PlanZone :=
  ⟨bottom, top, match best with | .bullish => bottom | .bearish => top⟩

/-- `active_obs` -/
def activeObs (e : TimeframeEvidence) (best : Direction) : List OrderBlock :=
  e.orderBlocks.filter fun o => o.direction = best ∧ ¬ o.mitigated

/-- `active_fvgs` -/
def activeFvgs (e : TimeframeEvidence) (best : Direction) : List FairValueGap :=
  e.fvgs.filter fun g => g.direction = best ∧ ¬ g.filled

/-- The zone choice: the last active block, else the last active gap. -/
def planZone (e : TimeframeEvidence) (best : Direction) : Except PyError (Option PlanZone) :=
  if activeObs e best ≠ [] then do
    let o ← lastItem (activeObs e best)
    pure (some (best.zone o.bottom o.top))
  else if activeFvgs e best ≠ [] then do
    let g ← lastItem (activeFvgs e best)
    pure (some (best.zone g.bottom g.top))
  else pure none

/-- `stop`, `tps` and `rr`. -/
structure RiskPlan where
  stop : Option ℚ
  takeProfits : List ℚ
  riskReward : Option ℚ
  deriving DecidableEq, Repr

/-- `x + y` on the bullish side, `x - y` on the bearish one. -/
def Direction.along (d : Direction) (x y : ℚ) : ℚ :=
  match d with
  | .bullish => x + y
  | .bearish => x - y

/-- The width of a zone, with the floor of 0.01% of the last price. -/
def PlanZone.width (z : PlanZone) (lastPrice : ℚ) : ℚ := max |z.high - z.low| (lastPrice * (1 / 10000))

/-- `stop`: a buffer of 10% of the width behind the invalidation. -/
def PlanZone.stop (z : PlanZone) (best : Direction) (lastPrice : ℚ) : ℚ :=
  best.opposite.along z.invalidation (z.width lastPrice * (10 / 100))

/-- `entry` of a zone. -/
def PlanZone.entry (z : PlanZone) : ℚ := (z.low + z.high) / 2

/-- The plan of a SETUP with a zone. -/
def riskPlan (z : PlanZone) (best : Direction) (lastPrice riskRewardTarget : ℚ) : RiskPlan :=
  let entry := z.entry
  let stop := z.stop best lastPrice
  let risk := |entry - stop|
  if 0 < risk then
    let tp := best.along entry (risk * riskRewardTarget)
    ⟨some stop,
      [tp, best.along entry (risk * (riskRewardTarget + 1)),
        best.along entry (risk * (riskRewardTarget + 2))],
      some (pyRound (|tp - entry| / risk) 2)⟩
  else ⟨some stop, [], none⟩

/-! ## The result -/

/-- One entry of `swings` in `_evidence_json`. -/
structure SwingJson where
  swing : SwingPoint
  label : Option StructureLabel
  deriving DecidableEq, Repr

/-- The dealing range in `_evidence_json`, with the zone of the current price. -/
structure DealingRangeJson where
  high : ℚ
  low : ℚ
  equilibrium : ℚ
  zone : PriceZone
  deriving DecidableEq, Repr

/-- `_evidence_json` of one timeframe. A time stands for its `isoformat()`; a gap, a block, a sweep
and a divergence are listed with all their fields, an event with the price of its broken swing. -/
structure EvidenceJson where
  timeframe : String
  trend : Option Direction
  swings : List SwingJson
  structureEvents : List StructureEvent
  fvgs : List FairValueGap
  orderBlocks : List OrderBlock
  liquiditySweeps : List LiquiditySweep
  equalLevels : EqualLevels
  dealingRange : Option DealingRangeJson
  displacementIndices : List Nat
  sessions : List SessionWindow
  smt : List SMTDivergence

/-- `_cluster_swing_levels`: the pipeline's own copy of `_cluster`. -/
def clusterSwingLevels (prices : List ℚ) (tolerancePct : ℚ) : List ℚ :=
  (prices.insertionSort (· ≤ ·)).foldl
    (fun levels p =>
      match levels.getLast? with
      | none => levels ++ [p]
      | some level =>
        if tolerancePct < |p - level| / max |level| (1 / 10 ^ 12) * 100 then levels ++ [p]
        else levels) []

/-- `_evidence_json` -/
def evidenceJson (e : TimeframeEvidence) (currentPrice : ℚ) : EvidenceJson where
  timeframe := e.timeframe
  trend := e.trend
  swings := e.swings.map fun s => ⟨s, labelSwings e.swings s.index⟩
  structureEvents := e.structureEvents
  fvgs := e.fvgs
  orderBlocks := e.orderBlocks
  liquiditySweeps := e.sweeps
  equalLevels :=
    ⟨clusterSwingLevels (pricesOf .high e.swings) defaultTolerance,
      clusterSwingLevels (pricesOf .low e.swings) defaultTolerance⟩
  dealingRange := e.dealingRange.map fun dr =>
    ⟨dr.rangeHigh, dr.rangeLow, dr.equilibrium, dr.zoneFor currentPrice⟩
  displacementIndices := e.displacementIndices
  sessions := e.session
  smt := e.smt

theorem clusterSwingLevels_eq : clusterSwingLevels = cluster := rfl

/-- The copy of the clustering reports the levels of `find_equal_levels`. -/
theorem evidenceJson_equalLevels (timeframe : String) (bars : List Bar)
    (correlated : Option (List Bar)) (lookback : Int) (currentPrice : ℚ) :
    (evidenceJson (tfEvidence timeframe bars correlated lookback) currentPrice).equalLevels =
      findEqualLevels bars lookback defaultTolerance := by
  rw [evidenceJson, clusterSwingLevels_eq]
  rfl

/-- `AnalysisResult.evidence` of a full analysis. -/
structure Evidence where
  scores : Direction → Nat
  technicalHits : Direction → List Factor
  factors : Direction → Factor → Bool
  trendVotes : Direction → Nat
  bias : MarketBias
  aligned : Bool
  materiallyConflicted : Bool
  correlatedTrends : List (String × Option Direction)
  highImpactEvent : Bool
  events : List EventDict
  newsSentiment : Option ℚ
  timeframes : List (String × EvidenceJson)

/-- `AnalysisResult`. The evidence `{}` of an early return is `none`. -/
structure AnalysisResult where
  status : AnalysisStatus
  direction : TradeDirection
  confidence : ℚ
  confluenceScore : Nat
  symbol : String
  primaryTimeframe : String
  timeframes : List String
  marketBias : MarketBias
  entryZone : Option (ℚ × ℚ)
  invalidation : Option ℚ
  stopLoss : Option ℚ
  takeProfits : List ℚ
  riskReward : Option ℚ
  evidence : Option Evidence
  reasoning : String

/-- The early returns of `analyze_multi_timeframe`. -/
def unconfirmed (inp : AnalysisInput) (reasoning : String) : AnalysisResult where
  status := .insufficientConfirmation
  direction := .noTrade
  confidence := 0
  confluenceScore := 0
  symbol := inp.symbol
  primaryTimeframe := inp.primaryTimeframe
  timeframes := inp.timeframeBars.entries.map (·.1)
  marketBias := .unknown
  entryZone := none
  invalidation := none
  stopLoss := none
  takeProfits := []
  riskReward := none
  evidence := none
  reasoning := reasoning

/-- `[s] if hit else []` -/
def reasonIf (hit : Bool) (s : String) : List String := if hit then [s] else []

/-- `reasons`. The first one quotes the last structure event of the primary timeframe. -/
def reasonsOf (d : Decision) (factors : Direction → Factor → Bool) (primary : TimeframeEvidence)
    (eventRisk : Bool) : Except PyError (List String) := do
  let structureReason ←
    if d.structureOk then do
      let event ← lastItem primary.structureEvents
      pure [d.best.upper ++ " structure confirmed by " ++ event.eventType.value]
    else pure []
  let reasons := structureReason ++
    reasonIf (activeObs primary d.best ≠ []) "unmitigated order block present" ++
    reasonIf (activeFvgs primary d.best ≠ []) "unfilled fair value gap present" ++
    reasonIf (factors d.best .liquidity) "opposing-side liquidity sweep detected" ++
    reasonIf (factors d.best .premiumDiscount)
      "price is in the preferred premium/discount zone" ++
    reasonIf (factors d.best .smt) "SMT divergence supports the direction" ++
    reasonIf eventRisk "high-impact economic event risk blocks the setup"
  pure (if reasons = [] then ["insufficient independent technical evidence"] else reasons)

/-- `{tf: _evidence_json(e, timeframe_bars[tf][-1].close) for tf, e in evidences.items()}` -/
def evidenceTimeframes (timeframeBars : TfMap (List Bar)) :
    List (String × TimeframeEvidence) → Except PyError (List (String × EvidenceJson))
  | [] => .ok []
  | (tf, e) :: rest => do
    let last ← lastItem ((timeframeBars.get? tf).getD [])
    let later ← evidenceTimeframes timeframeBars rest
    pure ((tf, evidenceJson e last.close) :: later)

/-- `analyze_multi_timeframe` after the evidence is collected. -/
def concludeAnalysis (inp : AnalysisInput) (evidences : List (String × TimeframeEvidence))
    (primary : TimeframeEvidence) (primaryBars : List Bar) : Except PyError AnalysisResult := do
  let lastBar ← lastItem primaryBars
  let es := evidences.map (·.2)
  let eventRisk := inp.calendarBlackout
  let factors := factorHit es primary lastBar inp.newsSentiment eventRisk
  let votes := trendVotes es
  let d := decision factors votes es.length eventRisk inp.minConfidence
  let zone ← planZone primary d.best
  let plan : RiskPlan := match zone with
    | some z =>
      if d.status = .setup then riskPlan z d.best lastBar.close inp.riskRewardTarget
      else ⟨none, [], none⟩
    | none => ⟨none, [], none⟩
  let timeframes ← evidenceTimeframes inp.timeframeBars evidences
  let evidence : Evidence := {
    scores := rawScore factors
    technicalHits := technicalHits factors
    factors := factors
    trendVotes := votes
    bias := htfBias votes
    aligned := d.crossTf
    materiallyConflicted := d.conflicted
    correlatedTrends := ((inp.correlatedTimeframeBars.map (·.entries)).getD []).map
      fun c => (c.1, (tfEvidence c.1 c.2 none inp.lookback).trend)
    highImpactEvent := eventRisk
    events := inp.highImpactEvents.getD []
    newsSentiment := inp.newsSentiment
    timeframes := timeframes }
  let reasons ← reasonsOf d factors primary eventRisk
  pure {
    status := d.status
    direction := if d.status = .setup then d.best.trade else .noTrade
    confidence := d.confidence
    confluenceScore := d.score
    symbol := inp.symbol
    primaryTimeframe := inp.primaryTimeframe
    timeframes := evidences.map (·.1)
    marketBias := htfBias votes
    entryZone := zone.map fun z => (z.low, z.high)
    invalidation := zone.map (·.invalidation)
    stopLoss := plan.stop
    takeProfits := plan.takeProfits
    riskReward := plan.riskReward
    evidence := some evidence
    reasoning := "; ".intercalate reasons ++ "." }

/-- `analyze_multi_timeframe` -/
def analyzeMultiTimeframe (inp : AnalysisInput) : Except PyError AnalysisResult :=
  match inp.timeframeBars.get? inp.primaryTimeframe with
  | none => .ok (unconfirmed inp "Primary timeframe data is unavailable.")
  | some primaryBars => do
    let evidences ← collectEvidence inp.correlatedTimeframeBars inp.lookback
      inp.timeframeBars.entries
    match evidences.lookup inp.primaryTimeframe with
    | none =>
      pure (unconfirmed inp "Insufficient confirmed bars on the primary timeframe.")
    | some primary => concludeAnalysis inp evidences primary primaryBars

end MarketKill3r
