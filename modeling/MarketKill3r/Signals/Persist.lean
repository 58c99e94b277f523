import MarketKill3r.Engine.Analysis
import MarketKill3r.Signals.Lifecycle

/-!
# The two signals of an analysis

`run_analysis` returns the signal that `persist_analysis` has stored, or builds one of its own that
is never stored. Column defaults are filled in when a row is flushed, and the second construction
leaves out `status`, which has one.

* `storedSignal_row`: the stored signal is the row that the queue works on.
* `transientSignal_eq`: the two constructions agree on every column that both set.
* `signals_differ`: **the signal that is not stored has no status, so the two never agree, and it
  does not meet the response schema.**
-/

namespace MarketKill3r

/-! ## The ORM object -/

/-- An object of the class `Signal` (`app/models/signal.py`). An attribute that is not set reads as
`None`. The evidence `{}` is `some none`. -/
structure SignalObject where
  id : Option String
  analysisRunId : Option String
  symbol : Option String
  timeframe : Option String
  direction : Option SignalDirection
  confidence : Option ℚ
  setupStatus : Option String
  marketBias : Option String
  entryZoneLow : Option ℚ
  entryZoneHigh : Option ℚ
  invalidation : Option ℚ
  takeProfits : Option (List ℚ)
  entryPrice : Option ℚ
  stopLoss : Option ℚ
  takeProfit : Option ℚ
  riskReward : Option ℚ
  confluence : Option (Option Evidence)
  reasoning : Option String
  status : Option SignalStatus
  createdAt : Option Int
  expiresAt : Option Int

/-- `Signal()` -/
def SignalObject.unset : SignalObject :=
  ⟨none, none, none, none, none, none, none, none, none, none, none, none, none, none, none, none,
    none, none, none, none, none⟩

/-- The flush of a new row: a column without a value gets its default. `id` is a fresh uuid and
`now` a reading of the clock. -/
def SignalObject.flush (id : String) (now : Int) (s : SignalObject) : SignalObject :=
  { s with
    id := s.id.or (some id)
    setupStatus := s.setupStatus.or (some "NO_SETUP")
    marketBias := s.marketBias.or (some "neutral")
    takeProfits := s.takeProfits.or (some [])
    confluence := s.confluence.or (some none)
    status := s.status.or (some .pending)
    createdAt := s.createdAt.or (some now) }

/-- `market_bias` of a result, as text. -/
def MarketBias.value : MarketBias → String
  | bullish => "bullish"
  | bearish => "bearish"
  | neutral => "neutral"
  | unknown => "unknown"

/-! ## The two constructions -/

/-- The signal that `persist_analysis` builds, before it is added. -/
def persistedSignal (runId symbol primaryTimeframe : String) (result : AnalysisResult)
    (narrative : String) : SignalObject :=
  { SignalObject.unset with
    analysisRunId := some runId
    symbol := some symbol
    timeframe := some primaryTimeframe
    direction := some
      (if result.direction = .bullish then .bullish
        else if result.direction = .bearish then .bearish else .noTrade)
    confidence := some result.confidence
    setupStatus := some result.status.value
    marketBias := some result.marketBias.value
    entryPrice := result.entryZone.map fun zone => (zone.1 + zone.2) / 2
    entryZoneLow := result.entryZone.map (·.1)
    entryZoneHigh := result.entryZone.map (·.2)
    invalidation := result.invalidation
    stopLoss := result.stopLoss
    takeProfit := result.takeProfits.head?
    takeProfits := some result.takeProfits
    riskReward := result.riskReward
    confluence := some result.evidence
    reasoning := some narrative }

/-- The signal that `run_analysis` returns with `persist=False`. -/
def transientSignal (id : String) (now : Int) (symbol primaryTf : String) (result : AnalysisResult)
    (narrative : String) : SignalObject :=
  { SignalObject.unset with
    id := some id
    symbol := some symbol
    timeframe := some primaryTf
    direction := some
      (if result.direction = .bullish then .bullish
        else if result.direction = .bearish then .bearish else .noTrade)
    confidence := some result.confidence
    setupStatus := some result.status.value
    marketBias := some result.marketBias.value
    entryPrice := result.entryZone.map fun zone => (zone.1 + zone.2) / 2
    entryZoneLow := result.entryZone.map (·.1)
    entryZoneHigh := result.entryZone.map (·.2)
    invalidation := result.invalidation
    stopLoss := result.stopLoss
    takeProfit := result.takeProfits.head?
    takeProfits := some result.takeProfits
    riskReward := result.riskReward
    confluence := some result.evidence
    reasoning := some narrative
    createdAt := some now }

/-- The signal that `persist_analysis` returns: the flushed row, read back. -/
def storedSignal (id : String) (now : Int) (runId symbol primaryTimeframe : String)
    (result : AnalysisResult) (narrative : String) : SignalObject :=
  (persistedSignal runId symbol primaryTimeframe result narrative).flush id now

/-! ## The response schema -/

/-- `SignalOut` (`app/schemas/signal.py`) -/
structure SignalOut where
  id : String
  symbol : String
  timeframe : String
  direction : SignalDirection
  confidence : ℚ
  setupStatus : String
  marketBias : String
  entryPrice : Option ℚ
  entryZoneLow : Option ℚ
  entryZoneHigh : Option ℚ
  invalidation : Option ℚ
  stopLoss : Option ℚ
  takeProfit : Option ℚ
  takeProfits : List ℚ
  riskReward : Option ℚ
  confluence : Option Evidence
  reasoning : Option String
  status : SignalStatus
  createdAt : Int

/-- The validation of a returned signal by its response model: a column that may not be `None` must
have a value. -/
def SignalObject.toOut (s : SignalObject) : Option SignalOut := do
  let id ← s.id
  let symbol ← s.symbol
  let timeframe ← s.timeframe
  let direction ← s.direction
  let confidence ← s.confidence
  let setupStatus ← s.setupStatus
  let marketBias ← s.marketBias
  let takeProfits ← s.takeProfits
  let confluence ← s.confluence
  let status ← s.status
  let createdAt ← s.createdAt
  pure ⟨id, symbol, timeframe, direction, confidence, setupStatus, marketBias, s.entryPrice,
    s.entryZoneLow, s.entryZoneHigh, s.invalidation, s.stopLoss, s.takeProfit, takeProfits,
    s.riskReward, confluence, s.reasoning, status, createdAt⟩

/-- The two signals agree on every field of `SignalOut` but `id` and `created_at`. -/
structure SameSignal (s t : SignalObject) : Prop where
  symbol : s.symbol = t.symbol
  timeframe : s.timeframe = t.timeframe
  direction : s.direction = t.direction
  confidence : s.confidence = t.confidence
  setupStatus : s.setupStatus = t.setupStatus
  marketBias : s.marketBias = t.marketBias
  entryPrice : s.entryPrice = t.entryPrice
  entryZoneLow : s.entryZoneLow = t.entryZoneLow
  entryZoneHigh : s.entryZoneHigh = t.entryZoneHigh
  invalidation : s.invalidation = t.invalidation
  stopLoss : s.stopLoss = t.stopLoss
  takeProfit : s.takeProfit = t.takeProfit
  takeProfits : s.takeProfits = t.takeProfits
  riskReward : s.riskReward = t.riskReward
  confluence : s.confluence = t.confluence
  reasoning : s.reasoning = t.reasoning
  status : s.status = t.status

/-- What is promised of the two paths: the signals agree, and both meet the response schema. -/
structure PathsAgree (transient stored : SignalObject) : Prop where
  same : SameSignal transient stored
  transientOut : transient.toOut.isSome
  storedOut : stored.toOut.isSome

section

variable (id newId : String) (now stored : Int) (runId symbol primaryTimeframe : String)
  (result : AnalysisResult) (narrative : String)

/-- The columns of a stored signal that the MT5 endpoints read or return. -/
def SignalObject.row (s : SignalObject) : Option Signal := do
  let id ← s.id
  let symbol ← s.symbol
  let direction ← s.direction
  let setupStatus ← s.setupStatus
  let status ← s.status
  let createdAt ← s.createdAt
  pure ⟨id, symbol, direction, setupStatus, status, s.entryPrice, s.stopLoss, s.takeProfit,
    createdAt⟩

/-- **The stored signal is the row of the queue.** -/
theorem storedSignal_row :
    (storedSignal newId stored runId symbol primaryTimeframe result narrative).row =
      some (signalOf newId stored symbol result) := by
  simp only [storedSignal, persistedSignal, SignalObject.flush, SignalObject.unset,
    SignalObject.row, signalOf]
  cases result.direction <;> rfl

/-- The two constructions, column by column: only a default and what names the row differ. -/
theorem transientSignal_eq :
    { transientSignal id now symbol primaryTimeframe result narrative with
      id := some newId, analysisRunId := some runId, status := some .pending,
      createdAt := some stored } =
      storedSignal newId stored runId symbol primaryTimeframe result narrative := rfl

/-- A stored signal meets the response schema. -/
theorem storedSignal_toOut :
    (storedSignal newId stored runId symbol primaryTimeframe result narrative).toOut.isSome := rfl

/-- A signal that is not stored does not. -/
theorem transientSignal_toOut :
    (transientSignal id now symbol primaryTimeframe result narrative).toOut = none := rfl

/-- **The two paths never agree.** For every result the signal that is not stored has no status, and
the response model refuses it; with the status of the stored one it would be the same. -/
theorem signals_differ :
    ¬ PathsAgree (transientSignal id now symbol primaryTimeframe result narrative)
        (storedSignal newId stored runId symbol primaryTimeframe result narrative) ∧
      SameSignal
        { transientSignal id now symbol primaryTimeframe result narrative with
          status := some .pending }
        (storedSignal newId stored runId symbol primaryTimeframe result narrative) := by
  constructor
  · intro h
    have hout := h.transientOut
    rw [transientSignal_toOut] at hout
    cases hout
  · rw [← transientSignal_eq id newId now stored]
    exact ⟨rfl, rfl, rfl, rfl, rfl, rfl, rfl, rfl, rfl, rfl, rfl, rfl, rfl, rfl, rfl, rfl, rfl⟩

end

/-- Ten bars that do not move. -/
def flatInput : AnalysisInput :=
  goldInput ⟨[("M15", (List.range 10).map fun i => minuteBar i 10 10 9 10)], by decide⟩ none

/-- The analysis confirms nothing. The one signal is pending, the other one has no status. -/
theorem flat_signals_differ : ∃ result, analyzeMultiTimeframe flatInput = .ok result ∧
    result.status = .insufficientConfirmation ∧
    (storedSignal "s1" 1 "r1" "XAUUSD" "M15" result "No setup.").status = some .pending ∧
      (transientSignal "s2" 0 "XAUUSD" "M15" result "No setup.").status = none ∧
      ¬ PathsAgree (transientSignal "s2" 0 "XAUUSD" "M15" result "No setup.")
        (storedSignal "s1" 1 "r1" "XAUUSD" "M15" result "No setup.") := by
  have hflat : (analyzeMultiTimeframe flatInput).toOption.map (·.status) =
      some .insufficientConfirmation := by
    decide +kernel
  cases hresult : analyzeMultiTimeframe flatInput with
  | error e => rw [hresult] at hflat; cases hflat
  | ok result =>
    rw [hresult] at hflat
    refine ⟨result, rfl, Option.some.inj hflat, rfl, rfl, fun h => ?_⟩
    have hstatus := h.same.status
    cases hstatus

end MarketKill3r
