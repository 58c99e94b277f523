import MarketKill3r.Market.CalendarItems
import MarketKill3r.Market.NewsFeeds
import MarketKill3r.Signals.Persist

/-!
# The tables of the analyses (`app/models/analysis.py`, `app/services/analysis_persistence.py`)

`persist_analysis` stores one run with the detections of its evidence, the events and articles it was
given, and its signal, in one transaction. The EA then works on the signals, and two endpoints read
runs and signals back.

A time in the evidence stands for its `isoformat()`, which `datetime.fromisoformat` reads back. The
rows of the evidence tables carry ids of their own, which nothing reads.

* `AnalysisDb.persistAnalysis`, `pendingSignals`, `executionReport`, `listSignals`, `getAnalysisRun`.
* `storedSignal_object`: the signal of a call is the one that the response is made of.
* `AnalysisDb.queue_pendingSignals`, `signalDb_executionReport`: on the columns that the EA sees, the
  endpoints are those of the queue.
-/

namespace MarketKill3r

/-! ## Rows -/

/-- A direction of the evidence, as text. -/
def Direction.value : Direction → String
  | bullish => "bullish"
  | bearish => "bearish"

/-- The side of a sweep, as text. -/
def SweepSide.value : SweepSide → String
  | buySide => "buy_side"
  | sellSide => "sell_side"

/-- `direction` of a result, as text. -/
def TradeDirection.value : TradeDirection → String
  | bullish => "bullish"
  | bearish => "bearish"
  | noTrade => "no_trade"

/-- A row of `analysis_runs`. The evidence `{}` is `none`. -/
structure AnalysisRun where
  id : String
  symbol : String
  primaryTimeframe : String
  timeframes : List String
  status : String
  direction : String
  marketBias : String
  confidence : ℚ
  confluenceScore : Nat
  entryZoneLow : Option ℚ
  entryZoneHigh : Option ℚ
  invalidation : Option ℚ
  stopLoss : Option ℚ
  takeProfits : List ℚ
  riskReward : Option ℚ
  evidence : Option Evidence
  reasoning : String
  createdAt : Int

structure StructureEventRecord where
  analysisRunId : String
  symbol : String
  timeframe : String
  eventIndex : Nat
  eventTime : DateTime
  eventType : String
  direction : String
  price : ℚ
  brokenSwingPrice : ℚ
  deriving DecidableEq

structure FairValueGapRecord where
  analysisRunId : String
  symbol : String
  timeframe : String
  eventIndex : Nat
  eventTime : DateTime
  direction : String
  top : ℚ
  bottom : ℚ
  filled : Bool
  fillIndex : Option Nat
  deriving DecidableEq

structure OrderBlockRecord where
  analysisRunId : String
  symbol : String
  timeframe : String
  eventIndex : Nat
  eventTime : DateTime
  direction : String
  top : ℚ
  bottom : ℚ
  mitigated : Bool
  mitigationIndex : Option Nat
  breakIndex : Nat
  deriving DecidableEq

structure LiquiditySweepRecord where
  analysisRunId : String
  symbol : String
  timeframe : String
  eventIndex : Nat
  eventTime : DateTime
  direction : String
  sweptLevel : ℚ
  sweptSwingIndex : Nat
  deriving DecidableEq

/-- A row of `economic_events`. Its texts are what the provider sent. -/
structure EconomicEventRecord where
  analysisRunId : String
  name : JsonValue
  currency : JsonValue
  impact : String
  eventTime : Int
  forecast : JsonValue
  previous : JsonValue
  actual : JsonValue

structure NewsArticleRecord where
  analysisRunId : String
  title : String
  link : String
  published : Option Int
  summary : String
  sentiment : ℚ
  deriving DecidableEq

/-- A row of `signals` with all its columns. -/
structure SignalRow extends Signal where
  analysisRunId : Option String
  timeframe : String
  confidence : ℚ
  marketBias : String
  entryZoneLow : Option ℚ
  entryZoneHigh : Option ℚ
  invalidation : Option ℚ
  takeProfits : List ℚ
  riskReward : Option ℚ
  confluence : Option Evidence
  reasoning : Option String
  expiresAt : Option Int

/-- The key of `signals`. -/
def SignalRow.key (s : SignalRow) : String := s.id

/-- The committed rows of the tables. -/
structure AnalysisDb where
  runs : UniqueTable AnalysisRun.id
  structureEvents : List StructureEventRecord
  fairValueGaps : List FairValueGapRecord
  orderBlocks : List OrderBlockRecord
  liquiditySweeps : List LiquiditySweepRecord
  economicEvents : List EconomicEventRecord
  newsArticles : List NewsArticleRecord
  signals : UniqueTable SignalRow.key
  executions : List TradeExecution

/-- The tables before the first request. -/
def AnalysisDb.empty : AnalysisDb :=
  ⟨UniqueTable.empty, [], [], [], [], [], [], UniqueTable.empty, []⟩

/-! ## The rows of a run -/

/-- The loop over `result.evidence.get("timeframes", {})`, for one list of the detections: the row of
each item. -/
def evidenceRecords {ι ρ : Type} (items : EvidenceJson → List ι) (row : String → ι → ρ)
    (evidence : Option Evidence) : List ρ :=
  ((evidence.map (·.timeframes)).getD []).flatMap fun (tf, data) => (items data).map (row tf)

def structureRecords (runId symbol : String) (evidence : Option Evidence) : List StructureEventRecord :=
  evidenceRecords (·.structureEvents) (fun tf x =>
    ⟨runId, symbol, tf, x.index, x.time, x.eventType.value, x.direction.value, x.price,
      x.brokenSwing.price⟩) evidence

def gapRecords (runId symbol : String) (evidence : Option Evidence) : List FairValueGapRecord :=
  evidenceRecords (·.fvgs) (fun tf x =>
    ⟨runId, symbol, tf, x.index, x.time, x.direction.value, x.top, x.bottom, x.filled, x.fillIndex⟩) evidence

def blockRecords (runId symbol : String) (evidence : Option Evidence) : List OrderBlockRecord :=
  evidenceRecords (·.orderBlocks) (fun tf x =>
    ⟨runId, symbol, tf, x.index, x.time, x.direction.value, x.top, x.bottom, x.mitigated,
      x.mitigationIndex, x.breakIndex⟩) evidence

def sweepRecords (runId symbol : String) (evidence : Option Evidence) : List LiquiditySweepRecord :=
  evidenceRecords (·.liquiditySweeps) (fun tf x =>
    ⟨runId, symbol, tf, x.index, x.time, x.direction.value, x.sweptLevel, x.sweptSwingIndex⟩) evidence

def EconomicEvent.record (runId : String) (e : EconomicEvent) : EconomicEventRecord :=
  ⟨runId, e.name, e.currency, e.impact, e.eventTime, e.forecast, e.previous, e.actual⟩

def NewsArticle.record (runId : String) (a : NewsArticle) : NewsArticleRecord :=
  ⟨runId, a.title, a.link, a.published, a.summary, a.sentiment⟩

/-! ## `persist_analysis` -/

/-- The exceptions of the analysis endpoints. `database` is a violated constraint or a failure of the
database itself, `refresh` a failure of `db.refresh` after the commit, and `response` an object that
the response model refuses. -/
inductive RunError
  | http (statusCode : Nat) (detail : String)
  | pipeline (error : PyError)
  | provider (error : FloatError)
  | calendar (error : CalendarError)
  | database
  | refresh
  | response

/-- The arguments of `persist_analysis`, with what it draws from its surroundings: two fresh uuids,
two readings of the clock, and whether the database fails the flush of the run or the commit. -/
structure PersistCall where
  runId : String
  signalId : String
  runCreatedAt : Int
  signalCreatedAt : Int
  flushFails : Bool
  commitFails : Bool
  symbol : String
  primaryTimeframe : String
  result : AnalysisResult
  narrative : String
  events : List EconomicEvent
  articles : List NewsArticle

namespace PersistCall

/-- The run that is flushed first. -/
def run (call : PersistCall) : AnalysisRun where
  id := call.runId
  symbol := call.symbol
  primaryTimeframe := call.primaryTimeframe
  timeframes := call.result.timeframes
  status := call.result.status.value
  direction := call.result.direction.value
  marketBias := call.result.marketBias.value
  confidence := call.result.confidence
  confluenceScore := call.result.confluenceScore
  entryZoneLow := call.result.entryZone.map (·.1)
  entryZoneHigh := call.result.entryZone.map (·.2)
  invalidation := call.result.invalidation
  stopLoss := call.result.stopLoss
  takeProfits := call.result.takeProfits
  riskReward := call.result.riskReward
  evidence := call.result.evidence
  reasoning := call.narrative
  createdAt := call.runCreatedAt

/-- The signal that is added last. -/
def signal (call : PersistCall) : SignalRow where
  toSignal := signalOf call.signalId call.signalCreatedAt call.symbol call.result
  analysisRunId := some call.runId
  timeframe := call.primaryTimeframe
  confidence := call.result.confidence
  marketBias := call.result.marketBias.value
  entryZoneLow := call.result.entryZone.map (·.1)
  entryZoneHigh := call.result.entryZone.map (·.2)
  invalidation := call.result.invalidation
  takeProfits := call.result.takeProfits
  riskReward := call.result.riskReward
  confluence := call.result.evidence
  reasoning := some call.narrative
  expiresAt := none

/-- The tables with the rows of the call, where `runs` and `signals` have theirs already. -/
def store (call : PersistCall) (db : AnalysisDb) (runs : UniqueTable AnalysisRun.id)
    (signals : UniqueTable SignalRow.key) : AnalysisDb where
  runs := runs
  structureEvents := db.structureEvents ++
    structureRecords call.runId call.symbol call.result.evidence
  fairValueGaps := db.fairValueGaps ++ gapRecords call.runId call.symbol call.result.evidence
  orderBlocks := db.orderBlocks ++ blockRecords call.runId call.symbol call.result.evidence
  liquiditySweeps := db.liquiditySweeps ++ sweepRecords call.runId call.symbol call.result.evidence
  economicEvents := db.economicEvents ++ call.events.map (EconomicEvent.record call.runId)
  newsArticles := db.newsArticles ++ call.articles.map (NewsArticle.record call.runId)
  signals := signals
  executions := db.executions

end PersistCall

/-- An INSERT, unless the database fails it. -/
def insertRow {α κ : Type} {key : α → κ} [DecidableEq κ] (fails : Bool) (t : UniqueTable key) (row : α) :
    Option (UniqueTable key) := if fails then none else t.commit [row]

/-- `persist_analysis` up to its commit. The flush of the run is in the same transaction. -/
def AnalysisDb.persistAnalysis (call : PersistCall) (db : AnalysisDb) :
    Except RunError (AnalysisDb × AnalysisRun × SignalRow) :=
  match insertRow call.flushFails db.runs call.run with
  | none => .error .database
  | some runs =>
    match insertRow call.commitFails db.signals call.signal with
    | none => .error .database
    | some signals => .ok (call.store db runs signals, call.run, call.signal)

/-! ## The endpoints of the EA -/

/-- An update of the columns that the EA sees. -/
def SignalRow.lift (f : Signal → Signal) (s : SignalRow) : SignalRow := { s with toSignal := f s.toSignal }

/-- The signals as the queue sees them. -/
def AnalysisDb.queue (db : AnalysisDb) : SignalTable where
  rows := db.signals.rows.map (·.toSignal)
  nodup := by
    rw [List.map_map]
    exact db.signals.nodup

/-- The tables that the endpoints of the EA work on. -/
def AnalysisDb.signalDb (db : AnalysisDb) : SignalDb := ⟨db.queue, db.executions⟩

/-- An update of the signals that keeps their ids. -/
def AnalysisDb.updateSignals (db : AnalysisDb) (f : Signal → Signal) (hf : ∀ s, (f s).id = s.id) :
    AnalysisDb :=
  { db with signals := db.signals.update (SignalRow.lift f) fun s => hf s.toSignal }

/-- The status that the EA reports for a signal. -/
@[reducible] def AnalysisDb.setStatus (db : AnalysisDb) (id : String) (status : SignalStatus) :
    AnalysisDb := db.updateSignals (Signal.setStatus id status) (Signal.setStatus_id id status)

/-- `pending_signals` -/
def AnalysisDb.pendingSignals (env : MT5Env) (symbol xMt5ApiKey : Option String) (db : AnalysisDb) :
    Except ApiError (AnalysisDb × List PendingSignalOut) :=
  if keyRejected env xMt5ApiKey then .error (.http 401 "Invalid MT5 API key")
  else
    let picked := pendingSelect env.caseMap symbol db.queue
    .ok (db.updateSignals (Signal.acknowledge (picked.map (·.id))) (Signal.acknowledge_id _),
      picked.map Signal.out)

/-- `execution_report` -/
def AnalysisDb.executionReport (env : MT5Env) (report : ExecutionReport) (xMt5ApiKey : Option String)
    (db : AnalysisDb) : Except ApiError (AnalysisDb × ReportResponse) :=
  if keyRejected env xMt5ApiKey then .error (.http 401 "Invalid MT5 API key")
  else if db.signals.Has report.signalId then
    let signalId := report.signalId
    .ok ({ db.setStatus report.signalId report.signalStatus with
          executions := db.executions ++ [report.execution] },
      ⟨"ok", s!"Execution recorded for signal {signalId}"⟩)
  else .ok (db, ⟨"error", "Unknown signal_id"⟩)

/-! ## The endpoints that read -/

/-- `list_signals`. Rows with equal `created_at` come in table order. -/
def AnalysisDb.listSignals (cm : CaseMap) (symbol : Option String) (limit : Int) (db : AnalysisDb) :
    List SignalRow :=
  ((db.signals.rows.filter fun s => symbolMatches cm symbol s.toSignal).insertionSort
    fun s s' => s'.createdAt ≤ s.createdAt).take (max 1 (min limit 200)).toNat

/-- `get_analysis_run` -/
def AnalysisDb.getAnalysisRun (runId : String) (db : AnalysisDb) : Except RunError AnalysisRun :=
  match db.runs.rows.find? fun run => run.id = runId with
  | none => .error (.http 404 "Analysis run not found")
  | some run => .ok run

/-! ## The model of the signals alone -/

/-- The ORM object of a row. -/
def SignalRow.object (s : SignalRow) : SignalObject where
  id := some s.id
  analysisRunId := s.analysisRunId
  symbol := some s.symbol
  timeframe := some s.timeframe
  direction := some s.direction
  confidence := some s.confidence
  setupStatus := some s.setupStatus
  marketBias := some s.marketBias
  entryZoneLow := s.entryZoneLow
  entryZoneHigh := s.entryZoneHigh
  invalidation := s.invalidation
  takeProfits := some s.takeProfits
  entryPrice := s.entryPrice
  stopLoss := s.stopLoss
  takeProfit := s.takeProfit
  riskReward := s.riskReward
  confluence := some s.confluence
  reasoning := s.reasoning
  status := some s.status
  createdAt := some s.createdAt
  expiresAt := s.expiresAt

/-- A row meets the response schema. -/
theorem SignalRow.object_toOut (s : SignalRow) : s.object.toOut.isSome = true := rfl

/-- The row that a call adds is the object that it returns. -/
theorem storedSignal_object (call : PersistCall) : call.signal.object =
    storedSignal call.signalId call.signalCreatedAt call.runId call.symbol call.primaryTimeframe
      call.result call.narrative := by
  simp only [PersistCall.signal, SignalRow.object, signalOf, storedSignal, persistedSignal,
    SignalObject.flush, SignalObject.unset]
  cases call.result.direction <;> rfl

@[simp] theorem SignalRow.lift_toSignal (f : Signal → Signal) (s : SignalRow) :
    (s.lift f).toSignal = f s.toSignal := rfl

theorem AnalysisDb.queue_rows (db : AnalysisDb) :
    db.queue.rows = db.signals.rows.map (·.toSignal) := rfl

theorem AnalysisDb.queue_has (db : AnalysisDb) (id : String) :
    db.queue.Has id ↔ db.signals.Has id := by
  rw [UniqueTable.Has, UniqueTable.Has, queue_rows, List.map_map]
  rfl

theorem AnalysisDb.queue_updateSignals (db : AnalysisDb) (f : Signal → Signal)
    (hf : ∀ s, (f s).id = s.id) : (db.updateSignals f hf).queue = db.queue.update f hf := by
  refine UniqueTable.ext_rows ?_
  simp only [queue_rows, updateSignals, UniqueTable.update, List.map_map]
  rfl

/-- On the queue, a poll is `pendingSignals`. -/
theorem AnalysisDb.queue_pendingSignals (env : MT5Env) (symbol xMt5ApiKey : Option String)
    (db : AnalysisDb) :
    (db.pendingSignals env symbol xMt5ApiKey).map (fun r => (r.1.queue, r.2)) =
      MarketKill3r.pendingSignals env symbol xMt5ApiKey db.queue := by
  unfold AnalysisDb.pendingSignals MarketKill3r.pendingSignals
  split
  · rfl
  · simp only [Except.map, queue_updateSignals]
    rfl

/-- On the tables of the EA, a report is `executionReport`. -/
theorem AnalysisDb.signalDb_executionReport (env : MT5Env) (report : ExecutionReport)
    (xMt5ApiKey : Option String) (db : AnalysisDb) :
    (db.executionReport env report xMt5ApiKey).map (fun r => (r.1.signalDb, r.2)) =
      MarketKill3r.executionReport env report xMt5ApiKey db.signalDb := by
  unfold AnalysisDb.executionReport MarketKill3r.executionReport
  by_cases hkey : keyRejected env xMt5ApiKey = true
  · rw [if_pos hkey, if_pos hkey]
    rfl
  · rw [if_neg hkey, if_neg hkey]
    have hhas : db.signalDb.signals.Has report.signalId ↔ db.signals.Has report.signalId :=
      db.queue_has _
    by_cases hknown : db.signals.Has report.signalId
    · rw [if_pos hknown, if_pos (hhas.mpr hknown)]
      simp only [Except.map, signalDb]
      rw [← queue_updateSignals]
      rfl
    · rw [if_neg hknown, if_neg fun h => hknown (hhas.mp h)]
      rfl

end MarketKill3r
