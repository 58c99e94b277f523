import MarketKill3r.Analysis.Store
import MarketKill3r.Engine.Facade
import MarketKill3r.Market.Freshness

/-!
# `run_analysis` (`app/api/routes/analysis.py`)

The request loads the bars of its timeframes, after a backfill where one is due, asks the calendar and
the news, runs the pipeline, lets the narrator (`app/ai/reasoning.py`) write the explanation, and stores
the run with its signal.

Everything that a request draws from its surroundings is an argument. A request that reads a bar whose
prices are not finite is outside the model (`none`). Of a request that raises, what it has committed
before stays.

* `RunRequest.run`: the endpoint.
-/

namespace MarketKill3r

/-! ## The surroundings -/

/-- The settings, and the conversions of Python. -/
structure AppSettings extends ProviderEnv where
  twelveDataApiKey : String
  calendarApiKey : String
  fmpApiKey : String
  newsRssFeeds : List String
  anthropicApiKey : String
  anthropicInstalled : Bool
  text : TextTable
  lower : String → String
  isoformat : Int → String

/-- The JSON that `generate_narrative` sends. -/
structure NarrativePayload where
  symbol : String
  timeframe : String
  direction : TradeDirection
  confidence : ℚ
  entry : Option ℚ
  stopLoss : Option ℚ
  takeProfit : Option ℚ
  riskReward : Option ℚ
  confluenceFactors : Confluence

/-- What a request draws from its surroundings: the answers of the providers, the reading of the clock
before each backfill and for the calendar, the blocks of the narrator's reply (nothing on an
exception), two fresh uuids with the times of their rows, and whether the database fails the flush, the
commit or the reload of the signal. -/
structure Surroundings where
  twelveData : TwelveDataQuery → Option JsonValue
  clock : String → Int
  jblanked : Option JsonValue
  fmp : Option JsonValue
  calendarNow : Int
  fetch : String → Option (List FeedEntry)
  reply : NarrativePayload → Option (List (String × String))
  runId : String
  signalId : String
  runCreatedAt : Int
  signalCreatedAt : Int
  flushFails : Bool
  commitFails : Bool
  refreshFails : Bool

namespace AppSettings

def backfill (settings : AppSettings) (around : Surroundings) : BackfillEnv :=
  ⟨settings.toProviderEnv, settings.twelveDataApiKey, around.twelveData⟩

def calendar (settings : AppSettings) (around : Surroundings) : CalendarEnv where
  calendarApiKey := settings.calendarApiKey
  fmpApiKey := settings.fmpApiKey
  jblanked := around.jblanked
  fmp := around.fmp
  fromisoformat := settings.fromisoformat
  str := settings.str
  lower := settings.lower
  caseMap := settings.caseMap

def feeds (settings : AppSettings) (around : Surroundings) : FeedEnv :=
  ⟨settings.newsRssFeeds, around.fetch, settings.text⟩

end AppSettings

/-! ## The narrator -/

/-- The text of the blocks of a reply. -/
def replyText (blocks : List (String × String)) : String :=
  stripStr (String.join ((blocks.filter fun block => block.1 = "text").map (·.2)))

/-- `generate_narrative` -/
def generateNarrative (settings : AppSettings)
    (reply : NarrativePayload → Option (List (String × String))) (plan : TradePlan)
    (symbol timeframe : String) : String :=
  if settings.anthropicApiKey = "" then plan.reasoning
  else if !settings.anthropicInstalled then plan.reasoning
  else
    match reply ⟨symbol, timeframe, plan.direction, plan.confidence, plan.entry, plan.stopLoss,
      plan.takeProfit, plan.riskReward, plan.confluence⟩ with
    | none => plan.reasoning
    | some blocks => if replyText blocks = "" then plan.reasoning else replyText blocks

/-- `plan` of `run_analysis`: the entry is the lower edge of the zone. -/
def AnalysisResult.narrativePlan (result : AnalysisResult) : TradePlan where
  direction := result.direction
  confidence := result.confidence
  entry := result.entryZone.map (·.1)
  stopLoss := result.stopLoss
  takeProfit := result.takeProfits.head?
  riskReward := result.riskReward
  confluence := ⟨result.evidence, false⟩
  reasoning := result.reasoning

/-! ## The request -/

/-- `AnalysisRequest` with all its fields. -/
structure RunRequest extends AnalysisRequest where
  correlatedSymbol : Option String
  lookback : Int
  minConfidenceToTrade : ℚ
  riskRewardTarget : ℚ
  useNewsSentiment : Bool
  checkCalendarBlackout : Bool
  persist : Bool

/-- The request of `get_analysis`: the defaults of `AnalysisRequest`. -/
def RunRequest.default (cm : CaseMap) (symbol : String) : RunRequest where
  symbol := canonicalSymbol cm symbol
  timeframe := "M15"
  timeframes := none
  barLimit := 200
  correlatedSymbol := none
  lookback := 2
  minConfidenceToTrade := 60
  riskRewardTarget := 2
  useNewsSentiment := true
  checkCalendarBlackout := true
  persist := true

/-- The tables that the service works on. -/
structure ServiceDb where
  bars : BarStore
  analysis : AnalysisDb

/-- The tables before the first request. -/
def ServiceDb.empty : ServiceDb := ⟨UniqueTable.empty, AnalysisDb.empty⟩

/-- `SYMBOL_CURRENCY_MAP` -/
def symbolCurrencyMap : List (String × List String) :=
  [("XAUUSD", ["USD"]), ("DXY", ["USD"]), ("EURUSD", ["EUR", "USD"]), ("GBPUSD", ["GBP", "USD"]),
    ("US30", ["USD"]), ("NAS100", ["USD"]), ("BTCUSD", ["USD"])]

def BackfillError.runError : BackfillError → RunError
  | .provider e => .provider e
  | .commit _ => .database

/-- A field of an event in the evidence. A value that is neither a text nor `None` stands for its
`str`. -/
def JsonValue.field (str : JsonValue → String) : JsonValue → Option String
  | .null => none
  | .str s => some s
  | value => some (str value)

/-- The dictionary of an event. -/
def EconomicEvent.dict (settings : AppSettings) (event : EconomicEvent) : EventDict :=
  [("name", event.name.field settings.str), ("currency", event.currency.field settings.str),
    ("impact", some event.impact), ("event_time", some (settings.isoformat event.eventTime)),
    ("forecast", event.forecast.field settings.str), ("previous", event.previous.field settings.str),
    ("actual", event.actual.field settings.str)]

/-- `db.refresh(signal)`, after the commit of `persist_analysis`. -/
def Surroundings.refresh (around : Surroundings) (signal : SignalRow) : Except RunError SignalObject :=
  if around.refreshFails then .error .refresh else .ok signal.object

theorem Surroundings.refresh_eq_ok {around : Surroundings} {row : SignalRow} {signal : SignalObject} :
    around.refresh row = .ok signal ↔ around.refreshFails = false ∧ signal = row.object := by
  unfold Surroundings.refresh
  cases around.refreshFails with
  | false => simp [eq_comm]
  | true => simp

namespace RunRequest

/-- `symbol` -/
def canonical (settings : AppSettings) (payload : RunRequest) : String :=
  canonicalSymbol settings.caseMap payload.symbol

/-- `primary_tf` -/
def primaryTf (settings : AppSettings) (payload : RunRequest) : String :=
  settings.caseMap.normalTimeframe payload.timeframe

/-- `minimum_bars` -/
def minimumBars (payload : RunRequest) : Int := max 10 (payload.lookback * 2 + 3)

/-- The loop over `requested_tfs`: a backfill where one is due, then the bars. -/
def loadTimeframes (settings : AppSettings) (around : Surroundings) (payload : RunRequest) :
    List String → BarStore → Option (BarStore × Except RunError (List (String × List Bar)))
  | [], store => some (store, .ok [])
  | tf :: tfs, store =>
    match ensureRecentBars (settings.backfill around) (around.clock tf) (payload.canonical settings)
      tf payload.minimumBars payload.barLimit store with
    | .error e => some (store, .error e.runError)
    | .ok store => do
      let bars ← loadBars settings.caseMap store (payload.canonical settings) tf payload.barLimit
      let (store, rest) ← loadTimeframes settings around payload tfs store
      return (store, rest.map ((tf, bars) :: ·))

/-- A `dict` of the lists that are not empty. -/
def barsOf (settings : AppSettings) (payload : RunRequest) (loaded : List (String × List Bar)) :
    TfMap (List Bar) :=
  timeframeBars settings.caseMap payload.toAnalysisRequest fun tf => (loaded.lookup tf).getD []

/-- The 422 answer. -/
def insufficient (settings : AppSettings) (payload : RunRequest) (received : Nat) : RunError :=
  let symbol := payload.canonical settings
  let primary := payload.primaryTf settings
  let minimum := payload.minimumBars
  .http 422 (s!"Insufficient validated bars for {symbol} {primary}. " ++
    s!"Required at least {minimum}, received {received}.")

/-- `corr_symbol` -/
def corrSymbol (settings : AppSettings) (payload : RunRequest) : Option String :=
  let named := (payload.correlatedSymbol.filter (· ≠ "")).map (canonicalSymbol settings.caseMap)
  match named.filter (· ≠ "") with
  | some symbol => some symbol
  | none =>
    if payload.canonical settings ∈ ["XAUUSD", "US30", "NAS100"] then some "DXY" else none

/-- `correlated`: no backfill is due for these bars. -/
def loadCorrelated (settings : AppSettings) (payload : RunRequest) (store : BarStore) :
    Option (List (String × List Bar)) :=
  match payload.corrSymbol settings with
  | none => some []
  | some symbol => (payload.requestedTfs settings.caseMap).mapM fun tf => do
    let bars ← loadBars settings.caseMap store symbol tf payload.barLimit
    return (tf, bars)

/-- `currencies` -/
def currencies (settings : AppSettings) (payload : RunRequest) : List String :=
  (symbolCurrencyMap.lookup (payload.canonical settings)).getD []

/-- `articles` -/
def articles (settings : AppSettings) (around : Surroundings) (payload : RunRequest) :
    List NewsArticle :=
  if payload.useNewsSentiment then fetchLatestNews (settings.feeds around) 10 else []

/-- The call of the pipeline. -/
def input (settings : AppSettings) (around : Surroundings) (payload : RunRequest)
    (loaded correlated : List (String × List Bar)) (events : List EconomicEvent) (blackout : Bool) :
    AnalysisInput where
  symbol := payload.canonical settings
  timeframeBars := payload.barsOf settings loaded
  primaryTimeframe := payload.primaryTf settings
  correlatedTimeframeBars := some (payload.barsOf settings correlated)
  newsSentiment := newsSentiment (payload.articles settings around)
  highImpactEvents := some (events.map (EconomicEvent.dict settings))
  calendarBlackout := blackout
  lookback := payload.lookback
  minConfidence := payload.minConfidenceToTrade
  riskRewardTarget := payload.riskRewardTarget

/-- `narrative` -/
def narrative (settings : AppSettings) (around : Surroundings) (payload : RunRequest)
    (result : AnalysisResult) : String :=
  generateNarrative settings around.reply result.narrativePlan (payload.canonical settings)
    (payload.primaryTf settings)

/-- The call of `persist_analysis`. -/
def persistCall (settings : AppSettings) (around : Surroundings) (payload : RunRequest)
    (events : List EconomicEvent) (result : AnalysisResult) : PersistCall where
  runId := around.runId
  signalId := around.signalId
  runCreatedAt := around.runCreatedAt
  signalCreatedAt := around.signalCreatedAt
  flushFails := around.flushFails
  commitFails := around.commitFails
  symbol := payload.canonical settings
  primaryTimeframe := payload.primaryTf settings
  result := result
  narrative := payload.narrative settings around result
  events := events
  articles := payload.articles settings around

theorem input_symbol (settings : AppSettings) (around : Surroundings) (payload : RunRequest)
    (loaded correlated : List (String × List Bar)) (events : List EconomicEvent) (blackout : Bool) :
    (payload.input settings around loaded correlated events blackout).symbol =
      payload.canonical settings := by
  rw [input]

/-- What the EA can be told of the signal of a call. -/
theorem persistCall_signal (settings : AppSettings) (around : Surroundings) (payload : RunRequest)
    (events : List EconomicEvent) (result : AnalysisResult) :
    (payload.persistCall settings around events result).signal.toSignal = signalOf around.signalId
      around.signalCreatedAt (payload.canonical settings) result := by
  rw [PersistCall.signal, persistCall]

/-- The end of `run_analysis`, from the result of the pipeline. -/
def answer (settings : AppSettings) (around : Surroundings) (payload : RunRequest)
    (events : List EconomicEvent) (result : AnalysisResult) (db : ServiceDb) :
    ServiceDb × Except RunError SignalObject :=
  if payload.persist then
    match db.analysis.persistAnalysis (payload.persistCall settings around events result) with
    | .error e => (db, .error e)
    | .ok (analysis, _, signal) => ({ db with analysis := analysis }, around.refresh signal)
  else
    (db, .ok (transientSignal around.signalId around.signalCreatedAt (payload.canonical settings)
      (payload.primaryTf settings) result (payload.narrative settings around result)))

/-- `run_analysis`, from the calendar on. -/
def conclude (settings : AppSettings) (around : Surroundings) (payload : RunRequest)
    (loaded correlated : List (String × List Bar)) (db : ServiceDb) :
    ServiceDb × Except RunError SignalObject :=
  match calendarContext (settings.calendar around) payload.checkCalendarBlackout
    (payload.currencies settings) around.calendarNow with
  | .error e => (db, .error (.calendar e))
  | .ok (events, blackout) =>
    match analyzeMultiTimeframe (payload.input settings around loaded correlated events blackout) with
    | .error e => (db, .error (.pipeline e))
    | .ok result => payload.answer settings around events result db

/-- The primary bars among those that were loaded. -/
def primaryBars (settings : AppSettings) (payload : RunRequest) (loaded : List (String × List Bar)) :
    List Bar :=
  ((payload.barsOf settings loaded).get? (payload.primaryTf settings)).getD []

/-- `run_analysis` -/
def run (settings : AppSettings) (around : Surroundings) (payload : RunRequest) (db : ServiceDb) :
    Option (ServiceDb × Except RunError SignalObject) :=
  match payload.loadTimeframes settings around (payload.requestedTfs settings.caseMap) db.bars with
  | none => none
  | some (bars, .error e) => some ({ db with bars := bars }, .error e)
  | some (bars, .ok loaded) =>
    if (payload.primaryBars settings loaded).length < payload.minimumBars then
      some ({ db with bars := bars },
        .error (payload.insufficient settings (payload.primaryBars settings loaded).length))
    else do
      let correlated ← payload.loadCorrelated settings bars
      return payload.conclude settings around loaded correlated { db with bars := bars }

end RunRequest

/-! ## Responses -/

/-- A response. A chart that the `Query` constraints reject is `none`. -/
inductive ServiceResponse
  | ingested (response : MT5Response)
  | signal (signal : SignalObject)
  | run (run : AnalysisRun)
  | signals (signals : List SignalRow)
  | bars (bars : Option (List MarketBar))
  | pending (signals : List PendingSignalOut)
  | reported (response : ReportResponse)
  | apiError (e : ApiError)
  | runError (e : RunError)

/-- The response of an analysis: `response_model=SignalOut` validates what the endpoint returns. -/
def runResponse : Except RunError SignalObject → ServiceResponse
  | .ok signal => if signal.toOut.isSome then .signal signal else .runError .response
  | .error e => .runError e

/-- A stored signal is answered, unless its reload fails. -/
theorem runResponse_refresh (around : Surroundings) (signal : SignalRow) :
    runResponse (around.refresh signal) =
      if around.refreshFails then .runError .refresh else .signal signal.object := by
  unfold Surroundings.refresh
  split
  · rfl
  · rw [runResponse, if_pos signal.object_toOut]

/-- A signal that is not stored is refused. -/
theorem runResponse_transient (id : String) (now : Int) (symbol primaryTf : String)
    (result : AnalysisResult) (narrative : String) :
    runResponse (.ok (transientSignal id now symbol primaryTf result narrative)) =
      .runError .response := by
  rw [runResponse, transientSignal_toOut]
  rfl

end MarketKill3r
