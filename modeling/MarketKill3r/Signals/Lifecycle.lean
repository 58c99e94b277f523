import MarketKill3r.Engine.Pipeline
import MarketKill3r.Signals.Queue

/-!
# The life of a signal

`persist_analysis` (`app/services/analysis_persistence.py`) adds a pending signal, `pending_signals`
acknowledges it, and `execution_report` (`app/api/routes/mt5.py`) records what the EA reports about
the trade and overwrites the status: a report with any status but `"filled"` rejects the signal.

* `signalHandle_effect`: what a request does to the signals and the recorded executions.
* `FillsRemembered`: a signal is executed exactly when a fill is recorded for it.
* `fills_remembered_iff`: it holds all along a run, and executed signals stay so, exactly when no
  report with another status than `"filled"` comes after a fill.
-/

namespace MarketKill3r

/-! ## Requests -/

/-- A row of `trade_executions`, with the columns that a report brings. -/
structure TradeExecution where
  signalId : String
  mt5Ticket : Option Int
  executedPrice : Option PyFloat
  volume : Option PyFloat
  status : String
  detail : Option String
  deriving DecidableEq

/-- The validated body of a request to `/mt5/execution-report`. -/
structure ExecutionReport where
  signalId : String
  mt5Ticket : Option Int
  executedPrice : Option PyFloat
  volume : Option PyFloat
  status : String
  detail : Option String

/-- The committed rows of `signals` and `trade_executions`. -/
structure SignalDb where
  signals : SignalTable
  executions : List TradeExecution

/-- The database before the first request. -/
def SignalDb.empty : SignalDb := ⟨UniqueTable.empty, []⟩

/-- `setup_status` of a result, as text. -/
def AnalysisStatus.value : AnalysisStatus → String
  | setup => "SETUP"
  | noSetup => "NO_SETUP"
  | insufficientConfirmation => "INSUFFICIENT_CONFIRMATION"

def TradeDirection.signalDirection : TradeDirection → SignalDirection
  | bullish => .bullish
  | bearish => .bearish
  | noTrade => .noTrade

/-- The signal that `persist_analysis` adds for a result, with its defaults. -/
def signalOf (id : String) (createdAt : Int) (symbol : String) (result : AnalysisResult) :
    Signal where
  id := id
  symbol := symbol
  direction := result.direction.signalDirection
  setupStatus := result.status.value
  status := .pending
  entryPrice := result.entryZone.map fun zone => (zone.1 + zone.2) / 2
  stopLoss := result.stopLoss
  takeProfit := result.takeProfits.head?
  createdAt := createdAt

/-- `persist_analysis`, as far as the signal goes: the id is a fresh uuid, and one that is taken fails
at the commit. -/
def persistAnalysis (id : String) (createdAt : Int) (symbol : String) (result : AnalysisResult)
    (db : SignalDb) : Except ApiError (SignalDb × Signal) :=
  let signal := signalOf id createdAt symbol result
  match db.signals.commit [signal] with
  | some signals => .ok ({ db with signals := signals }, signal)
  | none => .error .integrityError

/-- The row that a report adds. -/
def ExecutionReport.execution (report : ExecutionReport) : TradeExecution :=
  ⟨report.signalId, report.mt5Ticket, report.executedPrice, report.volume, report.status,
    report.detail⟩

/-- The status that a report gives to its signal. -/
def ExecutionReport.signalStatus (report : ExecutionReport) : SignalStatus :=
  if report.status = "filled" then .executed else .rejected

/-- `signal.status = …` -/
def Signal.setStatus (id : String) (status : SignalStatus) (s : Signal) : Signal :=
  if s.id = id then { s with status := status } else s

theorem Signal.setStatus_id (id : String) (status : SignalStatus) (s : Signal) :
    (s.setStatus id status).id = s.id := by
  unfold Signal.setStatus
  split <;> rfl

/-- The body of a response of `execution_report`. -/
structure ReportResponse where
  status : String
  message : String
  deriving DecidableEq

/-- `execution_report` -/
def executionReport (env : MT5Env) (report : ExecutionReport) (xMt5ApiKey : Option String)
    (db : SignalDb) : Except ApiError (SignalDb × ReportResponse) :=
  if keyRejected env xMt5ApiKey then .error (.http 401 "Invalid MT5 API key")
  else if db.signals.Has report.signalId then
    let signalId := report.signalId
    .ok (⟨db.signals.update (Signal.setStatus report.signalId report.signalStatus)
        (Signal.setStatus_id _ _), db.executions ++ [report.execution]⟩,
      ⟨"ok", s!"Execution recorded for signal {signalId}"⟩)
  else .ok (db, ⟨"error", "Unknown signal_id"⟩)

inductive SignalRequest
  | persistAnalysis (id : String) (createdAt : Int) (symbol : String) (result : AnalysisResult)
  | pendingSignals (symbol xMt5ApiKey : Option String)
  | executionReport (report : ExecutionReport) (xMt5ApiKey : Option String)

inductive SignalResponse
  | persisted (signal : Signal)
  | pending (signals : List PendingSignalOut)
  | reported (response : ReportResponse)
  deriving DecidableEq

/-- A request. One that raises leaves the database as it was. -/
def signalHandle (env : MT5Env) (db : SignalDb) :
    SignalRequest → SignalDb × Except ApiError SignalResponse
  | .persistAnalysis id createdAt symbol result =>
    match persistAnalysis id createdAt symbol result db with
    | .ok (db', signal) => (db', .ok (.persisted signal))
    | .error e => (db, .error e)
  | .pendingSignals symbol xMt5ApiKey =>
    match pendingSignals env symbol xMt5ApiKey db.signals with
    | .ok (signals, response) => ({ db with signals := signals }, .ok (.pending response))
    | .error e => (db, .error e)
  | .executionReport report xMt5ApiKey =>
    match executionReport env report xMt5ApiKey db with
    | .ok (db', response) => (db', .ok (.reported response))
    | .error e => (db, .error e)

def signalStep (env : MT5Env) (db : SignalDb) (r : SignalRequest) :
    Option (SignalDb × Except ApiError SignalResponse) := some (signalHandle env db r)

abbrev SignalTransition :=
  Sys.Transition SignalDb SignalRequest (Except ApiError SignalResponse)

/-! ## What a request does -/

/-- Everything that a request can do to the database. -/
inductive SignalEffect (env : MT5Env) (db : SignalDb) : SignalRequest → SignalDb → Prop
  | unchanged (r : SignalRequest) : SignalEffect env db r db
  | persisted (id : String) (createdAt : Int) (symbol : String) (result : AnalysisResult)
      (signals : SignalTable)
      (hrows : signals.rows = db.signals.rows ++ [signalOf id createdAt symbol result]) :
      SignalEffect env db (.persistAnalysis id createdAt symbol result)
        { db with signals := signals }
  | acknowledged (symbol xMt5ApiKey : Option String) :
      SignalEffect env db (.pendingSignals symbol xMt5ApiKey) { db with
        signals := acknowledgeAll (pendingSelect env.caseMap symbol db.signals) db.signals }
  | reported (report : ExecutionReport) (xMt5ApiKey : Option String)
      (hkey : keyRejected env xMt5ApiKey = false) (hknown : db.signals.Has report.signalId) :
      SignalEffect env db (.executionReport report xMt5ApiKey)
        ⟨db.signals.update (Signal.setStatus report.signalId report.signalStatus)
          (Signal.setStatus_id _ _), db.executions ++ [report.execution]⟩

/-- **What a request can do.** -/
theorem signalHandle_effect (env : MT5Env) (db : SignalDb) (r : SignalRequest) :
    SignalEffect env db r (signalHandle env db r).1 := by
  cases r with
  | persistAnalysis id createdAt symbol result =>
    rw [signalHandle, persistAnalysis]
    cases hc : db.signals.commit [signalOf id createdAt symbol result] with
    | none => exact .unchanged _
    | some signals => exact .persisted id createdAt symbol result _ (UniqueTable.commit_eq_some.mp hc)
  | pendingSignals symbol xMt5ApiKey =>
    rw [signalHandle, pendingSignals]
    by_cases hkey : keyRejected env xMt5ApiKey = true
    · rw [if_pos hkey]
      exact .unchanged _
    · rw [if_neg hkey]
      exact .acknowledged symbol xMt5ApiKey
  | executionReport report xMt5ApiKey =>
    rw [signalHandle, executionReport]
    by_cases hkey : keyRejected env xMt5ApiKey = true
    · rw [if_pos hkey]
      exact .unchanged _
    · rw [if_neg hkey]
      by_cases hknown : db.signals.Has report.signalId
      · rw [if_pos hknown]
        exact .reported report xMt5ApiKey (by simpa using hkey) hknown
      · rw [if_neg hknown]
        exact .unchanged _

theorem signalStep_effect {env : MT5Env} {db db' : SignalDb} {r : SignalRequest}
    {o : Except ApiError SignalResponse} (h : signalStep env db r = some (db', o)) :
    SignalEffect env db r db' := by
  obtain rfl : (signalHandle env db r).1 = db' := congrArg Prod.fst (Option.some.inj h)
  exact signalHandle_effect env db r

/-! ## Fills -/

/-- A fill is recorded for the signal. -/
def SignalDb.Filled (db : SignalDb) (id : String) : Prop :=
  ∃ e ∈ db.executions, e.signalId = id ∧ e.status = "filled"

instance (db : SignalDb) (id : String) : Decidable (db.Filled id) :=
  inferInstanceAs (Decidable (∃ e ∈ db.executions, e.signalId = id ∧ e.status = "filled"))

/-- A signal is executed exactly when a fill is recorded for it. -/
def FillsRemembered (db : SignalDb) : Prop :=
  ∀ s ∈ db.signals.rows, s.status = .executed ↔ db.Filled s.id

instance (db : SignalDb) : Decidable (FillsRemembered db) :=
  inferInstanceAs (Decidable (∀ s ∈ db.signals.rows, s.status = .executed ↔ db.Filled s.id))

/-- Executions are recorded for known signals only. -/
def ExecutionsKnown (db : SignalDb) : Prop := ∀ e ∈ db.executions, db.signals.Has e.signalId

/-- If the transition is an accepted report for a signal with a recorded fill, the report says
`"filled"`. -/
def ReportAgrees (env : MT5Env) (tr : SignalTransition) : Prop :=
  match tr.label with
  | .executionReport report xMt5ApiKey => keyRejected env xMt5ApiKey = false →
      tr.pre.Filled report.signalId → report.status = "filled"
  | _ => True

instance (env : MT5Env) (tr : SignalTransition) : Decidable (ReportAgrees env tr) :=
  match tr with
  | ⟨db, .executionReport report xMt5ApiKey, _, _⟩ =>
    inferInstanceAs (Decidable (keyRejected env xMt5ApiKey = false →
      db.Filled report.signalId → report.status = "filled"))
  | ⟨_, .persistAnalysis _ _ _ _, _, _⟩ => isTrue trivial
  | ⟨_, .pendingSignals _ _, _, _⟩ => isTrue trivial

/-- After the transition every signal is executed exactly when a fill is recorded for it, and the
signals that were executed before still are. -/
def FillKept (tr : SignalTransition) : Prop :=
  FillsRemembered tr.post ∧ ∀ s ∈ tr.pre.signals.rows, s.status = .executed →
    ∃ s' ∈ tr.post.signals.rows, s'.id = s.id ∧ s'.status = .executed

instance (tr : SignalTransition) : Decidable (FillKept tr) :=
  inferInstanceAs (Decidable (_ ∧ _))

namespace SignalEffect

variable {env : MT5Env} {db db' : SignalDb} {r : SignalRequest}

/-- Signals stay. -/
theorem signals_kept (h : SignalEffect env db r db') {id : String} (hid : db.signals.Has id) :
    db'.signals.Has id := by
  obtain ⟨s, hs, rfl⟩ := List.mem_map.mp hid
  cases h with
  | unchanged => exact hid
  | persisted id createdAt symbol result signals hrows =>
    refine List.mem_map.mpr ⟨s, ?_, rfl⟩
    rw [hrows]
    exact List.mem_append_left _ hs
  | acknowledged symbol xMt5ApiKey =>
    exact List.mem_map.mpr ⟨_, List.mem_map_of_mem hs, Signal.acknowledge_id _ s⟩
  | reported report xMt5ApiKey hkey hknown =>
    exact List.mem_map.mpr ⟨_, List.mem_map_of_mem hs, Signal.setStatus_id _ _ s⟩

/-- Recorded executions stay. -/
theorem executions_kept (h : SignalEffect env db r db') {e : TradeExecution}
    (he : e ∈ db.executions) : e ∈ db'.executions := by
  cases h with
  | reported report xMt5ApiKey hkey hknown => exact List.mem_append_left _ he
  | _ => exact he

theorem executionsKnown (h : SignalEffect env db r db') (hknown : ExecutionsKnown db) :
    ExecutionsKnown db' := by
  intro e he
  refine h.signals_kept ?_
  cases h with
  | reported report xMt5ApiKey hkey hhas =>
    rcases List.mem_append.mp he with he | he
    · exact hknown e he
    · rw [List.mem_singleton.mp he]
      exact hhas
  | _ => exact hknown e he

/-- What a report does to the fills. -/
theorem filled_reported {report : ExecutionReport} {signals : SignalTable} {id : String} :
    SignalDb.Filled ⟨signals, db.executions ++ [report.execution]⟩ id ↔
      db.Filled id ∨ (report.signalId = id ∧ report.status = "filled") := by
  unfold SignalDb.Filled
  constructor
  · rintro ⟨e, he, hid, hst⟩
    rcases List.mem_append.mp he with he | he
    · exact Or.inl ⟨e, he, hid, hst⟩
    · rw [List.mem_singleton.mp he] at hid hst
      exact Or.inr ⟨hid, hst⟩
  · rintro (⟨e, he, hid, hst⟩ | ⟨hid, hst⟩)
    · exact ⟨e, List.mem_append_left _ he, hid, hst⟩
    · exact ⟨_, List.mem_append_right _ List.mem_cons_self, hid, hst⟩

/-- Nothing can be recorded for an id that no signal has. -/
theorem not_filled_of_fresh (hknown : ExecutionsKnown db) {id : String} (hid : ¬ db.signals.Has id) :
    ¬ db.Filled id := by
  rintro ⟨e, he, rfl, -⟩
  exact hid (hknown e he)

/-- A signal that a poll selects was pending, so no fill is recorded for it. -/
theorem not_filled_of_picked (hrem : FillsRemembered db) {symbol : Option String} {s : Signal}
    (hs : s ∈ db.signals.rows)
    (hpicked : s.id ∈ (pendingSelect env.caseMap symbol db.signals).map (·.id)) :
    ¬ db.Filled s.id := by
  intro hfilled
  obtain ⟨q, hq, hid⟩ := List.mem_map.mp hpicked
  obtain ⟨x, hx, hxid, helig⟩ := pendingSelect_waiting hq
  have hsx := List.inj_on_of_nodup_map db.signals.nodup hx hs (hxid.trans hid)
  have hexec := (hrem s hs).mpr hfilled
  rw [hsx, Signal.eligible, hexec] at helig
  cases helig

/-- A step that agrees with the recorded fills keeps the equivalence. -/
theorem remembers (h : SignalEffect env db r db') (hknown : ExecutionsKnown db)
    (hrem : FillsRemembered db)
    (hagree : ∀ report header, r = .executionReport report header →
      keyRejected env header = false → db.Filled report.signalId → report.status = "filled") :
    FillsRemembered db' := by
  cases h with
  | unchanged => exact hrem
  | persisted id createdAt symbol result signals hrows =>
    intro s hs
    have hnew := signals.nodup
    simp only [hrows] at hs hnew
    rcases List.mem_append.mp hs with hs | hs
    · exact hrem s hs
    · -- The new signal is pending.
      rw [List.mem_singleton.mp hs]
      refine iff_of_false (by simp [signalOf]) (not_filled_of_fresh hknown fun hhas => ?_)
      rw [List.map_append, List.nodup_append] at hnew
      exact hnew.2.2 _ hhas _ (by simp) rfl
  | acknowledged symbol xMt5ApiKey =>
    intro s' hs'
    obtain ⟨s, hs, rfl⟩ := List.mem_map.mp hs'
    rw [Signal.acknowledge_id]
    unfold Signal.acknowledge
    by_cases hpicked : s.id ∈ (pendingSelect env.caseMap symbol db.signals).map (·.id)
    · rw [if_pos hpicked]
      exact iff_of_false (fun he => by cases he) (not_filled_of_picked hrem hs hpicked)
    · rw [if_neg hpicked]
      exact hrem s hs
  | reported report xMt5ApiKey hkey hhas =>
    intro s' hs'
    obtain ⟨s, hs, rfl⟩ := List.mem_map.mp hs'
    rw [Signal.setStatus_id, filled_reported]
    unfold Signal.setStatus
    by_cases hid : s.id = report.signalId
    · rw [if_pos hid]
      unfold ExecutionReport.signalStatus
      by_cases hst : report.status = "filled"
      · rw [if_pos hst]
        exact iff_of_true rfl (Or.inr ⟨hid.symm, hst⟩)
      · rw [if_neg hst]
        refine iff_of_false (fun he => by cases he) ?_
        rintro (hfilled | ⟨-, hst'⟩)
        · exact hst (hagree report xMt5ApiKey rfl hkey (hid ▸ hfilled))
        · exact hst hst'
    · rw [if_neg hid, hrem s hs]
      exact ⟨Or.inl, fun hor => hor.resolve_right fun h => hid h.1.symm⟩

end SignalEffect

/-! ## Runs -/

variable {env : MT5Env}

/-- A step that agrees with the recorded fills, or not: its condition is exact. -/
theorem fillKept_iff {db db' : SignalDb} {r : SignalRequest} {o : Except ApiError SignalResponse}
    (hknown : ExecutionsKnown db) (hrem : FillsRemembered db)
    (hst : signalStep env db r = some (db', o)) :
    FillKept ⟨db, r, o, db'⟩ ↔ ReportAgrees env ⟨db, r, o, db'⟩ := by
  have heff := signalStep_effect hst
  constructor
  · rintro ⟨hpost, -⟩
    unfold ReportAgrees
    split
    case h_2 => trivial
    case h_1 report header hl =>
      cases hl
      rintro hkey ⟨e, he, hid, hfilled⟩
      by_contra hne
      -- The report rejects a signal whose fill stays recorded.
      have hhas : db.signals.Has report.signalId := hid ▸ hknown e he
      have hdb : db' = ⟨db.signals.update (Signal.setStatus report.signalId report.signalStatus)
          (Signal.setStatus_id _ _), db.executions ++ [report.execution]⟩ := by
        have hst' := congrArg Prod.fst (Option.some.inj hst)
        simp only [signalHandle, executionReport, hkey, Bool.false_eq_true, if_false,
          if_pos hhas] at hst'
        exact hst'.symm
      obtain ⟨s, hs, hsid⟩ := List.mem_map.mp hhas
      have hs' : s.setStatus report.signalId report.signalStatus ∈ db'.signals.rows := by
        rw [hdb]
        exact List.mem_map_of_mem hs
      have hstatus : (s.setStatus report.signalId report.signalStatus).status = .rejected := by
        rw [Signal.setStatus, if_pos hsid, ExecutionReport.signalStatus, if_neg hne]
      have hexec := (hpost _ hs').mpr
        ⟨e, heff.executions_kept he, by rw [Signal.setStatus_id, hsid, hid], hfilled⟩
      rw [hstatus] at hexec
      cases hexec
  · intro hagree
    have hpost : FillsRemembered db' := heff.remembers hknown hrem fun report header hr => by
      subst hr
      exact hagree
    refine ⟨hpost, fun s hs hexec => ?_⟩
    obtain ⟨e, he, hid, hfilled⟩ := (hrem s hs).mp hexec
    obtain ⟨s', hs', hid'⟩ := List.mem_map.mp (heff.signals_kept (List.mem_map_of_mem hs))
    exact ⟨s', hs', hid',
      (hpost s' hs').mpr ⟨e, heff.executions_kept he, hid.trans hid'.symm, hfilled⟩⟩

/-- **A fill is remembered.** In a run from the empty database, every signal is executed exactly when
a fill is recorded for it, in every state that is reached, and executed signals stay executed: this
holds exactly when no accepted report with another status than `"filled"` comes for a signal with a
recorded fill. -/
theorem fills_remembered_iff {db : SignalDb} {ts : List SignalTransition}
    (hrun : Sys.Run (signalStep env) .empty ts db) :
    (∀ tr ∈ ts, FillKept tr) ↔ ∀ tr ∈ ts, ReportAgrees env tr := by
  refine hrun.forall_iff (I := fun db => ExecutionsKnown db ∧ FillsRemembered db)
    ⟨List.forall_mem_nil _, List.forall_mem_nil _⟩ fun db r o db' hst ⟨hknown, hrem⟩ => ?_
  have hiff := fillKept_iff hknown hrem hst
  exact ⟨hiff, fun hagree =>
    ⟨(signalStep_effect hst).executionsKnown hknown, (hiff.mpr hagree).1⟩⟩

/-! ## Fixtures -/

/-- A bullish setup. -/
def demoResult : AnalysisResult where
  status := .setup
  direction := .bullish
  confidence := 80
  confluenceScore := 8
  symbol := "XAUUSD"
  primaryTimeframe := "M15"
  timeframes := ["M15"]
  marketBias := .bullish
  entryZone := some (10, 12)
  invalidation := some 9
  stopLoss := some 9
  takeProfits := [15, 18]
  riskReward := some 2
  evidence := none
  reasoning := ""

/-- The result is persisted, the EA fetches the signal and reports twice about it. -/
def demoTrade (status status' : String) : List SignalRequest :=
  [.persistAnalysis "s1" 0 "XAUUSD" demoResult, .pendingSignals none none,
    .executionReport ⟨"s1", some 1, some (.num 10), some (.num 1), status, none⟩ none,
    .executionReport ⟨"s1", some 1, some (.num 15), some (.num 1), status', none⟩ none]

theorem demo_fills_remembered : ∃ ts db, Sys.Run (signalStep demoEnv) .empty ts db ∧
    db.signals.rows.map (·.status) = [.executed] ∧ db.executions.length = 2 ∧
    ∀ tr ∈ ts, FillKept tr := by
  obtain ⟨ts, db, hrun, hagree, hst, hlen⟩ := Sys.exists_run (signalStep demoEnv) .empty
    (demoTrade "rejected" "filled")
    (fun ts db => (∀ tr ∈ ts, ReportAgrees demoEnv tr) ∧
      db.signals.rows.map (·.status) = [.executed] ∧ db.executions.length = 2) (by decide +kernel)
  exact ⟨ts, db, hrun, hst, hlen, (fills_remembered_iff hrun).mpr hagree⟩

/-- The trade is filled and later closed. The report of the close rejects the signal. -/
theorem close_rejects_signal : ∃ ts db, Sys.Run (signalStep demoEnv) .empty ts db ∧
    (∀ s ∈ db.signals.rows, s.status = .rejected ∧ db.Filled s.id) ∧ db.signals.rows.length = 1 ∧
    ¬ ∀ tr ∈ ts, FillKept tr :=
  Sys.exists_run (signalStep demoEnv) .empty (demoTrade "filled" "closed")
    (fun ts db => (∀ s ∈ db.signals.rows, s.status = .rejected ∧ db.Filled s.id) ∧
      db.signals.rows.length = 1 ∧ ¬ ∀ tr ∈ ts, FillKept tr) (by decide +kernel)

end MarketKill3r
