import MarketKill3r.Analysis.Outcome
import MarketKill3r.Market.Keys

/-!
# The service

The requests of the EA and of the dashboard, in any order, from the empty tables. A request that raises
leaves what it has committed before.

* `serviceStep`: the system; `serviceStep_effect`: what a request does to the tables.
* `service_consistent`: **the analysis tables agree with each other in every state.**
* `analysis_outcomes`: **how a request for an analysis ends.**
* `service_history`: **what was once stored or answered stays.**
* `service_refines`: the system is a run of the bar writers, and one of the signal requests.
-/

namespace MarketKill3r

/-! ## Requests -/

inductive ServiceRequest
  | ingest (payload : MT5Payload) (xMt5ApiKey : Option String)
  | runAnalysis (payload : RunRequest) (around : Surroundings)
  | getAnalysis (symbol : String) (around : Surroundings)
  | getAnalysisRun (runId : String)
  | listSignals (symbol : Option String) (limit : Int)
  | chartBars (symbol timeframe : String) (limit : Nat)
  | pendingSignals (symbol xMt5ApiKey : Option String)
  | executionReport (report : ExecutionReport) (xMt5ApiKey : Option String)

/-- The signals that a response hands to the EA. -/
def ServiceResponse.delivered : ServiceResponse → List PendingSignalOut
  | .pending out => out
  | _ => []

/-- A request. One that reads bars without finite prices is outside the model. -/
def serviceStep (settings : AppSettings) (db : ServiceDb) :
    ServiceRequest → Option (ServiceDb × ServiceResponse)
  | .ingest payload xMt5ApiKey =>
    match MarketKill3r.ingest settings.toMT5Env payload xMt5ApiKey db.bars with
    | .ok (bars, response) => some ({ db with bars := bars }, .ingested response)
    | .error e => some (db, .apiError e)
  | .runAnalysis payload around => do
    let (db, r) ← payload.run settings around db
    return (db, runResponse r)
  | .getAnalysis symbol around => do
    let (db, r) ← (RunRequest.default settings.caseMap symbol).run settings around db
    return (db, runResponse r)
  | .getAnalysisRun runId =>
    match db.analysis.getAnalysisRun runId with
    | .ok run => some (db, .run run)
    | .error e => some (db, .runError e)
  | .listSignals symbol limit =>
    some (db, .signals (db.analysis.listSignals settings.caseMap symbol limit))
  | .chartBars symbol timeframe limit =>
    some (db, .bars (MarketKill3r.chartBars settings.caseMap db.bars symbol timeframe limit))
  | .pendingSignals symbol xMt5ApiKey =>
    match db.analysis.pendingSignals settings.toMT5Env symbol xMt5ApiKey with
    | .ok (analysis, out) => some ({ db with analysis := analysis }, .pending out)
    | .error e => some (db, .apiError e)
  | .executionReport report xMt5ApiKey =>
    match db.analysis.executionReport settings.toMT5Env report xMt5ApiKey with
    | .ok (analysis, out) => some ({ db with analysis := analysis }, .reported out)
    | .error e => some (db, .apiError e)

abbrev ServiceTransition := Sys.Transition ServiceDb ServiceRequest ServiceResponse

/-- The analysis that the request asks for. -/
def ServiceRequest.analysis (cm : CaseMap) : ServiceRequest → Option (RunRequest × Surroundings)
  | .runAnalysis payload around => some (payload, around)
  | .getAnalysis symbol around => some (RunRequest.default cm symbol, around)
  | _ => none

/-- A request for an analysis is `run_analysis`. -/
theorem serviceStep_analysis {settings : AppSettings} {db db' : ServiceDb} {request : ServiceRequest}
    {response : ServiceResponse} {payload : RunRequest} {around : Surroundings}
    (ha : request.analysis settings.caseMap = some (payload, around)) :
    serviceStep settings db request = some (db', response) ↔
      ∃ r, payload.run settings around db = some (db', r) ∧ response = runResponse r := by
  cases request <;> simp only [ServiceRequest.analysis, reduceCtorEq] at ha
  all_goals
    obtain ⟨rfl, rfl⟩ := Prod.mk.inj (Option.some.inj ha)
    simp only [serviceStep, bind, Option.bind_eq_some_iff, pure, Option.some.injEq, Prod.mk.injEq]
    constructor
    · rintro ⟨⟨db₁, r⟩, hrun, rfl, rfl⟩
      exact ⟨r, hrun, rfl⟩
    · rintro ⟨r, hrun, rfl⟩
      exact ⟨(db', r), hrun, rfl, rfl⟩

/-- How a transition that asks for an analysis ends. -/
theorem outcome_of_step {settings : AppSettings} {payload : RunRequest} {around : Surroundings}
    {t : ServiceTransition}
    (ha : t.label.analysis settings.caseMap = some (payload, around)) (hok : OkStore t.pre.bars)
    (hstep : serviceStep settings t.pre t.label = some (t.post, t.out)) :
    RunOutcome settings around payload t.pre t.post t.out := by
  obtain ⟨r, hrun, hr⟩ := (serviceStep_analysis ha).mp hstep
  rw [hr]
  exact RunRequest.run_outcome hok hrun

/-! ## Effects -/

/-- What an analysis does to the tables. -/
theorem RunOutcome.effect {settings : AppSettings} {around : Surroundings} {payload : RunRequest}
    {db db' : ServiceDb} {response : ServiceResponse}
    (h : RunOutcome settings around payload db db' response) :
    Written settings.toProviderEnv db.bars db'.bars ∧ StoreEffect db.analysis db'.analysis := by
  cases h with
  | failed bars hbars e he => exact ⟨hbars, .unchanged⟩
  | persisted bars hbars inp hread result hresult events analysis run signal hpersist hstored =>
    exact ⟨hbars, AnalysisDb.persistAnalysis_effect hstored⟩
  | refused bars hbars inp hread result hresult hpersist => exact ⟨hbars, .unchanged⟩

/-- What the requests do, case by case. A request that raises, or only reads, leaves the tables. -/
inductive ServiceStep (settings : AppSettings) (db : ServiceDb) :
    ServiceRequest → ServiceDb → ServiceResponse → Prop
  | analysed {request : ServiceRequest} {payload : RunRequest} {around : Surroundings}
      {db' : ServiceDb} {r : Except RunError SignalObject}
      (hasked : request.analysis settings.caseMap = some (payload, around))
      (hrun : payload.run settings around db = some (db', r)) :
      ServiceStep settings db request db' (runResponse r)
  | ingested {payload : MT5Payload} {key : Option String} {bars : BarStore} {response : MT5Response}
      (hing : MarketKill3r.ingest settings.toMT5Env payload key db.bars = .ok (bars, response)) :
      ServiceStep settings db (.ingest payload key) { db with bars := bars } (.ingested response)
  | polled {symbol key : Option String} {analysis : AnalysisDb} {out : List PendingSignalOut}
      (hpoll : db.analysis.pendingSignals settings.toMT5Env symbol key = .ok (analysis, out)) :
      ServiceStep settings db (.pendingSignals symbol key) { db with analysis := analysis }
        (.pending out)
  | reported {report : ExecutionReport} {key : Option String} {analysis : AnalysisDb}
      {out : ReportResponse}
      (hreport : db.analysis.executionReport settings.toMT5Env report key = .ok (analysis, out)) :
      ServiceStep settings db (.executionReport report key) { db with analysis := analysis }
        (.reported out)
  | kept {request : ServiceRequest} {response : ServiceResponse}
      (hasked : request.analysis settings.caseMap = none) (hout : response.delivered = []) :
      ServiceStep settings db request db response

theorem serviceStep_cases {settings : AppSettings} {db db' : ServiceDb} {request : ServiceRequest}
    {response : ServiceResponse} (h : serviceStep settings db request = some (db', response)) :
    ServiceStep settings db request db' response := by
  cases ha : request.analysis settings.caseMap with
  | some asked =>
    obtain ⟨payload, around⟩ := asked
    obtain ⟨r, hrun, rfl⟩ := (serviceStep_analysis ha).mp h
    exact .analysed ha hrun
  | none =>
    cases request with
    | runAnalysis payload around => cases ha
    | getAnalysis symbol around => cases ha
    | ingest payload key =>
      rw [serviceStep] at h
      split at h <;> cases h
      · exact .ingested ‹_›
      · exact .kept ha rfl
    | getAnalysisRun runId =>
      rw [serviceStep] at h
      split at h <;> cases h <;> exact .kept ha rfl
    | listSignals symbol limit =>
      cases h
      exact .kept ha rfl
    | chartBars symbol timeframe limit =>
      cases h
      exact .kept ha rfl
    | pendingSignals symbol key =>
      rw [serviceStep] at h
      split at h <;> cases h
      · exact .polled ‹_›
      · exact .kept ha rfl
    | executionReport report key =>
      rw [serviceStep] at h
      split at h <;> cases h
      · exact .reported ‹_›
      · exact .kept ha rfl

/-- **What a request does to the tables.** -/
theorem serviceStep_effect {settings : AppSettings} {db db' : ServiceDb} {request : ServiceRequest}
    {response : ServiceResponse} (hok : OkStore db.bars)
    (h : serviceStep settings db request = some (db', response)) :
    Written settings.toProviderEnv db.bars db'.bars ∧ StoreEffect db.analysis db'.analysis := by
  cases serviceStep_cases h with
  | analysed hasked hrun => exact (RunRequest.run_outcome hok hrun).effect
  | @ingested payload key bars out hing =>
    refine ⟨.single ⟨.ingest payload key, ?_⟩, .unchanged⟩
    simp only [BarCall.run, hing]
  | polled hpoll => exact ⟨.refl, AnalysisDb.pendingSignals_effect hpoll⟩
  | reported hreport => exact ⟨.refl, AnalysisDb.executionReport_effect hreport⟩
  | kept hasked hout => exact ⟨.refl, .unchanged⟩

/-- The transition answers an analysis that is to be stored. -/
def Answers (settings : AppSettings) (payload : RunRequest) (around : Surroundings)
    (signal : SignalObject) (t : ServiceTransition) : Prop :=
  t.label.analysis settings.caseMap = some (payload, around) ∧ payload.persist = true ∧
    t.out = .signal signal

/-- The transition stores an analysis, and answers it unless the reload of the signal fails. -/
structure Stores (settings : AppSettings) (payload : RunRequest) (around : Surroundings)
    (t : ServiceTransition) : Prop where
  asked : t.label.analysis settings.caseMap = some (payload, around)
  persist : payload.persist = true
  out : ∃ signal, t.out = if around.refreshFails then .runError .refresh else .signal signal

/-- The ids that were handed to the EA. -/
def deliveredIds (ts : List ServiceTransition) : List String :=
  (ts.flatMap fun t => t.out.delivered).map (·.id)

/-! ## A session -/

/-- An application without keys and feeds, whose clock strings are the first ten minutes. -/
def demoSettings : AppSettings where
  fromisoformat s := ((List.range 10).find? fun n => s = toString n).map fun n => ⟨60000000 * n, some 0⟩
  caseMap := .ascii
  apiKey := ""
  float := demoProvider.float
  str := demoProvider.str
  twelveDataApiKey := ""
  calendarApiKey := ""
  fmpApiKey := ""
  newsRssFeeds := []
  anthropicApiKey := ""
  anthropicInstalled := false
  text := asciiText
  lower := id
  isoformat t := toString t

/-- The strongly bullish series, as the EA sends it. -/
def strongPayload : MT5Payload where
  symbol := "gold"
  timeframe := "M15"
  spread := .num 0
  bars := strongBullish.zipIdx.map fun (b, i) =>
    ⟨toString i, .num b.open_, .num b.high, .num b.low, .num b.close, .num 0⟩
  min_length := by decide
  max_length := by decide

/-- Nothing answers, and the minute is the tenth. -/
def demoSurroundings : Surroundings :=
  ⟨fun _ => none, fun _ => 600000000, none, none, 600000000, fun _ => none, fun _ => none, "r1", "s1",
    1, 2, false, false, false⟩

/-- The EA sends bars, the dashboard asks for an analysis, the EA fetches the signal and reports. -/
def demoSession : List ServiceRequest :=
  [.ingest strongPayload none, .getAnalysis "gold" demoSurroundings, .pendingSignals none none,
    .executionReport ⟨"s1", some 1, some (.num 20), some (.num 1), "filled", none⟩ none,
    .getAnalysisRun "r1"]

/-- The analysis of the session was answered. -/
def answeredDemo (t : ServiceTransition) : Bool :=
  match t.label, t.out with
  | .getAnalysis _ around, .signal _ => around.runId = "r1" ∧ around.signalId = "s1"
  | _, _ => false

theorem answers_of_answeredDemo {t : ServiceTransition} (h : answeredDemo t = true) :
    ∃ payload around signal, Answers demoSettings payload around signal t ∧ around.runId = "r1" ∧
      around.signalId = "s1" := by
  obtain ⟨pre, label, out, post⟩ := t
  cases label <;> cases out <;> simp only [answeredDemo, reduceCtorEq, decide_eq_true_eq] at h
  exact ⟨_, _, _, ⟨rfl, rfl, rfl⟩, h⟩

/-- The session stores an analysis, and hands its signal to the EA. -/
theorem demoSession_run : ∃ ts db, Sys.Run (serviceStep demoSettings) ServiceDb.empty ts db ∧
    (∃ t ∈ ts, answeredDemo t = true) ∧ deliveredIds ts = ["s1"] ∧ db.bars.rows.length = 10 ∧
    db.analysis.runs.rows.length = 1 := by
  exact Sys.exists_run (serviceStep demoSettings) ServiceDb.empty demoSession
    (fun ts db => (∃ t ∈ ts, answeredDemo t = true) ∧ deliveredIds ts = ["s1"] ∧
      db.bars.rows.length = 10 ∧ db.analysis.runs.rows.length = 1) (by decide +kernel)

/-! ## Runs -/

/-- What every request keeps. -/
structure ServiceInv (db : ServiceDb) : Prop where
  bars : OkStore db.bars
  analysis : StoreInv db.analysis

theorem ServiceInv.empty : ServiceInv ServiceDb.empty := ⟨List.forall_mem_nil _, .empty⟩

theorem ServiceInv.step {settings : AppSettings} {db db' : ServiceDb} {request : ServiceRequest}
    {response : ServiceResponse} (h : ServiceInv db)
    (hstep : serviceStep settings db request = some (db', response)) : ServiceInv db' := by
  obtain ⟨hbars, heffect⟩ := serviceStep_effect h.bars hstep
  exact ⟨hbars.ok h.bars, h.analysis.step heffect⟩

variable {settings : AppSettings} {ts : List ServiceTransition} {db : ServiceDb}

theorem ServiceInv.run {db₀ : ServiceDb} (h₀ : ServiceInv db₀)
    (h : Sys.Run (serviceStep settings) db₀ ts db) : ServiceInv db :=
  h.invariant (I := ServiceInv) h₀ fun _ _ _ _ _ hstep hI => hI.step hstep

/-- **Consistent tables.** In every state that the service reaches, the detections stored under a run
are those of its evidence, one signal is stored for it and repeats its plan, and no row names a run
that is not there. -/
theorem service_consistent (h : Sys.Run (serviceStep settings) ServiceDb.empty ts db) :
    (∀ run ∈ db.analysis.runs.rows, RunComplete db.analysis run) ∧ NoOrphans db.analysis := by
  have hinv := ServiceInv.empty.run h
  exact ⟨fun run hrun => hinv.analysis.runComplete hrun, hinv.analysis.noOrphans⟩

theorem demo_consistent : ∃ ts db, Sys.Run (serviceStep demoSettings) ServiceDb.empty ts db ∧
    db.analysis.runs.rows.length = 1 ∧
    (∀ run ∈ db.analysis.runs.rows, RunComplete db.analysis run) ∧ NoOrphans db.analysis := by
  obtain ⟨ts, db, hrun, -, -, -, hruns⟩ := demoSession_run
  exact ⟨ts, db, hrun, hruns, service_consistent hrun⟩

/-- The tables only grow after a transition. -/
theorem service_grows (h : Sys.Run (serviceStep settings) ServiceDb.empty ts db) :
    ∀ t ∈ ts, Grows t.post.analysis db.analysis ∧ t.post.bars.rows <+: db.bars.rows := by
  refine h.history (I := fun ts db => ∀ t ∈ ts, Grows t.post.analysis db.analysis ∧
    t.post.bars.rows <+: db.bars.rows) (List.forall_mem_nil _) ?_
  intro us s request response s' hrun hstep _ hI t ht
  obtain ⟨hbars, heffect⟩ := serviceStep_effect (ServiceInv.empty.run hrun).bars hstep
  rcases List.mem_append.mp ht with ht | ht
  · obtain ⟨hgrows, hprefix⟩ := hI t ht
    exact ⟨hgrows.trans heffect.grows, hprefix.trans hbars.prefix⟩
  · rw [List.mem_singleton.mp ht]
    exact ⟨.refl _, List.prefix_rfl⟩

/-- A stored run is found under its id. -/
theorem AnalysisDb.getAnalysisRun_eq_ok {db : AnalysisDb} {runId : String} {run : AnalysisRun} :
    db.getAnalysisRun runId = .ok run ↔ run ∈ db.runs.rows ∧ run.id = runId := by
  rw [← db.runs.find?_eq_some_iff]
  unfold AnalysisDb.getAnalysisRun
  cases db.runs.rows.find? fun run => run.id = runId <;> simp

/-- Rows that differ in their status at most. -/
theorem SignalRow.object_of_fixed {s s' : SignalRow} (h : s'.fixed = s.fixed) :
    s'.object = { s.object with status := some s'.status } := by
  obtain ⟨⟨_, _, _, _, _, _, _, _, _⟩, _, _, _, _, _, _, _, _, _, _, _, _⟩ := s
  obtain ⟨⟨_, _, _, _, _, _, _, _, _⟩, _, _, _, _, _, _, _, _, _, _, _, _⟩ := s'
  simp only [SignalRow.fixed, SignalRow.plan, Prod.mk.injEq, SignalPlan.mk.injEq] at h
  obtain ⟨rfl, ⟨rfl, rfl, rfl, rfl, rfl, rfl, rfl, rfl, rfl, rfl, rfl, rfl, rfl, rfl, rfl, rfl, rfl⟩,
    rfl, rfl⟩ := h
  rfl

/-- What is answered is stored. -/
theorem Answers.stores {payload : RunRequest} {around : Surroundings} {signal : SignalObject}
    {t : ServiceTransition} (h : Answers settings payload around signal t) (hok : OkStore t.pre.bars)
    (hstep : serviceStep settings t.pre t.label = some (t.post, t.out)) :
    Stores settings payload around t := by
  obtain ⟨ha, hpersist, hout⟩ := h
  refine ⟨ha, hpersist, ?_⟩
  have houtcome := outcome_of_step ha hok hstep
  generalize hresponse : t.out = response at houtcome
  generalize t.post = post at houtcome
  rw [hout] at hresponse
  cases houtcome with
  | failed bars hbars e he => cases hresponse
  | refused bars hbars inp hread result hresult hp => cases hresponse
  | persisted bars hbars inp hread result hresult events analysis run signal' hp hstored =>
    exact ⟨_, rfl⟩

/-- What the request leaves in the tables. -/
theorem Stores.stored {payload : RunRequest} {around : Surroundings} {t : ServiceTransition}
    (h : Stores settings payload around t) (hok : OkStore t.pre.bars)
    (hstep : serviceStep settings t.pre t.label = some (t.post, t.out)) :
    ∃ inp result events runs signals, ReadsStored settings payload t.pre.bars t.post.bars inp ∧
      Analysed settings payload inp result ∧ t.post.analysis =
        (payload.persistCall settings around events result).store t.pre.analysis runs signals ∧
      runs.rows = t.pre.analysis.runs.rows ++ [(payload.persistCall settings around events result).run] ∧
      signals.rows = t.pre.analysis.signals.rows ++
        [(payload.persistCall settings around events result).signal] ∧
      ∀ signal, t.out = .signal signal →
        signal = (payload.persistCall settings around events result).signal.object := by
  have houtcome := outcome_of_step h.asked hok hstep
  have hout := h.out
  generalize t.post = post at houtcome
  generalize t.out = response at houtcome hout
  cases houtcome with
  | failed bars hbars e he =>
    obtain ⟨signal, hout⟩ := hout
    split at hout
    · cases hout
      cases he
    · cases hout
  | refused bars hbars inp hread result hresult hp =>
    have hpersist := h.persist
    rw [hp] at hpersist
    cases hpersist
  | persisted bars hbars inp hread result hresult events analysis run signal' hp hstored =>
    obtain ⟨-, rfl, runs, signals, rfl, hruns, hsignals⟩ := AnalysisDb.persistAnalysis_eq_ok hstored
    refine ⟨inp, result, events, runs, signals, hread, hresult, rfl, hruns, hsignals,
      fun signal hsignal => ?_⟩
    split at hsignal
    · cases hsignal
    · exact (ServiceResponse.signal.inj hsignal).symm

/-- **Answered analyses stay.** Whatever comes after an analysis that was answered and stored, its run
is found under the id of the request, its bars and detections are kept, and a row with its signal is
there, which differs from the response at most in a later status. A run that was found once is found
again. -/
theorem service_history (h : Sys.Run (serviceStep settings) ServiceDb.empty ts db) :
    (∀ t ∈ ts, Grows t.post.analysis db.analysis ∧ t.post.bars.rows <+: db.bars.rows) ∧
    (∀ t ∈ ts, ∀ runId run, t.label = .getAnalysisRun runId → t.out = .run run →
      db.analysis.getAnalysisRun runId = .ok run) ∧
    ∀ t ∈ ts, ∀ payload around signal, Answers settings payload around signal t →
      ∃ run row, db.analysis.getAnalysisRun around.runId = .ok run ∧ row ∈ db.analysis.signals.rows ∧
        row.id = around.signalId ∧ row.plan = run.plan ∧
        row.object = { signal with status := some row.status } := by
  have hgrows := service_grows h
  refine ⟨hgrows, fun t ht runId run hlabel hout => ?_, fun t ht payload around signal ha => ?_⟩
  · obtain ⟨as, bs, rfl⟩ := List.append_of_mem ht
    have hstep := h.cut.2
    rw [hlabel, hout, serviceStep] at hstep
    split at hstep
    · rename_i found hfound
      obtain ⟨hpost, hrun⟩ := Prod.mk.inj (Option.some.inj hstep)
      obtain rfl := ServiceResponse.run.inj hrun
      obtain ⟨hmem, hid⟩ := AnalysisDb.getAnalysisRun_eq_ok.mp hfound
      rw [hpost] at hmem
      exact AnalysisDb.getAnalysisRun_eq_ok.mpr ⟨(hgrows t ht).1.runs.subset hmem, hid⟩
    · cases (Prod.mk.inj (Option.some.inj hstep)).2
  · obtain ⟨as, bs, rfl⟩ := List.append_of_mem ht
    have hok := (ServiceInv.empty.run h.cut.1).bars
    obtain ⟨inp, result, events, runs, signals, -, -, hpost, hruns, hsignals, hout⟩ :=
      (ha.stores hok h.cut.2).stored hok h.cut.2
    obtain rfl := hout signal ha.2.2
    generalize hcall : payload.persistCall settings around events result = call at *
    obtain ⟨hgrow, -⟩ := hgrows t ht
    rw [hpost] at hgrow
    have hrun : call.run ∈ db.analysis.runs.rows := by
      refine hgrow.runs.subset ?_
      simp only [PersistCall.store, hruns, List.mem_append, List.mem_singleton, or_true]
    obtain ⟨row, hrow, hfixed, -⟩ := hgrow.status call.signal (by
      simp only [PersistCall.store, hsignals, List.mem_append, List.mem_singleton, or_true])
    refine ⟨call.run, row, AnalysisDb.getAnalysisRun_eq_ok.mpr ⟨hrun, ?_⟩, hrow, ?_, ?_,
      SignalRow.object_of_fixed hfixed⟩
    · rw [← hcall]
      rfl
    · rw [show row.id = call.signal.id from congrArg Prod.fst hfixed, ← hcall]
      rfl
    · rw [← call.signal_plan]
      exact congrArg (fun f => f.2.1) hfixed

theorem demo_history : ∃ ts db, Sys.Run (serviceStep demoSettings) ServiceDb.empty ts db ∧
    ∃ run row, db.analysis.getAnalysisRun "r1" = .ok run ∧ row ∈ db.analysis.signals.rows ∧
      row.id = "s1" ∧ row.plan = run.plan := by
  obtain ⟨ts, db, hrun, ⟨t, ht, hdemo⟩, -⟩ := demoSession_run
  obtain ⟨payload, around, signal, hanswers, hrunId, hsignalId⟩ := answers_of_answeredDemo hdemo
  obtain ⟨run, row, hfound, hrow, hid, hplan, -⟩ :=
    (service_history hrun).2.2 t ht payload around signal hanswers
  rw [hrunId] at hfound
  rw [hsignalId] at hid
  exact ⟨ts, db, hrun, run, row, hfound, hrow, hid, hplan⟩

/-! ## Refinement -/

/-- Calls of the writers are a run of theirs. -/
theorem Written.run {env : ProviderEnv} {s₀ s s' : BarStore} (h : Written env s s')
    (hs : ∃ us, Sys.Run (barStep env) s₀ us s) : ∃ us, Sys.Run (barStep env) s₀ us s' := by
  induction h with
  | refl => exact hs
  | tail _ hcall ih =>
    obtain ⟨us, hrun⟩ := ih
    obtain ⟨call, rfl⟩ := hcall
    exact ⟨_, hrun.snoc rfl⟩

/-- The response to the EA. -/
def eaResponse (response : Except ApiError SignalResponse) : Option ServiceResponse :=
  match response with
  | .ok (.pending out) => some (.pending out)
  | .ok (.reported out) => some (.reported out)
  | .ok (.persisted _) => none
  | .error e => some (.apiError e)

/-- The transition works on the tables of the EA: a request of the EA, or an analysis that is stored. -/
def seenByEA (cm : CaseMap) (t : ServiceTransition) : Bool :=
  match t.label, t.label.analysis cm, t.out with
  | .pendingSignals _ _, _, _ => true
  | .executionReport _ _, _, _ => true
  | _, some (payload, _), .signal _ => payload.persist
  | _, some _, .runError .refresh => true
  | _, _, _ => false

/-- An analysis is seen when it is stored: its answer is a signal, or was lost at the reload. -/
theorem seenByEA_iff {cm : CaseMap} {t : ServiceTransition} {payload : RunRequest}
    {around : Surroundings} (ha : t.label.analysis cm = some (payload, around)) :
    seenByEA cm t = true ↔ (payload.persist = true ∧ ∃ signal, t.out = .signal signal) ∨
      t.out = .runError .refresh := by
  unfold seenByEA
  cases hl : t.label <;> rw [hl] at ha <;> simp only [ServiceRequest.analysis, reduceCtorEq] at ha
  all_goals
    obtain ⟨rfl, rfl⟩ := Prod.mk.inj (Option.some.inj ha)
    simp only [ServiceRequest.analysis]
    cases t.out with
    | signal signal => simp
    | runError e => cases e <;> simp
    | _ => simp

/-- The transition `u` of the signal requests does, on the tables of the EA, what `t` does. -/
inductive Mirrors (settings : AppSettings) (t : ServiceTransition) : SignalTransition → Prop
  | stored (payload : RunRequest) (around : Surroundings) (result : AnalysisResult)
      (h : Stores settings payload around t) :
      Mirrors settings t ⟨t.pre.analysis.signalDb,
        .persistAnalysis around.signalId around.signalCreatedAt (payload.canonical settings) result,
        .ok (.persisted (signalOf around.signalId around.signalCreatedAt (payload.canonical settings)
          result)), t.post.analysis.signalDb⟩
  | polled (symbol xMt5ApiKey : Option String) (response : Except ApiError SignalResponse)
      (hlabel : t.label = .pendingSignals symbol xMt5ApiKey) (hout : some t.out = eaResponse response) :
      Mirrors settings t ⟨t.pre.analysis.signalDb, .pendingSignals symbol xMt5ApiKey, response,
        t.post.analysis.signalDb⟩
  | reported (report : ExecutionReport) (xMt5ApiKey : Option String)
      (response : Except ApiError SignalResponse)
      (hlabel : t.label = .executionReport report xMt5ApiKey)
      (hout : some t.out = eaResponse response) :
      Mirrors settings t ⟨t.pre.analysis.signalDb, .executionReport report xMt5ApiKey, response,
        t.post.analysis.signalDb⟩

/-- A poll of the service is a poll of the queue. -/
theorem mirrors_poll {settings : AppSettings} {t : ServiceTransition} {symbol key : Option String}
    (hlabel : t.label = .pendingSignals symbol key)
    (hstep : serviceStep settings t.pre t.label = some (t.post, t.out)) :
    ∃ u, Mirrors settings t u ∧ u.pre = t.pre.analysis.signalDb ∧ u.post = t.post.analysis.signalDb ∧
      signalStep settings.toMT5Env u.pre u.label = some (u.post, u.out) := by
  have hqueue := AnalysisDb.queue_pendingSignals settings.toMT5Env symbol key t.pre.analysis
  rw [hlabel, serviceStep] at hstep
  cases hpoll : t.pre.analysis.pendingSignals settings.toMT5Env symbol key with
  | error e =>
    simp only [hpoll] at hstep
    obtain ⟨hpost, hout⟩ := Prod.mk.inj (Option.some.inj hstep)
    rw [hpoll] at hqueue
    refine ⟨_, .polled symbol key (.error e) hlabel (by rw [← hout]; rfl), rfl, rfl, ?_⟩
    simp only [signalStep, signalHandle, AnalysisDb.signalDb, ← hqueue, Except.map, ← hpost]
  | ok polled =>
    obtain ⟨analysis, out⟩ := polled
    simp only [hpoll] at hstep
    obtain ⟨hpost, hout⟩ := Prod.mk.inj (Option.some.inj hstep)
    have hexec : analysis.executions = t.pre.analysis.executions := by
      unfold AnalysisDb.pendingSignals at hpoll
      split at hpoll
      · cases hpoll
      · cases hpoll
        rfl
    rw [hpoll] at hqueue
    refine ⟨_, .polled symbol key (.ok (.pending out)) hlabel (by rw [← hout]; rfl), rfl, rfl, ?_⟩
    simp only [signalStep, signalHandle, AnalysisDb.signalDb, ← hqueue, Except.map, ← hpost, hexec]

/-- A report to the service is a report to the signals. -/
theorem mirrors_report {settings : AppSettings} {t : ServiceTransition} {report : ExecutionReport}
    {key : Option String} (hlabel : t.label = .executionReport report key)
    (hstep : serviceStep settings t.pre t.label = some (t.post, t.out)) :
    ∃ u, Mirrors settings t u ∧ u.pre = t.pre.analysis.signalDb ∧ u.post = t.post.analysis.signalDb ∧
      signalStep settings.toMT5Env u.pre u.label = some (u.post, u.out) := by
  have hdb := AnalysisDb.signalDb_executionReport settings.toMT5Env report key t.pre.analysis
  rw [hlabel, serviceStep] at hstep
  cases hreport : t.pre.analysis.executionReport settings.toMT5Env report key with
  | error e =>
    simp only [hreport] at hstep
    obtain ⟨hpost, hout⟩ := Prod.mk.inj (Option.some.inj hstep)
    rw [hreport] at hdb
    refine ⟨_, .reported report key (.error e) hlabel (by rw [← hout]; rfl), rfl, rfl, ?_⟩
    simp only [signalStep, signalHandle, ← hdb, Except.map, ← hpost]
  | ok reported =>
    obtain ⟨analysis, out⟩ := reported
    simp only [hreport] at hstep
    obtain ⟨hpost, hout⟩ := Prod.mk.inj (Option.some.inj hstep)
    rw [hreport] at hdb
    refine ⟨_, .reported report key (.ok (.reported out)) hlabel (by rw [← hout]; rfl), rfl, rfl, ?_⟩
    simp only [signalStep, signalHandle, ← hdb, Except.map, ← hpost]

/-- A stored analysis is a new signal. -/
theorem mirrors_stored {settings : AppSettings} {t : ServiceTransition} {payload : RunRequest}
    {around : Surroundings} (h : Stores settings payload around t) (hok : OkStore t.pre.bars)
    (hstep : serviceStep settings t.pre t.label = some (t.post, t.out)) :
    ∃ u, Mirrors settings t u ∧ u.pre = t.pre.analysis.signalDb ∧ u.post = t.post.analysis.signalDb ∧
      signalStep settings.toMT5Env u.pre u.label = some (u.post, u.out) := by
  obtain ⟨inp, result, events, runs, signals, -, -, hpost, -, hsignals, -⟩ := h.stored hok hstep
  refine ⟨_, .stored payload around result h, rfl, rfl, ?_⟩
  have hcommit : t.pre.analysis.signalDb.signals.commit [signalOf around.signalId
      around.signalCreatedAt (payload.canonical settings) result] =
        some t.post.analysis.signalDb.signals := by
    refine UniqueTable.commit_eq_some.mpr ?_
    simp only [hpost, AnalysisDb.signalDb, AnalysisDb.queue_rows, PersistCall.store, hsignals,
      List.map_append, List.map_singleton, RunRequest.persistCall_signal]
  simp only [signalStep, signalHandle, MarketKill3r.persistAnalysis, hcommit]
  rw [hpost]
  rfl

/-- A transition is mirrored, or leaves the tables of the EA alone. -/
theorem mirrors_or_silent {settings : AppSettings} {t : ServiceTransition} (hok : OkStore t.pre.bars)
    (hstep : serviceStep settings t.pre t.label = some (t.post, t.out)) :
    (seenByEA settings.caseMap t = true ∧ ∃ u, Mirrors settings t u ∧
        u.pre = t.pre.analysis.signalDb ∧ u.post = t.post.analysis.signalDb ∧
        signalStep settings.toMT5Env u.pre u.label = some (u.post, u.out)) ∨
      (seenByEA settings.caseMap t = false ∧
        t.post.analysis.signalDb = t.pre.analysis.signalDb) := by
  cases ha : t.label.analysis settings.caseMap with
  | some asked =>
    obtain ⟨payload, around⟩ := asked
    have hseen := seenByEA_iff ha
    have houtcome := outcome_of_step ha hok hstep
    have hmirrored : Stores settings payload around t → ∃ u, Mirrors settings t u ∧
        u.pre = t.pre.analysis.signalDb ∧ u.post = t.post.analysis.signalDb ∧
        signalStep settings.toMT5Env u.pre u.label = some (u.post, u.out) :=
      fun h => mirrors_stored h hok hstep
    generalize hpost : t.post = post at houtcome hmirrored
    generalize hout : t.out = out at houtcome hseen
    cases houtcome with
    | failed bars hbars e he =>
      refine Or.inr ⟨Bool.eq_false_iff.mpr fun h => ?_, rfl⟩
      obtain ⟨-, signal, hsignal⟩ | hrefresh := hseen.mp h
      · cases hsignal
      · cases he <;> cases hrefresh
    | persisted bars hbars inp hread result hresult events analysis run signal hp hstored =>
      refine Or.inl ⟨hseen.mpr ?_, hmirrored ⟨ha, hp, _, hout⟩⟩
      cases around.refreshFails with
      | false => exact Or.inl ⟨hp, signal.object, rfl⟩
      | true => exact Or.inr rfl
    | refused bars hbars inp hread result hresult hp =>
      refine Or.inr ⟨Bool.eq_false_iff.mpr fun h => ?_, rfl⟩
      obtain ⟨-, signal, hsignal⟩ | hrefresh := hseen.mp h
      · cases hsignal
      · cases hrefresh
  | none =>
    obtain ⟨pre, label, out, post⟩ := t
    dsimp only at ha hstep
    cases serviceStep_cases hstep with
    | analysed hasked hrun =>
      rw [ha] at hasked
      cases hasked
    | ingested hing => exact Or.inr ⟨rfl, rfl⟩
    | polled hpoll => exact Or.inl ⟨rfl, mirrors_poll rfl hstep⟩
    | reported hreport => exact Or.inl ⟨rfl, mirrors_report rfl hstep⟩
    | kept hasked hout =>
      cases label with
      -- A poll or a report that raises is mirrored as well.
      | pendingSignals symbol key => exact Or.inl ⟨rfl, mirrors_poll rfl hstep⟩
      | executionReport report key => exact Or.inl ⟨rfl, mirrors_report rfl hstep⟩
      | runAnalysis payload around => cases ha
      | getAnalysis symbol around => cases ha
      | ingest payload key => exact Or.inr ⟨rfl, rfl⟩
      | getAnalysisRun runId => exact Or.inr ⟨rfl, rfl⟩
      | listSignals symbol limit => exact Or.inr ⟨rfl, rfl⟩
      | chartBars symbol timeframe limit => exact Or.inr ⟨rfl, rfl⟩

/-- **Refinement.** On the bars, the service is a run of the writers; on the tables of the EA, it is a
run of the signal requests: its transitions that work on these tables are mirrored, in their order and
with their responses, and the others leave the tables alone. -/
theorem service_refines (h : Sys.Run (serviceStep settings) ServiceDb.empty ts db) :
    (∃ us, Sys.Run (barStep settings.toProviderEnv) UniqueTable.empty us db.bars) ∧
    ∃ us, List.Forall₂ (Mirrors settings) (ts.filter (seenByEA settings.caseMap)) us ∧
      Sys.Run (signalStep settings.toMT5Env) SignalDb.empty us db.analysis.signalDb := by
  refine h.history (I := fun ts db =>
    (∃ us, Sys.Run (barStep settings.toProviderEnv) UniqueTable.empty us db.bars) ∧
    ∃ us, List.Forall₂ (Mirrors settings) (ts.filter (seenByEA settings.caseMap)) us ∧
      Sys.Run (signalStep settings.toMT5Env) SignalDb.empty us db.analysis.signalDb)
    ⟨⟨[], .nil⟩, [], .nil, .nil⟩ ?_
  rintro past s request response s' hrun hstep - ⟨hbars, us, hmirror, hsignals⟩
  have hok := (ServiceInv.empty.run hrun).bars
  refine ⟨(serviceStep_effect hok hstep).1.run hbars, ?_⟩
  rw [List.filter_append]
  obtain ⟨hseen, ⟨pre, label, out, post⟩, hu, rfl, rfl, husignal⟩ | ⟨hseen, hsame⟩ :=
    mirrors_or_silent (t := ⟨s, request, response, s'⟩) hok hstep
  · rw [List.filter_cons_of_pos hseen]
    exact ⟨_, List.rel_append hmirror (.cons hu .nil), hsignals.snoc husignal⟩
  · rw [List.filter_cons_of_neg (by simp [hseen]), List.filter_nil, List.append_nil]
    dsimp only at hsame
    rw [hsame]
    exact ⟨us, hmirror, hsignals⟩

theorem demo_refines : ∃ ts db us, Sys.Run (serviceStep demoSettings) ServiceDb.empty ts db ∧
    deliveredIds ts = ["s1"] ∧
    List.Forall₂ (Mirrors demoSettings) (ts.filter (seenByEA demoSettings.caseMap)) us ∧
    Sys.Run (signalStep demoSettings.toMT5Env) SignalDb.empty us db.analysis.signalDb := by
  obtain ⟨ts, db, hrun, -, hids, -⟩ := demoSession_run
  obtain ⟨us, hmirror, hsignals⟩ := (service_refines hrun).2
  exact ⟨ts, db, us, hrun, hids, hmirror, hsignals⟩

end MarketKill3r
