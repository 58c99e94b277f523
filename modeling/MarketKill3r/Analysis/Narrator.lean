import MarketKill3r.Analysis.Delivered

/-!
# The narrator (`app/ai/reasoning.py`)

`generate_narrative` is an optional enhancement: the score and the plan never depend on it. What it
writes goes into the column `reasoning` of a run and of its signal. Erasure replaces these texts by an
empty one, and the service with a narrator is in lockstep with the service without.

* `ServiceDb.erase`, `ServiceResponse.erase`: the texts of the narrator are erased.
* `AppSettings.silent`, `ServiceRequest.silent`: the narrator is switched off.
* `serviceStep_erase`: **a step and the step without a narrator have the same erasure.**
* `narrator_noninterference`: **two services with different narrators go through the same states and
  responses up to erasure, and hand the same signals to the EA.**
-/

namespace MarketKill3r

/-! ## Erasure -/

def AnalysisRun.erase (run : AnalysisRun) : AnalysisRun := { run with reasoning := "" }

def SignalRow.erase (s : SignalRow) : SignalRow := { s with reasoning := some "" }

def SignalObject.erase (s : SignalObject) : SignalObject := { s with reasoning := some "" }

def AnalysisDb.erase (db : AnalysisDb) : AnalysisDb :=
  { db with
    runs := db.runs.update AnalysisRun.erase fun _ => rfl
    signals := db.signals.update SignalRow.erase fun _ => rfl }

def ServiceDb.erase (db : ServiceDb) : ServiceDb := { db with analysis := db.analysis.erase }

def ServiceResponse.erase : ServiceResponse → ServiceResponse
  | .signal s => .signal s.erase
  | .run r => .run r.erase
  | .signals rows => .signals (rows.map SignalRow.erase)
  | response => response

/-- What the EA is told has no text of the narrator. -/
theorem ServiceResponse.erase_delivered (response : ServiceResponse) :
    response.erase.delivered = response.delivered := by
  cases response <;> rfl

/-! ## Silence -/

def AppSettings.silent (settings : AppSettings) : AppSettings :=
  { settings with anthropicApiKey := "", anthropicInstalled := false }

def Surroundings.silent (around : Surroundings) : Surroundings :=
  { around with reply := fun _ => none }

def ServiceRequest.silent : ServiceRequest → ServiceRequest
  | .runAnalysis payload around => .runAnalysis payload around.silent
  | .getAnalysis symbol around => .getAnalysis symbol around.silent
  | request => request

/-! ## The tables -/

namespace AnalysisDb

theorem queue_erase (db : AnalysisDb) : db.erase.queue = db.queue := by
  refine UniqueTable.ext_rows ?_
  simp only [queue_rows, erase, UniqueTable.update, List.map_map]
  rfl

theorem updateSignals_erase (db : AnalysisDb) (f : Signal → Signal) (hf : ∀ s, (f s).id = s.id) :
    db.erase.updateSignals f hf = (db.updateSignals f hf).erase := by
  have hsignals : (db.erase.updateSignals f hf).signals = (db.updateSignals f hf).erase.signals := by
    refine UniqueTable.ext_rows ?_
    simp only [erase, updateSignals, UniqueTable.update, List.map_map]
    rfl
  unfold updateSignals erase at *
  rw [AnalysisDb.mk.injEq]
  exact ⟨rfl, rfl, rfl, rfl, rfl, rfl, rfl, hsignals, rfl⟩

/-- What is erased stays so. -/
theorem erase_erase (db : AnalysisDb) : db.erase.erase = db.erase := by
  have hruns : db.erase.erase.runs = db.erase.runs := by
    refine UniqueTable.ext_rows ?_
    simp only [erase, UniqueTable.update, List.map_map]
    rfl
  have hsignals : db.erase.erase.signals = db.erase.signals := by
    refine UniqueTable.ext_rows ?_
    simp only [erase, UniqueTable.update, List.map_map]
    rfl
  rw [AnalysisDb.mk.injEq]
  exact ⟨hruns, rfl, rfl, rfl, rfl, rfl, rfl, hsignals, rfl⟩

theorem pendingSignals_erase (env : MT5Env) (symbol key : Option String) (db : AnalysisDb) :
    db.erase.pendingSignals env symbol key =
      (db.pendingSignals env symbol key).map fun r => (r.1.erase, r.2) := by
  unfold pendingSignals
  split
  · rfl
  · simp only [queue_erase, updateSignals_erase]
    rfl

theorem signals_erase_has (db : AnalysisDb) (id : String) :
    db.erase.signals.Has id ↔ db.signals.Has id := by
  rw [← queue_has, ← queue_has, queue_erase]

theorem executionReport_erase (env : MT5Env) (report : ExecutionReport) (key : Option String)
    (db : AnalysisDb) : db.erase.executionReport env report key =
      (db.executionReport env report key).map fun r => (r.1.erase, r.2) := by
  unfold executionReport
  split
  · rfl
  · by_cases hknown : db.signals.Has report.signalId
    · rw [if_pos hknown, if_pos ((db.signals_erase_has _).mpr hknown), setStatus,
        updateSignals_erase]
      rfl
    · rw [if_neg hknown, if_neg (mt (db.signals_erase_has _).mp hknown)]
      rfl

theorem listSignals_erase (cm : CaseMap) (symbol : Option String) (limit : Int) (db : AnalysisDb) :
    db.erase.listSignals cm symbol limit = (db.listSignals cm symbol limit).map SignalRow.erase := by
  have hrows : (db.erase.signals.rows.filter fun s => symbolMatches cm symbol s.toSignal) =
      (db.signals.rows.filter fun s => symbolMatches cm symbol s.toSignal).map SignalRow.erase := by
    simp only [erase, UniqueTable.update, List.filter_map]
    rfl
  unfold listSignals
  rw [hrows, List.map_take, List.map_insertionSort (fun s s' => s'.createdAt ≤ s.createdAt)
    (fun s s' => s'.createdAt ≤ s.createdAt) SignalRow.erase _ fun _ _ _ _ => Iff.rfl]

theorem getAnalysisRun_erase (runId : String) (db : AnalysisDb) :
    db.erase.getAnalysisRun runId = (db.getAnalysisRun runId).map AnalysisRun.erase := by
  have hfind : db.erase.runs.rows.find? (fun run => run.id = runId) =
      (db.runs.rows.find? fun run => run.id = runId).map AnalysisRun.erase := by
    simp only [erase, UniqueTable.update, List.find?_map]
    rfl
  unfold getAnalysisRun
  rw [hfind]
  cases db.runs.rows.find? fun run => run.id = runId <;> rfl

end AnalysisDb

theorem ServiceDb.erase_erase (db : ServiceDb) : db.erase.erase = db.erase :=
  congrArg (ServiceDb.mk db.bars) db.analysis.erase_erase

/-- The rows of a call without its narrative. -/
def PersistCall.erase (call : PersistCall) : PersistCall := { call with narrative := "" }

theorem insertRow_update {α κ : Type} {key : α → κ} [DecidableEq κ] (fails : Bool)
    (t : UniqueTable key) (f : α → α) (hf : ∀ x, key (f x) = key x) (row : α) :
    insertRow fails (t.update f hf) (f row) = (insertRow fails t row).map (·.update f hf) := by
  unfold insertRow
  split
  · rfl
  · exact t.commit_update f hf [row]

/-- On erased tables, a call without its narrative does what the call does. -/
theorem AnalysisDb.persistAnalysis_erase (call : PersistCall) (db : AnalysisDb) :
    db.erase.persistAnalysis call.erase =
      (db.persistAnalysis call).map fun r => (r.1.erase, r.2.1.erase, r.2.2.erase) := by
  have hruns : insertRow call.flushFails db.erase.runs call.erase.run =
      (insertRow call.flushFails db.runs call.run).map (·.update AnalysisRun.erase fun _ => rfl) :=
    insertRow_update call.flushFails db.runs AnalysisRun.erase (fun _ => rfl) call.run
  have hsignals : insertRow call.commitFails db.erase.signals call.erase.signal =
      (insertRow call.commitFails db.signals call.signal).map
        (·.update SignalRow.erase fun _ => rfl) :=
    insertRow_update call.commitFails db.signals SignalRow.erase (fun _ => rfl) call.signal
  unfold AnalysisDb.persistAnalysis
  rw [show call.erase.flushFails = call.flushFails from rfl,
    show call.erase.commitFails = call.commitFails from rfl, hruns, hsignals]
  cases insertRow call.flushFails db.runs call.run with
  | none => rfl
  | some runs =>
    cases insertRow call.commitFails db.signals call.signal with
    | none => rfl
    | some signals => rfl

/-! ## The request -/

/-- The state and the response of an analysis, erased. -/
def eraseRun (r : ServiceDb × Except RunError SignalObject) : ServiceDb × Except RunError SignalObject :=
  (r.1.erase, r.2.map SignalObject.erase)

section Request

variable (settings : AppSettings) (around : Surroundings) (payload : RunRequest)

theorem RunRequest.loadTimeframes_silent (tfs : List String) (store : BarStore) :
    payload.loadTimeframes settings.silent around.silent tfs store =
      payload.loadTimeframes settings around tfs store := by
  induction tfs generalizing store with
  | nil => rfl
  | cons tf tfs ih =>
    unfold RunRequest.loadTimeframes
    rw [show settings.silent.backfill around.silent = settings.backfill around from rfl,
      show around.silent.clock = around.clock from rfl,
      show payload.canonical settings.silent = payload.canonical settings from rfl]
    cases ensureRecentBars (settings.backfill around) (around.clock tf) (payload.canonical settings) tf
      payload.minimumBars payload.barLimit store with
    | error e => rfl
    | ok store =>
      dsimp only
      rw [show settings.silent.caseMap = settings.caseMap from rfl]
      simp only [ih]

theorem RunRequest.persistCall_silent (events : List EconomicEvent) (result : AnalysisResult) :
    (payload.persistCall settings.silent around.silent events result).erase =
      (payload.persistCall settings around events result).erase := by
  unfold RunRequest.persistCall PersistCall.erase
  dsimp only
  rfl

/-- What is reloaded is erased. -/
theorem Surroundings.refresh_erase (signal : SignalRow) :
    around.refresh signal.erase = (around.refresh signal).map SignalObject.erase := by
  unfold Surroundings.refresh
  split <;> rfl

/-- The erasure of a stored analysis. -/
theorem RunRequest.answer_persist (hpersist : payload.persist = true) (events : List EconomicEvent)
    (result : AnalysisResult) (db : ServiceDb) :
    eraseRun (payload.answer settings around events result db) =
      match db.erase.analysis.persistAnalysis
        (payload.persistCall settings around events result).erase with
      | .error e => (db.erase, .error e)
      | .ok (analysis, _, signal) => ({ db.erase with analysis := analysis }, around.refresh signal) := by
  unfold RunRequest.answer
  rw [if_pos hpersist, show db.erase.analysis = db.analysis.erase from rfl,
    AnalysisDb.persistAnalysis_erase]
  cases db.analysis.persistAnalysis (payload.persistCall settings around events result) with
  | error e => rfl
  | ok stored => exact congrArg (Prod.mk _) (around.refresh_erase stored.2.2).symm

/-- The end of a request: the narrator only writes the text. -/
theorem RunRequest.answer_silent (events : List EconomicEvent) (result : AnalysisResult)
    (db : ServiceDb) : eraseRun (payload.answer settings.silent around.silent events result db.erase) =
      eraseRun (payload.answer settings around events result db) := by
  have hdb := db.erase_erase
  cases hpersist : payload.persist with
  | false =>
    unfold RunRequest.answer eraseRun
    simp only [hpersist, hdb, Bool.false_eq_true, if_false]
    rfl
  | true =>
    rw [answer_persist _ _ _ hpersist, answer_persist _ _ _ hpersist, hdb, persistCall_silent]
    rfl

theorem RunRequest.input_silent (loaded correlated : List (String × List Bar))
    (events : List EconomicEvent) (blackout : Bool) :
    payload.input settings.silent around.silent loaded correlated events blackout =
      payload.input settings around loaded correlated events blackout := by
  unfold RunRequest.input
  rfl

theorem RunRequest.conclude_silent (loaded correlated : List (String × List Bar)) (db : ServiceDb) :
    eraseRun (payload.conclude settings.silent around.silent loaded correlated db.erase) =
      eraseRun (payload.conclude settings around loaded correlated db) := by
  have hdb := db.erase_erase
  unfold RunRequest.conclude
  rw [show settings.silent.calendar around.silent = settings.calendar around from rfl,
    show payload.currencies settings.silent = payload.currencies settings from rfl,
    show around.silent.calendarNow = around.calendarNow from rfl]
  cases calendarContext (settings.calendar around) payload.checkCalendarBlackout
      (payload.currencies settings) around.calendarNow with
  | error e => exact congrArg (·, Except.error _) hdb
  | ok context =>
    obtain ⟨events, blackout⟩ := context
    dsimp only
    rw [input_silent]
    cases analyzeMultiTimeframe
        (payload.input settings around loaded correlated events blackout) with
    | error e => exact congrArg (·, Except.error _) hdb
    | ok result => exact payload.answer_silent settings around events result db

/-- **A request and its narrator.** -/
theorem RunRequest.run_silent (db : ServiceDb) :
    (payload.run settings.silent around.silent db.erase).map eraseRun =
      (payload.run settings around db).map eraseRun := by
  unfold RunRequest.run
  rw [loadTimeframes_silent, show settings.silent.caseMap = settings.caseMap from rfl,
    show db.erase.bars = db.bars from rfl]
  cases payload.loadTimeframes settings around (payload.requestedTfs settings.caseMap) db.bars with
  | none => rfl
  | some loadedBars =>
    obtain ⟨bars, r⟩ := loadedBars
    have hdb := ServiceDb.erase_erase { db with bars := bars }
    cases r with
    | error e => exact congrArg (fun d => some (d, Except.error _)) hdb
    | ok loaded =>
      dsimp only
      rw [show payload.primaryBars settings.silent loaded = payload.primaryBars settings loaded
        from rfl, show payload.loadCorrelated settings.silent bars =
          payload.loadCorrelated settings bars from rfl]
      split
      · exact congrArg (fun d => some (d, Except.error _)) hdb
      · cases payload.loadCorrelated settings bars with
        | none => rfl
        | some correlated =>
          exact congrArg some
            (payload.conclude_silent settings around loaded correlated { db with bars := bars })

end Request

/-! ## The service -/

/-- The state and the response of a request, erased. -/
def eraseOut (r : ServiceDb × ServiceResponse) : ServiceDb × ServiceResponse := (r.1.erase, r.2.erase)

/-- The response model does not look at the text. -/
theorem runResponse_erase (r : Except RunError SignalObject) :
    runResponse (r.map SignalObject.erase) = (runResponse r).erase := by
  cases r with
  | error e => rfl
  | ok signal =>
    have hout : signal.erase.toOut.isSome = signal.toOut.isSome := by
      simp only [SignalObject.toOut, SignalObject.erase, Option.bind_eq_bind, Option.isSome_bind,
        Option.pure_def, Option.isSome_some]
    simp only [Except.map, runResponse, hout]
    split <;> rfl

theorem eraseOut_runResponse (o : Option (ServiceDb × Except RunError SignalObject)) :
    (o.bind fun r => some (r.1, runResponse r.2)).map eraseOut =
      (o.map eraseRun).map fun r => (r.1, runResponse r.2) := by
  cases o with
  | none => rfl
  | some r =>
    simp only [Option.bind_some, Option.map_some, eraseOut, eraseRun, runResponse_erase]

/-- **A step and its narrator.** -/
theorem serviceStep_silent (settings : AppSettings) (db : ServiceDb) (request : ServiceRequest) :
    (serviceStep settings.silent db.erase request.silent).map eraseOut =
      (serviceStep settings db request).map eraseOut := by
  have hdb := db.erase_erase
  cases request with
  | runAnalysis payload around =>
    simp only [serviceStep, ServiceRequest.silent, bind, pure]
    rw [eraseOut_runResponse, eraseOut_runResponse, RunRequest.run_silent]
  | getAnalysis symbol around =>
    simp only [serviceStep, ServiceRequest.silent, bind, pure]
    rw [eraseOut_runResponse, eraseOut_runResponse,
      show settings.silent.caseMap = settings.caseMap from rfl, RunRequest.run_silent]
  | ingest payload key =>
    simp only [serviceStep, ServiceRequest.silent]
    rw [show settings.silent.toMT5Env = settings.toMT5Env from rfl,
      show db.erase.bars = db.bars from rfl]
    cases ingest settings.toMT5Env payload key db.bars with
    | error e => exact congrArg (fun d => some (d, ServiceResponse.apiError e)) hdb
    | ok written =>
      exact congrArg (fun a => some (ServiceDb.mk written.1 a, ServiceResponse.ingested written.2))
        db.analysis.erase_erase
  | getAnalysisRun runId => 
    simp only [serviceStep, ServiceRequest.silent]
    rw [show db.erase.analysis = db.analysis.erase from rfl, AnalysisDb.getAnalysisRun_erase]
    cases db.analysis.getAnalysisRun runId with
    | error e => exact congrArg (fun d => some (d, ServiceResponse.runError e)) hdb
    | ok run => exact congrArg (fun d => some (d, ServiceResponse.run run.erase)) hdb
  | listSignals symbol limit =>
    simp only [serviceStep, ServiceRequest.silent]
    rw [show db.erase.analysis = db.analysis.erase from rfl,
      show settings.silent.caseMap = settings.caseMap from rfl, AnalysisDb.listSignals_erase]
    simp only [Option.map_some, eraseOut, ServiceResponse.erase, List.map_map, hdb]
    rfl
  | chartBars symbol timeframe limit =>
    exact congrArg (fun d => some (d, ServiceResponse.bars
      (MarketKill3r.chartBars settings.caseMap db.bars symbol timeframe limit))) hdb
  | pendingSignals symbol key =>
    simp only [serviceStep, ServiceRequest.silent]
    rw [show settings.silent.toMT5Env = settings.toMT5Env from rfl,
      show db.erase.analysis = db.analysis.erase from rfl, AnalysisDb.pendingSignals_erase]
    cases db.analysis.pendingSignals settings.toMT5Env symbol key with
    | error e => exact congrArg (fun d => some (d, ServiceResponse.apiError e)) hdb
    | ok polled =>
      exact congrArg (fun a => some (ServiceDb.mk db.bars a, ServiceResponse.pending polled.2))
        polled.1.erase_erase
  | executionReport report key =>
    simp only [serviceStep, ServiceRequest.silent]
    rw [show settings.silent.toMT5Env = settings.toMT5Env from rfl,
      show db.erase.analysis = db.analysis.erase from rfl, AnalysisDb.executionReport_erase]
    cases db.analysis.executionReport settings.toMT5Env report key with
    | error e => exact congrArg (fun d => some (d, ServiceResponse.apiError e)) hdb
    | ok reported =>
      exact congrArg (fun a => some (ServiceDb.mk db.bars a, ServiceResponse.reported reported.2))
        reported.1.erase_erase

/-- Two narrators, on states that differ in their texts. -/
theorem serviceStep_congr {settings settings' : AppSettings}
    (hsettings : settings'.silent = settings.silent) {db db' t : ServiceDb} {request m : ServiceRequest}
    {response : ServiceResponse} (hstep : serviceStep settings db request = some (db', response))
    (hdb : t.erase = db.erase) (hrequest : m.silent = request.silent) :
    ∃ t' response', serviceStep settings' t m = some (t', response') ∧ t'.erase = db'.erase ∧
      response'.erase = response.erase := by
  have herase : (serviceStep settings' t m).map eraseOut = some (eraseOut (db', response)) := by
    rw [← serviceStep_silent, hsettings, hdb, hrequest, serviceStep_silent, hstep, Option.map_some]
  obtain ⟨⟨t', response'⟩, hstep', heq⟩ := Option.map_eq_some_iff.mp herase
  exact ⟨t', response', hstep', (Prod.mk.inj heq).1, (Prod.mk.inj heq).2⟩

variable {ts : List ServiceTransition} {db : ServiceDb}

/-- **The narrator is an enhancement.** Take a run of the service, and the same requests to a service
that differs in the settings of the narrator, while every narrator replies what it likes. The second
service answers all of them; after every request, its tables and its response are those of the first
up to the texts of the narrator, and it hands the same signals to the EA. -/
theorem narrator_noninterference {settings settings' : AppSettings}
    (hsettings : settings'.silent = settings.silent)
    (h : Sys.Run (serviceStep settings) ServiceDb.empty ts db) {requests : List ServiceRequest}
    (hrequests : List.Forall₂ (fun t m => m.silent = t.label.silent) ts requests) :
    ∃ ts' db', Sys.Run (serviceStep settings') ServiceDb.empty ts' db' ∧
      ts'.map (·.label) = requests ∧ db'.erase = db.erase ∧
      List.Forall₂ (fun t t' => t'.out.erase = t.out.erase ∧ t'.post.erase = t.post.erase) ts ts' ∧
      ts'.map (·.out.delivered) = ts.map (·.out.delivered) := by
  obtain ⟨ts', db', hrun, hlabels, hdb, hpoints⟩ := h.lockstep
    (R := fun db db' => ServiceDb.erase db' = ServiceDb.erase db)
    (L := fun request m => ServiceRequest.silent m = ServiceRequest.silent request)
    (O := fun response response' => ServiceResponse.erase response' = ServiceResponse.erase response)
    rfl
    (fun s l o s' t m hstep hst hlm => serviceStep_congr hsettings hstep hst hlm)
    (List.forall₂_map_left_iff.mpr hrequests)
  refine ⟨ts', db', hrun, hlabels, hdb, hpoints, ?_⟩
  clear hrun hlabels hdb h hrequests
  induction hpoints with
  | nil => rfl
  | @cons t t' ts ts' hpoint hpoints ih =>
    rw [List.map_cons, List.map_cons, ih, ← ServiceResponse.erase_delivered, hpoint.1,
      ServiceResponse.erase_delivered]

/-- The request with another reply of the narrator. -/
def ServiceRequest.told (reply : NarrativePayload → Option (List (String × String))) :
    ServiceRequest → ServiceRequest
  | .runAnalysis payload around => .runAnalysis payload { around with reply := reply }
  | .getAnalysis symbol around => .getAnalysis symbol { around with reply := reply }
  | request => request

/-- The session, and the same session with a narrator that praises every plan. -/
theorem told_noninterference : ∃ ts ts' db db',
    Sys.Run (serviceStep demoSettings) ServiceDb.empty ts db ∧
    Sys.Run (serviceStep { demoSettings with anthropicApiKey := "key", anthropicInstalled := true })
      ServiceDb.empty ts' db' ∧
    ts'.map (·.label) = ts.map (·.label.told fun _ => some [("text", "A great plan.")]) ∧
    deliveredIds ts' = ["s1"] ∧ db'.erase = db.erase := by
  obtain ⟨ts, db, hrun, -, hids, -⟩ := demoSession_run
  have htold : List.Forall₂ (fun t m => ServiceRequest.silent m = t.label.silent) ts
      (ts.map (·.label.told fun _ => some [("text", "A great plan.")])) := by
    refine List.forall₂_map_right_iff.mpr (List.forall₂_same.mpr fun t _ => ?_)
    cases t.label <;> rfl
  have hsettings : AppSettings.silent
      { demoSettings with anthropicApiKey := "key", anthropicInstalled := true } =
        demoSettings.silent := rfl
  obtain ⟨ts', db', hrun', hlabels, hdb, -, hdelivered⟩ :=
    narrator_noninterference hsettings hrun htold
  refine ⟨ts, ts', db, db', hrun, hrun', hlabels, ?_, hdb⟩
  rw [← hids, deliveredIds, deliveredIds, List.flatMap_def, hdelivered, ← List.flatMap_def]

end MarketKill3r
