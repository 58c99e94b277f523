import MarketKill3r.Analysis.Records
import MarketKill3r.Lib.View

/-!
# What the analysis tables keep

* `StoreEffect`: everything that a request can do to the tables.
* `StoreInv`: the evidence tables are views of the runs, each run has one signal, which repeats its
  plan, and no row names a run that is not there. `StoreInv.step`: every effect keeps it.
* `Grows`: rows are only added, and of a row only the status of a signal changes, forwards;
  `StoreEffect.grows`.
-/

namespace MarketKill3r

/-! ## Effects -/

/-- Everything that a request can do to the tables. -/
inductive StoreEffect (db : AnalysisDb) : AnalysisDb → Prop
  | unchanged : StoreEffect db db
  | persisted (call : PersistCall) (runs : UniqueTable AnalysisRun.id)
      (signals : UniqueTable SignalRow.key) (hruns : runs.rows = db.runs.rows ++ [call.run])
      (hsignals : signals.rows = db.signals.rows ++ [call.signal]) :
      StoreEffect db (call.store db runs signals)
  | acknowledged (cm : CaseMap) (symbol : Option String) : StoreEffect db (db.updateSignals
      (Signal.acknowledge ((pendingSelect cm symbol db.queue).map (·.id))) (Signal.acknowledge_id _))
  | reported (report : ExecutionReport) (hknown : db.signals.Has report.signalId) :
      StoreEffect db { db.updateSignals (Signal.setStatus report.signalId report.signalStatus)
        (Signal.setStatus_id _ _) with executions := db.executions ++ [report.execution] }

theorem insertRow_eq_some {α κ : Type} {key : α → κ} [DecidableEq κ] {fails : Bool}
    {t t' : UniqueTable key} {row : α} (h : insertRow fails t row = some t') :
    fails = false ∧ t'.rows = t.rows ++ [row] := by
  unfold insertRow at h
  cases fails with
  | true => cases h
  | false => exact ⟨rfl, UniqueTable.commit_eq_some.mp h⟩

/-- **What `persist_analysis` does** when it returns. -/
theorem AnalysisDb.persistAnalysis_eq_ok {call : PersistCall} {db db' : AnalysisDb} {run : AnalysisRun}
    {signal : SignalRow} (h : db.persistAnalysis call = .ok (db', run, signal)) :
    run = call.run ∧ signal = call.signal ∧ ∃ runs signals, db' = call.store db runs signals ∧
      runs.rows = db.runs.rows ++ [call.run] ∧ signals.rows = db.signals.rows ++ [call.signal] := by
  unfold AnalysisDb.persistAnalysis at h
  cases hr : insertRow call.flushFails db.runs call.run with
  | none => rw [hr] at h; cases h
  | some runs =>
    rw [hr] at h
    cases hs : insertRow call.commitFails db.signals call.signal with
    | none => simp only [hs] at h; cases h
    | some signals =>
      simp only [hs] at h
      cases h
      exact ⟨rfl, rfl, runs, signals, rfl, (insertRow_eq_some hr).2, (insertRow_eq_some hs).2⟩

theorem AnalysisDb.persistAnalysis_effect {call : PersistCall} {db db' : AnalysisDb}
    {run : AnalysisRun} {signal : SignalRow}
    (h : db.persistAnalysis call = .ok (db', run, signal)) : StoreEffect db db' := by
  obtain ⟨-, -, runs, signals, rfl, hruns, hsignals⟩ := persistAnalysis_eq_ok h
  exact .persisted call runs signals hruns hsignals

theorem AnalysisDb.pendingSignals_effect {env : MT5Env} {symbol xMt5ApiKey : Option String}
    {db db' : AnalysisDb} {out : List PendingSignalOut}
    (h : db.pendingSignals env symbol xMt5ApiKey = .ok (db', out)) : StoreEffect db db' := by
  unfold AnalysisDb.pendingSignals at h
  split at h
  · cases h
  · cases h
    exact .acknowledged env.caseMap symbol

theorem AnalysisDb.executionReport_effect {env : MT5Env} {report : ExecutionReport}
    {xMt5ApiKey : Option String} {db db' : AnalysisDb} {out : ReportResponse}
    (h : db.executionReport env report xMt5ApiKey = .ok (db', out)) : StoreEffect db db' := by
  unfold AnalysisDb.executionReport at h
  split at h
  · cases h
  · split at h
    · rename_i hknown
      cases h
      exact .reported report hknown
    · cases h
      exact .unchanged

/-! ## The plan of a signal -/

/-- What `persist_analysis` writes of a signal, apart from its id and its defaults. -/
structure SignalPlan where
  analysisRunId : Option String
  symbol : String
  timeframe : String
  direction : SignalDirection
  confidence : ℚ
  setupStatus : String
  marketBias : String
  entryPrice : Option ℚ
  entryZoneLow : Option ℚ
  entryZoneHigh : Option ℚ
  invalidation : Option ℚ
  stopLoss : Option ℚ
  takeProfit : Option ℚ
  takeProfits : List ℚ
  riskReward : Option ℚ
  confluence : Option Evidence
  reasoning : Option String

def SignalRow.plan (s : SignalRow) : SignalPlan :=
  ⟨s.analysisRunId, s.symbol, s.timeframe, s.direction, s.confidence, s.setupStatus, s.marketBias,
    s.entryPrice, s.entryZoneLow, s.entryZoneHigh, s.invalidation, s.stopLoss, s.takeProfit,
    s.takeProfits, s.riskReward, s.confluence, s.reasoning⟩

/-- The direction of a signal for the direction of a run. -/
def signalDirectionOf (direction : String) : SignalDirection :=
  if direction = "bullish" then .bullish else if direction = "bearish" then .bearish else .noTrade

/-- The plan that a run stands for. -/
def AnalysisRun.plan (run : AnalysisRun) : SignalPlan where
  analysisRunId := some run.id
  symbol := run.symbol
  timeframe := run.primaryTimeframe
  direction := signalDirectionOf run.direction
  confidence := run.confidence
  setupStatus := run.status
  marketBias := run.marketBias
  entryPrice := do
    let low ← run.entryZoneLow
    let high ← run.entryZoneHigh
    pure ((low + high) / 2)
  entryZoneLow := run.entryZoneLow
  entryZoneHigh := run.entryZoneHigh
  invalidation := run.invalidation
  stopLoss := run.stopLoss
  takeProfit := run.takeProfits.head?
  takeProfits := run.takeProfits
  riskReward := run.riskReward
  confluence := run.evidence
  reasoning := some run.reasoning

/-- The signal of a call repeats the plan of its run. -/
theorem PersistCall.signal_plan (call : PersistCall) : call.signal.plan = call.run.plan := by
  have hdir : signalDirectionOf call.result.direction.value =
      call.result.direction.signalDirection := by
    cases call.result.direction <;> rfl
  simp only [SignalRow.plan, AnalysisRun.plan, PersistCall.signal, PersistCall.run, signalOf, hdir]
  cases call.result.entryZone <;> rfl

/-! ## The invariant -/

def AnalysisRun.structureRecords (run : AnalysisRun) : List StructureEventRecord :=
  MarketKill3r.structureRecords run.id run.symbol run.evidence

def AnalysisRun.gapRecords (run : AnalysisRun) : List FairValueGapRecord :=
  MarketKill3r.gapRecords run.id run.symbol run.evidence

def AnalysisRun.blockRecords (run : AnalysisRun) : List OrderBlockRecord :=
  MarketKill3r.blockRecords run.id run.symbol run.evidence

def AnalysisRun.sweepRecords (run : AnalysisRun) : List LiquiditySweepRecord :=
  MarketKill3r.sweepRecords run.id run.symbol run.evidence

/-- The evidence tables are views of the runs, and so are the plans of the signals. -/
structure StoreInv (db : AnalysisDb) : Prop where
  structureEvents : IsView AnalysisRun.structureRecords db.runs.rows db.structureEvents
  fairValueGaps : IsView AnalysisRun.gapRecords db.runs.rows db.fairValueGaps
  orderBlocks : IsView AnalysisRun.blockRecords db.runs.rows db.orderBlocks
  liquiditySweeps : IsView AnalysisRun.sweepRecords db.runs.rows db.liquiditySweeps
  signals : IsView (fun run => [AnalysisRun.plan run]) db.runs.rows
    (db.signals.rows.map SignalRow.plan)
  economicEvents : ∀ e ∈ db.economicEvents, db.runs.Has e.analysisRunId
  newsArticles : ∀ a ∈ db.newsArticles, db.runs.Has a.analysisRunId

theorem StoreInv.empty : StoreInv AnalysisDb.empty where
  structureEvents := .nil
  fairValueGaps := .nil
  orderBlocks := .nil
  liquiditySweeps := .nil
  signals := .nil
  economicEvents := List.forall_mem_nil _
  newsArticles := List.forall_mem_nil _

/-- An update of what the EA sees that only changes the status keeps the plans. -/
theorem AnalysisDb.updateSignals_plans (db : AnalysisDb) {f : Signal → Signal}
    (hf : ∀ s, (f s).id = s.id) (hplan : ∀ s, ∃ status, f s = { s with status := status }) :
    (db.updateSignals f hf).signals.rows.map SignalRow.plan =
      db.signals.rows.map SignalRow.plan := by
  simp only [updateSignals, UniqueTable.update, List.map_map]
  refine List.map_congr_left fun s _ => ?_
  obtain ⟨status, hs⟩ := hplan s.toSignal
  simp only [Function.comp_apply, SignalRow.lift, SignalRow.plan, hs]

theorem Signal.acknowledge_status (ids : List String) (s : Signal) :
    ∃ status, s.acknowledge ids = { s with status := status } := by
  unfold Signal.acknowledge
  split
  · exact ⟨_, rfl⟩
  · exact ⟨s.status, rfl⟩

theorem Signal.setStatus_status (id : String) (status : SignalStatus) (s : Signal) :
    ∃ status', s.setStatus id status = { s with status := status' } := by
  unfold Signal.setStatus
  split
  · exact ⟨_, rfl⟩
  · exact ⟨s.status, rfl⟩

/-- **Every effect keeps the invariant.** -/
theorem StoreInv.step {db db' : AnalysisDb} (h : StoreInv db) (he : StoreEffect db db') :
    StoreInv db' := by
  cases he with
  | unchanged => exact h
  | persisted call runs signals hruns hsignals =>
    have hhas : runs.Has call.runId := by
      rw [UniqueTable.Has, hruns]
      simp [PersistCall.run]
    have hview {χ : Type} {derive : AnalysisRun → List χ} {children : List χ}
        (hc : IsView derive db.runs.rows children) :
        IsView derive runs.rows (children ++ derive call.run) := by
      rw [hruns]
      exact hc.snoc call.run
    refine ⟨hview h.structureEvents, hview h.fairValueGaps, hview h.orderBlocks,
      hview h.liquiditySweeps, ?_, ?_, ?_⟩
    · simp only [PersistCall.store, hsignals, List.map_append, List.map_singleton,
        PersistCall.signal_plan]
      exact hview h.signals
    · intro e he
      rcases List.mem_append.mp he with he | he
      · exact (h.economicEvents e he).append hruns
      · obtain ⟨event, -, rfl⟩ := List.mem_map.mp he
        exact hhas
    · intro a ha
      rcases List.mem_append.mp ha with ha | ha
      · exact (h.newsArticles a ha).append hruns
      · obtain ⟨article, -, rfl⟩ := List.mem_map.mp ha
        exact hhas
  | acknowledged cm symbol =>
    refine { h with signals := ?_ }
    rw [AnalysisDb.updateSignals_plans _ _ (Signal.acknowledge_status _)]
    exact h.signals
  | reported report hknown =>
    refine { h with signals := ?_ }
    have hplans := db.updateSignals_plans (Signal.setStatus_id report.signalId report.signalStatus)
      (Signal.setStatus_status _ _)
    rw [hplans]
    exact h.signals

/-! ## What the tables say about a run -/

/-- The evidence rows that name the run are those of its evidence, and one signal names it, with its
plan. -/
structure RunComplete (db : AnalysisDb) (run : AnalysisRun) : Prop where
  structureEvents : db.structureEvents.filter (fun x => x.analysisRunId = run.id) =
    run.structureRecords
  fairValueGaps : db.fairValueGaps.filter (fun x => x.analysisRunId = run.id) = run.gapRecords
  orderBlocks : db.orderBlocks.filter (fun x => x.analysisRunId = run.id) = run.blockRecords
  liquiditySweeps : db.liquiditySweeps.filter (fun x => x.analysisRunId = run.id) =
    run.sweepRecords
  signals : ∃ s, db.signals.rows.filter (fun s => s.analysisRunId = some run.id) = [s] ∧
    s.plan = run.plan

/-- No row names a run that is not there. -/
structure NoOrphans (db : AnalysisDb) : Prop where
  structureEvents : ∀ x ∈ db.structureEvents, db.runs.Has x.analysisRunId
  fairValueGaps : ∀ x ∈ db.fairValueGaps, db.runs.Has x.analysisRunId
  orderBlocks : ∀ x ∈ db.orderBlocks, db.runs.Has x.analysisRunId
  liquiditySweeps : ∀ x ∈ db.liquiditySweeps, db.runs.Has x.analysisRunId
  economicEvents : ∀ x ∈ db.economicEvents, db.runs.Has x.analysisRunId
  newsArticles : ∀ x ∈ db.newsArticles, db.runs.Has x.analysisRunId
  signals : ∀ s ∈ db.signals.rows, ∃ id, s.analysisRunId = some id ∧ db.runs.Has id

/-- What holds of the row of every item holds of all evidence rows. -/
theorem forall_evidenceRecords {ρ ι : Type} {items : EvidenceJson → List ι} {row : String → ι → ρ}
    {p : ρ → Prop} (h : ∀ tf x, p (row tf x)) (evidence : Option Evidence) :
    ∀ y ∈ evidenceRecords items row evidence, p y := by
  intro y hy
  obtain ⟨d, -, hy⟩ := List.mem_flatMap.mp hy
  obtain ⟨x, -, rfl⟩ := List.mem_map.mp hy
  exact h d.1 x

theorem AnalysisRun.structureRecords_names (run : AnalysisRun) :
    ∀ x ∈ run.structureRecords, x.analysisRunId = run.id := by
  unfold AnalysisRun.structureRecords
  apply forall_evidenceRecords
  intros
  rfl

theorem AnalysisRun.gapRecords_names (run : AnalysisRun) :
    ∀ x ∈ run.gapRecords, x.analysisRunId = run.id := by
  unfold AnalysisRun.gapRecords
  apply forall_evidenceRecords
  intros
  rfl

theorem AnalysisRun.blockRecords_names (run : AnalysisRun) :
    ∀ x ∈ run.blockRecords, x.analysisRunId = run.id := by
  unfold AnalysisRun.blockRecords
  apply forall_evidenceRecords
  intros
  rfl

theorem AnalysisRun.sweepRecords_names (run : AnalysisRun) :
    ∀ x ∈ run.sweepRecords, x.analysisRunId = run.id := by
  unfold AnalysisRun.sweepRecords
  apply forall_evidenceRecords
  intros
  rfl

theorem StoreInv.runComplete {db : AnalysisDb} (h : StoreInv db) {run : AnalysisRun}
    (hrun : run ∈ db.runs.rows) : RunComplete db run where
  structureEvents := h.structureEvents.children_of AnalysisRun.structureRecords_names db.runs.nodup
    hrun
  fairValueGaps := h.fairValueGaps.children_of AnalysisRun.gapRecords_names db.runs.nodup hrun
  orderBlocks := h.orderBlocks.children_of AnalysisRun.blockRecords_names db.runs.nodup hrun
  liquiditySweeps := h.liquiditySweeps.children_of AnalysisRun.sweepRecords_names db.runs.nodup hrun
  signals := by
    have hkeys : (db.runs.rows.map fun run => some run.id).Nodup := by
      have hmap := db.runs.nodup.map (Option.some_injective _)
      rwa [List.map_map] at hmap
    have hnames : ∀ run : AnalysisRun, ∀ c ∈ [run.plan], SignalPlan.analysisRunId c = some run.id := by
      intro run c hc
      rw [List.mem_singleton.mp hc]
      rfl
    have hplans := h.signals.children_of hnames hkeys hrun
    rw [List.filter_map] at hplans
    obtain ⟨s, hs, hplan⟩ := List.map_eq_singleton_iff.mp hplans
    exact ⟨s, hs, hplan⟩

theorem StoreInv.noOrphans {db : AnalysisDb} (h : StoreInv db) : NoOrphans db := by
  have hhas : ∀ {id : String}, (∃ run ∈ db.runs.rows, run.id = id) → db.runs.Has id := by
    rintro id ⟨run, hrun, rfl⟩
    exact List.mem_map_of_mem hrun
  refine ⟨fun x hx => ?_, fun x hx => ?_, fun x hx => ?_, fun x hx => ?_, h.economicEvents,
    h.newsArticles, fun s hs => ?_⟩
  · exact hhas (h.structureEvents.has_parent AnalysisRun.structureRecords_names hx)
  · exact hhas (h.fairValueGaps.has_parent AnalysisRun.gapRecords_names hx)
  · exact hhas (h.orderBlocks.has_parent AnalysisRun.blockRecords_names hx)
  · exact hhas (h.liquiditySweeps.has_parent AnalysisRun.sweepRecords_names hx)
  · obtain ⟨run, hrun, hplan⟩ := h.signals.mem_iff.mp (List.mem_map_of_mem hs)
    refine ⟨run.id, ?_, hhas ⟨run, hrun, rfl⟩⟩
    exact congrArg SignalPlan.analysisRunId (List.mem_singleton.mp hplan)

/-! ## Growth -/

/-- The status that a signal may have later: once it has left the queue, it stays out. -/
def SignalStatus.MayBecome (s t : SignalStatus) : Prop :=
  t = s ∨ (s = .pending ∧ t = .acknowledged) ∨ t = .executed ∨ t = .rejected

theorem SignalStatus.MayBecome.trans {s t u : SignalStatus} (h : s.MayBecome t) (h' : t.MayBecome u) :
    s.MayBecome u := by
  unfold MayBecome at *
  cases s <;> cases t <;> cases u <;> simp at h h' ⊢

/-- What of a signal never changes: its id, its plan, when it was created and when it expires. -/
def SignalRow.fixed (s : SignalRow) : String × SignalPlan × Int × Option Int :=
  (s.id, s.plan, s.createdAt, s.expiresAt)

/-- Rows are added at the end, and of the earlier ones only the status of a signal changes. -/
structure Grows (db db' : AnalysisDb) : Prop where
  runs : db.runs.rows <+: db'.runs.rows
  structureEvents : db.structureEvents <+: db'.structureEvents
  fairValueGaps : db.fairValueGaps <+: db'.fairValueGaps
  orderBlocks : db.orderBlocks <+: db'.orderBlocks
  liquiditySweeps : db.liquiditySweeps <+: db'.liquiditySweeps
  economicEvents : db.economicEvents <+: db'.economicEvents
  newsArticles : db.newsArticles <+: db'.newsArticles
  executions : db.executions <+: db'.executions
  signals : db.signals.rows.map SignalRow.fixed <+: db'.signals.rows.map SignalRow.fixed
  status : ∀ s ∈ db.signals.rows, ∃ s' ∈ db'.signals.rows, s'.fixed = s.fixed ∧
    s.status.MayBecome s'.status

theorem Grows.refl (db : AnalysisDb) : Grows db db :=
  ⟨List.prefix_rfl, List.prefix_rfl, List.prefix_rfl, List.prefix_rfl, List.prefix_rfl,
    List.prefix_rfl, List.prefix_rfl, List.prefix_rfl, List.prefix_rfl,
    fun s hs => ⟨s, hs, rfl, Or.inl rfl⟩⟩

theorem Grows.trans {db db' db'' : AnalysisDb} (h : Grows db db') (h' : Grows db' db'') :
    Grows db db'' where
  runs := h.runs.trans h'.runs
  structureEvents := h.structureEvents.trans h'.structureEvents
  fairValueGaps := h.fairValueGaps.trans h'.fairValueGaps
  orderBlocks := h.orderBlocks.trans h'.orderBlocks
  liquiditySweeps := h.liquiditySweeps.trans h'.liquiditySweeps
  economicEvents := h.economicEvents.trans h'.economicEvents
  newsArticles := h.newsArticles.trans h'.newsArticles
  executions := h.executions.trans h'.executions
  signals := h.signals.trans h'.signals
  status s hs := by
    obtain ⟨t, ht, hfixed, hst⟩ := h.status s hs
    obtain ⟨u, hu, hfixed', hst'⟩ := h'.status t ht
    exact ⟨u, hu, hfixed'.trans hfixed, hst.trans hst'⟩

/-- An update that only changes the status. -/
theorem AnalysisDb.updateSignals_fixed (db : AnalysisDb) {f : Signal → Signal}
    (hf : ∀ s, (f s).id = s.id) (hplan : ∀ s, ∃ status, f s = { s with status := status }) :
    (∀ s : SignalRow, (s.lift f).fixed = s.fixed) ∧
      (db.updateSignals f hf).signals.rows.map SignalRow.fixed =
        db.signals.rows.map SignalRow.fixed := by
  have hfixed : ∀ s : SignalRow, (s.lift f).fixed = s.fixed := by
    intro s
    obtain ⟨status, hs⟩ := hplan s.toSignal
    simp only [SignalRow.lift, SignalRow.fixed, SignalRow.plan, hs]
  refine ⟨hfixed, ?_⟩
  simp only [updateSignals, UniqueTable.update, List.map_map]
  rw [show SignalRow.fixed ∘ SignalRow.lift f = SignalRow.fixed from funext hfixed]

/-- An update of the status that goes forwards. -/
theorem AnalysisDb.grows_updateSignals (db : AnalysisDb) {f : Signal → Signal}
    (hf : ∀ s, (f s).id = s.id) (hplan : ∀ s, ∃ status, f s = { s with status := status })
    (hstatus : ∀ s ∈ db.signals.rows, s.status.MayBecome (f s.toSignal).status) :
    Grows db (db.updateSignals f hf) := by
  obtain ⟨hrow, hfixed⟩ := db.updateSignals_fixed hf hplan
  refine { Grows.refl db with signals := ?_, status := fun s hs => ?_ }
  · rw [hfixed]
  · exact ⟨s.lift f, List.mem_map_of_mem hs, hrow s, hstatus s hs⟩

/-- A poll only selects pending signals. -/
theorem acknowledge_mayBecome {db : AnalysisDb} {cm : CaseMap} {symbol : Option String}
    {s : SignalRow} (hs : s ∈ db.signals.rows) : s.status.MayBecome
      (s.toSignal.acknowledge ((pendingSelect cm symbol db.queue).map (·.id))).status := by
  unfold Signal.acknowledge
  split
  · rename_i hmem
    obtain ⟨t, ht, hid⟩ := List.mem_map.mp hmem
    have hsel := List.mem_of_mem_take ht
    rw [List.mem_insertionSort, List.mem_filter, Bool.and_eq_true] at hsel
    have hts : t = s.toSignal := List.inj_on_of_nodup_map db.queue.nodup hsel.1
      (List.mem_map_of_mem hs) hid
    have heligible := hsel.2.1
    rw [hts] at heligible
    simp only [Signal.eligible, Bool.and_eq_true, decide_eq_true_eq] at heligible
    exact Or.inr (Or.inl ⟨heligible.1.1, rfl⟩)
  · exact Or.inl rfl

theorem setStatus_mayBecome (report : ExecutionReport) (s : Signal) : s.status.MayBecome
    (s.setStatus report.signalId report.signalStatus).status := by
  unfold Signal.setStatus
  split
  · unfold ExecutionReport.signalStatus
    split
    · exact Or.inr (Or.inr (Or.inl rfl))
    · exact Or.inr (Or.inr (Or.inr rfl))
  · exact Or.inl rfl

/-- **Every effect lets the tables grow.** -/
theorem StoreEffect.grows {db db' : AnalysisDb} (h : StoreEffect db db') : Grows db db' := by
  cases h with
  | unchanged => exact .refl db
  | persisted call runs signals hruns hsignals =>
    refine ⟨?_, List.prefix_append _ _, List.prefix_append _ _, List.prefix_append _ _,
      List.prefix_append _ _, List.prefix_append _ _, List.prefix_append _ _, List.prefix_rfl, ?_,
      fun s hs => ⟨s, ?_, rfl, Or.inl rfl⟩⟩
    · exact ⟨[call.run], hruns.symm⟩
    · simp only [PersistCall.store, hsignals, List.map_append]
      exact List.prefix_append _ _
    · simp only [PersistCall.store, hsignals]
      exact List.mem_append_left _ hs
  | acknowledged cm symbol =>
    exact db.grows_updateSignals _ (Signal.acknowledge_status _) fun s hs => acknowledge_mayBecome hs
  | reported report hknown =>
    have hgrows := db.grows_updateSignals (Signal.setStatus_id report.signalId report.signalStatus)
      (Signal.setStatus_status _ _) fun s _ => setStatus_mayBecome report s.toSignal
    exact { hgrows with executions := List.prefix_append _ _ }

end MarketKill3r
