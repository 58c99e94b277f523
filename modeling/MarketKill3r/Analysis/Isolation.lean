import MarketKill3r.Analysis.Service
import MarketKill3r.Market.Isolation

/-!
# Symbols do not disturb each other

Charts, analyses, polls and reports about some symbols share their tables with those about all others.
`own` says which symbols somebody works with.

* `ServiceDb.part`: what the tables hold of these symbols.
* `ownPart`: the requests about them, as somebody sees them who has these symbols alone.
* `symbol_isolation`: **they are a run of their own**, with the responses that they had.
-/

namespace MarketKill3r

variable {own : String → Bool}

/-! ## The tables -/

namespace AnalysisDb

/-- The runs of the symbols. -/
def ownRuns (own : String → Bool) (db : AnalysisDb) : UniqueTable AnalysisRun.id :=
  db.runs.restrict fun run => own run.symbol

/-- The signals of the symbols. -/
def ownSignals (own : String → Bool) (db : AnalysisDb) : UniqueTable SignalRow.key :=
  db.signals.restrict fun s => own s.symbol

/-- What the tables hold of the symbols. -/
def part (own : String → Bool) (db : AnalysisDb) : AnalysisDb where
  runs := db.ownRuns own
  structureEvents := db.structureEvents.filter fun r => own r.symbol
  fairValueGaps := db.fairValueGaps.filter fun r => own r.symbol
  orderBlocks := db.orderBlocks.filter fun r => own r.symbol
  liquiditySweeps := db.liquiditySweeps.filter fun r => own r.symbol
  economicEvents := db.economicEvents.filter fun e => (db.ownRuns own).Has e.analysisRunId
  newsArticles := db.newsArticles.filter fun a => (db.ownRuns own).Has a.analysisRunId
  signals := db.ownSignals own
  executions := db.executions.filter fun e => (db.ownSignals own).Has e.signalId

end AnalysisDb

/-- What all tables hold of the symbols. -/
def ServiceDb.part (own : String → Bool) (db : ServiceDb) : ServiceDb :=
  ⟨db.bars.part own, db.analysis.part own⟩

theorem SignalRow.lift_key {f : Signal → Signal} (hf : ∀ s, (f s).id = s.id) (s : SignalRow) :
    (s.lift f).key = s.key := hf s.toSignal

theorem AnalysisDb.updateSignals_has (db : AnalysisDb) {f : Signal → Signal}
    (hf : ∀ s, (f s).id = s.id) {id : String} :
    (db.updateSignals f hf).signals.Has id ↔ db.signals.Has id :=
  db.signals.update_has (SignalRow.lift_key hf)

/-- Every row names a run, and every execution a signal, that is there. -/
structure Referenced (db : AnalysisDb) : Prop where
  store : StoreInv db
  executions : ∀ e ∈ db.executions, db.signals.Has e.signalId

theorem Referenced.empty : Referenced AnalysisDb.empty := ⟨.empty, List.forall_mem_nil _⟩

theorem Referenced.step {db db' : AnalysisDb} (h : Referenced db) (he : StoreEffect db db') :
    Referenced db' where
  store := h.store.step he
  executions := by
    cases he with
    | unchanged => exact h.executions
    | persisted call runs signals hruns hsignals =>
      exact fun e he => (h.executions e he).append hsignals
    | acknowledged cm symbol =>
      exact fun e he => (db.updateSignals_has (Signal.acknowledge_id _)).mpr (h.executions e he)
    | reported report hknown =>
      have hupdate {id : String} (hid : db.signals.Has id) :
          (db.setStatus report.signalId report.signalStatus).signals.Has id :=
        (db.updateSignals_has _).mpr hid
      exact List.forall_mem_append.mpr ⟨fun e he => hupdate (h.executions e he),
        List.forall_mem_singleton.mpr (hupdate hknown)⟩

/-- A poll or list that names a symbol finds its signals alone. -/
theorem symbolMatches_named {cm : CaseMap} {symbol : String} {s : Signal} (hname : symbol ≠ "")
    (h : symbolMatches cm (some symbol) s = true) : s.symbol = canonicalSymbol cm symbol := by
  simpa [symbolMatches, hname] using h

theorem Signal.acknowledge_symbol (ids : List String) (s : Signal) :
    (s.acknowledge ids).symbol = s.symbol := by
  obtain ⟨status, hs⟩ := s.acknowledge_status ids
  rw [hs]

theorem Signal.setStatus_symbol (id : String) (status : SignalStatus) (s : Signal) :
    (s.setStatus id status).symbol = s.symbol := by
  obtain ⟨status', hs⟩ := s.setStatus_status id status
  rw [hs]

namespace AnalysisDb

variable {db : AnalysisDb}

/-! ## Updates of signals -/

theorem ownSignals_updateSignals (own : String → Bool) (db : AnalysisDb) {f : Signal → Signal}
    (hf : ∀ s, (f s).id = s.id) (hsymbol : ∀ s, (f s).symbol = s.symbol) :
    (db.updateSignals f hf).ownSignals own =
      (db.ownSignals own).update (SignalRow.lift f) (SignalRow.lift_key hf) :=
  UniqueTable.restrict_update _ _ fun s => by rw [SignalRow.lift_toSignal, hsymbol]

/-- An update that keeps the symbols. -/
theorem part_updateSignals (db : AnalysisDb) {f : Signal → Signal} (hf : ∀ s, (f s).id = s.id)
    (hsymbol : ∀ s, (f s).symbol = s.symbol) :
    (db.updateSignals f hf).part own = (db.part own).updateSignals f hf := by
  have hsignals := ownSignals_updateSignals own db hf hsymbol
  have hexecutions : (db.executions.filter fun e =>
      ((db.updateSignals f hf).ownSignals own).Has e.signalId) =
      db.executions.filter fun e => (db.ownSignals own).Has e.signalId :=
    List.filter_congr fun e _ => by rw [decide_eq_decide, hsignals, UniqueTable.update_has]
  calc (db.updateSignals f hf).part own
      = { (db.part own) with
          signals := (db.updateSignals f hf).ownSignals own
          executions := db.executions.filter fun e =>
            ((db.updateSignals f hf).ownSignals own).Has e.signalId } := rfl
    _ = (db.part own).updateSignals f hf := by rw [hexecutions, hsignals]; rfl

/-- An update of signals of other symbols. -/
theorem part_updateSignals_other {f : Signal → Signal} (hf : ∀ s, (f s).id = s.id)
    (hsymbol : ∀ s, (f s).symbol = s.symbol)
    (hother : ∀ s ∈ db.signals.rows, own s.symbol = true → f s.toSignal = s.toSignal) :
    (db.updateSignals f hf).part own = db.part own := by
  have hsignals : (db.updateSignals f hf).ownSignals own = db.ownSignals own := by
    refine UniqueTable.restrict_update_other (SignalRow.lift_key hf) (fun s => ?_)
      fun s hs hown => ?_
    · rw [SignalRow.lift_toSignal, hsymbol]
    · rw [SignalRow.lift, hother s hs hown]
  calc (db.updateSignals f hf).part own
      = { (db.part own) with
          signals := (db.updateSignals f hf).ownSignals own
          executions := db.executions.filter fun e =>
            ((db.updateSignals f hf).ownSignals own).Has e.signalId } := rfl
    _ = db.part own := by rw [hsignals]; rfl

/-! ## Polls and lists -/

/-- A query that only finds signals of the symbols needs their signals alone. -/
theorem filter_part {q : SignalRow → Bool} (h : ∀ s, q s = true → own s.symbol = true) :
    (db.part own).signals.rows.filter q = db.signals.rows.filter q := by
  simp only [part, ownSignals, UniqueTable.restrict, List.filter_filter]
  refine List.filter_congr fun s _ => ?_
  cases hq : q s with
  | true => rw [h s hq, Bool.and_self]
  | false => rw [Bool.false_and]

theorem pendingSelect_part {cm : CaseMap} {symbol : String} (hname : symbol ≠ "")
    (h : own (canonicalSymbol cm symbol) = true) :
    pendingSelect cm (some symbol) (db.part own).queue = pendingSelect cm (some symbol) db.queue := by
  have hfilter : (db.part own).queue.rows.filter
        (fun s => s.eligible && symbolMatches cm (some symbol) s) =
      db.queue.rows.filter fun s => s.eligible && symbolMatches cm (some symbol) s := by
    rw [queue_rows, queue_rows, List.filter_map, List.filter_map, filter_part]
    intro s hs
    rw [Function.comp_apply, Bool.and_eq_true] at hs
    rw [symbolMatches_named hname hs.2, h]
  rw [pendingSelect, pendingSelect, hfilter]

/-- **A poll for one of the symbols.** -/
theorem pendingSignals_part {env : MT5Env} {symbol : String} (hname : symbol ≠ "")
    (h : own (canonicalSymbol env.caseMap symbol) = true) (key : Option String) :
    (db.part own).pendingSignals env (some symbol) key =
      (db.pendingSignals env (some symbol) key).map fun r => (r.1.part own, r.2) := by
  unfold AnalysisDb.pendingSignals
  cases keyRejected env key with
  | true => rfl
  | false =>
    simp only [Bool.false_eq_true, ↓reduceIte, Except.map, pendingSelect_part hname h]
    rw [part_updateSignals _ _ (Signal.acknowledge_symbol _)]

/-- A poll for another symbol. -/
theorem pendingSignals_other {env : MT5Env} {symbol : String} {key : Option String}
    {db' : AnalysisDb} {out : List PendingSignalOut} (hname : symbol ≠ "")
    (h : own (canonicalSymbol env.caseMap symbol) = false)
    (hpoll : db.pendingSignals env (some symbol) key = .ok (db', out)) :
    db'.part own = db.part own := by
  unfold AnalysisDb.pendingSignals at hpoll
  split at hpoll
  · cases hpoll
  · cases hpoll
    refine part_updateSignals_other (Signal.acknowledge_id _) (Signal.acknowledge_symbol _)
      fun s hs hown => if_neg fun hpicked => ?_
    -- A selected signal with this id would be `s` itself, and have the symbol of the poll.
    obtain ⟨t, ht, hid⟩ := List.mem_map.mp hpicked
    have hsel := List.mem_of_mem_take ht
    rw [List.mem_insertionSort, List.mem_filter, Bool.and_eq_true] at hsel
    have hts : t = s.toSignal := List.inj_on_of_nodup_map db.queue.nodup hsel.1
      (List.mem_map_of_mem hs) hid
    have hsymbol := symbolMatches_named hname hsel.2.2
    rw [hts] at hsymbol
    rw [hsymbol, h] at hown
    cases hown

theorem listSignals_part {cm : CaseMap} {symbol : String} (hname : symbol ≠ "")
    (h : own (canonicalSymbol cm symbol) = true) (limit : Int) :
    (db.part own).listSignals cm (some symbol) limit = db.listSignals cm (some symbol) limit := by
  rw [listSignals, listSignals, filter_part]
  intro s hs
  rw [symbolMatches_named hname hs, h]

theorem getAnalysisRun_part {runId : String} (h : (db.ownRuns own).Has runId) :
    (db.part own).getAnalysisRun runId = db.getAnalysisRun runId := by
  obtain ⟨run, hrun, rfl⟩ := List.mem_map.mp h
  rw [AnalysisDb.getAnalysisRun_eq_ok.mpr ⟨hrun, rfl⟩,
    AnalysisDb.getAnalysisRun_eq_ok.mpr ⟨(List.mem_filter.mp hrun).1, rfl⟩]

/-! ## Reports -/

/-- The status and the execution that a report leaves. -/
theorem part_reported (own : String → Bool) (db : AnalysisDb) (report : ExecutionReport) :
    AnalysisDb.part own { db.setStatus report.signalId report.signalStatus with
        executions := db.executions ++ [report.execution] } =
      { (db.setStatus report.signalId report.signalStatus).part own with
        executions := (db.part own).executions ++
          if (db.ownSignals own).Has report.signalId then [report.execution] else [] } := by
  have hhas {id : String} :
      ((db.setStatus report.signalId report.signalStatus).ownSignals own).Has id ↔
        (db.ownSignals own).Has id := by
    rw [ownSignals_updateSignals own db _ (Signal.setStatus_symbol _ _), UniqueTable.update_has]
  have hexecutions : ((db.executions ++ [report.execution]).filter fun e =>
      ((db.setStatus report.signalId report.signalStatus).ownSignals own).Has e.signalId) =
      (db.part own).executions ++
        if (db.ownSignals own).Has report.signalId then [report.execution] else [] := by
    simp only [hhas, List.filter_append, List.filter_singleton, Bool.cond_decide]
    rfl
  rw [← hexecutions]
  rfl

/-- **A report about a signal of the symbols.** -/
theorem executionReport_part {report : ExecutionReport} (h : (db.ownSignals own).Has report.signalId)
    (env : MT5Env) (key : Option String) :
    (db.part own).executionReport env report key =
      (db.executionReport env report key).map fun r => (r.1.part own, r.2) := by
  have hhas : db.signals.Has report.signalId := h.of_restrict
  have hhas' : (db.part own).signals.Has report.signalId := h
  unfold AnalysisDb.executionReport
  cases keyRejected env key with
  | true => rfl
  | false =>
    simp only [Bool.false_eq_true, ↓reduceIte, if_pos hhas, if_pos hhas', Except.map]
    rw [part_reported, if_pos h, setStatus, setStatus,
      part_updateSignals _ _ (Signal.setStatus_symbol _ _)]

/-- A report about another signal, or about none. -/
theorem executionReport_other {report : ExecutionReport} {env : MT5Env} {key : Option String}
    {db' : AnalysisDb} {out : ReportResponse} (h : ¬ (db.ownSignals own).Has report.signalId)
    (hreport : db.executionReport env report key = .ok (db', out)) :
    db'.part own = db.part own := by
  unfold AnalysisDb.executionReport at hreport
  split at hreport
  · cases hreport
  · split at hreport
    · cases hreport
      have hother : (db.setStatus report.signalId report.signalStatus).part own = db.part own := by
        refine part_updateSignals_other _ (Signal.setStatus_symbol _ _) fun s hs hown => if_neg ?_
        exact fun hid => h (List.mem_map.mpr ⟨s, List.mem_filter.mpr ⟨hs, hown⟩, hid⟩)
      rw [part_reported, if_neg h, List.append_nil, hother]
    · cases hreport
      rfl

/-! ## `persist_analysis` -/

/-- The records of a run are of its symbol. -/
theorem filter_records {ρ : Type} {symbolOf : ρ → String} {symbol : String} {rows records : List ρ}
    (h : ∀ r ∈ records, symbolOf r = symbol) :
    (rows ++ records).filter (fun r => own (symbolOf r)) =
      rows.filter (fun r => own (symbolOf r)) ++ if own symbol then records else [] := by
  rw [List.filter_append]
  refine congrArg _ ?_
  cases hown : own symbol with
  | true => exact List.filter_eq_self.mpr fun r hr => by rw [h r hr, hown]
  | false => exact List.filter_eq_nil_iff.mpr fun r hr => by rw [h r hr, hown]; decide

/-- Records that name a new run. -/
theorem filter_named {ρ : Type} {runOf : ρ → String} {runs : UniqueTable AnalysisRun.id}
    {run : AnalysisRun} {rows records : List ρ} (hruns : runs.rows = db.runs.rows ++ [run])
    (hold : ∀ r ∈ rows, db.runs.Has (runOf r)) (hnew : ∀ r ∈ records, runOf r = run.id) :
    (rows ++ records).filter
        (fun r => (runs.restrict fun run => own run.symbol).Has (runOf r)) =
      rows.filter (fun r => (db.ownRuns own).Has (runOf r)) ++
        if own run.symbol then records else [] := by
  have hfresh : ¬ db.runs.Has run.id := UniqueTable.not_has_of_append hruns
  have hfresh' : ¬ (db.ownRuns own).Has run.id := fun h => hfresh h.of_restrict
  rw [List.filter_append]
  congr 1
  · refine List.filter_congr fun r hr => ?_
    rw [decide_eq_decide, UniqueTable.restrict_has_append hruns, or_iff_left]
    · rfl
    · rintro ⟨-, hid⟩
      exact hfresh (hid ▸ hold r hr)
  · have hhas : ∀ r ∈ records, ((runs.restrict fun run => own run.symbol).Has (runOf r) ↔
        own run.symbol = true) := fun r hr => by
      rw [UniqueTable.restrict_has_append hruns, hnew r hr]
      exact (or_iff_right hfresh').trans (and_iff_left rfl)
    cases hown : own run.symbol with
    | true => exact List.filter_eq_self.mpr fun r hr => decide_eq_true ((hhas r hr).mpr hown)
    | false =>
      refine List.filter_eq_nil_iff.mpr fun r hr => ?_
      rw [decide_eq_true_eq, hhas r hr, hown]
      decide

/-- Executions name no new signal. -/
theorem filter_executions {signals : UniqueTable SignalRow.key} {signal : SignalRow}
    (href : Referenced db) (hsignals : signals.rows = db.signals.rows ++ [signal]) :
    db.executions.filter (fun e => (signals.restrict fun s => own s.symbol).Has e.signalId) =
      db.executions.filter fun e => (db.ownSignals own).Has e.signalId := by
  refine List.filter_congr fun e he => ?_
  rw [decide_eq_decide, UniqueTable.restrict_has_append hsignals]
  refine or_iff_left ?_
  rintro ⟨-, hid⟩
  exact UniqueTable.not_has_of_append hsignals (hid ▸ href.executions e he)

/-- **The rows of a call**, of whatever symbol. -/
theorem part_store {call : PersistCall} {runs : UniqueTable AnalysisRun.id}
    {signals : UniqueTable SignalRow.key} (href : Referenced db)
    (hruns : runs.rows = db.runs.rows ++ [call.run])
    (hsignals : signals.rows = db.signals.rows ++ [call.signal]) :
    (call.store db runs signals).part own =
      if own call.symbol then call.store (db.part own) (runs.restrict fun run => own run.symbol)
        (signals.restrict fun s => own s.symbol)
      else db.part own := by
  have hstructures : ∀ r ∈ structureRecords call.runId call.symbol call.result.evidence,
      r.symbol = call.symbol :=
    forall_evidenceRecords (p := fun r : StructureEventRecord => r.symbol = call.symbol) (fun _ _ => rfl) _
  have hgaps : ∀ r ∈ gapRecords call.runId call.symbol call.result.evidence,
      r.symbol = call.symbol :=
    forall_evidenceRecords (p := fun r : FairValueGapRecord => r.symbol = call.symbol) (fun _ _ => rfl) _
  have hblocks : ∀ r ∈ blockRecords call.runId call.symbol call.result.evidence,
      r.symbol = call.symbol :=
    forall_evidenceRecords (p := fun r : OrderBlockRecord => r.symbol = call.symbol) (fun _ _ => rfl) _
  have hsweeps : ∀ r ∈ sweepRecords call.runId call.symbol call.result.evidence,
      r.symbol = call.symbol :=
    forall_evidenceRecords (p := fun r : LiquiditySweepRecord => r.symbol = call.symbol) (fun _ _ => rfl) _
  have hevents : ∀ e ∈ call.events.map (EconomicEvent.record call.runId),
      e.analysisRunId = call.run.id := List.forall_mem_map.mpr fun _ _ => rfl
  have harticles : ∀ a ∈ call.articles.map (NewsArticle.record call.runId),
      a.analysisRunId = call.run.id := List.forall_mem_map.mpr fun _ _ => rfl
  have hpart : (call.store db runs signals).part own = {
      runs := runs.restrict fun run => own run.symbol
      structureEvents := (db.structureEvents ++ structureRecords call.runId call.symbol
        call.result.evidence).filter fun r => own r.symbol
      fairValueGaps := (db.fairValueGaps ++ gapRecords call.runId call.symbol
        call.result.evidence).filter fun r => own r.symbol
      orderBlocks := (db.orderBlocks ++ blockRecords call.runId call.symbol
        call.result.evidence).filter fun r => own r.symbol
      liquiditySweeps := (db.liquiditySweeps ++ sweepRecords call.runId call.symbol
        call.result.evidence).filter fun r => own r.symbol
      economicEvents := (db.economicEvents ++ call.events.map (EconomicEvent.record call.runId)).filter
        fun e => (runs.restrict fun run => own run.symbol).Has e.analysisRunId
      newsArticles := (db.newsArticles ++ call.articles.map (NewsArticle.record call.runId)).filter
        fun a => (runs.restrict fun run => own run.symbol).Has a.analysisRunId
      signals := signals.restrict fun s => own s.symbol
      executions := db.executions.filter
        fun e => (signals.restrict fun s => own s.symbol).Has e.signalId } := rfl
  rw [hpart, filter_records hstructures, filter_records hgaps, filter_records hblocks,
    filter_records hsweeps, filter_named hruns href.store.economicEvents hevents,
    filter_named hruns href.store.newsArticles harticles, filter_executions href hsignals]
  have hrun : own call.run.symbol = own call.symbol := rfl
  rw [hrun]
  cases hown : own call.symbol with
  | true => rfl
  | false =>
    have hruns' : (runs.restrict fun run => own run.symbol) = db.ownRuns own :=
      UniqueTable.restrict_append_other
        (List.forall_mem_singleton.mpr (hrun.trans hown)) hruns
    have hsignals' : (signals.restrict fun s => own s.symbol) = db.ownSignals own :=
      UniqueTable.restrict_append_other (List.forall_mem_singleton.mpr hown) hsignals
    simp only [Bool.false_eq_true, ↓reduceIte, List.append_nil, hruns', hsignals']
    rfl

theorem insertRow_part {α κ : Type} {key : α → κ} [DecidableEq κ] {p : α → Bool}
    {t : UniqueTable key} {row : α} (hp : p row = true) (hfresh : ¬ t.Has (key row)) (fails : Bool) :
    insertRow fails (t.restrict p) row = (insertRow fails t row).map (UniqueTable.restrict p) := by
  unfold insertRow
  cases fails with
  | true => rfl
  | false =>
    refine UniqueTable.restrict_commit (List.forall_mem_singleton.mpr hp) ?_
    refine List.forall_mem_singleton.mpr fun y hy hkey => absurd ?_ hfresh
    exact List.mem_map.mpr ⟨y, hy, hkey⟩

/-- **A call for one of the symbols**, with fresh uuids. -/
theorem persistAnalysis_part (call : PersistCall) (href : Referenced db)
    (hown : own call.symbol = true) (hrun : ¬ db.runs.Has call.runId)
    (hsignal : ¬ db.signals.Has call.signalId) :
    (db.part own).persistAnalysis call =
      (db.persistAnalysis call).map fun r => (r.1.part own, r.2) := by
  unfold persistAnalysis
  have hflush : insertRow call.flushFails (db.part own).runs call.run =
      (insertRow call.flushFails db.runs call.run).map
        (UniqueTable.restrict fun run => own run.symbol) :=
    insertRow_part (p := fun run : AnalysisRun => own run.symbol) hown hrun _
  have hcommit : insertRow call.commitFails (db.part own).signals call.signal =
      (insertRow call.commitFails db.signals call.signal).map
        (UniqueTable.restrict fun s => own s.symbol) :=
    insertRow_part (p := fun s : SignalRow => own s.symbol) hown hsignal _
  rw [hflush, hcommit]
  cases hr : insertRow call.flushFails db.runs call.run with
  | none => rfl
  | some runs =>
    cases hs : insertRow call.commitFails db.signals call.signal with
    | none => rfl
    | some signals =>
      simp only [Option.map_some, Except.map]
      rw [part_store href (insertRow_eq_some hr).2 (insertRow_eq_some hs).2, hown, if_pos rfl]

/-- A call for another symbol. -/
theorem persistAnalysis_other {call : PersistCall} {db' : AnalysisDb} {run : AnalysisRun}
    {signal : SignalRow} (href : Referenced db) (hother : own call.symbol = false)
    (h : db.persistAnalysis call = .ok (db', run, signal)) : db'.part own = db.part own := by
  obtain ⟨-, -, runs, signals, rfl, hruns, hsignals⟩ := persistAnalysis_eq_ok h
  rw [part_store href hruns hsignals, hother]
  rfl

end AnalysisDb

/-! ## `run_analysis` -/

namespace RunRequest

variable {settings : AppSettings} {around : Surroundings} {payload : RunRequest}

theorem upperStr_canonical (hcm : settings.caseMap.Idempotent) :
    settings.caseMap.upperStr (payload.canonical settings) = payload.canonical settings :=
  upperStr_canonicalSymbol hcm _

theorem loadTimeframes_part (hcm : settings.caseMap.Idempotent) (around : Surroundings)
    (hown : own (payload.canonical settings) = true) (tfs : List String) (store : BarStore) :
    payload.loadTimeframes settings around tfs (store.part own) =
      (payload.loadTimeframes settings around tfs store).map fun r => (r.1.part own, r.2) := by
  induction tfs generalizing store with
  | nil => rfl
  | cons tf tfs ih =>
    unfold loadTimeframes
    rw [ensureRecentBars_part hown]
    cases ensureRecentBars (settings.backfill around) (around.clock tf) (payload.canonical settings) tf
        payload.minimumBars payload.barLimit store with
    | error e => rfl
    | ok store₁ =>
      simp only [Except.map, loadBars_part hown (upperStr_canonical hcm), ih]
      cases loadBars settings.caseMap store₁ (payload.canonical settings) tf payload.barLimit with
      | none => rfl
      | some bars =>
        simp only [bind, Option.bind_some]
        cases payload.loadTimeframes settings around tfs store₁ <;> rfl

theorem loadTimeframes_other (hother : own (payload.canonical settings) = false) {tfs : List String}
    {store store' : BarStore} {r : Except RunError (List (String × List Bar))}
    (h : payload.loadTimeframes settings around tfs store = some (store', r)) :
    store'.part own = store.part own := by
  induction tfs generalizing store r with
  | nil =>
    cases h
    rfl
  | cons tf tfs ih =>
    unfold loadTimeframes at h
    cases hensure : ensureRecentBars (settings.backfill around) (around.clock tf)
        (payload.canonical settings) tf payload.minimumBars payload.barLimit store with
    | error e =>
      simp only [hensure] at h
      cases h
      rfl
    | ok store₁ =>
      simp only [hensure, bind, Option.bind_eq_some_iff] at h
      obtain ⟨bars, -, ⟨store₂, rest⟩, hrest, hret⟩ := h
      cases hret
      rw [ih hrest, ensureRecentBars_other hother hensure]

/-- The correlated symbol is canonical, or the default one. -/
theorem upperStr_corrSymbol (hcm : settings.caseMap.Idempotent) {symbol : String}
    (h : payload.corrSymbol settings = some symbol) :
    settings.caseMap.upperStr symbol = symbol := by
  unfold corrSymbol at h
  dsimp only at h
  split at h
  · rename_i named hnamed
    cases h
    obtain ⟨name, -, rfl⟩ := Option.map_eq_some_iff.mp (Option.filter_eq_some_iff.mp hnamed).1
    exact upperStr_canonicalSymbol hcm name
  · split at h
    · cases h
      have hdxy : (⟨"DXY", "US Dollar Index", "Index", ["USDINDEX", "USDX"]⟩ : Instrument) ∈ instruments := by
        simp [instruments]
      rw [CaseMap.upperStr,
        CaseMap.Idempotent.str_of_fixed (instrument_upper settings.caseMap hdxy),
        String.ofList_toList]
    · cases h

/-- The correlated symbol is one of the symbols, too. -/
theorem loadCorrelated_part (hcm : settings.caseMap.Idempotent)
    (hcorr : ∀ symbol, payload.corrSymbol settings = some symbol → own symbol = true)
    (store : BarStore) :
    payload.loadCorrelated settings (store.part own) = payload.loadCorrelated settings store := by
  unfold loadCorrelated
  cases hs : payload.corrSymbol settings with
  | none => rfl
  | some symbol => simp only [loadBars_part (hcorr symbol hs) (upperStr_corrSymbol hcm hs)]

/-- The uuids of a request are new. -/
def Fresh (around : Surroundings) (payload : RunRequest) (db : AnalysisDb) : Prop :=
  payload.persist = true → ¬ db.runs.Has around.runId ∧ ¬ db.signals.Has around.signalId

theorem answer_part {db : ServiceDb} (href : Referenced db.analysis)
    (hown : own (payload.canonical settings) = true) (hfresh : payload.Fresh around db.analysis)
    (events : List EconomicEvent) (result : AnalysisResult) :
    payload.answer settings around events result (db.part own) =
      ((payload.answer settings around events result db).1.part own,
        (payload.answer settings around events result db).2) := by
  unfold answer
  cases hp : payload.persist with
  | false => rfl
  | true =>
    obtain ⟨hrun, hsignal⟩ := hfresh hp
    have hpersist := AnalysisDb.persistAnalysis_part (payload.persistCall settings around events result)
      href hown hrun hsignal
    simp only [↓reduceIte, ServiceDb.part, hpersist]
    cases db.analysis.persistAnalysis (payload.persistCall settings around events result) <;> rfl

theorem answer_other {db : ServiceDb} (href : Referenced db.analysis)
    (hother : own (payload.canonical settings) = false) (events : List EconomicEvent)
    (result : AnalysisResult) :
    (payload.answer settings around events result db).1.part own = db.part own := by
  unfold answer
  split
  · split
    · rfl
    · rename_i analysis run signal hstored
      have hpart : analysis.part own = db.analysis.part own :=
        AnalysisDb.persistAnalysis_other href hother hstored
      simp only [ServiceDb.part, hpart]
  · rfl

theorem conclude_part {db : ServiceDb} (href : Referenced db.analysis)
    (hown : own (payload.canonical settings) = true) (hfresh : payload.Fresh around db.analysis)
    (loaded correlated : List (String × List Bar)) :
    payload.conclude settings around loaded correlated (db.part own) =
      ((payload.conclude settings around loaded correlated db).1.part own,
        (payload.conclude settings around loaded correlated db).2) := by
  unfold conclude
  split
  · rfl
  · split
    · rfl
    · exact answer_part href hown hfresh _ _

theorem conclude_other (settings : AppSettings) (around : Surroundings) {db : ServiceDb}
    (href : Referenced db.analysis) (hother : own (payload.canonical settings) = false)
    (loaded correlated : List (String × List Bar)) :
    (payload.conclude settings around loaded correlated db).1.part own = db.part own := by
  unfold conclude
  split
  · rfl
  · split
    · rfl
    · exact answer_other href hother _ _

/-- **An analysis of one of the symbols** needs what the tables hold of the symbols alone. -/
theorem run_part (hcm : settings.caseMap.Idempotent) {db : ServiceDb} (href : Referenced db.analysis)
    (hown : own (payload.canonical settings) = true)
    (hcorr : ∀ symbol, payload.corrSymbol settings = some symbol → own symbol = true)
    (hfresh : payload.Fresh around db.analysis) :
    payload.run settings around (db.part own) =
      (payload.run settings around db).map fun r => (r.1.part own, r.2) := by
  have hload := loadTimeframes_part hcm around hown (payload.requestedTfs settings.caseMap) db.bars
  unfold run
  simp only [ServiceDb.part, hload]
  cases payload.loadTimeframes settings around (payload.requestedTfs settings.caseMap) db.bars with
  | none => rfl
  | some r =>
    obtain ⟨bars, loaded⟩ := r
    cases loaded with
    | error e => rfl
    | ok loaded =>
      simp only [Option.map_some]
      split
      · rfl
      · rw [loadCorrelated_part hcm hcorr]
        cases payload.loadCorrelated settings bars with
        | none => rfl
        | some correlated =>
          have href' : Referenced { db with bars := bars }.analysis := href
          exact congrArg some (conclude_part href' hown hfresh loaded correlated)

/-- An analysis of another symbol. -/
theorem run_other {db db' : ServiceDb} {r : Except RunError SignalObject}
    (href : Referenced db.analysis) (hother : own (payload.canonical settings) = false)
    (h : payload.run settings around db = some (db', r)) : db'.part own = db.part own := by
  unfold run at h
  cases hload : payload.loadTimeframes settings around (payload.requestedTfs settings.caseMap)
      db.bars with
  | none => simp only [hload] at h; cases h
  | some loadedBars =>
    obtain ⟨bars, loaded⟩ := loadedBars
    have hbars : ({ db with bars := bars } : ServiceDb).part own = db.part own := by
      rw [ServiceDb.part, ServiceDb.part, loadTimeframes_other hother hload]
    simp only [hload] at h
    cases loaded with
    | error e =>
      cases h
      exact hbars
    | ok loaded =>
      simp only at h
      split at h
      · cases h
        exact hbars
      · simp only [bind, Option.bind_eq_some_iff, pure, Option.some.injEq] at h
        obtain ⟨correlated, -, hret⟩ := h
        have href' : Referenced { db with bars := bars }.analysis := href
        rw [← hbars, ← conclude_other settings around href' hother loaded correlated, hret]

end RunRequest

/-! ## The service -/

/-- The symbol filter of a request names one of the symbols. -/
def namesOwn (own : String → Bool) (cm : CaseMap) : Option String → Bool
  | none => false
  | some name => name ≠ "" && own (canonicalSymbol cm name)

/-- The request is about one of the symbols, or about a run or signal of one. -/
def ServiceDb.concerns (settings : AppSettings) (own : String → Bool) (db : ServiceDb) :
    ServiceRequest → Bool
  | .ingest payload _ => own (canonicalSymbol settings.caseMap payload.symbol)
  | .runAnalysis payload _ => own (payload.canonical settings)
  | .getAnalysis symbol _ => own ((RunRequest.default settings.caseMap symbol).canonical settings)
  | .getAnalysisRun runId => (db.analysis.ownRuns own).Has runId
  | .listSignals symbol _ => namesOwn own settings.caseMap symbol
  | .chartBars symbol _ _ => own (canonicalSymbol settings.caseMap symbol)
  | .pendingSignals symbol _ => namesOwn own settings.caseMap symbol
  | .executionReport report _ => (db.analysis.ownSignals own).Has report.signalId

/-- A request about the symbols, as somebody sees it who has these symbols alone. -/
def ownPart (settings : AppSettings) (own : String → Bool) (t : ServiceTransition) :
    Option ServiceTransition :=
  if t.pre.concerns settings own t.label then
    some ⟨t.pre.part own, t.label, t.out, t.post.part own⟩
  else none

/-- What keeps the symbols apart: a poll names its symbol, and an analysis of one of the symbols is
correlated with one of them, and draws new uuids. -/
structure Separate (settings : AppSettings) (own : String → Bool) (t : ServiceTransition) : Prop where
  poll : ∀ symbol key, t.label = .pendingSignals symbol key → ∃ name, symbol = some name ∧ name ≠ ""
  analysis : ∀ payload around, t.label.analysis settings.caseMap = some (payload, around) →
    own (payload.canonical settings) = true →
      (∀ symbol, payload.corrSymbol settings = some symbol → own symbol = true) ∧
        payload.Fresh around t.pre.analysis

variable {settings : AppSettings} {db db' : ServiceDb} {request : ServiceRequest}
  {response : ServiceResponse}

theorem namesOwn_iff {cm : CaseMap} {symbol : Option String} : namesOwn own cm symbol = true ↔
    ∃ name, symbol = some name ∧ name ≠ "" ∧ own (canonicalSymbol cm name) = true := by
  cases symbol with
  | none => simp [namesOwn]
  | some name => simp [namesOwn]

theorem ServiceDb.concerns_analysis {payload : RunRequest} {around : Surroundings}
    (ha : request.analysis settings.caseMap = some (payload, around)) :
    db.concerns settings own request = own (payload.canonical settings) := by
  cases request <;> simp only [ServiceRequest.analysis, reduceCtorEq] at ha
  all_goals
    obtain ⟨rfl, rfl⟩ := Prod.mk.inj (Option.some.inj ha)
    rfl

/-- **A request about the symbols** needs what the tables hold of them alone. -/
theorem serviceStep_part (hcm : settings.caseMap.Idempotent) (href : Referenced db.analysis)
    (hstep : serviceStep settings db request = some (db', response))
    (hsep : Separate settings own ⟨db, request, response, db'⟩)
    (hown : db.concerns settings own request = true) :
    serviceStep settings (db.part own) request = some (db'.part own, response) := by
  cases ha : request.analysis settings.caseMap with
  | some asked =>
    obtain ⟨payload, around⟩ := asked
    rw [ServiceDb.concerns_analysis ha] at hown
    obtain ⟨hcorr, hfresh⟩ := hsep.analysis payload around ha hown
    obtain ⟨r, hrun, rfl⟩ := (serviceStep_analysis ha).mp hstep
    refine (serviceStep_analysis ha).mpr ⟨r, ?_, rfl⟩
    rw [RunRequest.run_part hcm href hown hcorr hfresh, hrun]
    rfl
  | none =>
    cases request with
    | runAnalysis payload around => cases ha
    | getAnalysis symbol around => cases ha
    | ingest payload key =>
      rw [serviceStep] at hstep ⊢
      rw [ServiceDb.part, ingest_part hown]
      split at hstep <;> rename_i hing <;> cases hstep <;> rw [hing] <;> rfl
    | getAnalysisRun runId =>
      rw [serviceStep] at hstep ⊢
      rw [ServiceDb.part, AnalysisDb.getAnalysisRun_part (of_decide_eq_true hown)]
      split at hstep <;> cases hstep <;> rfl
    | listSignals symbol limit =>
      obtain ⟨name, rfl, hname, hown⟩ := namesOwn_iff.mp hown
      cases hstep
      rw [serviceStep, ServiceDb.part, AnalysisDb.listSignals_part hname hown]
    | chartBars symbol timeframe limit =>
      cases hstep
      rw [serviceStep, ServiceDb.part, chartBars_part hown]
    | pendingSignals symbol key =>
      obtain ⟨name, rfl, hname, hown⟩ := namesOwn_iff.mp hown
      rw [serviceStep] at hstep ⊢
      rw [ServiceDb.part, AnalysisDb.pendingSignals_part hname hown]
      split at hstep <;> rename_i hpoll <;> cases hstep <;> rw [hpoll] <;> rfl
    | executionReport report key =>
      rw [serviceStep] at hstep ⊢
      rw [ServiceDb.part, AnalysisDb.executionReport_part (of_decide_eq_true hown)]
      split at hstep <;> rename_i hreport <;> cases hstep <;> rw [hreport] <;> rfl

/-- A request about other symbols. -/
theorem serviceStep_other (href : Referenced db.analysis)
    (hstep : serviceStep settings db request = some (db', response))
    (hsep : Separate settings own ⟨db, request, response, db'⟩)
    (hother : db.concerns settings own request = false) : db'.part own = db.part own := by
  cases serviceStep_cases hstep with
  | analysed hasked hrun =>
    rw [ServiceDb.concerns_analysis hasked] at hother
    exact RunRequest.run_other href hother hrun
  | ingested hing => rw [ServiceDb.part, ingest_other hother hing]; rfl
  | @polled symbol key analysis out hpoll =>
    obtain ⟨name, rfl, hname⟩ := hsep.poll symbol key rfl
    have hcanonical : own (canonicalSymbol settings.caseMap name) = false := by
      simpa [ServiceDb.concerns, namesOwn, hname] using hother
    rw [ServiceDb.part, AnalysisDb.pendingSignals_other hname hcanonical hpoll]
    rfl
  | reported hreport =>
    rw [ServiceDb.part, AnalysisDb.executionReport_other (of_decide_eq_false hother) hreport]
    rfl
  | kept => rfl

/-- **Symbols do not disturb each other.** In a run in which every poll names its symbol, choose some
symbols, such that the analyses of them are correlated with each other and draw new uuids. The requests
about these symbols, in their order and with the responses that they had, are a run of the service by
themselves: somebody who never heard of the other symbols sees the same bars, analyses, signals and
executions. In the end the tables of this run are what the tables hold of the symbols. -/
theorem symbol_isolation (hcm : settings.caseMap.Idempotent) {ts : List ServiceTransition}
    (h : Sys.Run (serviceStep settings) ServiceDb.empty ts db)
    (hsep : ∀ t ∈ ts, Separate settings own t) :
    Sys.Run (serviceStep settings) ServiceDb.empty (ts.filterMap (ownPart settings own))
      (db.part own) := by
  refine h.project (ServiceDb.part own) fun us s l o s' hrun ht hstep => ?_
  have href : Referenced s.analysis :=
    hrun.history (I := fun _ s => Referenced s.analysis) .empty fun us s l o s' hrun hstep _ hI =>
      hI.step (serviceStep_effect (ServiceInv.empty.run hrun).bars hstep).2
  unfold ownPart
  cases hc : s.concerns settings own l with
  | true => exact ⟨rfl, rfl, serviceStep_part hcm href hstep (hsep _ ht) hc⟩
  | false => exact serviceStep_other href hstep (hsep _ ht) hc

/-! ## Gold and the euro -/

/-- Gold, and what it is correlated with. -/
def goldAndDollar (symbol : String) : Bool := symbol = "XAUUSD" || symbol = "DXY"

/-- What keeps a request of the dashboard with default parameters, or of the EA, apart. -/
def keepsApart (own : String → Bool) (t : ServiceTransition) : Bool :=
  match t.label with
  | .pendingSignals symbol _ => symbol.any (· ≠ "")
  | .runAnalysis _ _ => false
  | .getAnalysis symbol around =>
    ((RunRequest.default .ascii symbol).corrSymbol demoSettings).all own &&
      (¬ t.pre.analysis.runs.Has around.runId ∧ ¬ t.pre.analysis.signals.Has around.signalId)
  | _ => true

theorem separate_of_keepsApart {t : ServiceTransition} (h : keepsApart own t = true) :
    Separate demoSettings own t := by
  obtain ⟨pre, label, out, post⟩ := t
  constructor
  · rintro symbol key rfl
    obtain ⟨name, hname, hne⟩ := (Option.any_eq_true _ _).mp h
    exact ⟨name, hname, of_decide_eq_true hne⟩
  · intro payload around ha _
    cases label <;> simp only [ServiceRequest.analysis, reduceCtorEq] at ha
    · cases h
    · obtain ⟨rfl, rfl⟩ := Prod.mk.inj (Option.some.inj ha)
      simp only [keepsApart, Bool.and_eq_true, decide_eq_true_eq] at h
      exact ⟨fun symbol hs => (Option.all_eq_true _ _).mp h.1 symbol hs, fun _ => h.2⟩

/-- The EA sends bars of gold and of the euro, both are analysed, and both signals fetched. -/
def twoSymbolSession : List ServiceRequest :=
  [.ingest strongPayload none, .ingest { strongPayload with symbol := "EUR/USD" } none,
    .getAnalysis "eurusd" { demoSurroundings with runId := "r2", signalId := "s2" },
    .getAnalysis "gold" demoSurroundings, .pendingSignals (some "EURUSD") none,
    .pendingSignals (some "gold") none,
    .executionReport ⟨"s2", some 2, some (.num 20), some (.num 1), "filled", none⟩ none,
    .getAnalysisRun "r1"]

theorem demo_isolation : ∃ ts db, Sys.Run (serviceStep demoSettings) ServiceDb.empty ts db ∧
    ts.length = 8 ∧ deliveredIds ts = ["s2", "s1"] ∧
    deliveredIds (ts.filterMap (ownPart demoSettings goldAndDollar)) = ["s1"] ∧
    Sys.Run (serviceStep demoSettings) ServiceDb.empty
      (ts.filterMap (ownPart demoSettings goldAndDollar)) (db.part goldAndDollar) := by
  obtain ⟨ts, db, hrun, hlength, hdelivered, hown, happart⟩ :=
    Sys.exists_run (serviceStep demoSettings) ServiceDb.empty twoSymbolSession
      (fun ts _ => ts.length = 8 ∧ deliveredIds ts = ["s2", "s1"] ∧
        deliveredIds (ts.filterMap (ownPart demoSettings goldAndDollar)) = ["s1"] ∧
        ∀ t ∈ ts, keepsApart goldAndDollar t = true) (by decide +kernel)
  exact ⟨ts, db, hrun, hlength, hdelivered, hown,
    symbol_isolation ascii_idempotent hrun fun t ht => separate_of_keepsApart (happart t ht)⟩

end MarketKill3r
