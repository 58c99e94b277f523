import MarketKill3r.Analysis.Service
import MarketKill3r.Engine.Ordering
import MarketKill3r.Lib.Local

/-!
# The order in which a request names its timeframes

`run_analysis` backfills and loads one timeframe after another, in the order of the request. Each turn
works on the bars of its own timeframe, so that the order and the spelling of the list decide nothing.

* `loadTimeframe_local`: **one turn of the loop is local** to the bars of its timeframe.
* `RunRequest.SameTimeframes`: two requests that name the same timeframes.
* `timeframes_any_order`: **they store the same bars and return the same signal.**
-/

namespace MarketKill3r

open UniqueTable (newRows)

/-! ## One turn of the loop -/

/-- The bars of a series, as the view of a place. -/
def seriesView (series : String × String) (store : BarStore) : List MarketBar :=
  selectRows store series.1 series.2

/-- Whether a key is stored is seen in its series. -/
theorem key_mem_iff {store : BarStore} {row : MarketBar} :
    row.key ∈ store.rows.map MarketBar.key ↔
      row.barTime ∈ (selectRows store row.symbol row.timeframe).map MarketBar.barTime := by
  simp only [List.mem_map, mem_selectRows, MarketBar.key, Prod.mk.injEq]
  constructor
  · rintro ⟨r, hr, hs, ht, htime⟩
    exact ⟨r, ⟨hr, hs, ht⟩, htime⟩
  · rintro ⟨r, ⟨hr, hs, ht⟩, htime⟩
    exact ⟨r, hr, hs, ht, htime⟩

/-- What is new in a batch of one series depends on this series alone. -/
theorem newRows_series {symbol timeframe : String} {rows : List MarketBar}
    (hkeys : ∀ row ∈ rows, row.symbol = symbol ∧ row.timeframe = timeframe)
    {store other : BarStore}
    (hview : selectRows store symbol timeframe = selectRows other symbol timeframe) :
    newRows MarketBar.key store.rows rows = newRows MarketBar.key other.rows rows := by
  refine List.filter_congr fun row hrow => ?_
  obtain ⟨hs, ht⟩ := hkeys row hrow
  rw [decide_eq_decide, key_mem_iff, key_mem_iff, hs, ht, hview]

/-- A backfill leaves the other series alone. -/
theorem ensureRecentBars_frame {env : BackfillEnv} {now : Int} {symbol timeframe : String}
    {minBars outputsize : Int} {store store' : BarStore}
    (h : ensureRecentBars env now symbol timeframe minBars outputsize store = .ok store')
    {s t : String} (hother : (s, t) ≠ (symbol, timeframe)) :
    selectRows store' s t = selectRows store s t := by
  by_cases hasks : ∃ interval, Asks env now symbol timeframe minBars store interval
  · obtain ⟨interval, hasks⟩ := hasks
    obtain ⟨rows, hrows, hstore⟩ := (ensureRecentBars_eq_ok hasks).mp h
    have hkeys : ∀ row ∈ rows, row.symbol = symbol ∧ row.timeframe = timeframe :=
      fun row hrow => ⟨(mem_answerRows hrows row hrow).1, (mem_answerRows hrows row hrow).2.1⟩
    exact selectRows_other hkeys hstore hother
  · rw [ensureRecentBars_idle (not_exists.mp hasks) outputsize] at h
    cases h
    rfl

theorem Asks.of_series {env : BackfillEnv} {now : Int} {symbol timeframe interval : String}
    {minBars : Int} {store other : BarStore}
    (h : Asks env now symbol timeframe minBars store interval)
    (hview : selectRows store symbol timeframe = selectRows other symbol timeframe) :
    Asks env now symbol timeframe minBars other interval where
  needed := by
    unfold RecentEnough
    rw [← hview]
    exact h.needed
  mapped := h.mapped
  configured := h.configured

/-- A backfill depends on the bars of its series alone. -/
theorem ensureRecentBars_congr {env : BackfillEnv} {now : Int} {symbol timeframe : String}
    {minBars outputsize : Int} {store store' other : BarStore}
    (h : ensureRecentBars env now symbol timeframe minBars outputsize store = .ok store')
    (hview : selectRows store symbol timeframe = selectRows other symbol timeframe) :
    ∃ other', ensureRecentBars env now symbol timeframe minBars outputsize other = .ok other' ∧
      selectRows store' symbol timeframe = selectRows other' symbol timeframe := by
  by_cases hasks : ∃ interval, Asks env now symbol timeframe minBars store interval
  · obtain ⟨interval, hasks⟩ := hasks
    obtain ⟨rows, hrows, hstore⟩ := (ensureRecentBars_eq_ok hasks).mp h
    have hkeys : ∀ row ∈ rows, row.symbol = symbol ∧ row.timeframe = timeframe :=
      fun row hrow => ⟨(mem_answerRows hrows row hrow).1, (mem_answerRows hrows row hrow).2.1⟩
    have hnew := newRows_series hkeys hview
    -- The new rows are the same, so the commit on the other store succeeds as well.
    have hdistinct : AbsentDistinct other rows := by
      rw [AbsentDistinct, ← hnew]
      refine (commit_newRows_isSome store rows).mp ?_
      rw [UniqueTable.commit_eq_some.mpr hstore]
      rfl
    obtain ⟨other', hcommit⟩ :=
      Option.isSome_iff_exists.mp ((commit_newRows_isSome other rows).mpr hdistinct)
    have hother := UniqueTable.commit_eq_some.mp hcommit
    refine ⟨other', (ensureRecentBars_eq_ok (hasks.of_series hview)).mpr ⟨rows, hrows, hother⟩, ?_⟩
    unfold selectRows at hview ⊢
    rw [hstore, hother, List.filter_append, List.filter_append, hview, hnew]
  · rw [ensureRecentBars_idle (not_exists.mp hasks) outputsize] at h
    cases h
    have hidle : ∀ interval, ¬ Asks env now symbol timeframe minBars other interval :=
      fun interval hother => hasks ⟨interval, hother.of_series hview.symm⟩
    exact ⟨other, ensureRecentBars_idle hidle outputsize, hview⟩

theorem CaseMap.Idempotent.upperStr_upperStr {cm : CaseMap} (h : cm.Idempotent) (s : String) :
    cm.upperStr (cm.upperStr s) = cm.upperStr s := by
  rw [CaseMap.upperStr, CaseMap.upperStr, String.toList_ofList,
    str_of_fixed fun c hc => h.fixed_of_mem_str hc]

/-- When the results of a traversal are reordered with its items, it returns as well. -/
theorem mapM_some_of_forall₂ {α β : Type} {f : α → Option β} {xs : List α} {ys : List β}
    (h : List.Forall₂ (fun x y => f x = some y) xs ys) : xs.mapM f = some ys := by
  induction h with
  | nil => rfl
  | cons hxy _ ih => rw [List.mapM_cons, hxy, ih]; rfl

theorem mapM_some_perm {α β : Type} {f : α → Option β} {xs xs' : List α} (hperm : xs.Perm xs')
    {ys : List β} (h : xs.mapM f = some ys) : ∃ ys', xs'.mapM f = some ys' ∧ ys.Perm ys' := by
  obtain ⟨ys', hys', hperm'⟩ := List.perm_comp_forall₂ hperm.symm (forall₂_of_mapM_some h)
  exact ⟨ys', mapM_some_of_forall₂ hys', hperm'.symm⟩

namespace RunRequest

variable {settings : AppSettings} {around : Surroundings} {payload payload' : RunRequest}

/-- A turn of the loop over the timeframes that goes through. -/
def loadTimeframe (settings : AppSettings) (around : Surroundings) (payload : RunRequest) (tf : String)
    (store : BarStore) : Option (BarStore × List Bar) :=
  match ensureRecentBars (settings.backfill around) (around.clock tf) (payload.canonical settings)
    tf payload.minimumBars payload.barLimit store with
  | .error _ => none
  | .ok store =>
    (loadBars settings.caseMap store (payload.canonical settings) tf payload.barLimit).map
      fun bars => (store, bars)

theorem loadTimeframe_eq_some {tf : String} {store store' : BarStore} {bars : List Bar} :
    payload.loadTimeframe settings around tf store = some (store', bars) ↔
      ensureRecentBars (settings.backfill around) (around.clock tf) (payload.canonical settings)
          tf payload.minimumBars payload.barLimit store = .ok store' ∧
        loadBars settings.caseMap store' (payload.canonical settings) tf payload.barLimit =
          some bars := by
  unfold loadTimeframe
  cases ensureRecentBars (settings.backfill around) (around.clock tf) (payload.canonical settings)
      tf payload.minimumBars payload.barLimit store with
  | error e => simp
  | ok s =>
    simp only [Option.map_eq_some_iff, Prod.mk.injEq, Except.ok.injEq]
    constructor
    · rintro ⟨b, hb, rfl, rfl⟩
      exact ⟨rfl, hb⟩
    · rintro ⟨rfl, hb⟩
      exact ⟨bars, hb, rfl, rfl⟩

/-- The loop goes through when all its turns do. -/
theorem loadTimeframes_eq_ok {tfs : List String} {store store' : BarStore}
    {loaded : List (String × List Bar)} :
    payload.loadTimeframes settings around tfs store = some (store', .ok loaded) ↔
      runAll (payload.loadTimeframe settings around) tfs store = some (store', loaded) := by
  induction tfs generalizing store loaded with
  | nil => simp [loadTimeframes, runAll]
  | cons tf tfs ih =>
    rw [runAll_cons]
    simp only [loadTimeframe_eq_some]
    unfold loadTimeframes
    cases hensure : ensureRecentBars (settings.backfill around) (around.clock tf)
        (payload.canonical settings) tf payload.minimumBars payload.barLimit store with
    | error e => simp
    | ok store₁ =>
      simp only [bind, Option.bind_eq_some_iff, Except.ok.injEq]
      constructor
      · rintro ⟨bars, hbars, ⟨store₂, rest⟩, hrest, hret⟩
        cases rest with
        | error e => cases hret
        | ok rest =>
          cases hret
          exact ⟨store₁, bars, rest, ⟨rfl, hbars⟩, ih.mp hrest, rfl⟩
      · rintro ⟨_, bars, rest, ⟨rfl, hbars⟩, hrest, rfl⟩
        refine ⟨bars, hbars, (store', .ok rest), ih.mpr hrest, ?_⟩
        simp only [Except.map, pure]

/-- **One turn of the loop is local** to the bars of its timeframe, where the loader looks for them
under the same key. -/
theorem loadTimeframe_local (hcm : settings.caseMap.Idempotent) {tf : String}
    (htf : settings.caseMap.upperStr tf = tf) :
    LocalAt seriesView (payload.canonical settings, tf) (payload.loadTimeframe settings around tf) where
  frame := by
    rintro store store' bars h ⟨s, t⟩ hother
    exact ensureRecentBars_frame (loadTimeframe_eq_some.mp h).1 hother
  congr := by
    intro store store' bars other h hview
    obtain ⟨hensure, hload⟩ := loadTimeframe_eq_some.mp h
    simp only [seriesView] at hview ⊢
    obtain ⟨other', hensure', hview'⟩ := ensureRecentBars_congr hensure hview
    refine ⟨other', loadTimeframe_eq_some.mpr ⟨hensure', ?_⟩, hview'⟩
    rw [← hload, loadBars, loadBars, loadRows, loadRows, loadSelection, loadSelection, canonical,
      upperStr_canonicalSymbol hcm, htf]
    rw [canonical] at hview'
    rw [hview']

/-- The requests name the same timeframes, in any order and spelling, and agree in everything else. -/
structure SameTimeframes (cm : CaseMap) (payload payload' : RunRequest) : Prop where
  named : ∀ tf, tf ∈ payload.requestedTfs cm ↔ tf ∈ payload'.requestedTfs cm
  rest : payload' = { payload with timeframes := payload'.timeframes }

theorem requestedTfs_nodup (cm : CaseMap) (payload : RunRequest) : (payload.requestedTfs cm).Nodup :=
  nodup_eraseDups _

/-- A timeframe of the request is in upper case. -/
theorem upperStr_requested {cm : CaseMap} (hcm : cm.Idempotent) {tf : String}
    (h : tf ∈ payload.requestedTfs cm) : cm.upperStr tf = tf := by
  have hnormal : ∀ s, cm.upperStr (cm.normalTimeframe s) = cm.normalTimeframe s := fun s =>
    upperStr_stripStr hcm (CaseMap.Idempotent.upperStr_upperStr hcm s)
  rw [AnalysisRequest.requestedTfs, normalizeTimeframes, List.mem_eraseDups] at h
  have hnamed : ∀ t ∈ ((payload.timeframes.getD []).filter fun t =>
      t ≠ "" ∧ stripStr t ≠ "").map cm.normalTimeframe, cm.upperStr t = t := by
    intro t ht
    obtain ⟨s, -, rfl⟩ := List.mem_map.mp ht
    exact hnormal s
  split at h
  · exact hnamed tf h
  · obtain h | h := List.mem_append.mp h
    · exact hnamed tf h
    · rw [List.mem_singleton.mp h]
      exact hnormal _

namespace SameTimeframes

variable {cm : CaseMap}

theorem requestedTfs_perm (h : SameTimeframes cm payload payload') :
    (payload.requestedTfs cm).Perm (payload'.requestedTfs cm) :=
  (List.perm_ext_iff_of_nodup (requestedTfs_nodup cm payload) (requestedTfs_nodup cm payload')).mpr
    h.named

theorem canonical (h : SameTimeframes cm payload payload') :
    payload'.canonical settings = payload.canonical settings := by
  rw [h.rest]
  rfl

theorem primaryTf (h : SameTimeframes cm payload payload') :
    payload'.primaryTf settings = payload.primaryTf settings := by
  rw [h.rest]
  rfl

theorem minimumBars (h : SameTimeframes cm payload payload') :
    payload'.minimumBars = payload.minimumBars := by
  rw [h.rest]
  rfl

theorem barLimit (h : SameTimeframes cm payload payload') : payload'.barLimit = payload.barLimit := by
  rw [h.rest]

theorem loadTimeframe (h : SameTimeframes cm payload payload') :
    payload'.loadTimeframe settings around = payload.loadTimeframe settings around := by
  funext tf store
  rw [RunRequest.loadTimeframe, RunRequest.loadTimeframe, h.canonical, h.minimumBars, h.barLimit]

/-- **The loop over the timeframes**, in the order of the other request. -/
theorem loadTimeframes (h : SameTimeframes settings.caseMap payload payload')
    (hcm : settings.caseMap.Idempotent) {store store₁ : BarStore} {loaded : List (String × List Bar)}
    (hrun : payload.loadTimeframes settings around (payload.requestedTfs settings.caseMap) store =
      some (store₁, .ok loaded)) :
    ∃ store₂ loaded', payload'.loadTimeframes settings around
        (payload'.requestedTfs settings.caseMap) store = some (store₂, .ok loaded') ∧
      loaded.Perm loaded' ∧ SameViews seriesView store₁ store₂ := by
  rw [loadTimeframes_eq_ok] at hrun
  have hlocal : ∀ tf ∈ payload.requestedTfs settings.caseMap,
      LocalAt seriesView (payload.canonical settings, tf)
        (payload.loadTimeframe settings around tf) :=
    fun tf htf => loadTimeframe_local hcm (upperStr_requested hcm htf)
  have hplaces : ((payload.requestedTfs settings.caseMap).map
      fun tf => (payload.canonical settings, tf)).Nodup :=
    (requestedTfs_nodup _ payload).map fun _ _ he => (Prod.mk.inj he).2
  obtain ⟨store₂, loaded', hrun', hperm, hviews⟩ :=
    runAll_perm h.requestedTfs_perm hlocal hplaces hrun
  refine ⟨store₂, loaded', ?_, hperm, hviews⟩
  rw [loadTimeframes_eq_ok, h.loadTimeframe]
  exact hrun'

/-- Correlated bars are loaded from stores that show the same. -/
theorem loadCorrelated (h : SameTimeframes settings.caseMap payload payload')
    {store₁ store₂ : BarStore} (hviews : SameViews seriesView store₁ store₂)
    {correlated : List (String × List Bar)}
    (hload : payload.loadCorrelated settings store₁ = some correlated) :
    ∃ correlated', payload'.loadCorrelated settings store₂ = some correlated' ∧
      correlated.Perm correlated' := by
  have hcorr : payload'.corrSymbol settings = payload.corrSymbol settings := by
    rw [h.rest]
    rfl
  have hbars : ∀ symbol tf, loadBars settings.caseMap store₂ symbol tf payload.barLimit =
      loadBars settings.caseMap store₁ symbol tf payload.barLimit := by
    intro symbol tf
    have hview := hviews (settings.caseMap.upperStr symbol, settings.caseMap.upperStr tf)
    simp only [seriesView] at hview
    rw [loadBars, loadBars, loadRows, loadRows, loadSelection, loadSelection, hview]
  unfold RunRequest.loadCorrelated at *
  rw [hcorr]
  cases hs : payload.corrSymbol settings with
  | none =>
    simp only [hs] at hload
    exact ⟨correlated, hload, .rfl⟩
  | some symbol =>
    simp only [hs] at hload
    simp only [h.barLimit, hbars]
    exact mapM_some_perm h.requestedTfs_perm hload

/-- The bars that the pipeline gets. -/
theorem barsOf (h : SameTimeframes settings.caseMap payload payload')
    {loaded loaded' : List (String × List Bar)} (hperm : loaded.Perm loaded')
    (hnodup : (loaded.map (·.1)).Nodup) :
    (payload.barsOf settings loaded).Reordered (payload'.barsOf settings loaded') := by
  have hsame : (TfMap.mk loaded hnodup).Reordered
      ⟨loaded', (hperm.map _).nodup_iff.mp hnodup⟩ := hperm
  have hlookup : ∀ tf, loaded'.lookup tf = loaded.lookup tf := hsame.get?_eq
  unfold TfMap.Reordered RunRequest.barsOf timeframeBars
  simp only [hlookup]
  exact h.requestedTfs_perm.filterMap _

/-- The calls of the pipeline. -/
theorem input (around : Surroundings) (h : SameTimeframes settings.caseMap payload payload')
    {loaded loaded' correlated correlated' : List (String × List Bar)}
    (hloaded : loaded.Perm loaded') (hnodup : (loaded.map (·.1)).Nodup)
    (hcorrelated : correlated.Perm correlated') (hnodup' : (correlated.map (·.1)).Nodup)
    (events : List EconomicEvent) (blackout : Bool) :
    (payload.input settings around loaded correlated events blackout).Reordered
      (payload'.input settings around loaded' correlated' events blackout) where
  bars := h.barsOf hloaded hnodup
  correlated := .some (h.barsOf hcorrelated hnodup')
  rest := by
    have hbars := h.rest
    simp only [RunRequest.input, h.canonical, h.primaryTf]
    rw [hbars]
    rfl

end SameTimeframes

/-! ## The signal -/

end RunRequest

/-- The same signal. Its evidence may list the timeframes in another order, and the narrator may tell
another story of it. -/
structure SignalObject.Reordered (s s' : SignalObject) : Prop where
  confluence : Option.Rel (Option.Rel Evidence.Reordered) s.confluence s'.confluence
  rest : s' = { s with confluence := s'.confluence, reasoning := s'.reasoning }

/-- An insert succeeds with another row of the same key. -/
theorem insertRow_same_key {α κ : Type} {key : α → κ} [DecidableEq κ] {fails : Bool}
    {t t' : UniqueTable key} {row row' : α} (hkey : key row' = key row)
    (h : insertRow fails t row = some t') :
    ∃ t'', insertRow fails t row' = some t'' ∧ t''.rows = t.rows ++ [row'] := by
  obtain ⟨rfl, hrows⟩ := insertRow_eq_some h
  have hnodup : ((t.rows ++ [row']).map key).Nodup := by
    have hold := t'.nodup
    rwa [hrows, List.map_append, List.map_singleton, ← hkey, ← List.map_singleton,
      ← List.map_append] at hold
  exact ⟨⟨_, hnodup⟩, UniqueTable.commit_eq_some.mpr rfl, rfl⟩

/-- Two calls that store the same run and signal, up to the order of the timeframes and the text. -/
structure PersistCall.Reordered (call call' : PersistCall) : Prop where
  result : call.result.Reordered call'.result
  rest : call' = { call with result := call'.result, narrative := call'.narrative }

namespace PersistCall.Reordered

variable {call call' : PersistCall}

theorem signal (h : call.Reordered call') : call'.signal.toSignal = call.signal.toSignal := by
  simp only [PersistCall.signal]
  rw [h.rest, h.result.rest]
  rfl

theorem object (h : call.Reordered call') : call.signal.object.Reordered call'.signal.object where
  confluence := .some h.result.evidence
  rest := by
    simp only [PersistCall.signal, SignalRow.object]
    rw [h.rest, h.result.rest]
    rfl

/-- **What is stored.** -/
theorem persist (h : call.Reordered call') {db db₁ : AnalysisDb} {run : AnalysisRun}
    {signal : SignalRow} (hstored : db.persistAnalysis call = .ok (db₁, run, signal)) :
    ∃ db₂ run', db.persistAnalysis call' = .ok (db₂, run', call'.signal) ∧
      db₂.signalDb = db₁.signalDb := by
  obtain ⟨-, rfl, runs, signals, rfl, -, hsignals⟩ := AnalysisDb.persistAnalysis_eq_ok hstored
  have hflush : call'.flushFails = call.flushFails := by rw [h.rest]
  have hcommit : call'.commitFails = call.commitFails := by rw [h.rest]
  have hrunId : AnalysisRun.id call'.run = AnalysisRun.id call.run := by
    simp only [PersistCall.run]
    rw [h.rest]
  have hsignalId : call'.signal.key = call.signal.key := congrArg Signal.id h.signal
  unfold AnalysisDb.persistAnalysis at hstored ⊢
  cases hr : insertRow call.flushFails db.runs call.run with
  | none => simp only [hr] at hstored; cases hstored
  | some runs₁ =>
    cases hs : insertRow call.commitFails db.signals call.signal with
    | none => simp only [hr, hs] at hstored; cases hstored
    | some signals₁ =>
      obtain ⟨runs₂, hr₂, -⟩ := insertRow_same_key hrunId hr
      obtain ⟨signals₂, hs₂, hrows⟩ := insertRow_same_key hsignalId hs
      simp only [hflush, hcommit, hr₂, hs₂]
      refine ⟨_, _, rfl, ?_⟩
      have hqueue : (call'.store db runs₂ signals₂).queue = (call.store db runs signals).queue := by
        refine UniqueTable.ext_rows ?_
        simp only [AnalysisDb.queue_rows, PersistCall.store, hrows, hsignals, List.map_append,
          List.map_singleton, h.signal]
      unfold AnalysisDb.signalDb
      rw [hqueue]
      rfl

end PersistCall.Reordered

namespace RunRequest.SameTimeframes

variable {settings : AppSettings} {around : Surroundings} {payload payload' : RunRequest}

theorem persistCall (around : Surroundings) (h : SameTimeframes settings.caseMap payload payload')
    (events : List EconomicEvent) {result result' : AnalysisResult} (hr : result.Reordered result') :
    (payload.persistCall settings around events result).Reordered
      (payload'.persistCall settings around events result') where
  result := hr
  rest := by
    simp only [RunRequest.persistCall, h.canonical, h.primaryTf]
    rw [h.rest]
    rfl

theorem transient (settings : AppSettings) (around : Surroundings) (payload : RunRequest)
    {result result' : AnalysisResult} (hr : result.Reordered result') (narrative narrative' : String) :
    (transientSignal around.signalId around.signalCreatedAt (payload.canonical settings)
      (payload.primaryTf settings) result narrative).Reordered
    (transientSignal around.signalId around.signalCreatedAt (payload.canonical settings)
      (payload.primaryTf settings) result' narrative') where
  confluence := .some hr.evidence
  rest := by
    simp only [transientSignal]
    rw [hr.rest]

/-- Two ends of a request: the same bars and signals are stored, and the same signal is returned. -/
structure SameAnswer (settings : AppSettings) (db₁ db₂ : ServiceDb) (signal₁ signal₂ : SignalObject) :
    Prop where
  bars : SameViews seriesView db₁.bars db₂.bars
  signals : db₂.analysis.signalDb = db₁.analysis.signalDb
  signal : signal₁.Reordered signal₂
  told : settings.anthropicApiKey = "" ∨ settings.anthropicInstalled = false →
    signal₂.reasoning = signal₁.reasoning

/-- Without a narrator the explanation is that of the pipeline. -/
theorem narrative (payload payload' : RunRequest) {result result' : AnalysisResult}
    (hr : result.Reordered result')
    (hsilent : settings.anthropicApiKey = "" ∨ settings.anthropicInstalled = false) :
    payload'.narrative settings around result' = payload.narrative settings around result := by
  have hplain : ∀ (p : RunRequest) (r : AnalysisResult),
      p.narrative settings around r = r.reasoning := by
    intro p r
    unfold RunRequest.narrative generateNarrative
    obtain hkey | hinstalled := hsilent
    · rw [if_pos hkey]
      rfl
    · rw [hinstalled]
      split <;> rfl
  rw [hplain, hplain, hr.rest]

/-- The end of the request. -/
theorem answer (h : SameTimeframes settings.caseMap payload payload')
    (events : List EconomicEvent) {result result' : AnalysisResult} (hr : result.Reordered result')
    {db₁ db₂ db₁' : ServiceDb} {signal : SignalObject} (hbars : SameViews seriesView db₁.bars db₂.bars)
    (hanalysis : db₂.analysis = db₁.analysis)
    (hret : payload.answer settings around events result db₁ = (db₁', .ok signal)) :
    ∃ db₂' signal', payload'.answer settings around events result' db₂ = (db₂', .ok signal') ∧
      SameAnswer settings db₁' db₂' signal signal' := by
  have hpersist : payload'.persist = payload.persist := by rw [h.rest]
  unfold RunRequest.answer at hret ⊢
  rw [hpersist]
  cases hp : payload.persist with
  | false =>
    rw [hp] at hret
    cases hret
    refine ⟨_, _, rfl, hbars, by rw [hanalysis], ?_, fun hsilent => ?_⟩
    · rw [h.canonical, h.primaryTf]
      exact transient settings around payload hr _ _
    · exact congrArg some (narrative payload payload' hr hsilent)
  | true =>
    simp only [hp, ↓reduceIte] at hret
    cases hstored : db₁.analysis.persistAnalysis
        (payload.persistCall settings around events result) with
    | error e => simp only [hstored] at hret; cases hret
    | ok stored =>
      obtain ⟨analysis, run, row⟩ := stored
      simp only [hstored, Prod.mk.injEq, Surroundings.refresh_eq_ok] at hret
      obtain ⟨rfl, hreload, rfl⟩ := hret
      have hcall := h.persistCall around events hr
      obtain ⟨analysis₂, run₂, hstored₂, hsignals⟩ := hcall.persist hstored
      obtain ⟨-, rfl, -⟩ := AnalysisDb.persistAnalysis_eq_ok hstored
      rw [hanalysis]
      simp only [↓reduceIte, hstored₂, Prod.mk.injEq, Surroundings.refresh_eq_ok]
      refine ⟨_, _, ⟨rfl, hreload, rfl⟩, hbars, hsignals, hcall.object, fun hsilent => ?_⟩
      exact congrArg some (narrative payload payload' hr hsilent)

/-- The request from the calendar on. -/
theorem conclude (h : SameTimeframes settings.caseMap payload payload')
    {loaded loaded' correlated correlated' : List (String × List Bar)}
    (hloaded : loaded.Perm loaded') (hnodup : (loaded.map (·.1)).Nodup)
    (hcorrelated : correlated.Perm correlated') (hnodup' : (correlated.map (·.1)).Nodup)
    {db₁ db₂ db₁' : ServiceDb} {signal : SignalObject} (hbars : SameViews seriesView db₁.bars db₂.bars)
    (hanalysis : db₂.analysis = db₁.analysis)
    (hret : payload.conclude settings around loaded correlated db₁ = (db₁', .ok signal)) :
    ∃ db₂' signal', payload'.conclude settings around loaded' correlated' db₂ = (db₂', .ok signal') ∧
      SameAnswer settings db₁' db₂' signal signal' := by
  have hcalendar : payload'.checkCalendarBlackout = payload.checkCalendarBlackout := by rw [h.rest]
  have hcurrencies : payload'.currencies settings = payload.currencies settings := by
    rw [RunRequest.currencies, RunRequest.currencies, h.canonical]
  unfold RunRequest.conclude at hret ⊢
  rw [hcalendar, hcurrencies]
  cases hcontext : calendarContext (settings.calendar around) payload.checkCalendarBlackout
      (payload.currencies settings) around.calendarNow with
  | error e => simp only [hcontext] at hret; cases hret
  | ok context =>
    obtain ⟨events, blackout⟩ := context
    simp only [hcontext] at hret ⊢
    cases hres : analyzeMultiTimeframe
        (payload.input settings around loaded correlated events blackout) with
    | error e => simp only [hres] at hret; cases hret
    | ok result =>
      simp only [hres] at hret
      have hinput := h.input around hloaded hnodup hcorrelated hnodup' events blackout
      obtain ⟨result', hres', hr⟩ := hinput.analyze_ok hres
      simp only [hres']
      exact h.answer events hr hbars hanalysis hret

end RunRequest.SameTimeframes

theorem RunRequest.loadCorrelated_keys {settings : AppSettings} {payload : RunRequest}
    {store : BarStore} {correlated : List (String × List Bar)}
    (h : payload.loadCorrelated settings store = some correlated) :
    (correlated.map (·.1)).Nodup := by
  unfold RunRequest.loadCorrelated at h
  cases hs : payload.corrSymbol settings with
  | none =>
    simp only [hs] at h
    cases h
    exact List.nodup_nil
  | some symbol =>
    simp only [hs] at h
    have hkeys : correlated.map (·.1) = payload.requestedTfs settings.caseMap := by
      have hall := forall₂_of_mapM_some h
      refine List.forall₂_eq_eq_eq ▸ List.forall₂_map_left_iff.mpr (hall.flip.imp ?_)
      intro e tf he
      simp only [Option.bind_eq_some_iff, pure, bind, Option.some.injEq] at he
      obtain ⟨bars, -, rfl⟩ := he
      rfl
    rw [hkeys]
    exact requestedTfs_nodup _ payload

/-- **The order of the timeframes of a request.** A request that names the timeframes of another one in
any order and spelling, repeated or not, succeeds when the other one does, against the same tables and
the same surroundings. The same bars are stored for every series afterwards, the same signals for the
EA, and the signals returned differ at most in the order of the timeframes in their evidence and in what
a narrator makes of it. -/
theorem timeframes_any_order {settings : AppSettings} {around : Surroundings}
    {payload payload' : RunRequest} (hcm : settings.caseMap.Idempotent)
    (h : RunRequest.SameTimeframes settings.caseMap payload payload') {db db₁ : ServiceDb}
    {signal : SignalObject} (hret : payload.run settings around db = some (db₁, .ok signal)) :
    ∃ db₂ signal', payload'.run settings around db = some (db₂, .ok signal') ∧
      RunRequest.SameTimeframes.SameAnswer settings db₁ db₂ signal signal' := by
  unfold RunRequest.run at hret
  cases hload : payload.loadTimeframes settings around (payload.requestedTfs settings.caseMap)
      db.bars with
  | none => simp only [hload] at hret; cases hret
  | some loadedBars =>
    obtain ⟨bars₁, r⟩ := loadedBars
    cases r with
    | error e => simp only [hload] at hret; cases hret
    | ok loaded =>
      obtain ⟨bars₂, loaded', hload', hperm, hviews⟩ := h.loadTimeframes hcm hload
      have hnodup : (loaded.map (·.1)).Nodup := by
        rw [runAll_keys (RunRequest.loadTimeframes_eq_ok.mp hload)]
        exact RunRequest.requestedTfs_nodup _ payload
      have hprimary : payload'.primaryBars settings loaded' = payload.primaryBars settings loaded := by
        unfold RunRequest.primaryBars
        rw [h.primaryTf, (h.barsOf hperm hnodup).get?_eq]
      simp only [hload] at hret
      split at hret
      · cases hret
      · rename_i henough
        simp only [bind, Option.bind_eq_some_iff] at hret
        obtain ⟨correlated, hcorrelated, hret⟩ := hret
        obtain ⟨correlated', hcorrelated', hperm'⟩ := h.loadCorrelated hviews hcorrelated
        have hbars : SameViews seriesView (ServiceDb.mk bars₁ db.analysis).bars
            (ServiceDb.mk bars₂ db.analysis).bars := hviews
        obtain ⟨db₂, signal', hret', hsame⟩ := h.conclude hperm hnodup hperm'
          (RunRequest.loadCorrelated_keys hcorrelated) hbars rfl (Option.some.inj hret)
        refine ⟨db₂, signal', ?_, hsame⟩
        unfold RunRequest.run
        simp only [hload', hprimary, h.minimumBars, henough, ↓reduceIte, hcorrelated', bind,
          Option.bind_some]
        exact congrArg some hret'

/-! ## Fixtures -/

/-- The strongly bullish series under two timeframes. -/
def twoSeriesDb : ServiceDb :=
  ⟨["M15", "H1"].foldl (fun store tf => BarCall.run demoSettings.toProviderEnv
    (.ingest { strongPayload with timeframe := tf } none) store) UniqueTable.empty, AnalysisDb.empty⟩

/-- A request for an analysis of gold that lists its timeframes so. -/
def goldRequest (timeframes : List String) : RunRequest :=
  { RunRequest.default .ascii "gold" with timeframes := some timeframes }

theorem goldRequest_same : RunRequest.SameTimeframes demoSettings.caseMap (goldRequest ["H1", "M15"])
    (goldRequest ["m15", " h1", "H1"]) where
  named := by
    have hfirst : (goldRequest ["H1", "M15"]).requestedTfs demoSettings.caseMap = ["H1", "M15"] := by
      decide +kernel
    have hsecond : (goldRequest ["m15", " h1", "H1"]).requestedTfs demoSettings.caseMap =
        ["M15", "H1"] := by decide +kernel
    intro tf
    rw [hfirst, hsecond]
    simp [or_comm]
  rest := rfl

theorem demo_any_order : ∃ db₁ db₂ signal₁ signal₂,
    (goldRequest ["H1", "M15"]).run demoSettings demoSurroundings twoSeriesDb =
      some (db₁, .ok signal₁) ∧
    (goldRequest ["m15", " h1", "H1"]).run demoSettings demoSurroundings twoSeriesDb =
      some (db₂, .ok signal₂) ∧
    RunRequest.SameTimeframes.SameAnswer demoSettings db₁ db₂ signal₁ signal₂ := by
  have hreturns : (((goldRequest ["H1", "M15"]).run demoSettings demoSurroundings twoSeriesDb).any
      fun r => r.2.toOption.isSome) = true := by decide +kernel
  obtain ⟨⟨db₁, r⟩, hrun, hr⟩ := Option.any_eq_true _ _ |>.mp hreturns
  cases r with
  | error e => cases hr
  | ok signal₁ =>
    obtain ⟨db₂, signal₂, hrun', hsame⟩ := timeframes_any_order ascii_idempotent goldRequest_same hrun
    exact ⟨db₁, db₂, signal₁, signal₂, hrun, hrun', hsame⟩

end MarketKill3r
