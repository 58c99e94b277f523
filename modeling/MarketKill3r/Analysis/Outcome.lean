import MarketKill3r.Analysis.Request

/-!
# What `run_analysis` does

`run_analysis` refuses a primary timeframe with too few bars. Whatever passes this guard goes through
every step of the pipeline: the early returns and the `ValueError` of `_validate_bars` are behind it.

* `RunOutcome`, `RunRequest.run_outcome`: **everything that a request can do**, on a store whose rows
  passed the check of their writers.
-/

namespace MarketKill3r

variable {settings : AppSettings} {around : Surroundings} {payload : RunRequest}

/-! ## The bars -/

/-- A list that the loop loads: it is what `_load_bars` returns from a store on the way. -/
def LoadedBetween (settings : AppSettings) (payload : RunRequest) (store store' : BarStore)
    (e : String × List Bar) : Prop :=
  ∃ stored, Written settings.toProviderEnv store stored ∧
    Written settings.toProviderEnv stored store' ∧
    loadBars settings.caseMap stored (payload.canonical settings) e.1 payload.barLimit = some e.2

/-- The store after the loop over the timeframes, and the lists that it loads. -/
theorem RunRequest.loadTimeframes_spec {tfs : List String} {store store' : BarStore}
    {r : Except RunError (List (String × List Bar))}
    (h : payload.loadTimeframes settings around tfs store = some (store', r)) :
    Written settings.toProviderEnv store store' ∧
      (∀ loaded, r = .ok loaded → ∀ e ∈ loaded, LoadedBetween settings payload store store' e) ∧
      ∀ e, r = .error e → (∃ f, e = .provider f) ∨ e = .database := by
  induction tfs generalizing store r with
  | nil =>
    cases h
    refine ⟨.refl, fun loaded hl => ?_, fun e he => ?_⟩
    · cases hl
      exact List.forall_mem_nil _
    · cases he
  | cons tf tfs ih =>
    unfold RunRequest.loadTimeframes at h
    cases hensure : ensureRecentBars (settings.backfill around) (around.clock tf)
        (payload.canonical settings) tf payload.minimumBars payload.barLimit store with
    | error e =>
      simp only [hensure] at h
      cases h
      refine ⟨.refl, fun loaded hl => ?_, fun e' he => ?_⟩
      · cases hl
      · cases he
        cases e with
        | provider f => exact Or.inl ⟨f, rfl⟩
        | commit _ => exact Or.inr rfl
    | ok store₁ =>
      have hwritten : Written settings.toProviderEnv store store₁ := ensureRecentBars_written hensure
      simp only [hensure, bind, Option.bind_eq_some_iff] at h
      obtain ⟨bars, hbars, ⟨store₂, rest⟩, hrest, hret⟩ := h
      cases hret
      obtain ⟨hwritten', hloaded, herror⟩ := ih hrest
      refine ⟨hwritten.trans hwritten', fun loaded hl => ?_, fun e he => ?_⟩
      · cases rest with
        | error e => cases hl
        | ok rest =>
          cases hl
          refine List.forall_mem_cons.mpr ⟨?_, fun e he => ?_⟩
          · exact ⟨store₁, hwritten, hwritten', hbars⟩
          · obtain ⟨stored, hbefore, hafter, hload⟩ := hloaded rest rfl e he
            exact ⟨stored, hwritten.trans hbefore, hafter, hload⟩
      · cases rest with
        | error e' =>
          cases he
          exact herror _ rfl
        | ok rest => cases he

/-- A loaded list passes `_validate_bars`. -/
theorem LoadedBetween.validated {store store' : BarStore} {e : String × List Bar}
    (h : LoadedBetween settings payload store store' e) (hok : OkStore store) : Validated e.2 := by
  obtain ⟨stored, hbefore, -, hload⟩ := h
  exact loadBars_validated (hbefore.ok hok) hload

/-- `_load_bars` returns as many bars as there are, up to the limit. -/
theorem loadBars_length {cm : CaseMap} {store : BarStore} {symbol timeframe : String} {limit : Nat}
    {bars : List Bar} (h : loadBars cm store symbol timeframe limit = some bars) :
    bars.length = min limit (loadSelection cm store symbol timeframe).length := by
  rw [← (loadRows_isNewest cm store symbol timeframe limit).length]
  exact (forall₂_of_mapM_some h).length_eq.symm

theorem mem_of_lookup {α β : Type} [BEq α] [LawfulBEq α] {k : α} {v : β} {xs : List (α × β)}
    (h : xs.lookup k = some v) : (k, v) ∈ xs := by
  obtain ⟨before, after, rfl, -⟩ := List.lookup_eq_some_iff.mp h
  exact List.mem_append_right _ List.mem_cons_self

/-- The lists that the pipeline gets are loaded ones, and not empty. -/
theorem RunRequest.mem_barsOf {loaded : List (String × List Bar)} :
    ∀ e ∈ (payload.barsOf settings loaded).entries, e.2 ≠ [] ∧ e ∈ loaded := by
  intro e he
  simp only [RunRequest.barsOf, timeframeBars, List.mem_filterMap] at he
  obtain ⟨tf, -, he⟩ := he
  split at he
  · cases he
  · rename_i hne
    cases he
    refine ⟨by simpa using hne, ?_⟩
    cases hl : loaded.lookup tf with
    | none => simp [hl] at hne
    | some bars => exact mem_of_lookup hl

/-- Past the guard, the primary bars are there and long enough to be evaluated. -/
theorem RunRequest.primary_of_enough {loaded : List (String × List Bar)}
    (h : payload.minimumBars ≤ (payload.primaryBars settings loaded).length) :
    (payload.barsOf settings loaded).get? (payload.primaryTf settings) =
        some (payload.primaryBars settings loaded) ∧
      Evaluated payload.lookback (payload.primaryBars settings loaded) := by
  unfold RunRequest.minimumBars at h
  refine ⟨?_, ?_⟩
  · unfold RunRequest.primaryBars at h ⊢
    cases hget : (payload.barsOf settings loaded).get? (payload.primaryTf settings) with
    | some bars => rfl
    | none =>
      rw [hget] at h
      simp only [Option.getD_none, List.length_nil] at h
      omega
  · unfold Evaluated
    omega

/-! ## Outcomes -/

/-- The pipeline was called for the request, and went through every step. -/
structure Analysed (settings : AppSettings) (payload : RunRequest) (inp : AnalysisInput)
    (result : AnalysisResult) : Prop where
  symbol : inp.symbol = payload.canonical settings
  primary : inp.primaryTimeframe = payload.primaryTf settings
  lookback : inp.lookback = payload.lookback
  minConfidence : inp.minConfidence = payload.minConfidenceToTrade
  riskRewardTarget : inp.riskRewardTarget = payload.riskRewardTarget
  returned : analyzeMultiTimeframe inp = .ok result
  full : ∃ bars lastBar, FullAnalysis inp bars lastBar result ∧ payload.minimumBars ≤ bars.length

/-- The bars of the pipeline are what `_load_bars` returned on the way to `store'`. -/
def ReadsStored (settings : AppSettings) (payload : RunRequest) (store store' : BarStore)
    (inp : AnalysisInput) : Prop :=
  ∀ e ∈ inp.timeframeBars.entries, LoadedBetween settings payload store store' e

/-- The errors of a request: too few stored bars, or a failure of a provider, of the calendar or of the
database; the pipeline only fails when its reasoning quotes a structure event that is not there. -/
inductive RunFailure (settings : AppSettings) (payload : RunRequest) (store store' : BarStore) :
    RunError → Prop
  | tooFew (received : Nat) (hfew : received < payload.minimumBars)
      (hreceived : received = 0 ∨ ∃ stored, Written settings.toProviderEnv store stored ∧
        Written settings.toProviderEnv stored store' ∧
        received = min payload.barLimit (loadSelection settings.caseMap stored
          (payload.canonical settings) (payload.primaryTf settings)).length) :
      RunFailure settings payload store store' (payload.insufficient settings received)
  | provider (e : FloatError) : RunFailure settings payload store store' (.provider e)
  | calendar (e : CalendarError) : RunFailure settings payload store store' (.calendar e)
  | database : RunFailure settings payload store store' .database
  | foreignBreak (inp : AnalysisInput) (hread : ReadsStored settings payload store store' inp)
      (hforeign : ForeignBreak inp) :
      RunFailure settings payload store store' (.pipeline .indexError)

/-- Everything that a request can do: fail before its commit; store the analysis, which is answered
unless the reload of the signal fails; or go through the pipeline and store nothing, and then the
response model refuses its signal. -/
inductive RunOutcome (settings : AppSettings) (around : Surroundings) (payload : RunRequest)
    (db : ServiceDb) : ServiceDb → ServiceResponse → Prop
  | failed (bars : BarStore) (hbars : Written settings.toProviderEnv db.bars bars) (e : RunError)
      (he : RunFailure settings payload db.bars bars e) :
      RunOutcome settings around payload db ⟨bars, db.analysis⟩ (.runError e)
  | persisted (bars : BarStore) (hbars : Written settings.toProviderEnv db.bars bars)
      (inp : AnalysisInput) (hread : ReadsStored settings payload db.bars bars inp)
      (result : AnalysisResult) (hresult : Analysed settings payload inp result)
      (events : List EconomicEvent) (analysis : AnalysisDb) (run : AnalysisRun) (signal : SignalRow)
      (hpersist : payload.persist = true) (hstored : db.analysis.persistAnalysis
        (payload.persistCall settings around events result) = .ok (analysis, run, signal)) :
      RunOutcome settings around payload db ⟨bars, analysis⟩
        (if around.refreshFails then .runError .refresh else .signal signal.object)
  | refused (bars : BarStore) (hbars : Written settings.toProviderEnv db.bars bars)
      (inp : AnalysisInput) (hread : ReadsStored settings payload db.bars bars inp)
      (result : AnalysisResult) (hresult : Analysed settings payload inp result)
      (hpersist : payload.persist = false) :
      RunOutcome settings around payload db ⟨bars, db.analysis⟩ (.runError .response)

variable (around) in
/-- The pipeline past the guard: every step, or a foreign break. -/
theorem RunRequest.analyze_past_guard {loaded : List (String × List Bar)}
    (correlated : List (String × List Bar)) (events : List EconomicEvent) (blackout : Bool)
    (hvalid : ∀ e ∈ loaded, Validated e.2)
    (henough : payload.minimumBars ≤ (payload.primaryBars settings loaded).length) :
    (∀ result, analyzeMultiTimeframe
        (payload.input settings around loaded correlated events blackout) = .ok result →
      Analysed settings payload (payload.input settings around loaded correlated events blackout)
        result) ∧
    ∀ e, analyzeMultiTimeframe (payload.input settings around loaded correlated events blackout) =
      .error e → e = .indexError ∧
        ForeignBreak (payload.input settings around loaded correlated events blackout) := by
  obtain ⟨hprimary, hev⟩ := RunRequest.primary_of_enough henough
  have hentries : ∀ e ∈ (payload.barsOf settings loaded).entries, e.2 ≠ [] ∧ Validated e.2 := by
    intro e he
    obtain ⟨hne, hmem⟩ := RunRequest.mem_barsOf e he
    exact ⟨hne, hvalid e hmem⟩
  constructor
  · intro result hresult
    refine ⟨payload.input_symbol settings around .., rfl, rfl, rfl, rfl, hresult, ?_⟩
    obtain ⟨hp, -⟩ | ⟨bars, hp, hval, ⟨hshort, -⟩ | ⟨hlong, hc⟩⟩ := analyze_eq_ok.mp hresult
    · exact absurd (hprimary.symm.trans hp) (by simp)
    · obtain rfl := Option.some.inj (hprimary.symm.trans hp)
      exact absurd hev hshort
    · obtain rfl := Option.some.inj (hprimary.symm.trans hp)
      obtain ⟨lastBar, hfull⟩ := conclude_full hp hval hlong hc
      exact ⟨_, lastBar, hfull, henough⟩
  · intro e he
    have hvals := fun e he => (hentries e he).2
    refine ⟨?_, ?_⟩
    · cases e with
      | indexError => rfl
      | valueError m => exact absurd he (analyze_noValueError hvals m)
    · by_contra hn
      have hiff : (∃ r, analyzeMultiTimeframe
          (payload.input settings around loaded correlated events blackout) = .ok r) ↔
          ¬ ForeignBreak (payload.input settings around loaded correlated events blackout) :=
        returns_iff_noForeignBreak hprimary hvals fun e he => (hentries e he).1
      obtain ⟨r, hr⟩ := hiff.mpr hn
      rw [he] at hr
      cases hr

theorem AnalysisDb.persistAnalysis_error {call : PersistCall} {db : AnalysisDb} {e : RunError}
    (h : db.persistAnalysis call = .error e) : e = .database := by
  unfold AnalysisDb.persistAnalysis at h
  split at h
  · cases h
    rfl
  · split at h
    · cases h
      rfl
    · cases h

variable (around) in
/-- The end of a request that passed the guard. -/
theorem RunRequest.conclude_outcome {db : ServiceDb} {bars : BarStore}
    {loaded : List (String × List Bar)} (correlated : List (String × List Bar))
    (hok : OkStore db.bars) (hbars : Written settings.toProviderEnv db.bars bars)
    (hloaded : ∀ e ∈ loaded, LoadedBetween settings payload db.bars bars e)
    (henough : payload.minimumBars ≤ (payload.primaryBars settings loaded).length) :
    RunOutcome settings around payload db
      (payload.conclude settings around loaded correlated { db with bars := bars }).1
      (runResponse (payload.conclude settings around loaded correlated { db with bars := bars }).2) := by
  have hvalid : ∀ e ∈ loaded, Validated e.2 := fun e he => (hloaded e he).validated hok
  have hread : ∀ events blackout, ReadsStored settings payload db.bars bars
      (payload.input settings around loaded correlated events blackout) :=
    fun _ _ e he => hloaded e (RunRequest.mem_barsOf e he).2
  unfold RunRequest.conclude
  cases calendarContext (settings.calendar around) payload.checkCalendarBlackout
      (payload.currencies settings) around.calendarNow with
  | error e => exact .failed bars hbars _ (.calendar e)
  | ok context =>
    obtain ⟨events, blackout⟩ := context
    obtain ⟨hfull, hfails⟩ :=
      RunRequest.analyze_past_guard around correlated events blackout hvalid henough
    cases hres : analyzeMultiTimeframe
        (payload.input settings around loaded correlated events blackout) with
    | error e =>
      obtain ⟨rfl, hforeign⟩ := hfails e hres
      simp only [hres]
      exact .failed bars hbars _ (.foreignBreak _ (hread events blackout) hforeign)
    | ok result =>
      have hanalysed := hfull result hres
      simp only [hres]
      unfold RunRequest.answer
      cases hp : payload.persist with
      | false =>
        simp only [Bool.false_eq_true, ↓reduceIte, runResponse_transient]
        exact .refused bars hbars _ (hread events blackout) result hanalysed hp
      | true =>
        cases hstore : db.analysis.persistAnalysis
            (payload.persistCall settings around events result) with
        | error e =>
          obtain rfl := AnalysisDb.persistAnalysis_error hstore
          simp only [↓reduceIte]
          exact .failed bars hbars _ .database
        | ok stored =>
          obtain ⟨analysis, run, signal⟩ := stored
          simp only [↓reduceIte, runResponse_refresh]
          exact .persisted bars hbars _ (hread events blackout) result hanalysed events analysis run
            signal hp hstore

/-- **What a request does.** -/
theorem RunRequest.run_outcome {db db' : ServiceDb} {r : Except RunError SignalObject}
    (hok : OkStore db.bars) (h : payload.run settings around db = some (db', r)) :
    RunOutcome settings around payload db db' (runResponse r) := by
  unfold RunRequest.run at h
  cases hload : payload.loadTimeframes settings around (payload.requestedTfs settings.caseMap)
      db.bars with
  | none => simp only [hload] at h; cases h
  | some loadedBars =>
    obtain ⟨bars, r₁⟩ := loadedBars
    obtain ⟨hbars, hloaded, herror⟩ := RunRequest.loadTimeframes_spec hload
    cases r₁ with
    | error e =>
      simp only [hload] at h
      cases h
      refine .failed bars hbars e ?_
      obtain ⟨f, rfl⟩ | rfl := herror e rfl
      · exact .provider f
      · exact .database
    | ok loaded =>
      simp only [hload] at h
      split at h
      · rename_i hfew
        cases h
        refine .failed bars hbars _ (.tooFew _ hfew ?_)
        unfold RunRequest.primaryBars
        cases hget : (payload.barsOf settings loaded).get? (payload.primaryTf settings) with
        | none => exact Or.inl rfl
        | some primary =>
          have hmem := RunRequest.mem_barsOf _ (mem_of_lookup hget)
          obtain ⟨stored, hbefore, hafter, hbarsOf⟩ := hloaded loaded rfl _ hmem.2
          exact Or.inr ⟨stored, hbefore, hafter, loadBars_length hbarsOf⟩
      · rename_i henough
        simp only [bind, Option.bind_eq_some_iff] at h
        obtain ⟨correlated, -, hret⟩ := h
        have hout := RunRequest.conclude_outcome around correlated hok hbars (hloaded loaded rfl)
          (not_lt.mp henough)
        rw [Option.some.inj hret] at hout
        exact hout

end MarketKill3r
