import MarketKill3r.Market.Loading

/-!
# Backfill on demand (`ensure_recent_bars`, `app/services/bar_ingest.py`)

Before `run_analysis` reads the bars of a timeframe, `ensure_recent_bars` asks a provider for them,
unless enough recent ones are stored. Whatever the provider answers, a bar that is already stored stays
as it is.

* `upsertMarketBars_eq`: what `upsert_market_bars` commits, also with bars that fail the check.
* `ensureRecentBars_eq`: the call is one commit of the rows that the answer gives.
* `ensureRecentBars_barCall`: it is a backfill call, or does nothing.
* `backfill_exact`: **what the call stores, when it fails, and that its repetition changes nothing.**
-/

namespace MarketKill3r

open UniqueTable (newRows)

/-! ## The provider -/

/-- The parameters of a request to the provider, apart from the key and the format. -/
structure TwelveDataQuery where
  symbol : String
  interval : String
  outputsize : Int
  deriving DecidableEq

/-- The settings of the provider, and its answer to each query: nothing when the request or the
decoding fails. -/
structure BackfillEnv extends ProviderEnv where
  twelveDataApiKey : String
  twelveData : TwelveDataQuery → Option JsonValue

/-- `_normalise_symbol` -/
def CaseMap.normaliseSymbol (cm : CaseMap) (symbol : String) : String :=
  stripStr (cm.upperStr (String.ofList ((symbol.toList.filter (· ≠ '/')).filter (· ≠ '_'))))

/-- `[item for item in values if isinstance(item, dict)]`. The items of a text are texts, and so are
those of an object. -/
def JsonValue.dicts : JsonValue → Except FloatError (List JsonDict)
  | .list items => .ok (items.filterMap fun | .dict item => some item | _ => none)
  | .str _ | .dict _ => .ok []
  | .null | .bool _ | .int _ | .float _ => .error .typeError

/-- The query that `fetch_twelve_data_bars` sends. -/
def twelveDataQuery (cm : CaseMap) (symbol interval : String) (outputsize : Int) : TwelveDataQuery :=
  ⟨cm.normaliseSymbol symbol, interval, min (max outputsize 1) 5000⟩

/-- `fetch_twelve_data_bars` -/
def fetchTwelveDataBars (env : BackfillEnv) (symbol interval : String) (outputsize : Int) :
    Except FloatError (List JsonDict) :=
  if env.twelveDataApiKey = "" then .ok []
  else
    match env.twelveData (twelveDataQuery env.caseMap symbol interval outputsize) with
    | none => .ok []
    | some (.dict payload) => ((payload.lookup "values").getD (.list [])).dicts
    | some _ => .ok []

/-! ## `ensure_recent_bars` -/

/-- `_TD_INTERVALS` -/
def tdIntervals : List (String × String) :=
  [("M1", "1min"), ("M5", "5min"), ("M15", "15min"), ("M30", "30min"), ("H1", "1h"), ("H4", "4h"),
    ("D1", "1day"), ("W1", "1week")]

/-- `timedelta(days=d)` in microseconds. -/
def timedeltaDays (d : Int) : Int := d * 86400000000

/-- `_STALE_AFTER_OVERRIDES` -/
def staleAfterOverrides : List (String × Int) :=
  [("D1", timedeltaDays 5), ("W1", timedeltaDays 10)]

/-- `stale_after`; the default is `timedelta(hours=24)`. -/
def staleAfter (timeframe : String) : Int :=
  (staleAfterOverrides.lookup timeframe).getD (timedeltaDays 1)

/-- `count >= min_bars and is_fresh`, where the clock reads `now`. -/
def RecentEnough (now : Int) (symbol timeframe : String) (minBars : Int) (store : BarStore) : Prop :=
  minBars ≤ (selectRows store symbol timeframe).length ∧
    ∃ latest ∈ ((selectRows store symbol timeframe).map MarketBar.barTime).max?,
      now - latest ≤ staleAfter timeframe

instance (now : Int) (symbol timeframe : String) (minBars : Int) (store : BarStore) :
    Decidable (RecentEnough now symbol timeframe minBars store) := by
  unfold RecentEnough
  infer_instance

/-- The exceptions of `ensure_recent_bars`. -/
inductive BackfillError
  | provider (error : FloatError)
  | commit (error : ApiError)

/-- `ensure_recent_bars` -/
def ensureRecentBars (env : BackfillEnv) (now : Int) (symbol timeframe : String)
    (minBars outputsize : Int) (store : BarStore) : Except BackfillError BarStore :=
  if RecentEnough now symbol timeframe minBars store then .ok store
  else
    match tdIntervals.lookup timeframe with
    | none => .ok store
    | some interval => do
      let rawBars ← (fetchTwelveDataBars env symbol interval outputsize).mapError .provider
      if rawBars = [] then return store
      let bars ← (parseTwelveDataBars env.toProviderEnv rawBars).mapError .provider
      let (store', _) ← (upsertMarketBars symbol timeframe bars (.num 0) store).mapError .commit
      return store'

/-! ## One commit -/

/-- The rows of a list of items, without those that fail the check. -/
def upsertRows (symbol timeframe : String) (spread : PyFloat) (bars : List BarDict) : List MarketBar :=
  bars.filterMap (upsertRow symbol timeframe spread)

theorem foldl_upsertBar_pending (symbol timeframe : String) (spread : PyFloat) (store : BarStore)
    (bars : List BarDict) (st : BarSession) :
    (bars.foldl (upsertBar symbol timeframe spread store) st).pending =
      st.pending ++ newRows MarketBar.key store.rows (upsertRows symbol timeframe spread bars) := by
  induction bars generalizing st with
  | nil => simp [upsertRows]
  | cons bar bars ih =>
    rw [List.foldl_cons, ih, upsertBar]
    cases hrow : upsertRow symbol timeframe spread bar with
    | none => simp only [upsertRows, List.filterMap_cons_none hrow]
    | some row =>
      simp only [upsertRows, List.filterMap_cons_some hrow, UniqueTable.newRows_cons]
      unfold BarSession.check
      by_cases hkey : row.key ∈ store.rows.map MarketBar.key
      · have hhas : store.Has row.key := hkey
        rw [if_pos hhas, if_pos hkey]
      · have hhas : ¬ store.Has row.key := hkey
        rw [if_neg hhas, if_neg hkey, List.append_assoc, List.singleton_append]

/-- `upsert_market_bars` returns exactly when the new keys among its rows are distinct, and then adds
the new ones. -/
theorem upsertMarketBars_eq_ok {symbol timeframe : String} {bars : List BarDict} {spread : PyFloat}
    {store store' : BarStore} :
    (∃ counters, upsertMarketBars symbol timeframe bars spread store = .ok (store', counters)) ↔
      store'.rows =
        store.rows ++ newRows MarketBar.key store.rows (upsertRows symbol timeframe spread bars) := by
  have hpending := foldl_upsertBar_pending symbol timeframe spread store bars .init
  rw [BarSession.init, List.nil_append] at hpending
  rw [← hpending, ← UniqueTable.commit_eq_some]
  unfold upsertMarketBars BarSession.commit
  cases hc : store.commit (bars.foldl (upsertBar symbol timeframe spread store) ⟨[], 0, 0⟩).pending with
  | none => simp [BarSession.init, hc, bind, Except.bind]
  | some s => simp [BarSession.init, hc, bind, Except.bind, pure, Except.pure]

/-- The rows that the answer of the provider gives. -/
def answerRows (env : BackfillEnv) (symbol timeframe interval : String) (outputsize : Int) :
    Except FloatError (List MarketBar) := do
  let rawBars ← fetchTwelveDataBars env symbol interval outputsize
  let bars ← parseTwelveDataBars env.toProviderEnv rawBars
  return upsertRows symbol timeframe (.num 0) bars

theorem mem_upsertRows {symbol timeframe : String} {spread : PyFloat} {bars : List BarDict}
    {row : MarketBar} (h : row ∈ upsertRows symbol timeframe spread bars) :
    row.symbol = symbol ∧ row.timeframe = timeframe ∧ row.candle.Ok := by
  obtain ⟨bar, -, hbar⟩ := List.mem_filterMap.mp h
  unfold upsertRow at hbar
  split at hbar
  · rename_i hok
    cases hbar
    exact ⟨rfl, rfl, hok⟩
  · cases hbar

theorem mem_answerRows {env : BackfillEnv} {symbol timeframe interval : String} {outputsize : Int}
    {rows : List MarketBar} (h : answerRows env symbol timeframe interval outputsize = .ok rows) :
    ∀ row ∈ rows, row.symbol = symbol ∧ row.timeframe = timeframe ∧ row.candle.Ok := by
  unfold answerRows at h
  cases hraw : fetchTwelveDataBars env symbol interval outputsize with
  | error e => rw [hraw] at h; cases h
  | ok rawBars =>
    cases hbars : parseTwelveDataBars env.toProviderEnv rawBars with
    | error e => simp only [hraw, bind, Except.bind, hbars] at h; cases h
    | ok bars =>
      simp only [hraw, bind, Except.bind, hbars] at h
      cases h
      exact fun row hrow => mem_upsertRows hrow

/-- The provider is asked, for bars of this interval. -/
structure Asks (env : BackfillEnv) (now : Int) (symbol timeframe : String) (minBars : Int)
    (store : BarStore) (interval : String) : Prop where
  needed : ¬ RecentEnough now symbol timeframe minBars store
  mapped : tdIntervals.lookup timeframe = some interval
  configured : env.twelveDataApiKey ≠ ""

theorem fetchTwelveDataBars_unconfigured {env : BackfillEnv} (h : env.twelveDataApiKey = "")
    (symbol interval : String) (outputsize : Int) :
    fetchTwelveDataBars env symbol interval outputsize = .ok [] := if_pos h

/-- A provider that is not asked does nothing. -/
theorem ensureRecentBars_idle {env : BackfillEnv} {now : Int} {symbol timeframe : String}
    {minBars : Int} {store : BarStore}
    (h : ∀ interval, ¬ Asks env now symbol timeframe minBars store interval) (outputsize : Int) :
    ensureRecentBars env now symbol timeframe minBars outputsize store = .ok store := by
  unfold ensureRecentBars
  by_cases hneeded : RecentEnough now symbol timeframe minBars store
  · rw [if_pos hneeded]
  · rw [if_neg hneeded]
    cases hmapped : tdIntervals.lookup timeframe with
    | none => rfl
    | some interval =>
      have hkey : env.twelveDataApiKey = "" := by
        by_contra hkey
        exact h interval ⟨hneeded, hmapped, hkey⟩
      simp only [fetchTwelveDataBars_unconfigured hkey]
      rfl

/-- **The call as one commit** of the rows that the answer gives. -/
theorem ensureRecentBars_eq_ok {env : BackfillEnv} {now : Int} {symbol timeframe interval : String}
    {minBars : Int} {store : BarStore} (h : Asks env now symbol timeframe minBars store interval)
    {outputsize : Int} {store' : BarStore} :
    ensureRecentBars env now symbol timeframe minBars outputsize store = .ok store' ↔
      ∃ rows, answerRows env symbol timeframe interval outputsize = .ok rows ∧
        store'.rows = store.rows ++ newRows MarketBar.key store.rows rows := by
  unfold ensureRecentBars answerRows
  rw [if_neg h.needed]
  simp only [h.mapped]
  cases hraw : fetchTwelveDataBars env symbol interval outputsize with
  | error e => simp [bind, Except.bind, Except.mapError]
  | ok rawBars =>
    by_cases hnil : rawBars = []
    · subst hnil
      have hparse : parseTwelveDataBars env.toProviderEnv [] = .ok [] := rfl
      simp only [bind, Except.bind, Except.mapError, hparse, ↓reduceIte, upsertRows]
      constructor
      · intro he
        cases he
        exact ⟨[], rfl, by simp⟩
      · rintro ⟨rows, hrows, hstore⟩
        cases hrows
        rw [List.filterMap_nil, UniqueTable.newRows_nil, List.append_nil] at hstore
        rw [UniqueTable.ext_rows hstore]
        rfl
    · cases hbars : parseTwelveDataBars env.toProviderEnv rawBars with
      | error e => simp [bind, Except.bind, Except.mapError, hnil, hbars]
      | ok bars =>
        simp only [bind, Except.bind, Except.mapError, hnil, hbars, ↓reduceIte, pure, Except.pure,
          Except.ok.injEq, exists_eq_left']
        rw [← upsertMarketBars_eq_ok]
        rcases upsertMarketBars symbol timeframe bars (.num 0) store with e | ⟨s, counters⟩ <;> simp

/-- Why the call fails: the answer cannot be read, or the commit is rejected. -/
theorem ensureRecentBars_eq_error {env : BackfillEnv} {now : Int}
    {symbol timeframe interval : String} {minBars : Int} {store : BarStore}
    (h : Asks env now symbol timeframe minBars store interval) (outputsize : Int) :
    (∃ e, ensureRecentBars env now symbol timeframe minBars outputsize store = .error e) ↔
      ∀ rows, answerRows env symbol timeframe interval outputsize = .ok rows →
        ¬ AbsentDistinct store rows := by
  have hok (store' : BarStore) :
      ensureRecentBars env now symbol timeframe minBars outputsize store = .ok store' ↔
        ∃ rows, answerRows env symbol timeframe interval outputsize = .ok rows ∧
          store'.rows = store.rows ++ newRows MarketBar.key store.rows rows :=
    ensureRecentBars_eq_ok h
  constructor
  · rintro ⟨e, he⟩ rows hrows hdistinct
    obtain ⟨store', hc⟩ := Option.isSome_iff_exists.mp ((commit_newRows_isSome store rows).mpr hdistinct)
    have hreturns := (hok store').mpr ⟨rows, hrows, UniqueTable.commit_eq_some.mp hc⟩
    rw [he] at hreturns
    cases hreturns
  · intro hfails
    cases hres : ensureRecentBars env now symbol timeframe minBars outputsize store with
    | error e => exact ⟨e, rfl⟩
    | ok store' =>
      obtain ⟨rows, hrows, hstore⟩ := (hok store').mp hres
      refine absurd ((commit_newRows_isSome store rows).mp ?_) (hfails rows hrows)
      rw [UniqueTable.commit_eq_some.mpr hstore]
      rfl

/-- **Repetition**: with the same answer, a later call finds nothing new. -/
theorem ensureRecentBars_again {env : BackfillEnv} {now : Int} {symbol timeframe interval : String}
    {minBars : Int} {store : BarStore} (h : Asks env now symbol timeframe minBars store interval)
    {outputsize : Int} {store' : BarStore}
    (hok : ensureRecentBars env now symbol timeframe minBars outputsize store = .ok store')
    (now' minBars' : Int) :
    ensureRecentBars env now' symbol timeframe minBars' outputsize store' = .ok store' := by
  by_cases hasks : Asks env now' symbol timeframe minBars' store' interval
  · obtain ⟨rows, hrows, hstore⟩ := (ensureRecentBars_eq_ok h).mp hok
    refine (ensureRecentBars_eq_ok hasks).mpr ⟨rows, hrows, ?_⟩
    have hnone : newRows MarketBar.key store'.rows rows = [] := by
      rw [hstore, UniqueTable.newRows_eq_nil]
    rw [hnone, List.append_nil]
  · refine ensureRecentBars_idle (fun other hother => hasks ?_) outputsize
    obtain rfl : other = interval := Option.some.inj (hother.mapped.symm.trans h.mapped)
    exact hother

/-! ## Enough bars -/

/-- The answer has enough different bar times, one of them recent. -/
def AnswersEnough (now : Int) (timeframe : String) (minBars : Int) (rows : List MarketBar) : Prop :=
  minBars ≤ (rows.map MarketBar.barTime).toFinset.card ∧
    ∃ row ∈ rows, now - row.barTime ≤ staleAfter timeframe

instance (now : Int) (timeframe : String) (minBars : Int) (rows : List MarketBar) :
    Decidable (AnswersEnough now timeframe minBars rows) := inferInstanceAs (Decidable (_ ∧ _))

/-- A store with a row for each bar time of a good answer is good. -/
theorem recentEnough_of_answer {now : Int} {symbol timeframe : String} {minBars : Int}
    {rows : List MarketBar} {store : BarStore}
    (hstored : ∀ row ∈ rows, row.barTime ∈ (selectRows store symbol timeframe).map MarketBar.barTime)
    (h : AnswersEnough now timeframe minBars rows) :
    RecentEnough now symbol timeframe minBars store := by
  obtain ⟨hcount, row, hrow, hfresh⟩ := h
  constructor
  · have hsub : (rows.map MarketBar.barTime).toFinset ⊆
        ((selectRows store symbol timeframe).map MarketBar.barTime).toFinset := by
      intro t ht
      obtain ⟨r, hr, rfl⟩ := List.mem_map.mp (List.mem_toFinset.mp ht)
      exact List.mem_toFinset.mpr (hstored r hr)
    have hcard := Finset.card_le_card hsub
    rw [List.toFinset_card_of_nodup (selectRows_nodup store symbol timeframe),
      List.length_map] at hcard
    omega
  · have hmem := hstored row hrow
    cases hmax : ((selectRows store symbol timeframe).map MarketBar.barTime).max? with
    | none =>
      rw [List.max?_eq_none_iff.mp hmax] at hmem
      cases hmem
    | some latest =>
      have hle : row.barTime ≤ latest := (List.max?_eq_some_iff.mp hmax).2 _ hmem
      exact ⟨latest, rfl, by omega⟩

/-- After the call, every row of the answer has its bar time stored. -/
theorem answer_stored {symbol timeframe : String} {rows : List MarketBar} {store store' : BarStore}
    (hkeys : ∀ row ∈ rows, row.symbol = symbol ∧ row.timeframe = timeframe)
    (hstore : store'.rows = store.rows ++ newRows MarketBar.key store.rows rows) :
    ∀ row ∈ rows, row.barTime ∈ (selectRows store' symbol timeframe).map MarketBar.barTime := by
  intro row hrow
  obtain ⟨r, hr, hkey⟩ : ∃ r ∈ store'.rows, r.key = row.key := by
    by_cases hhas : row.key ∈ store.rows.map MarketBar.key
    · obtain ⟨r, hr, hkey⟩ := List.mem_map.mp hhas
      exact ⟨r, hstore ▸ List.mem_append_left _ hr, hkey⟩
    · exact ⟨row, hstore ▸ List.mem_append_right _ (UniqueTable.mem_newRows.mpr ⟨hrow, hhas⟩), rfl⟩
  simp only [MarketBar.key, Prod.mk.injEq] at hkey
  obtain ⟨hs, ht⟩ := hkeys row hrow
  exact List.mem_map.mpr
    ⟨r, mem_selectRows.mpr ⟨hr, hkey.1.trans hs, hkey.2.1.trans ht⟩, hkey.2.2⟩

/-- Rows under other symbols or timeframes are left alone. -/
theorem selectRows_other {symbol timeframe s t : String} {rows : List MarketBar}
    {store store' : BarStore} (hkeys : ∀ row ∈ rows, row.symbol = symbol ∧ row.timeframe = timeframe)
    (hstore : store'.rows = store.rows ++ newRows MarketBar.key store.rows rows)
    (hother : (s, t) ≠ (symbol, timeframe)) : selectRows store' s t = selectRows store s t := by
  unfold selectRows
  rw [hstore, List.filter_append]
  refine (congrArg _ (List.filter_eq_nil_iff.mpr fun row hrow => ?_)).trans (List.append_nil _)
  obtain ⟨hs, ht⟩ := hkeys row (UniqueTable.mem_newRows.mp hrow).1
  rw [decide_eq_true_eq]
  rintro ⟨rfl, rfl⟩
  exact hother (by rw [hs, ht])

/-- **Backfill on demand.** The provider is asked when the stored bars are too few or too old, the
timeframe has an interval and there is a key; otherwise nothing happens. When it is asked, the call
fails exactly when its answer cannot be read, or brings an absent bar time twice. If it returns, the
bars that were stored stay as they are, and the new ones are those of the answer that pass the check;
other series are left alone; if the answer has enough different bar times and a recent one, enough
recent bars are stored; and no repetition of the call changes anything, at whatever time. -/
theorem backfill_exact (env : BackfillEnv) (now : Int) (symbol timeframe : String)
    (minBars outputsize : Int) (store : BarStore) :
    ((∀ interval, ¬ Asks env now symbol timeframe minBars store interval) →
      ensureRecentBars env now symbol timeframe minBars outputsize store = .ok store) ∧
    ∀ interval, Asks env now symbol timeframe minBars store interval →
      ((∃ e, ensureRecentBars env now symbol timeframe minBars outputsize store = .error e) ↔
        ∀ rows, answerRows env symbol timeframe interval outputsize = .ok rows →
          ¬ AbsentDistinct store rows) ∧
      ∀ store', ensureRecentBars env now symbol timeframe minBars outputsize store = .ok store' →
        ∃ rows, answerRows env symbol timeframe interval outputsize = .ok rows ∧
          (∀ row ∈ rows, row.symbol = symbol ∧ row.timeframe = timeframe ∧ row.candle.Ok) ∧
          store'.rows = store.rows ++ newRows MarketBar.key store.rows rows ∧
          (∀ s t, (s, t) ≠ (symbol, timeframe) → selectRows store' s t = selectRows store s t) ∧
          (AnswersEnough now timeframe minBars rows →
            RecentEnough now symbol timeframe minBars store') ∧
          ∀ now' minBars',
            ensureRecentBars env now' symbol timeframe minBars' outputsize store' = .ok store' := by
  refine ⟨fun h => ensureRecentBars_idle h outputsize, fun interval hasks =>
    ⟨ensureRecentBars_eq_error hasks outputsize, fun store' hok => ?_⟩⟩
  obtain ⟨rows, hrows, hstore⟩ := (ensureRecentBars_eq_ok hasks).mp hok
  have hspec := mem_answerRows hrows
  have hkeys : ∀ row ∈ rows, row.symbol = symbol ∧ row.timeframe = timeframe :=
    fun row hrow => ⟨(hspec row hrow).1, (hspec row hrow).2.1⟩
  exact ⟨rows, hrows, hspec, hstore, fun s t => selectRows_other hkeys hstore,
    recentEnough_of_answer (answer_stored hkeys hstore), ensureRecentBars_again hasks hok⟩

/-- A provider that answers every query with the first two minutes of `demoEnv`, and an item without a
close. -/
def demoBackfill : BackfillEnv where
  toProviderEnv := demoProvider
  twelveDataApiKey := "key"
  twelveData _ := some (.dict [("values", .list [.dict (demoItem (.int 11)), .dict (demoItem .null),
    .dict [("datetime", .str "2024-01-01T00:01:00+00:00"), ("open", .int 11), ("high", .int 13),
      ("low", .int 10), ("close", .int 12)]])])

/-- The first minute is stored, with another close. -/
def demoFirstMinute : BarStore :=
  (BarCall.backfill "XAUUSD" "M1" [demoItem (.int 10)]).run demoProvider UniqueTable.empty

/-- In the third minute, the provider is asked for a second bar, and brings it. -/
theorem demo_backfill_exact : ∃ store',
    ensureRecentBars demoBackfill 1704067320000000 "XAUUSD" "M1" 2 10 demoFirstMinute = .ok store' ∧
    store'.rows.map (·.close) = [.num 10, .num 12] ∧
    RecentEnough 1704067320000000 "XAUUSD" "M1" 2 store' ∧
    ∀ now' minBars',
      ensureRecentBars demoBackfill now' "XAUUSD" "M1" minBars' 10 store' = .ok store' := by
  have hasks : Asks demoBackfill 1704067320000000 "XAUUSD" "M1" 2 demoFirstMinute "1min" :=
    ⟨by decide +kernel, rfl, by decide⟩
  have hcloses : (ensureRecentBars demoBackfill 1704067320000000 "XAUUSD" "M1" 2 10
      demoFirstMinute).toOption.map (fun s => s.rows.map (·.close)) = some [.num 10, .num 12] := by
    decide +kernel
  have hanswer : (answerRows demoBackfill "XAUUSD" "M1" "1min" 10).toOption.all
      (AnswersEnough 1704067320000000 "M1" 2 ·) = true := by
    decide +kernel
  cases hok : ensureRecentBars demoBackfill 1704067320000000 "XAUUSD" "M1" 2 10 demoFirstMinute with
  | error e => rw [hok] at hcloses; cases hcloses
  | ok store' =>
    rw [hok] at hcloses
    obtain ⟨rows, hrows, -, -, -, henough, hagain⟩ :=
      ((backfill_exact demoBackfill 1704067320000000 "XAUUSD" "M1" 2 10 demoFirstMinute).2 "1min"
        hasks).2 store' hok
    rw [hrows] at hanswer
    exact ⟨store', rfl, Option.some.inj hcloses, henough (of_decide_eq_true hanswer), hagain⟩

/-! ## The writers -/

/-- The call is one of the writers' calls, or does nothing. -/
theorem ensureRecentBars_barCall {env : BackfillEnv} {now : Int} {symbol timeframe : String}
    {minBars outputsize : Int} {store store' : BarStore}
    (h : ensureRecentBars env now symbol timeframe minBars outputsize store = .ok store') :
    store' = store ∨ ∃ rawBars,
      store' = (BarCall.backfill symbol timeframe rawBars).run env.toProviderEnv store := by
  unfold ensureRecentBars at h
  split at h
  · cases h
    exact Or.inl rfl
  · split at h
    · cases h
      exact Or.inl rfl
    · rename_i interval _
      cases hraw : fetchTwelveDataBars env symbol interval outputsize with
      | error e => simp only [hraw, bind, Except.bind, Except.mapError] at h; cases h
      | ok rawBars =>
        simp only [hraw, bind, Except.bind, Except.mapError] at h
        split at h
        · cases h
          exact Or.inl rfl
        · refine Or.inr ⟨rawBars, ?_⟩
          unfold BarCall.run
          cases hbars : parseTwelveDataBars env.toProviderEnv rawBars with
          | error e => simp only [hbars] at h; cases h
          | ok bars =>
            simp only [hbars] at h ⊢
            rcases hup : upsertMarketBars symbol timeframe bars (.num 0) store with e | ⟨s, counters⟩
            · simp only [hup] at h
              cases h
            · simp only [hup] at h ⊢
              cases h
              rfl

/-- Some calls of the writers lead from one store to the other. -/
def Written (env : ProviderEnv) : BarStore → BarStore → Prop :=
  Relation.ReflTransGen fun store store' => ∃ call : BarCall, store' = call.run env store

theorem ensureRecentBars_written {env : BackfillEnv} {now : Int} {symbol timeframe : String}
    {minBars outputsize : Int} {store store' : BarStore}
    (h : ensureRecentBars env now symbol timeframe minBars outputsize store = .ok store') :
    Written env.toProviderEnv store store' := by
  obtain rfl | ⟨rawBars, rfl⟩ := ensureRecentBars_barCall h
  · exact .refl
  · exact .single ⟨.backfill symbol timeframe rawBars, rfl⟩

/-- A successful `ingest` only adds rows. -/
theorem ingest_prefix {env : MT5Env} {payload : MT5Payload} {header : Option String}
    {store store' : BarStore} {response : MT5Response}
    (h : ingest env payload header store = .ok (store', response)) : store.rows <+: store'.rows := by
  rw [ingest, ingest_key h] at h
  cases hl : payload.bars.foldlM (ingestBar env payload store) .init with
  | error e => simp only [hl, bind, Except.bind] at h; cases h
  | ok st =>
    cases hc : st.commit store with
    | error e => simp only [hl, hc, bind, Except.bind] at h; cases h
    | ok s =>
      simp only [hl, hc, bind, Except.bind] at h
      cases h
      exact ⟨_, (commit_ok_rows hc).symm⟩

theorem upsert_prefix {symbol timeframe : String} {bars : List BarDict} {spread : PyFloat}
    {store store' : BarStore} {counters : Nat × Nat}
    (h : upsertMarketBars symbol timeframe bars spread store = .ok (store', counters)) :
    store.rows <+: store'.rows :=
  ⟨_, (upsertMarketBars_eq_ok.mp ⟨counters, h⟩).symm⟩

/-- **The first feed wins**: no call changes or drops a row. -/
theorem BarCall.run_prefix (env : ProviderEnv) (call : BarCall) (store : BarStore) :
    store.rows <+: (call.run env store).rows := by
  unfold BarCall.run
  cases call with
  | ingest payload header =>
    dsimp only
    split
    · exact ingest_prefix ‹_›
    · exact List.prefix_rfl
  | upsert symbol timeframe bars spread =>
    dsimp only
    split
    · exact upsert_prefix ‹_›
    · exact List.prefix_rfl
  | backfill symbol timeframe rawBars =>
    dsimp only
    split
    · exact List.prefix_rfl
    · split
      · exact upsert_prefix ‹_›
      · exact List.prefix_rfl

theorem Written.prefix {env : ProviderEnv} {store store' : BarStore} (h : Written env store store') :
    store.rows <+: store'.rows := by
  induction h with
  | refl => exact List.prefix_rfl
  | tail _ hcall ih =>
    obtain ⟨call, rfl⟩ := hcall
    exact ih.trans (call.run_prefix env _)

/-- Every row passed the check of its writer. -/
def OkStore (store : BarStore) : Prop := ∀ r ∈ store.rows, r.candle.Ok

theorem Written.ok {env : ProviderEnv} {store store' : BarStore} (h : Written env store store')
    (hok : OkStore store) : OkStore store' := by
  induction h with
  | refl => exact hok
  | tail _ hcall ih =>
    obtain ⟨call, rfl⟩ := hcall
    intro r hr
    rcases call.run_rows env _ r hr with hr | ⟨-, hcheck⟩
    · exact ih r hr
    · exact hcheck

/-- A row that becomes a bar has finite prices. -/
theorem finite_of_toBar? {r : MarketBar} {b : Bar} (h : r.toBar? = some b) : r.candle.Finite := by
  unfold MarketBar.toBar? at h
  simp only [bind, Option.bind_eq_some_iff] at h
  obtain ⟨o, ho, hi, hh, l, hl, c, hc, -⟩ := h
  exact ⟨by simp [MarketBar.candle, ho], by simp [MarketBar.candle, hh],
    by simp [MarketBar.candle, hl], by simp [MarketBar.candle, hc]⟩

/-- What `_load_bars` returns from checked rows passes `_validate_bars`. -/
theorem loadBars_validated {cm : CaseMap} {store : BarStore} {symbol timeframe : String} {limit : Nat}
    {bars : List Bar} (hok : OkStore store)
    (h : loadBars cm store symbol timeframe limit = some bars) : Validated bars := by
  have hnew := loadRows_isNewest cm store symbol timeframe limit
  have hall := forall₂_of_mapM_some h
  refine validated_of_rows hnew.ascending (fun r hr => ⟨?_, ?_⟩) hall
  · exact hok r (mem_selectRows.mp (hnew.selected r hr)).1
  · obtain ⟨b, -, hb⟩ := exists_of_mem_forall₂ hall.flip hr
    exact finite_of_toBar? hb

end MarketKill3r
