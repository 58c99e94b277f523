import MarketKill3r.Market.Freshness
import MarketKill3r.Market.Keys

/-!
# The bars of some symbols

`own` says which symbols somebody works with. On the bars of these symbols alone, a writer or reader of
one of them does what it does on all bars; a writer of another symbol leaves them as they are.

* `BarStore.part`: the bars of the symbols.
* `ingest_part`, `ensureRecentBars_part`, `loadBars_part`, `chartBars_part`: these bars suffice.
* `ingest_other`, `ensureRecentBars_other`: these bars are left as they are.
-/

namespace MarketKill3r

open UniqueTable (newRows)

/-- The bars of the symbols. -/
def BarStore.part (own : String → Bool) (store : BarStore) : BarStore :=
  store.restrict fun row => own row.symbol

variable {own : String → Bool} {store store' : BarStore}

/-- A key of one of the symbols is in all bars when it is in theirs. -/
theorem has_part {row : MarketBar} (h : own row.symbol = true) :
    (BarStore.part own store).Has row.key ↔ store.Has row.key := by
  refine UniqueTable.restrict_has fun x _ hkey => ?_
  rw [show x.symbol = row.symbol from (Prod.mk.inj hkey).1]
  exact h

theorem selectRows_part {symbol : String} (h : own symbol = true) (timeframe : String) :
    selectRows (BarStore.part own store) symbol timeframe = selectRows store symbol timeframe := by
  unfold selectRows
  simp only [BarStore.part, UniqueTable.restrict, List.filter_filter]
  refine List.filter_congr fun row _ => ?_
  by_cases hrow : row.symbol = symbol ∧ row.timeframe = timeframe
  · rw [hrow.1, h, Bool.and_true]
  · rw [decide_eq_false hrow, Bool.false_and]

/-- A batch of one of the symbols. -/
theorem commit_part {rows : List MarketBar} (h : ∀ row ∈ rows, own row.symbol = true) :
    (BarStore.part own store).commit rows = (store.commit rows).map (BarStore.part own) := by
  refine UniqueTable.restrict_commit h fun row hrow x _ hkey => ?_
  rw [show x.symbol = row.symbol from (Prod.mk.inj hkey).1]
  exact h row hrow

/-- A session of one of the symbols. -/
theorem BarSession.commit_part {st : BarSession} (h : ∀ row ∈ st.pending, own row.symbol = true) :
    st.commit (BarStore.part own store) = (st.commit store).map (BarStore.part own) := by
  unfold BarSession.commit
  rw [MarketKill3r.commit_part h]
  cases store.commit st.pending <;> rfl

theorem BarSession.check_part (st : BarSession) {row : MarketBar} (h : own row.symbol = true) :
    st.check (BarStore.part own store) row = st.check store row := by
  unfold BarSession.check
  simp only [has_part h]

/-- What a session adds, it has checked. -/
theorem BarSession.check_pending {p : MarketBar → Prop} {st : BarSession} {row : MarketBar} (hrow : p row)
    (h : ∀ r ∈ st.pending, p r) : ∀ r ∈ (st.check store row).pending, p r := by
  unfold BarSession.check
  split
  · exact h
  · exact List.forall_mem_append.mpr ⟨h, List.forall_mem_singleton.mpr hrow⟩

/-! ## `ingest` -/

theorem ingestRow_symbol {env : MT5Env} {payload : MT5Payload} {bar : OHLCBar} {row : MarketBar}
    (h : ingestRow env payload bar = .ok row) :
    row.symbol = canonicalSymbol env.caseMap payload.symbol := by
  obtain ⟨time, -, hkey⟩ := ingestRow_key h
  exact (Prod.mk.inj hkey).1

/-- The rows that the loop of `ingest` adds are of the symbol of the payload. -/
theorem ingest_loop_pending {env : MT5Env} {payload : MT5Payload} {bars : List OHLCBar}
    {st st' : BarSession} (h : bars.foldlM (ingestBar env payload store) st = .ok st')
    (hst : ∀ row ∈ st.pending, row.symbol = canonicalSymbol env.caseMap payload.symbol) :
    ∀ row ∈ st'.pending, row.symbol = canonicalSymbol env.caseMap payload.symbol := by
  induction bars generalizing st with
  | nil =>
    cases h
    exact hst
  | cons bar bars ih =>
    rw [List.foldlM_cons] at h
    cases hrow : ingestRow env payload bar with
    | error e => rw [ingestBar, hrow] at h; cases h
    | ok row =>
      rw [ingestBar_eq store st hrow] at h
      exact ih h (BarSession.check_pending (ingestRow_symbol hrow) hst)

/-- **`ingest` of one of the symbols** needs the bars of the symbols alone. -/
theorem ingest_part {env : MT5Env} {payload : MT5Payload}
    (h : own (canonicalSymbol env.caseMap payload.symbol) = true) (key : Option String) :
    ingest env payload key (BarStore.part own store) =
      (ingest env payload key store).map fun r => (r.1.part own, r.2) := by
  have hloop : ingestBar env payload (BarStore.part own store) = ingestBar env payload store := by
    funext st bar
    unfold ingestBar
    cases hrow : ingestRow env payload bar with
    | error e => rfl
    | ok row =>
      have hown : own row.symbol = true := by rw [ingestRow_symbol hrow, h]
      exact congrArg Except.ok (st.check_part hown)
  unfold ingest
  rw [hloop]
  cases keyRejected env key with
  | true => rfl
  | false =>
    simp only [Bool.false_eq_true, ↓reduceIte, bind, Except.bind, pure, Except.pure]
    cases hst : payload.bars.foldlM (ingestBar env payload store) .init with
    | error e => rfl
    | ok st =>
      have hpending : ∀ row ∈ st.pending, own row.symbol = true := fun row hrow => by
        rw [ingest_loop_pending hst (List.forall_mem_nil _) row hrow, h]
      simp only [BarSession.commit_part hpending]
      cases st.commit store <;> rfl

/-- `ingest` of another symbol. -/
theorem ingest_other {env : MT5Env} {payload : MT5Payload} {key : Option String}
    {response : MT5Response} (h : own (canonicalSymbol env.caseMap payload.symbol) = false)
    (hing : ingest env payload key store = .ok (store', response)) :
    store'.part own = BarStore.part own store := by
  unfold ingest at hing
  split at hing
  · cases hing
  · simp only [bind, Except.bind, pure, Except.pure] at hing
    cases hst : payload.bars.foldlM (ingestBar env payload store) .init with
    | error e => simp only [hst] at hing; cases hing
    | ok st =>
      simp only [hst, BarSession.commit] at hing
      cases hc : store.commit st.pending with
      | none => simp only [hc] at hing; cases hing
      | some s =>
        simp only [hc] at hing
        cases hing
        refine UniqueTable.restrict_append_other (fun row hrow => ?_) (UniqueTable.commit_eq_some.mp hc)
        rw [ingest_loop_pending hst (List.forall_mem_nil _) row hrow, h]

/-! ## `ensure_recent_bars` -/

theorem upsertRow_symbol {symbol timeframe : String} {spread : PyFloat} {bar : BarDict}
    {row : MarketBar} (h : upsertRow symbol timeframe spread bar = some row) : row.symbol = symbol :=
  (mem_upsertRows (List.mem_filterMap.mpr ⟨bar, List.mem_singleton_self bar, h⟩)).1

theorem upsertMarketBars_part {symbol : String} (h : own symbol = true) (timeframe : String)
    (bars : List BarDict) (spread : PyFloat) :
    upsertMarketBars symbol timeframe bars spread (BarStore.part own store) =
      (upsertMarketBars symbol timeframe bars spread store).map fun r => (r.1.part own, r.2) := by
  have hloop : upsertBar symbol timeframe spread (BarStore.part own store) =
      upsertBar symbol timeframe spread store := by
    funext st bar
    unfold upsertBar
    cases hrow : upsertRow symbol timeframe spread bar with
    | none => rfl
    | some row => exact st.check_part (by rw [upsertRow_symbol hrow, h])
  have hpending : ∀ row ∈ (bars.foldl (upsertBar symbol timeframe spread store) .init).pending,
      own row.symbol = true := by
    intro row hrow
    rw [foldl_upsertBar_pending, BarSession.init, List.nil_append] at hrow
    rw [(mem_upsertRows (UniqueTable.mem_newRows.mp hrow).1).1, h]
  unfold upsertMarketBars
  simp only [hloop, BarSession.commit_part hpending]
  cases (bars.foldl (upsertBar symbol timeframe spread store) .init).commit store <;> rfl

theorem recentEnough_part {symbol : String} (h : own symbol = true) (now : Int) (timeframe : String)
    (minBars : Int) : RecentEnough now symbol timeframe minBars (BarStore.part own store) ↔
      RecentEnough now symbol timeframe minBars store := by
  unfold RecentEnough
  rw [selectRows_part h]

/-- **A backfill for one of the symbols** needs the bars of the symbols alone. -/
theorem ensureRecentBars_part {symbol : String} (h : own symbol = true) (env : BackfillEnv) (now : Int)
    (timeframe : String) (minBars outputsize : Int) :
    ensureRecentBars env now symbol timeframe minBars outputsize (BarStore.part own store) =
      (ensureRecentBars env now symbol timeframe minBars outputsize store).map
        (BarStore.part own) := by
  unfold ensureRecentBars
  by_cases hrecent : RecentEnough now symbol timeframe minBars store
  · rw [if_pos hrecent, if_pos ((recentEnough_part h now timeframe minBars).mpr hrecent)]
    rfl
  · rw [if_neg hrecent, if_neg (mt (recentEnough_part h now timeframe minBars).mp hrecent)]
    cases tdIntervals.lookup timeframe with
    | none => rfl
    | some interval =>
      simp only [bind, Except.bind]
      cases fetchTwelveDataBars env symbol interval outputsize with
      | error e => rfl
      | ok rawBars =>
        by_cases hnil : rawBars = []
        · simp only [Except.mapError, if_pos hnil]
          rfl
        · simp only [Except.mapError, if_neg hnil]
          cases parseTwelveDataBars env.toProviderEnv rawBars with
          | error e => rfl
          | ok bars =>
            simp only [upsertMarketBars_part h]
            cases upsertMarketBars symbol timeframe bars (.num 0) store <;> rfl

/-- A backfill for another symbol. -/
theorem ensureRecentBars_other {env : BackfillEnv} {now : Int} {symbol timeframe : String}
    {minBars outputsize : Int} (h : own symbol = false)
    (hok : ensureRecentBars env now symbol timeframe minBars outputsize store = .ok store') :
    store'.part own = BarStore.part own store := by
  by_cases hasks : ∃ interval, Asks env now symbol timeframe minBars store interval
  · obtain ⟨interval, hasks⟩ := hasks
    obtain ⟨rows, hrows, hstore⟩ := (ensureRecentBars_eq_ok hasks).mp hok
    refine UniqueTable.restrict_append_other (fun row hrow => ?_) hstore
    rw [(mem_answerRows hrows row (UniqueTable.mem_newRows.mp hrow).1).1, h]
  · rw [ensureRecentBars_idle (not_exists.mp hasks) outputsize] at hok
    cases hok
    rfl

/-! ## Readers -/

/-- The loader of a canonical symbol. -/
theorem loadBars_part {cm : CaseMap} {symbol : String} (h : own symbol = true)
    (hupper : cm.upperStr symbol = symbol) (timeframe : String) (limit : Nat) :
    loadBars cm (BarStore.part own store) symbol timeframe limit =
      loadBars cm store symbol timeframe limit := by
  rw [loadBars, loadBars, loadRows, loadRows, loadSelection, loadSelection, hupper,
    selectRows_part h]

theorem chartBars_part {cm : CaseMap} {symbol : String} (h : own (canonicalSymbol cm symbol) = true)
    (timeframe : String) (limit : Nat) :
    chartBars cm (BarStore.part own store) symbol timeframe limit =
      chartBars cm store symbol timeframe limit := by
  rw [chartBars, chartBars, chartSelection, chartSelection, selectRows_part h]

end MarketKill3r
