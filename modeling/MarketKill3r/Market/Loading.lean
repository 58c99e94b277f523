import MarketKill3r.Engine.Analysis
import MarketKill3r.Lib.Newest
import MarketKill3r.Market.Backfill

/-!
# Reading the stored bars

`_load_bars` (`app/api/routes/analysis.py`) selects the newest bars of a symbol and a timeframe and
returns them with the oldest first; `run_analysis` does this for each timeframe of the request.

* `loadRows_isNewest`: what `_load_bars` selects, from any store.
* `BarCall.run_checked`: the invariant of the writers' runs.
* `stored_bars_validated`: after every run of the writers with finite prices, `_validate_bars`
  accepts what `_load_bars` returns, and no analysis of loaded bars raises a `ValueError`.
-/

namespace MarketKill3r

open Newest (newest IsNewest newest_isNewest)

/-! ## Queries -/

/-- `s.upper()` -/
def CaseMap.upperStr (cm : CaseMap) (s : String) : String := String.ofList (cm.str s.toList)

/-- `s.strip()` -/
def stripStr (s : String) : String := String.ofList (pyStrip s.toList)

/-- The rows that `WHERE symbol = … AND timeframe = …` selects. -/
def selectRows (store : BarStore) (symbol timeframe : String) : List MarketBar :=
  store.rows.filter fun r => r.symbol = symbol ∧ r.timeframe = timeframe

/-- The rows among which `_load_bars` looks for the newest. -/
def loadSelection (cm : CaseMap) (store : BarStore) (symbol timeframe : String) : List MarketBar :=
  selectRows store (cm.upperStr symbol) (cm.upperStr timeframe)

/-- The query of `_load_bars`, after `rows.reverse()`. -/
def loadRows (cm : CaseMap) (store : BarStore) (symbol timeframe : String) (limit : Nat) :
    List MarketBar :=
  newest MarketBar.barTime limit (loadSelection cm store symbol timeframe)

/-- A price as the engine sees it. -/
def PyFloat.toRat? : PyFloat → Option ℚ
  | num q => some q
  | _ => none

/-- The `Bar` of a row with finite prices. No function of the engine reads the volume: one that is
not finite is taken for zero. -/
def MarketBar.toBar? (r : MarketBar) : Option Bar := do
  let o ← r.open_.toRat?
  let h ← r.high.toRat?
  let l ← r.low.toRat?
  let c ← r.close.toRat?
  return ⟨⟨r.barTime, 0⟩, o, h, l, c, r.volume.toRat?.getD 0⟩

/-- `_load_bars`, on rows with finite prices. -/
def loadBars (cm : CaseMap) (store : BarStore) (symbol timeframe : String) (limit : Nat) :
    Option (List Bar) :=
  (loadRows cm store symbol timeframe limit).mapM MarketBar.toBar?

/-! ## `run_analysis` -/

/-- The fields of an `AnalysisRequest` that decide which bars are loaded. -/
structure AnalysisRequest where
  symbol : String
  timeframe : String
  timeframes : Option (List String)
  barLimit : Nat

/-- `tf.upper().strip()` -/
def CaseMap.normalTimeframe (cm : CaseMap) (tf : String) : String := stripStr (cm.upperStr tf)

/-- `_normalize_timeframes` -/
def normalizeTimeframes (cm : CaseMap) (primaryTimeframe : String)
    (requestedTimeframes : Option (List String)) : List String :=
  let primary := cm.normalTimeframe primaryTimeframe
  let timeframes := ((requestedTimeframes.getD []).filter fun tf =>
    tf ≠ "" ∧ stripStr tf ≠ "").map cm.normalTimeframe
  (if primary ∈ timeframes then timeframes else timeframes ++ [primary]).eraseDups

/-- `requested_tfs` of `run_analysis`. -/
def AnalysisRequest.requestedTfs (cm : CaseMap) (payload : AnalysisRequest) : List String :=
  normalizeTimeframes cm (cm.normalTimeframe payload.timeframe) payload.timeframes

theorem nodup_eraseDups {α : Type} [DecidableEq α] (xs : List α) : xs.eraseDups.Nodup := by
  induction hn : xs.length using Nat.strong_induction_on generalizing xs with
  | _ n ih =>
    cases xs with
    | nil => exact List.nodup_nil
    | cons x xs =>
      rw [List.eraseDups_cons, List.nodup_cons]
      constructor
      · intro hx
        rw [List.mem_eraseDups, List.mem_filter] at hx
        simp at hx
      · refine ih _ ?_ _ rfl
        rw [← hn, List.length_cons]
        exact Nat.lt_succ_of_le (List.length_filter_le _ _)

theorem map_fst_filterMap {α : Type} (xs : List String) (f : String → α) (p : String → Bool) :
    ((xs.filterMap fun x => if p x then none else some (x, f x)).map (·.1)) =
      xs.filter fun x => !p x := by
  induction xs with
  | nil => rfl
  | cons x xs ih => cases hp : p x <;> simp [hp, ih]

/-- `timeframe_bars` of `run_analysis`, where `loaded tf` is what `_load_bars` returned for `tf`:
an empty list is left out. -/
def timeframeBars (cm : CaseMap) (payload : AnalysisRequest) (loaded : String → List Bar) :
    TfMap (List Bar) where
  entries := (payload.requestedTfs cm).filterMap fun tf =>
    if (loaded tf).isEmpty then none else some (tf, loaded tf)
  nodup := by
    rw [map_fst_filterMap]
    exact (nodup_eraseDups _).filter _

/-! ## What the loader returns -/

theorem mem_selectRows {store : BarStore} {symbol timeframe : String} {r : MarketBar} :
    r ∈ selectRows store symbol timeframe ↔
      r ∈ store.rows ∧ r.symbol = symbol ∧ r.timeframe = timeframe := by
  simp only [selectRows, List.mem_filter, decide_eq_true_eq]

/-- The unique key leaves one row for each bar time of a selection. -/
theorem selectRows_nodup (store : BarStore) (symbol timeframe : String) :
    ((selectRows store symbol timeframe).map MarketBar.barTime).Nodup := by
  have hkeys : ((selectRows store symbol timeframe).map MarketBar.key).Nodup :=
    store.nodup.sublist (List.filter_sublist.map _)
  have heq : (selectRows store symbol timeframe).map MarketBar.key =
      ((selectRows store symbol timeframe).map MarketBar.barTime).map
        fun t => (symbol, timeframe, t) := by
    rw [List.map_map]
    refine List.map_congr_left fun r hr => ?_
    obtain ⟨-, rfl, rfl⟩ := mem_selectRows.mp hr
    rfl
  rw [heq] at hkeys
  exact hkeys.of_map _

/-- **What `_load_bars` selects**, from any store. -/
theorem loadRows_isNewest (cm : CaseMap) (store : BarStore) (symbol timeframe : String)
    (limit : Nat) :
    IsNewest MarketBar.barTime limit (loadSelection cm store symbol timeframe)
      (loadRows cm store symbol timeframe limit) :=
  newest_isNewest limit (selectRows_nodup store _ _)

/-! ## Stored candles are valid bars -/

/-- The four prices are numbers, and not infinite. -/
def Candle.Finite (k : Candle) : Prop :=
  k.open_.toRat?.isSome ∧ k.high.toRat?.isSome ∧ k.low.toRat?.isSome ∧ k.close.toRat?.isSome

instance (k : Candle) : Decidable k.Finite := by unfold Candle.Finite; infer_instance

/-- Every row passed the check of its writer and has finite prices. -/
def CheckedStore (store : BarStore) : Prop := ∀ r ∈ store.rows, r.candle.Ok ∧ r.candle.Finite

/-- A call with finite prices keeps the rows checked. -/
theorem BarCall.run_checked {env : ProviderEnv} {call : BarCall}
    (hc : ∀ k ∈ call.candles env, k.Finite) {store : BarStore} (hs : CheckedStore store) :
    CheckedStore (call.run env store) := by
  intro r hr
  rcases call.run_rows env store r hr with hr | ⟨hk, hok⟩
  · exact hs r hr
  · exact ⟨hok, hc _ hk⟩

theorem PyFloat.toRat?_isSome {x : PyFloat} (h : x.toRat?.isSome) : ∃ q, x = .num q := by
  cases x with
  | num q => exact ⟨q, rfl⟩
  | _ => cases h

theorem PyFloat.pyMax_num (p q : ℚ) : pyMax (num p) (num q) = num (max p q) := by
  unfold pyMax lt
  by_cases h : p < q
  · simp [h, max_eq_right h.le]
  · simp [h, max_eq_left (not_lt.mp h)]

theorem PyFloat.pyMin_num (p q : ℚ) : pyMin (num p) (num q) = num (min p q) := by
  unfold pyMin lt
  by_cases h : q < p
  · simp [h, min_eq_right h.le]
  · simp [h, min_eq_left (not_lt.mp h)]

/-- A checked row with finite prices gives a bar that passes the containment test of the engine. -/
theorem toBar?_valid {r : MarketBar} (hok : r.candle.Ok) (hfin : r.candle.Finite) :
    ∃ b, r.toBar? = some b ∧ b.Valid ∧ b.time.utc = r.barTime := by
  obtain ⟨ho, hh, hl, hc⟩ := hfin
  obtain ⟨o, ho⟩ := PyFloat.toRat?_isSome ho
  obtain ⟨h, hh⟩ := PyFloat.toRat?_isSome hh
  obtain ⟨l, hl⟩ := PyFloat.toRat?_isSome hl
  obtain ⟨c, hc⟩ := PyFloat.toRat?_isSome hc
  simp only [MarketBar.candle] at ho hh hl hc
  refine ⟨⟨⟨r.barTime, 0⟩, o, h, l, c, r.volume.toRat?.getD 0⟩, ?_, ?_, rfl⟩
  · simp [MarketBar.toBar?, ho, hh, hl, hc, PyFloat.toRat?]
  · simp only [Candle.Ok, ohlcOk, MarketBar.candle, ho, hh, hl, hc, PyFloat.pyMax_num,
      PyFloat.pyMin_num, PyFloat.le_num, Bool.and_eq_true, decide_eq_true_eq] at hok
    simp only [Bar.Valid, not_or, not_lt]
    exact ⟨hok.1.1, hok.1.2, hok.2⟩

/-- When each item has a result, so has the list. -/
theorem exists_mapM_some {α β : Type} {f : α → Option β} {xs : List α}
    (h : ∀ x ∈ xs, ∃ y, f x = some y) : ∃ ys, xs.mapM f = some ys := by
  induction xs with
  | nil => exact ⟨[], rfl⟩
  | cons x xs ih =>
    obtain ⟨y, hy⟩ := h x List.mem_cons_self
    obtain ⟨ys, hys⟩ := ih fun z hz => h z (List.mem_cons_of_mem _ hz)
    exact ⟨y :: ys, by simp [List.mapM_cons, hy, hys]⟩

theorem exists_of_mem_forall₂ {α β : Type} {R : α → β → Prop} {xs : List α} {ys : List β}
    (h : List.Forall₂ R xs ys) {y : β} (hy : y ∈ ys) : ∃ x ∈ xs, R x y := by
  induction h with
  | nil => cases hy
  | @cons x z xs ys hxz _ ih =>
    rcases List.mem_cons.mp hy with rfl | hy
    · exact ⟨x, List.mem_cons_self, hxz⟩
    · obtain ⟨x', hx', hR⟩ := ih hy
      exact ⟨x', List.mem_cons_of_mem _ hx', hR⟩

/-- The bars of ascending checked rows pass `_validate_bars`. -/
theorem validated_of_rows {rows : List MarketBar} {bars : List Bar}
    (hasc : rows.Pairwise fun a b => a.barTime < b.barTime)
    (hrows : ∀ r ∈ rows, r.candle.Ok ∧ r.candle.Finite)
    (h : List.Forall₂ (fun r b => r.toBar? = some b) rows bars) : Validated bars := by
  have hbar : ∀ {r : MarketBar} {b : Bar}, r.candle.Ok ∧ r.candle.Finite → r.toBar? = some b →
      b.Valid ∧ b.time.utc = r.barTime := by
    intro r b hr hb
    obtain ⟨b', hb', hv, ht⟩ := toBar?_valid hr.1 hr.2
    rw [hb] at hb'
    cases hb'
    exact ⟨hv, ht⟩
  have hpair : bars.Pairwise fun a b => a.time.utc < b.time.utc := by
    induction h with
    | nil => exact .nil
    | @cons r b rows bars hb hrest ih =>
      rw [List.pairwise_cons] at hasc ⊢
      refine ⟨fun b' hb' => ?_, ih hasc.2 fun r hr => hrows r (List.mem_cons_of_mem _ hr)⟩
      obtain ⟨r', hr', hrb⟩ := exists_of_mem_forall₂ hrest hb'
      rw [(hbar (hrows r List.mem_cons_self) hb).2,
        (hbar (hrows r' (List.mem_cons_of_mem _ hr')) hrb).2]
      exact hasc.1 r' hr'
  refine ⟨fun b hb => ?_, hpair.isChain⟩
  obtain ⟨r, hr, hrb⟩ := exists_of_mem_forall₂ h hb
  exact (hbar (hrows r hr) hrb).1

/-! ## The store and the engine -/

/-- A run of the writers, from the empty store, in which every call brings finite prices. -/
def FiniteRun (env : ProviderEnv) (store : BarStore) : Prop :=
  ∃ ts, Sys.Run (barStep env) UniqueTable.empty ts store ∧
    ∀ t ∈ ts, ∀ k ∈ t.label.candles env, k.Finite

theorem FiniteRun.checked {env : ProviderEnv} {store : BarStore} (h : FiniteRun env store) :
    CheckedStore store := by
  obtain ⟨ts, hrun, hfin⟩ := h
  refine hrun.invariant (I := CheckedStore) (List.forall_mem_nil _) fun s l o s' ht hs hI => ?_
  cases hs
  exact BarCall.run_checked (hfin _ ht) hI

/-- **What `_load_bars` returns** from a store that the writers fill: the bars of the rows that it
selects, which `_validate_bars` accepts. -/
theorem FiniteRun.loadBars {env : ProviderEnv} {store : BarStore} (h : FiniteRun env store)
    (cm : CaseMap) (symbol timeframe : String) (limit : Nat) :
    ∃ bars, loadBars cm store symbol timeframe limit = some bars ∧
      List.Forall₂ (fun r b => r.toBar? = some b) (loadRows cm store symbol timeframe limit) bars ∧
      Validated bars := by
  have hnew := loadRows_isNewest cm store symbol timeframe limit
  have hrows : ∀ r ∈ loadRows cm store symbol timeframe limit, r.candle.Ok ∧ r.candle.Finite :=
    fun r hr => h.checked r (mem_selectRows.mp (hnew.selected r hr)).1
  obtain ⟨bars, hbars⟩ := exists_mapM_some fun r hr => by
    obtain ⟨b, hb, -⟩ := toBar?_valid (hrows r hr).1 (hrows r hr).2
    exact ⟨b, hb⟩
  have hall := forall₂_of_mapM_some hbars
  exact ⟨bars, hbars, hall, validated_of_rows hnew.ascending hrows hall⟩

/-- **Stored bars pass the validation of the engine.** `_load_bars` returns the newest bars under the
upper-case spelling of its arguments, strictly ascending, and `_validate_bars` accepts them. With
`timeframe_bars` loaded so, possibly each from another state of the store, `run_analysis` sees no
`ValueError` of the pipeline. -/
theorem stored_bars_validated (env : ProviderEnv) (cm : CaseMap) :
    (∀ store, FiniteRun env store → ∀ symbol timeframe limit, ∃ rows bars,
      loadBars cm store symbol timeframe limit = some bars ∧
        IsNewest MarketBar.barTime limit
          (selectRows store (cm.upperStr symbol) (cm.upperStr timeframe)) rows ∧
        List.Forall₂ (fun r b => r.toBar? = some b) rows bars ∧
        bars.Pairwise (fun a b => a.time.utc < b.time.utc) ∧ validateBars bars = .ok bars) ∧
    ∀ (payload : AnalysisRequest) (loaded : String → List Bar) (inp : AnalysisInput),
      (∀ tf ∈ payload.requestedTfs cm, ∃ store, FiniteRun env store ∧
        loadBars cm store (canonicalSymbol cm payload.symbol) tf payload.barLimit =
          some (loaded tf)) →
      inp.timeframeBars = timeframeBars cm payload loaded →
      ∀ message, analyzeMultiTimeframe inp ≠ .error (.valueError message) := by
  constructor
  · intro store h symbol timeframe limit
    obtain ⟨bars, hbars, hall, hval⟩ := h.loadBars cm symbol timeframe limit
    refine ⟨_, bars, hbars, loadRows_isNewest cm store symbol timeframe limit, hall, ?_,
      validateBars_of_validated hval⟩
    have : IsTrans Bar fun a b => a.time.utc < b.time.utc := ⟨fun a b c h1 h2 => lt_trans h1 h2⟩
    exact List.isChain_iff_pairwise.mp hval.2
  · intro payload loaded inp hload htf
    refine analyze_noValueError fun e he => ?_
    rw [htf, timeframeBars, List.mem_filterMap] at he
    obtain ⟨tf, htf, he⟩ := he
    split at he
    · cases he
    · cases he
      obtain ⟨store, hrun, hl⟩ := hload tf htf
      obtain ⟨bars, hbars, -, hval⟩ := hrun.loadBars cm (canonicalSymbol cm payload.symbol) tf
        payload.barLimit
      rw [hbars] at hl
      cases hl
      exact hval

/-! ## Fixtures -/

/-- The bars of `demoPayload` under another timeframe. -/
def demoPayloadAs (timeframe : String) : MT5Payload := { demoPayload with timeframe := timeframe }

/-- The store after the ingest of these bars. -/
def demoStoreAs (timeframe : String) : BarStore :=
  BarCall.run demoProvider (.ingest (demoPayloadAs timeframe) none) UniqueTable.empty

theorem demoStoreAs_finiteRun (timeframe : String) :
    FiniteRun demoProvider (demoStoreAs timeframe) := by
  refine ⟨_, barRun_single demoProvider (.ingest (demoPayloadAs timeframe) none), fun t ht => ?_⟩
  rw [List.mem_singleton.mp ht]
  exact (by decide : ∀ k ∈ demoPayload.bars.map OHLCBar.candle, k.Finite)

/-- The request for the two newest M15 bars of gold. -/
def demoAnalysis : AnalysisRequest := ⟨"gold", "M15", none, 2⟩

theorem demo_bars_validated : ∃ rows bars,
    loadBars .ascii (demoStoreAs "M15") "XAUUSD" "M15" 2 = some bars ∧ bars.length = 2 ∧
      IsNewest MarketBar.barTime 2
        (selectRows (demoStoreAs "M15") (CaseMap.ascii.upperStr "XAUUSD")
          (CaseMap.ascii.upperStr "M15")) rows ∧
      List.Forall₂ (fun r b => r.toBar? = some b) rows bars ∧
      bars.Pairwise (fun a b => a.time.utc < b.time.utc) ∧ validateBars bars = .ok bars ∧
      ∀ message, analyzeMultiTimeframe
        (goldInput (timeframeBars .ascii demoAnalysis fun _ => bars) none) ≠
          .error (.valueError message) := by
  have hrun := demoStoreAs_finiteRun "M15"
  obtain ⟨rows, bars, hbars, hnewest, hall, hordered, hvalid⟩ :=
    (stored_bars_validated demoProvider .ascii).1 _ hrun "XAUUSD" "M15" 2
  have hlength : bars.length = 2 := by
    have hcount : (loadBars .ascii (demoStoreAs "M15") "XAUUSD" "M15" 2).map List.length = some 2 := by
      decide +kernel
    rw [hbars] at hcount
    exact Option.some.inj hcount
  have hloaded : ∀ tf ∈ demoAnalysis.requestedTfs .ascii, ∃ store, FiniteRun demoProvider store ∧
      loadBars .ascii store (canonicalSymbol .ascii demoAnalysis.symbol) tf demoAnalysis.barLimit =
        some bars := by
    intro tf htf
    rw [show demoAnalysis.requestedTfs .ascii = ["M15"] by decide +kernel, List.mem_singleton] at htf
    rw [htf, show canonicalSymbol .ascii demoAnalysis.symbol = "XAUUSD" by decide +kernel]
    exact ⟨_, hrun, hbars⟩
  exact ⟨rows, bars, hbars, hlength, hnewest, hall, hordered, hvalid,
    (stored_bars_validated demoProvider .ascii).2 demoAnalysis (fun _ => bars) _ hloaded rfl⟩

/-- Two bars are stored for M15 in lower case. The loader does not return them. -/
theorem lower_case_not_loaded :
    FiniteRun demoProvider (demoStoreAs "m15") ∧
      (selectRows (demoStoreAs "m15") "XAUUSD" "m15").length = 2 ∧
      loadBars .ascii (demoStoreAs "m15") "XAUUSD" "m15" 1 = some [] :=
  ⟨demoStoreAs_finiteRun "m15", by decide +kernel, by decide +kernel⟩

end MarketKill3r
