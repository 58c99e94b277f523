import MarketKill3r.Lib.Sys
import MarketKill3r.Market.Bars

/-!
# Provider backfill and the rows that are stored

`_parse_twelve_data_bars` (`app/services/bar_ingest.py`) turns the items of a provider response into
the argument of `upsert_market_bars`. A run is any sequence of `ingest`, `upsert_market_bars` and
backfill calls; a call that raises leaves the store as it was.

* `BarCall.run_rows`: a call adds rows that its candles give, each of which passed the OHLC check.
* `ohlcOk_sane_iff`: a candle that passes the check is sane exactly when its close is not a NaN.
  `max(open, close)` and `min(open, close)` return the open when the close is a NaN, so the check
  does not see it; a NaN in any other place fails one of the comparisons.
* `stored_bars_sane`: the rows of a run.
-/

namespace MarketKill3r

/-! ## JSON values -/

/-- A JSON value as `json.loads` returns it. -/
inductive JsonValue
  | null
  | bool (b : Bool)
  | int (n : Int)
  | float (x : PyFloat)
  | str (s : String)
  | list (items : List JsonValue)
  | dict (items : List (String × JsonValue))

/-- `bool(value)` -/
def JsonValue.truthy : JsonValue → Bool
  | null => false
  | bool b => b
  | int n => n ≠ 0
  | float x => x ≠ .num 0
  | str s => s ≠ ""
  | list items => !items.isEmpty
  | dict items => !items.isEmpty

/-- The items of a JSON object. -/
abbrev JsonDict := List (String × JsonValue)

/-- `d.get(key)`, where `None` and JSON `null` are the same value. -/
def JsonDict.get (d : JsonDict) (key : String) : JsonValue := (d.lookup key).getD .null

/-- The exceptions of `float(value)`: those that `_float` catches, and the `OverflowError` of an
integer that is too large. -/
inductive FloatError
  | typeError
  | valueError
  | overflowError

/-- The environment of the backfill: the conversions `float(value)` and `str(value)` of Python. -/
structure ProviderEnv extends MT5Env where
  float : JsonValue → Except FloatError PyFloat
  str : JsonValue → String

/-! ## `_parse_twelve_data_bars` -/

/-- `_float` -/
def floatOrNone (env : ProviderEnv) (value : JsonValue) : Except FloatError (Option PyFloat) :=
  match env.float value with
  | .ok x => .ok (some x)
  | .error .typeError | .error .valueError => .ok none
  | .error .overflowError => .error .overflowError

/-- `x or 0.0` on the result of `_float`. -/
def orZero : Option PyFloat → PyFloat
  | none => .num 0
  | some x => x

/-- The body of the loop of `_parse_twelve_data_bars`: the bar of an item, unless it is dropped. -/
def parseItem (env : ProviderEnv) (item : JsonDict) : Except FloatError (Option BarDict) :=
  let rawTime := item.get "datetime"
  if !rawTime.truthy then .ok none
  else
    match env.fromisoformat (env.str rawTime) with
    | none => .ok none
    | some barTime => do
      let o ← floatOrNone env (item.get "open")
      let h ← floatOrNone env (item.get "high")
      let l ← floatOrNone env (item.get "low")
      let c ← floatOrNone env (item.get "close")
      match o, h, l, c with
      | some o, some h, some l, some c => do
        let volume ← floatOrNone env (item.get "volume")
        pure (some ⟨barTime.wall - barTime.offset.getD 0, o, h, l, c, some (orZero volume)⟩)
      | _, _, _, _ => pure none

/-- `_parse_twelve_data_bars` -/
def parseTwelveDataBars (env : ProviderEnv) (rawBars : List JsonDict) :
    Except FloatError (List BarDict) := do
  let bars ← rawBars.mapM (parseItem env)
  pure (bars.filterMap id)

/-! ## Calls -/

/-- A call that writes bars. A backfill is the end of `ensure_recent_bars`. -/
inductive BarCall
  | ingest (payload : MT5Payload) (xMt5ApiKey : Option String)
  | upsert (symbol timeframe : String) (bars : List BarDict) (spread : PyFloat)
  | backfill (symbol timeframe : String) (rawBars : List JsonDict)

/-- The store after the call. One that raises is rolled back. -/
def BarCall.run (env : ProviderEnv) (call : BarCall) (store : BarStore) : BarStore :=
  match call with
  | .ingest payload header =>
    match MarketKill3r.ingest env.toMT5Env payload header store with
    | .ok (store', _) => store'
    | .error _ => store
  | .upsert symbol timeframe bars spread =>
    match upsertMarketBars symbol timeframe bars spread store with
    | .ok (store', _, _) => store'
    | .error _ => store
  | .backfill symbol timeframe rawBars =>
    match parseTwelveDataBars env rawBars with
    | .error _ => store
    | .ok bars =>
      match upsertMarketBars symbol timeframe bars (.num 0) store with
      | .ok (store', _, _) => store'
      | .error _ => store

/-- The calls, one after another. -/
def barStep (env : ProviderEnv) (store : BarStore) (call : BarCall) : Option (BarStore × Unit) :=
  some (call.run env store, ())

/-- The four prices of a bar. -/
structure Candle where
  open_ : PyFloat
  high : PyFloat
  low : PyFloat
  close : PyFloat
  deriving DecidableEq

/-- The candle passes the check of both writers. -/
def Candle.Ok (k : Candle) : Prop := ohlcOk k.open_ k.high k.low k.close = true

instance (k : Candle) : Decidable k.Ok := inferInstanceAs (Decidable (_ = true))

def MarketBar.candle (b : MarketBar) : Candle := ⟨b.open_, b.high, b.low, b.close⟩

def OHLCBar.candle (b : OHLCBar) : Candle := ⟨b.open_, b.high, b.low, b.close⟩

def BarDict.candle (b : BarDict) : Candle := ⟨b.open_, b.high, b.low, b.close⟩

/-- The candles that a call brings to the check, unless its API key is rejected. -/
def BarCall.candles (env : ProviderEnv) : BarCall → List Candle
  | .ingest payload header =>
    if keyRejected env.toMT5Env header then [] else payload.bars.map OHLCBar.candle
  | .upsert _ _ bars _ => bars.map BarDict.candle
  | .backfill _ _ rawBars =>
    match parseTwelveDataBars env rawBars with
    | .error _ => []
    | .ok bars => bars.map BarDict.candle

/-! ## What a call stores -/

/-- A session adds the row that it checks, or nothing. -/
theorem mem_check_pending {store : BarStore} {st : BarSession} {row r : MarketBar}
    (h : r ∈ (st.check store row).pending) : r ∈ st.pending ∨ r = row := by
  unfold BarSession.check at h
  split at h
  · exact Or.inl h
  · simpa using h

/-- The row of a bar that `ingest` accepts. -/
theorem ingestRow_eq_ok {env : MT5Env} {payload : MT5Payload} {bar : OHLCBar} {row : MarketBar}
    (h : ingestRow env payload bar = .ok row) :
    bar.candle.Ok ∧ ∃ time, parseTime env bar.time = .ok time ∧
      row = ⟨canonicalSymbol env.caseMap payload.symbol, payload.timeframe, time, bar.open_,
        bar.high, bar.low, bar.close, bar.volume, payload.spread⟩ := by
  unfold ingestRow at h
  split at h
  · rename_i hok
    cases ht : parseTime env bar.time with
    | error e => rw [ht] at h; cases h
    | ok time =>
      rw [ht] at h
      exact ⟨hok, time, rfl, (Except.ok.inj h).symm⟩
  · cases h

theorem ingestRow_candle {env : MT5Env} {payload : MT5Payload} {bar : OHLCBar} {row : MarketBar}
    (h : ingestRow env payload bar = .ok row) : row.candle = bar.candle ∧ bar.candle.Ok := by
  obtain ⟨hok, time, -, rfl⟩ := ingestRow_eq_ok h
  exact ⟨rfl, hok⟩

theorem upsertRow_candle {symbol timeframe : String} {spread : PyFloat} {bar : BarDict}
    {row : MarketBar} (h : upsertRow symbol timeframe spread bar = some row) :
    row.candle = bar.candle ∧ bar.candle.Ok := by
  unfold upsertRow at h
  split at h
  · rename_i hok
    cases h
    exact ⟨rfl, hok⟩
  · cases h

/-- The rows pending after the loop of `ingest`. -/
theorem mem_ingest_pending {env : MT5Env} {payload : MT5Payload} {store : BarStore}
    {bars : List OHLCBar} {st st' : BarSession}
    (h : bars.foldlM (ingestBar env payload store) st = .ok st') :
    ∀ r ∈ st'.pending, r ∈ st.pending ∨ ∃ b ∈ bars, r.candle = b.candle ∧ b.candle.Ok := by
  induction bars generalizing st with
  | nil =>
    cases h
    exact fun r hr => Or.inl hr
  | cons b bars ih =>
    rw [List.foldlM_cons] at h
    cases hrow : ingestRow env payload b with
    | error e => rw [ingestBar, hrow] at h; cases h
    | ok row =>
      rw [ingestBar_eq store st hrow] at h
      intro r hr
      rcases ih h r hr with hr | ⟨b', hb', hc⟩
      · rcases mem_check_pending hr with hr | rfl
        · exact Or.inl hr
        · exact Or.inr ⟨b, List.mem_cons_self, ingestRow_candle hrow⟩
      · exact Or.inr ⟨b', List.mem_cons_of_mem _ hb', hc⟩

/-- The rows pending after the loop of `upsert_market_bars`. -/
theorem mem_upsert_pending {symbol timeframe : String} {spread : PyFloat} {store : BarStore}
    {bars : List BarDict} {st : BarSession} :
    ∀ r ∈ (bars.foldl (upsertBar symbol timeframe spread store) st).pending,
      r ∈ st.pending ∨ ∃ b ∈ bars, r.candle = b.candle ∧ b.candle.Ok := by
  induction bars generalizing st with
  | nil => exact fun r hr => Or.inl hr
  | cons b bars ih =>
    intro r hr
    rw [List.foldl_cons] at hr
    rcases ih r hr with hr | ⟨b', hb', hc⟩
    · cases hrow : upsertRow symbol timeframe spread b with
      | none =>
        rw [upsertBar, hrow] at hr
        exact Or.inl hr
      | some row =>
        rw [upsertBar_eq store st hrow] at hr
        rcases mem_check_pending hr with hr | rfl
        · exact Or.inl hr
        · exact Or.inr ⟨b, List.mem_cons_self, upsertRow_candle hrow⟩
    · exact Or.inr ⟨b', List.mem_cons_of_mem _ hb', hc⟩

theorem commit_ok_rows {store store' : BarStore} {st : BarSession}
    (h : st.commit store = .ok store') : store'.rows = store.rows ++ st.pending := by
  unfold BarSession.commit at h
  cases hc : store.commit st.pending with
  | none => rw [hc] at h; cases h
  | some s =>
    rw [hc] at h
    cases h
    exact UniqueTable.commit_eq_some.mp hc

/-- The API key of a successful `ingest` was accepted. -/
theorem ingest_key {env : MT5Env} {payload : MT5Payload} {header : Option String}
    {store store' : BarStore} {response : MT5Response}
    (h : ingest env payload header store = .ok (store', response)) :
    keyRejected env header = false := by
  cases hk : keyRejected env header with
  | false => rfl
  | true => rw [ingest, hk] at h; cases h

theorem ingest_rows {env : MT5Env} {payload : MT5Payload} {header : Option String}
    {store store' : BarStore} {response : MT5Response}
    (h : ingest env payload header store = .ok (store', response)) :
    ∀ r ∈ store'.rows, r ∈ store.rows ∨ ∃ b ∈ payload.bars, r.candle = b.candle ∧ b.candle.Ok := by
  have hk := ingest_key h
  rw [ingest, hk] at h
  cases hl : payload.bars.foldlM (ingestBar env payload store) .init with
  | error e => simp only [hl, bind, Except.bind] at h; cases h
  | ok st =>
    cases hc : st.commit store with
    | error e => simp only [hl, hc, bind, Except.bind] at h; cases h
    | ok s =>
      simp only [hl, hc, bind, Except.bind] at h
      cases h
      intro r hr
      rw [commit_ok_rows hc, List.mem_append] at hr
      rcases hr with hr | hr
      · exact Or.inl hr
      · rcases mem_ingest_pending hl r hr with hr | hr
        · cases hr
        · exact Or.inr hr

theorem upsert_rows {symbol timeframe : String} {bars : List BarDict} {spread : PyFloat}
    {store store' : BarStore} {counters : Nat × Nat}
    (h : upsertMarketBars symbol timeframe bars spread store = .ok (store', counters)) :
    ∀ r ∈ store'.rows, r ∈ store.rows ∨ ∃ b ∈ bars, r.candle = b.candle ∧ b.candle.Ok := by
  unfold upsertMarketBars at h
  cases hc : (bars.foldl (upsertBar symbol timeframe spread store) .init).commit store with
  | error e => simp only [hc, bind, Except.bind] at h; cases h
  | ok s =>
    simp only [hc, bind, Except.bind] at h
    cases h
    intro r hr
    rw [commit_ok_rows hc, List.mem_append] at hr
    rcases hr with hr | hr
    · exact Or.inl hr
    · rcases mem_upsert_pending r hr with hr | hr
      · cases hr
      · exact Or.inr hr

/-- **What a call stores**: every row was there, or has a candle of the call that passed the
check. -/
theorem BarCall.run_rows (env : ProviderEnv) (call : BarCall) (store : BarStore) :
    ∀ r ∈ (call.run env store).rows,
      r ∈ store.rows ∨ (r.candle ∈ call.candles env ∧ r.candle.Ok) := by
  have hof : ∀ {α : Type} {f : α → Candle} {xs : List α} {r : MarketBar},
      (∃ b ∈ xs, r.candle = f b ∧ (f b).Ok) → r.candle ∈ xs.map f ∧ r.candle.Ok := by
    rintro α f xs r ⟨b, hb, he, hok⟩
    rw [he]
    exact ⟨List.mem_map_of_mem hb, hok⟩
  intro r hr
  cases call with
  | ingest payload header =>
    unfold BarCall.run at hr
    simp only at hr
    split at hr
    · rename_i h
      rw [BarCall.candles, ingest_key h]
      exact (ingest_rows h r hr).imp_right hof
    · exact Or.inl hr
  | upsert symbol timeframe bars spread =>
    unfold BarCall.run at hr
    simp only at hr
    split at hr
    · rename_i h
      exact (upsert_rows h r hr).imp_right hof
    · exact Or.inl hr
  | backfill symbol timeframe rawBars =>
    unfold BarCall.run at hr
    unfold BarCall.candles
    simp only at hr ⊢
    cases hp : parseTwelveDataBars env rawBars with
    | error e => rw [hp] at hr; exact Or.inl hr
    | ok bars =>
      simp only [hp] at hr ⊢
      split at hr
      · rename_i h
        exact (upsert_rows h r hr).imp_right hof
      · exact Or.inl hr

/-! ## Sane candles -/

/-- All four prices are numbers (or infinities), and the range contains open and close. -/
def Candle.Sane (k : Candle) : Prop :=
  k.open_ ≠ .nan ∧ k.high ≠ .nan ∧ k.low ≠ .nan ∧ k.close ≠ .nan ∧
    k.low.le k.open_ = true ∧ k.open_.le k.high = true ∧ k.low.le k.close = true ∧
    k.close.le k.high = true

instance (k : Candle) : Decidable k.Sane := by unfold Candle.Sane; infer_instance

namespace PyFloat

theorem nan_lt (x : PyFloat) : nan.lt x = false := by cases x <;> rfl

theorem lt_nan (x : PyFloat) : x.lt nan = false := by cases x <;> rfl

theorem nan_le (x : PyFloat) : nan.le x = false := by cases x <;> simp [le, nan_lt]

theorem le_nan (x : PyFloat) : x.le nan = false := by cases x <;> simp [le, lt_nan]

theorem le_num (p q : ℚ) : (num p).le (num q) = decide (p ≤ q) := by
  simp [le, lt, le_iff_lt_or_eq]

theorem le_of_lt {x y : PyFloat} (h : x.lt y = true) : x.le y = true := by simp [le, h]

theorem le_trans {x y z : PyFloat} (h1 : x.le y = true) (h2 : y.le z = true) : x.le z = true := by
  cases x with
  | num p =>
    cases y with
    | num q =>
      cases z with
      | num r =>
        rw [le_num, decide_eq_true_eq] at h1 h2 ⊢
        exact h1.trans h2
      | _ => simp [le, lt] at h2 ⊢
    | _ => cases z <;> simp [le, lt] at h1 h2 ⊢
  | _ => cases y <;> cases z <;> simp [le, lt] at h1 h2 ⊢

/-- Two values that are no NaN are ordered. -/
theorem le_of_not_lt {x y : PyFloat} (hx : x ≠ nan) (hy : y ≠ nan) (h : x.lt y = false) :
    y.le x = true := by
  cases x with
  | num p =>
    cases y with
    | num q =>
      rw [le_num, decide_eq_true_eq]
      simpa [lt] using h
    | _ => simp [le, lt] at hy h ⊢
  | _ => cases y <;> simp [le, lt] at hx hy h ⊢

theorem le_pyMax {x y : PyFloat} (hx : x ≠ nan) (hy : y ≠ nan) {h : PyFloat}
    (hle : (pyMax x y).le h = true) : x.le h = true ∧ y.le h = true := by
  unfold pyMax at hle
  cases hlt : x.lt y with
  | true =>
    rw [if_pos hlt] at hle
    exact ⟨le_trans (le_of_lt hlt) hle, hle⟩
  | false =>
    rw [hlt, if_neg Bool.false_ne_true] at hle
    exact ⟨hle, le_trans (le_of_not_lt hx hy hlt) hle⟩

theorem pyMin_le {x y : PyFloat} (hx : x ≠ nan) (hy : y ≠ nan) {l : PyFloat}
    (hle : l.le (pyMin x y) = true) : l.le x = true ∧ l.le y = true := by
  unfold pyMin at hle
  cases hlt : y.lt x with
  | true =>
    rw [if_pos hlt] at hle
    exact ⟨le_trans hle (le_of_lt hlt), hle⟩
  | false =>
    rw [hlt, if_neg Bool.false_ne_true] at hle
    exact ⟨hle, le_trans hle (le_of_not_lt hy hx hlt)⟩

/-- A comparison that holds compares no NaN. -/
theorem ne_nan_of_le {x y : PyFloat} (h : x.le y = true) : x ≠ nan ∧ y ≠ nan := by
  constructor
  · rintro rfl
    rw [nan_le] at h; cases h
  · rintro rfl
    rw [le_nan] at h; cases h

end PyFloat

/-- The first argument of `max` is returned when it compares with nothing. -/
theorem Candle.Ok.open_ne_nan {k : Candle} (h : k.Ok) : k.open_ ≠ .nan := by
  intro ho
  simp only [Candle.Ok, ohlcOk, Bool.and_eq_true, ho] at h
  have hmax : PyFloat.pyMax .nan k.close = .nan := by simp [PyFloat.pyMax, PyFloat.nan_lt]
  rw [hmax, PyFloat.nan_le] at h
  cases h.1.1

/-- **What the check of the writers misses**: of a candle that passes it, only the close can be a
NaN. -/
theorem ohlcOk_sane_iff {k : Candle} (h : k.Ok) : k.Sane ↔ k.close ≠ .nan := by
  constructor
  · exact fun hs => hs.2.2.2.1
  · intro hc
    have ho := h.open_ne_nan
    simp only [Candle.Ok, ohlcOk, Bool.and_eq_true] at h
    obtain ⟨⟨hmax, hmin⟩, hlh⟩ := h
    obtain ⟨hl, hh⟩ := PyFloat.ne_nan_of_le hlh
    obtain ⟨h1, h2⟩ := PyFloat.le_pyMax ho hc hmax
    obtain ⟨h3, h4⟩ := PyFloat.pyMin_le ho hc hmin
    exact ⟨ho, hh, hl, hc, h3, h1, h4, h2⟩

/-! ## Runs -/

/-- No candle of the call that passes the check has a NaN for its close. -/
def BarCall.ClosesAreNumbers (env : ProviderEnv) (call : BarCall) : Prop :=
  ∀ k ∈ call.candles env, k.Ok → k.close ≠ .nan

/-- Every row of the store is a sane candle. -/
def SaneStore (store : BarStore) : Prop := ∀ r ∈ store.rows, r.candle.Sane

/-- One call. -/
theorem BarCall.run_sane {env : ProviderEnv} {call : BarCall} (hc : call.ClosesAreNumbers env)
    {store : BarStore} (hs : SaneStore store) : SaneStore (call.run env store) := by
  intro r hr
  rcases call.run_rows env store r hr with hr | ⟨hk, hok⟩
  · exact hs r hr
  · exact (ohlcOk_sane_iff hok).mpr (hc _ hk hok)

/-- **Every stored bar is a sane candle** in every run in which no candle that passes the check has
a NaN for its close. -/
theorem stored_bars_sane {env : ProviderEnv} {ts : List (Sys.Transition BarStore BarCall Unit)}
    {store : BarStore} (h : Sys.Run (barStep env) UniqueTable.empty ts store)
    (hc : ∀ t ∈ ts, t.label.ClosesAreNumbers env) : ∀ r ∈ store.rows, r.candle.Sane := by
  refine h.invariant (I := SaneStore) (fun r hr => by cases hr) fun s l o s' ht hs hI => ?_
  cases hs
  exact BarCall.run_sane (hc _ ht) hI

/-! ## Fixtures -/

/-- The conversions on the values of the items below. -/
def demoProvider : ProviderEnv where
  toMT5Env := demoEnv
  float
    | .int n => .ok (.num n)
    | .float x => .ok x
    | .str "nan" => .ok .nan
    | .str _ => .error .valueError
    | _ => .error .typeError
  str
    | .str s => s
    | _ => ""

/-- A provider item for the first minute of `demoEnv`. -/
def demoItem (close : JsonValue) : JsonDict :=
  [("datetime", .str "2024-01-01T00:00:00+00:00"), ("open", .int 10), ("high", .int 12),
    ("low", .int 9), ("close", close)]

/-- A bar of the first minute whose close is a NaN. -/
def nanPayload : MT5Payload where
  symbol := "gold"
  timeframe := "M1"
  spread := .num 0
  bars := [⟨"2024-01-01T00:00:00Z", .num 10, .num 12, .num 9, .nan, .num 0⟩]
  min_length := by decide
  max_length := by decide

instance (env : ProviderEnv) (call : BarCall) : Decidable (call.ClosesAreNumbers env) :=
  inferInstanceAs (Decidable (∀ k ∈ call.candles env, k.Ok → k.close ≠ .nan))

theorem demo_bars_sane : ∃ ts store,
    Sys.Run (barStep demoProvider) UniqueTable.empty ts store ∧
      (∀ t ∈ ts, t.label.ClosesAreNumbers demoProvider) ∧ store.rows.length = 2 ∧
      ∀ r ∈ store.rows, r.candle.Sane := by
  obtain ⟨ts, store, hrun, hc, hlen⟩ := Sys.exists_run (barStep demoProvider) UniqueTable.empty
    [.ingest demoPayload none, .backfill "XAUUSD" "M1" [demoItem (.int 11), demoItem .null]]
    (fun ts store => (∀ t ∈ ts, t.label.ClosesAreNumbers demoProvider) ∧ store.rows.length = 2)
    (by decide +kernel)
  exact ⟨ts, store, hrun, hc, hlen, stored_bars_sane hrun hc⟩

/-- The run of a single call. -/
theorem barRun_single (env : ProviderEnv) (call : BarCall) :
    Sys.Run (barStep env) UniqueTable.empty
      [⟨UniqueTable.empty, call, (), call.run env UniqueTable.empty⟩]
      (call.run env UniqueTable.empty) :=
  Sys.Run.nil.snoc rfl

/-- With either writer, a bar whose close is a NaN is stored. -/
theorem nan_close_stored :
    (∃ ts store, Sys.Run (barStep demoProvider) UniqueTable.empty ts store ∧
      (∀ t ∈ ts, t.label = .ingest nanPayload none) ∧ ∃ r ∈ store.rows, ¬ r.candle.Sane) ∧
    ∃ ts store, Sys.Run (barStep demoProvider) UniqueTable.empty ts store ∧
      (∀ t ∈ ts, t.label = .backfill "XAUUSD" "M1" [demoItem (.str "nan")]) ∧
        ∃ r ∈ store.rows, ¬ r.candle.Sane := by
  constructor
  · refine ⟨_, _, barRun_single demoProvider (.ingest nanPayload none), fun t ht => ?_, ?_⟩
    · rw [List.mem_singleton.mp ht]
    · decide +kernel
  · refine ⟨_, _, barRun_single demoProvider (.backfill "XAUUSD" "M1" [demoItem (.str "nan")]),
      fun t ht => ?_, ?_⟩
    · rw [List.mem_singleton.mp ht]
    · decide +kernel

end MarketKill3r
