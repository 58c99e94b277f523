import Mathlib.Data.Rat.Defs
import Mathlib.Algebra.Order.Ring.Unbundled.Rat
import MarketKill3r.Lib.UniqueTable
import MarketKill3r.Market.Instruments

/-!
# The table of market bars and its two writers

`ingest` (`app/api/routes/mt5.py`) stores the bars that the EA sends, `upsert_market_bars`
(`app/services/bar_ingest.py`) those that a provider returns. Both check each bar with a SELECT
that sees committed rows only (the session has `autoflush=False`), and commit once at the end.

* `ingest_eq`, `upsert_eq`: on valid bars, both are `storeBatch` of the rows they build.
* `storeBatch_iff`, `writers_idempotent_iff`: a batch is stored once and its repetition changes
  nothing, exactly when no bar time that is absent from the store occurs twice in it.
-/

namespace MarketKill3r

open UniqueTable (newRows)

/-! ## Floats -/

/-- A float, as far as comparisons see it: a number, an infinity or a NaN. -/
inductive PyFloat
  | nan
  | negInf
  | num (q : ℚ)
  | posInf
  deriving DecidableEq

namespace PyFloat

/-- `x < y` -/
def lt : PyFloat → PyFloat → Bool
  | negInf, num _ => true
  | negInf, posInf => true
  | num p, num q => p < q
  | num _, posInf => true
  | _, _ => false

/-- `x <= y` -/
def le (x y : PyFloat) : Bool := x.lt y || (x ≠ nan && x = y)

/-- `max(x, y)`: the second argument wins only if it compares strictly greater. -/
def pyMax (x y : PyFloat) : PyFloat := if x.lt y then y else x

/-- `min(x, y)` -/
def pyMin (x y : PyFloat) : PyFloat := if y.lt x then y else x

end PyFloat

/-- The OHLC check of both writers:
`high >= max(open, close) and low <= min(open, close) and high >= low`. -/
def ohlcOk (o h l c : PyFloat) : Bool :=
  (PyFloat.pyMax o c).le h && l.le (PyFloat.pyMin o c) && l.le h

/-! ## The table -/

/-- A row of `market_bars`, as PostgreSQL keeps it. The bar time is an instant, in microseconds since
the epoch, whatever offset it was sent with, and a price may be a NaN. -/
structure MarketBar where
  symbol : String
  timeframe : String
  barTime : Int
  open_ : PyFloat
  high : PyFloat
  low : PyFloat
  close : PyFloat
  volume : PyFloat
  spread : PyFloat
  deriving DecidableEq

/-- The columns of `uq_bar_symbol_tf_time`. -/
def MarketBar.key (b : MarketBar) : String × String × Int := (b.symbol, b.timeframe, b.barTime)

/-- The committed rows of `market_bars`. -/
abbrev BarStore := UniqueTable MarketBar.key

/-- How a request ends that does not return normally. -/
inductive ApiError
  | http (statusCode : Nat) (detail : String)
  | valueError
  | integrityError
  deriving DecidableEq

/-- A writer's session within the loop over its bars: the rows it has added and its counters. -/
structure BarSession where
  pending : List MarketBar
  stored : Nat
  skipped : Nat
  deriving DecidableEq

/-- Before the first bar. -/
def BarSession.init : BarSession := ⟨[], 0, 0⟩

/-- One bar of either loop: the SELECT on the key and, without an existing row, `db.add`. The rows
that the session has added itself are not seen. -/
def BarSession.check (store : BarStore) (st : BarSession) (row : MarketBar) : BarSession :=
  if store.Has row.key then { st with skipped := st.skipped + 1 }
  else { st with pending := st.pending ++ [row], stored := st.stored + 1 }

/-- `db.commit()`: the unique constraint rejects the transaction as a whole. -/
def BarSession.commit (store : BarStore) (st : BarSession) : Except ApiError BarStore :=
  match store.commit st.pending with
  | some store' => .ok store'
  | none => .error .integrityError

/-! ## `ingest` -/

/-- The result of `datetime.fromisoformat`: the wall clock in microseconds since the epoch, and the
UTC offset if there is one. -/
structure PyDatetime where
  wall : Int
  offset : Option Int

/-- The parts of the environment that the MT5 endpoints read. -/
structure MT5Env where
  fromisoformat : String → Option PyDatetime
  caseMap : CaseMap
  apiKey : String

/-- `value.replace("Z", "+00:00")` -/
def replaceZ (value : String) : String :=
  String.ofList (value.toList.flatMap fun c => if c = 'Z' then "+00:00".toList else [c])

/-- `_parse_time` -/
def parseTime (env : MT5Env) (value : String) : Except ApiError Int :=
  match env.fromisoformat (replaceZ value) with
  | none => .error .valueError
  | some parsed => .ok (parsed.wall - parsed.offset.getD 0)

structure OHLCBar where
  time : String
  open_ : PyFloat
  high : PyFloat
  low : PyFloat
  close : PyFloat
  volume : PyFloat

/-- The validated body of a request to `/mt5/ingest`. -/
structure MT5Payload where
  symbol : String
  timeframe : String
  spread : PyFloat
  bars : List OHLCBar
  min_length : 1 ≤ bars.length
  max_length : bars.length ≤ 5000

structure MT5Response where
  status : String
  barsStored : Nat
  barsSkippedDuplicate : Nat
  message : String
  deriving DecidableEq

/-- What the loop of `ingest` does with a bar before its SELECT: the OHLC check, and the row. -/
def ingestRow (env : MT5Env) (payload : MT5Payload) (bar : OHLCBar) : Except ApiError MarketBar :=
  if ohlcOk bar.open_ bar.high bar.low bar.close then do
    let barTime ← parseTime env bar.time
    return {
      symbol := canonicalSymbol env.caseMap payload.symbol
      timeframe := payload.timeframe
      barTime := barTime
      open_ := bar.open_
      high := bar.high
      low := bar.low
      close := bar.close
      volume := bar.volume
      spread := payload.spread }
  else
    let time := bar.time
    .error (.http 422 s!"Invalid OHLC bar at {time}")

/-- The loop body of `ingest`. -/
def ingestBar (env : MT5Env) (payload : MT5Payload) (store : BarStore) (st : BarSession)
    (bar : OHLCBar) : Except ApiError BarSession := do
  let row ← ingestRow env payload bar
  return st.check store row

/-- `configured_key and x_mt5_api_key != configured_key` -/
def keyRejected (env : MT5Env) (xMt5ApiKey : Option String) : Bool :=
  env.apiKey ≠ "" && xMt5ApiKey ≠ some env.apiKey

/-- The response of a successful `ingest`. -/
def ingestResponse (env : MT5Env) (payload : MT5Payload) (stored skipped : Nat) : MT5Response :=
  let canonical := canonicalSymbol env.caseMap payload.symbol
  let timeframe := payload.timeframe
  ⟨"ok", stored, skipped,
    s!"{stored} new bars stored for {canonical} {timeframe} ({skipped} duplicates skipped)."⟩

/-- `ingest` -/
def ingest (env : MT5Env) (payload : MT5Payload) (xMt5ApiKey : Option String) (store : BarStore) :
    Except ApiError (BarStore × MT5Response) := do
  if keyRejected env xMt5ApiKey then throw (.http 401 "Invalid MT5 API key")
  let st ← payload.bars.foldlM (ingestBar env payload store) .init
  let store' ← st.commit store
  return (store', ingestResponse env payload st.stored st.skipped)

/-! ## `upsert_market_bars` -/

/-- An item of the `bars` argument of `upsert_market_bars`. -/
structure BarDict where
  time : Int
  open_ : PyFloat
  high : PyFloat
  low : PyFloat
  close : PyFloat
  volume : Option PyFloat

/-- The row of an item, unless it fails the OHLC check. -/
def upsertRow (symbol timeframe : String) (spread : PyFloat) (bar : BarDict) : Option MarketBar :=
  if ohlcOk bar.open_ bar.high bar.low bar.close then
    some {
      symbol := symbol
      timeframe := timeframe
      barTime := bar.time
      open_ := bar.open_
      high := bar.high
      low := bar.low
      close := bar.close
      volume := bar.volume.getD (.num 0)
      spread := spread }
  else none

/-- The loop body of `upsert_market_bars`: a bar that fails the check counts as skipped. -/
def upsertBar (symbol timeframe : String) (spread : PyFloat) (store : BarStore) (st : BarSession)
    (bar : BarDict) : BarSession :=
  match upsertRow symbol timeframe spread bar with
  | none => { st with skipped := st.skipped + 1 }
  | some row => st.check store row

/-- `upsert_market_bars` -/
def upsertMarketBars (symbol timeframe : String) (bars : List BarDict) (spread : PyFloat)
    (store : BarStore) : Except ApiError (BarStore × Nat × Nat) := do
  let st := bars.foldl (upsertBar symbol timeframe spread store) .init
  let store' ← st.commit store
  return (store', st.stored, st.skipped)

/-! ## What both writers do -/

/-- A batch of rows, stored as either writer stores it: its new rows are committed, the others
skipped. -/
def storeBatch (rows : List MarketBar) (store : BarStore) : Except ApiError (BarStore × Nat × Nat) :=
  match store.commit (newRows MarketBar.key store.rows rows) with
  | some store' =>
    .ok (store', (newRows MarketBar.key store.rows rows).length,
      rows.length - (newRows MarketBar.key store.rows rows).length)
  | none => .error .integrityError

/-- The session after the checks of some rows. -/
theorem foldl_check (store : BarStore) (rows : List MarketBar) (st : BarSession) :
    rows.foldl (BarSession.check store) st =
      ⟨st.pending ++ newRows MarketBar.key store.rows rows,
        st.stored + (newRows MarketBar.key store.rows rows).length,
        st.skipped + (rows.length - (newRows MarketBar.key store.rows rows).length)⟩ := by
  induction rows generalizing st with
  | nil => simp only [List.foldl_nil, UniqueTable.newRows_nil, List.append_nil, List.length_nil,
      Nat.add_zero, Nat.sub_self]
  | cons row rows ih =>
    have hle := UniqueTable.newRows_length_le MarketBar.key store.rows rows
    rw [List.foldl_cons, ih, BarSession.check, UniqueTable.newRows_cons]
    by_cases h : row.key ∈ store.rows.map MarketBar.key
    · have hhas : store.Has row.key := h
      simp only [if_pos h, if_pos hhas, List.length_cons, BarSession.mk.injEq, true_and]
      omega
    · have hhas : ¬ store.Has row.key := h
      simp only [if_neg h, if_neg hhas, List.length_cons, List.append_assoc, List.cons_append,
        List.nil_append, BarSession.mk.injEq, true_and]
      omega

/-- When no item fails, each becomes a row. -/
theorem forall₂_of_mapM_ok {α β ε : Type} {f : α → Except ε β} {xs : List α} {ys : List β}
    (h : xs.mapM f = .ok ys) : List.Forall₂ (fun x y => f x = .ok y) xs ys := by
  induction xs generalizing ys with
  | nil =>
    obtain rfl : ys = [] := by cases h; rfl
    exact .nil
  | cons x xs ih =>
    rw [List.mapM_cons] at h
    cases hx : f x with
    | error e => rw [hx] at h; cases h
    | ok y =>
      cases hxs : xs.mapM f with
      | error e => rw [hx, hxs] at h; cases h
      | ok ys' =>
        rw [hx, hxs] at h
        cases h
        exact .cons hx (ih hxs)

/-- When no item is dropped, each becomes a row. -/
theorem forall₂_of_mapM_some {α β : Type} {f : α → Option β} {xs : List α} {ys : List β}
    (h : xs.mapM f = some ys) : List.Forall₂ (fun x y => f x = some y) xs ys := by
  induction xs generalizing ys with
  | nil =>
    obtain rfl : ys = [] := by cases h; rfl
    exact .nil
  | cons x xs ih =>
    rw [List.mapM_cons] at h
    cases hx : f x with
    | none => rw [hx] at h; cases h
    | some y =>
      cases hxs : xs.mapM f with
      | none => rw [hx, hxs] at h; cases h
      | some ys' =>
        rw [hx, hxs] at h
        cases h
        exact .cons hx (ih hxs)

/-- A loop in which each item acts as its row. -/
theorem foldlM_of_forall₂ {α β σ ε : Type} {R : α → β → Prop} {g : σ → β → σ}
    {step : σ → α → Except ε σ} {xs : List α} {ys : List β} (h : List.Forall₂ R xs ys)
    (hstep : ∀ s x y, R x y → step s x = .ok (g s y)) (s : σ) :
    xs.foldlM step s = .ok (ys.foldl g s) := by
  induction h generalizing s with
  | nil => rfl
  | cons hx _ ih =>
    rw [List.foldlM_cons, hstep s _ _ hx]
    exact ih (g s _)

theorem ingestBar_eq {env : MT5Env} {payload : MT5Payload} {bar : OHLCBar} {row : MarketBar}
    (store : BarStore) (st : BarSession) (h : ingestRow env payload bar = .ok row) :
    ingestBar env payload store st bar = .ok (st.check store row) := by
  rw [ingestBar, h]
  rfl

/-- **`ingest` on valid bars** stores the batch of their rows. -/
theorem ingest_eq {env : MT5Env} {payload : MT5Payload} {header : Option String}
    {rows : List MarketBar} (hkey : keyRejected env header = false)
    (hrows : payload.bars.mapM (ingestRow env payload) = .ok rows) (store : BarStore) :
    ingest env payload header store =
      (storeBatch rows store).map fun (store', stored, skipped) =>
        (store', ingestResponse env payload stored skipped) := by
  have hloop : payload.bars.foldlM (ingestBar env payload store) BarSession.init =
      .ok (rows.foldl (BarSession.check store) BarSession.init) :=
    foldlM_of_forall₂ (forall₂_of_mapM_ok hrows) (fun st _ _ h => ingestBar_eq store st h) _
  unfold ingest storeBatch
  rw [hkey, hloop]
  simp only [foldl_check, BarSession.init, BarSession.commit, List.nil_append, Nat.zero_add, bind,
    Except.bind, Bool.false_eq_true, ↓reduceIte]
  cases store.commit (newRows MarketBar.key store.rows rows) <;> rfl

/-- A loop without failures in which each item acts as its row. -/
theorem foldl_of_forall₂ {α β σ : Type} {R : α → β → Prop} {g : σ → β → σ} {step : σ → α → σ}
    {xs : List α} {ys : List β} (h : List.Forall₂ R xs ys)
    (hstep : ∀ s x y, R x y → step s x = g s y) (s : σ) : xs.foldl step s = ys.foldl g s := by
  induction h generalizing s with
  | nil => rfl
  | cons hx _ ih =>
    rw [List.foldl_cons, List.foldl_cons, hstep s _ _ hx]
    exact ih (g s _)

theorem upsertBar_eq {symbol timeframe : String} {spread : PyFloat} {bar : BarDict}
    {row : MarketBar} (store : BarStore) (st : BarSession)
    (h : upsertRow symbol timeframe spread bar = some row) :
    upsertBar symbol timeframe spread store st bar = st.check store row := by
  rw [upsertBar, h]

/-- **`upsert_market_bars` on valid bars** stores the batch of their rows. -/
theorem upsert_eq {symbol timeframe : String} {bars : List BarDict} {spread : PyFloat}
    {rows : List MarketBar} (hrows : bars.mapM (upsertRow symbol timeframe spread) = some rows)
    (store : BarStore) :
    upsertMarketBars symbol timeframe bars spread store = storeBatch rows store := by
  have hloop : bars.foldl (upsertBar symbol timeframe spread store) BarSession.init =
      rows.foldl (BarSession.check store) BarSession.init :=
    foldl_of_forall₂ (forall₂_of_mapM_some hrows) (fun st _ _ h => upsertBar_eq store st h) _
  unfold upsertMarketBars storeBatch
  rw [hloop]
  simp only [foldl_check, BarSession.init, BarSession.commit, List.nil_append, Nat.zero_add, bind,
    Except.bind]
  cases store.commit (newRows MarketBar.key store.rows rows) <;> rfl

/-! ## Idempotence -/

/-- The call `run` stores the batch once: it succeeds, the earlier rows stay as they are, the new
ones are the first occurrences of the absent keys, the counters add up, and a repetition of the call
stores nothing and skips everything. -/
def StoresOnce (run : BarStore → Except ApiError (BarStore × Nat × Nat)) (rows : List MarketBar)
    (store : BarStore) : Prop :=
  ∃ store' stored skipped, run store = .ok (store', stored, skipped) ∧
    store.rows.IsPrefix store'.rows ∧
    (∀ row, row ∈ store'.rows ↔ row ∈ store.rows ∨
      (¬ store.Has row.key ∧ rows.find? (fun r => r.key = row.key) = some row)) ∧
    stored + skipped = rows.length ∧
    run store' = .ok (store', 0, rows.length)

/-- No key that is absent from the store occurs twice in the batch. -/
def AbsentDistinct (store : BarStore) (rows : List MarketBar) : Prop :=
  ((newRows MarketBar.key store.rows rows).map MarketBar.key).Nodup

instance (store : BarStore) (rows : List MarketBar) : Decidable (AbsentDistinct store rows) :=
  inferInstanceAs (Decidable (List.Nodup _))

/-- The commit of a batch succeeds exactly when its absent keys are distinct. -/
theorem commit_newRows_isSome (store : BarStore) (rows : List MarketBar) :
    (store.commit (newRows MarketBar.key store.rows rows)).isSome = true ↔
      AbsentDistinct store rows :=
  UniqueTable.commit_isSome fun _ hx => (UniqueTable.mem_newRows.mp hx).2

theorem storeBatch_iff (rows : List MarketBar) (store : BarStore) :
    StoresOnce (storeBatch rows) rows store ↔ AbsentDistinct store rows := by
  rw [← commit_newRows_isSome]
  constructor
  · rintro ⟨store', stored, skipped, hrun, -⟩
    cases hc : store.commit (newRows MarketBar.key store.rows rows) with
    | none => simp only [storeBatch, hc] at hrun; cases hrun
    | some t => rfl
  · intro hsome
    obtain ⟨store', hc⟩ := Option.isSome_iff_exists.mp hsome
    have hd : AbsentDistinct store rows := (commit_newRows_isSome store rows).mp hsome
    have hrows := UniqueTable.commit_eq_some.mp hc
    have hle := UniqueTable.newRows_length_le MarketBar.key store.rows rows
    have hagain : newRows MarketBar.key store'.rows rows = [] := by
      rw [hrows, UniqueTable.newRows_eq_nil]
    have hrun : storeBatch rows store = .ok (store', (newRows MarketBar.key store.rows rows).length,
        rows.length - (newRows MarketBar.key store.rows rows).length) := by
      simp only [storeBatch, hc]
    refine ⟨store', _, _, hrun, ?_, ?_, ?_, ?_⟩
    · rw [hrows]
      exact List.prefix_append _ _
    · intro row
      rw [hrows, List.mem_append, UniqueTable.mem_newRows_iff_first hd]
      rfl
    · omega
    · have hself : store'.commit [] = some store' := by
        rw [UniqueTable.commit_eq_some, List.append_nil]
      simp only [storeBatch, hagain, hself, List.length_nil, Nat.sub_zero]

/-- The counters of an `ingest` response. -/
def MT5Response.counters (r : MT5Response) : Nat × Nat := (r.barsStored, r.barsSkippedDuplicate)

/-- **Idempotent ingestion.** On valid bars either writer stores its batch once, and a repetition
changes nothing, exactly when no key that is absent from the store occurs twice in the batch. -/
theorem writers_idempotent_iff (store : BarStore) (rows : List MarketBar) :
    (∀ env payload header, keyRejected env header = false →
      payload.bars.mapM (ingestRow env payload) = .ok rows →
      (StoresOnce (fun s => (ingest env payload header s).map fun (s', r) => (s', r.counters)) rows
        store ↔ AbsentDistinct store rows)) ∧
    (∀ symbol timeframe bars spread, bars.mapM (upsertRow symbol timeframe spread) = some rows →
      (StoresOnce (upsertMarketBars symbol timeframe bars spread) rows store ↔
        AbsentDistinct store rows)) := by
  constructor
  · intro env payload header hkey hrows
    have hrun : (fun s => (ingest env payload header s).map fun (s', r) => (s', r.counters)) =
        storeBatch rows := by
      funext s
      rw [ingest_eq hkey hrows]
      cases storeBatch rows s <;> rfl
    rw [hrun, storeBatch_iff]
  · intro symbol timeframe bars spread hrows
    have hrun : upsertMarketBars symbol timeframe bars spread = storeBatch rows :=
      funext (upsert_eq hrows)
    rw [hrun, storeBatch_iff]

/-! ## Fixtures -/

/-- An environment without an API key whose clock strings are two minutes of one day. -/
def demoEnv : MT5Env where
  fromisoformat s :=
    if s = "2024-01-01T00:00:00+00:00" then some ⟨1704067200000000, some 0⟩
    else if s = "2024-01-01T00:01:00+00:00" then some ⟨1704067260000000, some 0⟩
    else none
  caseMap := .ascii
  apiKey := ""

/-- A bar at one of these minutes. -/
def demoBar (time : String) (close : ℚ) : OHLCBar := ⟨time, .num 10, .num 12, .num 9, .num close, .num 0⟩

/-- The bars of the two minutes. -/
def demoPayload : MT5Payload where
  symbol := "gold"
  timeframe := "M1"
  spread := .num 0
  bars := [demoBar "2024-01-01T00:00:00Z" 11, demoBar "2024-01-01T00:01:00Z" 10]
  min_length := by decide
  max_length := by decide

/-- Two versions of the bar of the first minute. -/
def repeatedPayload : MT5Payload where
  symbol := "gold"
  timeframe := "M1"
  spread := .num 0
  bars := [demoBar "2024-01-01T00:00:00Z" 11, demoBar "2024-01-01T00:00:00Z" 10]
  min_length := by decide
  max_length := by decide

/-- The row of `demoBar`. -/
def demoRow (barTime : Int) (close : ℚ) : MarketBar :=
  ⟨"XAUUSD", "M1", barTime, .num 10, .num 12, .num 9, .num close, .num 0, .num 0⟩

/-- The provider's item for `demoBar`. -/
def demoDict (time : Int) (close : ℚ) : BarDict := ⟨time, .num 10, .num 12, .num 9, .num close, none⟩

theorem demo_idempotent :
    (StoresOnce (fun s => (ingest demoEnv demoPayload none s).map fun (s', r) => (s', r.counters))
        [demoRow 1704067200000000 11, demoRow 1704067260000000 10] UniqueTable.empty ↔
      AbsentDistinct UniqueTable.empty
        [demoRow 1704067200000000 11, demoRow 1704067260000000 10]) ∧
    (StoresOnce (upsertMarketBars "XAUUSD" "M1"
          [demoDict 1704067200000000 11, demoDict 1704067260000000 10] (.num 0))
        [demoRow 1704067200000000 11, demoRow 1704067260000000 10] UniqueTable.empty ↔
      AbsentDistinct UniqueTable.empty
        [demoRow 1704067200000000 11, demoRow 1704067260000000 10]) :=
  ⟨(writers_idempotent_iff UniqueTable.empty _).1 demoEnv demoPayload none (by decide)
      (by decide +kernel),
    (writers_idempotent_iff UniqueTable.empty _).2 "XAUUSD" "M1" _ (.num 0) (by decide +kernel)⟩

/-- A batch that repeats an absent bar time fails at the commit, with either writer. -/
theorem repeated_bar_rejected :
    repeatedPayload.bars.mapM (ingestRow demoEnv repeatedPayload) =
        .ok [demoRow 1704067200000000 11, demoRow 1704067200000000 10] ∧
      ingest demoEnv repeatedPayload none UniqueTable.empty = .error .integrityError ∧
      upsertMarketBars "XAUUSD" "M1"
          [demoDict 1704067200000000 11, demoDict 1704067200000000 10] (.num 0) UniqueTable.empty =
        .error .integrityError := by
  have hrows : repeatedPayload.bars.mapM (ingestRow demoEnv repeatedPayload) =
      .ok [demoRow 1704067200000000 11, demoRow 1704067200000000 10] := by decide +kernel
  refine ⟨hrows, ?_, rfl⟩
  rw [ingest_eq (by decide) hrows]
  rfl

end MarketKill3r
