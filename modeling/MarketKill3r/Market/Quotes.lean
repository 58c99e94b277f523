import MarketKill3r.Market.Freshness
import MarketKill3r.Market.Keys

/-!
# Live quotes (`app/services/market_data_providers.py`, `app/api/routes/market.py`)

The dashboard asks the provider for the quote of one symbol, or of four, one after the other. A symbol
without a quote is left out.

* `liveQuote_spec`: what a quote says.
* `liveQuotes_eq`: **the list is that of the single quotes**, in the order of the symbols.
-/

namespace MarketKill3r

/-- `MarketQuote`, and `QuoteOut`, which has the same fields. -/
structure MarketQuote where
  symbol : String
  bid : Option PyFloat
  ask : Option PyFloat
  price : Option PyFloat
  timestamp : Int
  source : String

/-- The exceptions of `datetime.fromtimestamp`. -/
inductive TimestampError
  | outOfRange
  | osError

/-- The exceptions that leave `fetch_twelve_data_quote`. -/
inductive QuoteError
  | float (e : FloatError)
  | osError

/-- The settings, and the conversions of Python: `fromtimestamp` is `datetime.fromtimestamp` in UTC. -/
structure QuoteEnv extends ProviderEnv where
  twelveDataApiKey : String
  fromtimestamp : PyFloat → Except TimestampError Int

/-- The answer of the provider for each symbol (nothing when the request or the decoding fails), and the
reading of the clock after it. -/
structure QuoteAnswers where
  quote : String → Option JsonValue
  clock : String → Int

/-! ## Quotes -/

/-- `price` -/
def quotePrice (env : ProviderEnv) (payload : JsonDict) : Except FloatError (Option PyFloat) :=
  match floatOrNone env (payload.get "close") with
  | .ok none => floatOrNone env (payload.get "price")
  | price => price

/-- `timestamp`. `now` stays where the provider names no time, or none that can be read. -/
def quoteTimestamp (env : QuoteEnv) (now : Int) (rawTimestamp : JsonValue) :
    Except QuoteError Int :=
  match rawTimestamp with
  | .null => .ok now
  | raw =>
    match env.float raw with
    | .error _ => .ok now
    | .ok x =>
      match env.fromtimestamp x with
      | .ok timestamp => .ok timestamp
      | .error .outOfRange => .ok now
      | .error .osError => .error .osError

/-- The end of `fetch_twelve_data_quote`, from the payload on. -/
def quoteOf (env : QuoteEnv) (symbol : String) (now : Int) (payload : JsonDict) :
    Except QuoteError (Option MarketQuote) := do
  match ← (quotePrice env.toProviderEnv payload).mapError .float with
  | none => return none
  | some price =>
    let timestamp ← quoteTimestamp env now (payload.get "timestamp")
    let bid ← (floatOrNone env.toProviderEnv (payload.get "bid")).mapError .float
    let ask ← (floatOrNone env.toProviderEnv (payload.get "ask")).mapError .float
    return some ⟨symbol, bid, ask, some price, timestamp, "twelvedata.com"⟩

/-- `payload.get("status") == "error"` -/
def JsonDict.hasFailed (payload : JsonDict) : Bool :=
  match payload.get "status" with
  | .str status => status = "error"
  | _ => false

/-- `fetch_twelve_data_quote` -/
def fetchTwelveDataQuote (env : QuoteEnv) (answers : QuoteAnswers) (symbol : String) :
    Except QuoteError (Option MarketQuote) :=
  if env.twelveDataApiKey = "" then .ok none
  else
    let symbol := env.caseMap.normaliseSymbol symbol
    match answers.quote symbol with
    | some (.dict payload) =>
      if JsonDict.hasFailed payload then .ok none
      else quoteOf env symbol (answers.clock symbol) payload
    | _ => .ok none

/-- `fetch_twelve_data_quotes` -/
def fetchTwelveDataQuotes (env : QuoteEnv) (answers : QuoteAnswers) (symbols : List String) :
    Except QuoteError (List MarketQuote) := do
  let quotes ← symbols.mapM (fetchTwelveDataQuote env answers)
  return quotes.filterMap id

/-! ## The endpoints -/

/-- `symbols` of `live_quotes`. -/
def quotedSymbols : List String := ["NAS100", "US30", "XAUUSD", "EURUSD"]

/-- `live_quotes` -/
def liveQuotes (env : QuoteEnv) (answers : QuoteAnswers) : Except QuoteError (List MarketQuote) := do
  let quotes ← fetchTwelveDataQuotes env answers quotedSymbols
  return quotes.map fun quote => { quote with symbol := canonicalSymbol env.caseMap quote.symbol }

/-- `live_quote` -/
def liveQuote (env : QuoteEnv) (answers : QuoteAnswers) (symbol : String) :
    Except QuoteError (Option MarketQuote) := do
  let target := canonicalSymbol env.caseMap symbol
  let quote ← fetchTwelveDataQuote env answers target
  return quote.map fun quote => { quote with symbol := target }

/-! ## What a quote says -/

theorem bind_eq_ok {α β ε : Type} {x : Except ε α} {f : α → Except ε β} {b : β} :
    x >>= f = .ok b ↔ ∃ a, x = .ok a ∧ f a = .ok b := by
  cases x with
  | error e => exact iff_of_false (fun h => by cases h) fun ⟨_, h, _⟩ => by cases h
  | ok a => simp only [bind, Except.bind, Except.ok.injEq, exists_eq_left']

variable {env : QuoteEnv} {answers : QuoteAnswers}

theorem quoteOf_spec {symbol : String} {now : Int} {payload : JsonDict} {quote : MarketQuote}
    (h : quoteOf env symbol now payload = .ok (some quote)) :
    quote.symbol = symbol ∧ quote.price.isSome = true := by
  obtain ⟨price, -, h⟩ := bind_eq_ok.mp h
  cases price with
  | none => cases h
  | some price =>
    obtain ⟨timestamp, -, h⟩ := bind_eq_ok.mp h
    obtain ⟨bid, -, h⟩ := bind_eq_ok.mp h
    obtain ⟨ask, -, h⟩ := bind_eq_ok.mp h
    cases h
    exact ⟨rfl, rfl⟩

theorem fetchTwelveDataQuote_spec {symbol : String} {quote : MarketQuote}
    (h : fetchTwelveDataQuote env answers symbol = .ok (some quote)) :
    quote.symbol = env.caseMap.normaliseSymbol symbol ∧ quote.price.isSome = true := by
  unfold fetchTwelveDataQuote at h
  split at h
  · cases h
  · dsimp only at h
    split at h
    · split at h
      · cases h
      · exact quoteOf_spec h
    · cases h

/-- **What a quote says.** It is about the symbol that was asked for, and has a price. -/
theorem liveQuote_spec {symbol : String} {quote : MarketQuote}
    (h : liveQuote env answers symbol = .ok (some quote)) :
    quote.symbol = canonicalSymbol env.caseMap symbol ∧ quote.price.isSome = true := by
  obtain ⟨found, hfound, h⟩ := bind_eq_ok.mp h
  obtain ⟨quote', rfl, rfl⟩ := Option.map_eq_some_iff.mp (Except.ok.inj h)
  dsimp only
  exact ⟨rfl, (fetchTwelveDataQuote_spec hfound).2⟩

/-! ## The list -/

/-- The catalog reads the same with every table of upper cases. -/
theorem aliasEntries_eq (cm : CaseMap) : aliasEntries cm = aliasEntries .ascii := by
  have hstr : ∀ s : List Char, (∀ c ∈ s, c.toNat < 128) → cm.str s = CaseMap.ascii.str s := by
    intro s hs
    refine List.flatMap_congr fun c hc => ?_
    rw [cm.upper_ascii c (hs c hc)]
    rfl
  have hascii : ∀ item ∈ instruments, ∀ name ∈ item.symbol :: item.aliases,
      ∀ c ∈ dropSeparators name.toList, c.toNat < 128 := by
    simp [instruments, dropSeparators]
  refine List.flatMap_congr fun item hitem => List.map_congr_left fun name hname => ?_
  rw [hstr _ (hascii item hitem name hname)]

/-- A symbol of the catalog is canonical. -/
theorem canonicalSymbol_instrument (cm : CaseMap) {item : Instrument} (h : item ∈ instruments) :
    canonicalSymbol cm item.symbol = item.symbol := by
  have hkey : pyStrip (dropSeparators item.symbol.toList) = item.symbol.toList := by
    revert item
    decide
  have halias : (aliasEntries .ascii).reverse.lookup item.symbol.toList = some item.symbol := by
    simp only [instruments, List.mem_cons, List.not_mem_nil, or_false] at h
    obtain rfl | rfl | rfl | rfl | rfl | rfl | rfl | rfl := h <;> decide +kernel
  rw [canonicalSymbol, hkey, CaseMap.Idempotent.str_of_fixed (instrument_upper cm h), aliasToSymbol,
    aliasEntries_eq, halias, Option.getD_some]

/-- The provider is asked for it as it stands. -/
theorem normaliseSymbol_instrument (cm : CaseMap) {item : Instrument} (h : item ∈ instruments) :
    cm.normaliseSymbol item.symbol = item.symbol := by
  have hplain : (item.symbol.toList.filter (· ≠ '/')).filter (· ≠ '_') = item.symbol.toList ∧
      pyStrip item.symbol.toList = item.symbol.toList := by
    revert item
    decide
  rw [CaseMap.normaliseSymbol, hplain.1, String.ofList_toList, CaseMap.upperStr,
    CaseMap.Idempotent.str_of_fixed (instrument_upper cm h), String.ofList_toList, stripStr, hplain.2,
    String.ofList_toList]

/-- The four symbols are in the catalog. -/
theorem quotedSymbols_subset : ∀ symbol ∈ quotedSymbols, ∃ item ∈ instruments, item.symbol = symbol := by
  decide +kernel

/-- A quote of the list and the single quote. -/
theorem liveQuote_eq {symbol : String} (h : symbol ∈ quotedSymbols) :
    liveQuote env answers symbol = (fetchTwelveDataQuote env answers symbol).map
      (Option.map fun quote => { quote with symbol := canonicalSymbol env.caseMap quote.symbol }) := by
  obtain ⟨item, hitem, rfl⟩ := quotedSymbols_subset symbol h
  have hcanonical := canonicalSymbol_instrument env.caseMap hitem
  unfold liveQuote
  simp only [hcanonical]
  cases hfetch : fetchTwelveDataQuote env answers item.symbol with
  | error e => rfl
  | ok found =>
    cases found with
    | none => rfl
    | some quote =>
      have hsymbol := (fetchTwelveDataQuote_spec hfetch).1
      rw [normaliseSymbol_instrument env.caseMap hitem] at hsymbol
      simp only [bind, Except.bind, pure, Except.pure, Except.map, Option.map_some, hsymbol,
        hcanonical]

/-- `mapM`, where each result is changed. -/
theorem mapM_eq_map {α β γ ε : Type} {f : α → Except ε β} {f' : α → Except ε γ} {g : β → γ}
    {xs : List α} (h : ∀ x ∈ xs, f' x = (f x).map g) : xs.mapM f' = (xs.mapM f).map (List.map g) := by
  induction xs with
  | nil => rfl
  | cons x xs ih =>
    obtain ⟨hx, hxs⟩ := List.forall_mem_cons.mp h
    rw [List.mapM_cons, List.mapM_cons, hx, ih hxs]
    cases f x with
    | error e => rfl
    | ok y => cases xs.mapM f <;> rfl

/-- **The quotes of the dashboard are the single quotes**, without those that are not there. -/
theorem liveQuotes_eq : liveQuotes env answers =
    (quotedSymbols.mapM (liveQuote env answers)).map (List.filterMap id) := by
  rw [mapM_eq_map fun symbol h => liveQuote_eq h]
  unfold liveQuotes fetchTwelveDataQuotes
  cases quotedSymbols.mapM (fetchTwelveDataQuote env answers) with
  | error e => rfl
  | ok found =>
    refine congrArg Except.ok ?_
    rw [List.filterMap_map, List.map_filterMap]
    rfl

end MarketKill3r
