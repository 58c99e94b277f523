import Mathlib.Data.List.Basic

/-!
# The instrument catalog

`app/services/instruments.py`: the catalog with its aliases, and the canonical spelling of a
symbol. Strings are read as lists of characters where the source works on them.
-/

namespace MarketKill3r

/-- The upper case of each character, as `str.upper` has it. Outside ASCII a character may become
several; the model leaves the table open there. -/
structure CaseMap where
  upper : Char → List Char
  upper_ascii : ∀ c : Char, c.toNat < 128 → upper c = [c.toUpper]

/-- A table that leaves the characters outside ASCII as they are. -/
def CaseMap.ascii : CaseMap := ⟨fun c => [c.toUpper], fun _ _ => rfl⟩

/-- The white space that `str.strip` removes. -/
def isPySpace (c : Char) : Bool :=
  c.toNat ∈ [9, 10, 11, 12, 13, 28, 29, 30, 31, 32, 133, 160, 5760, 8232, 8233, 8239, 8287, 12288] ∨
    (8192 ≤ c.toNat ∧ c.toNat ≤ 8202)

/-- `str.strip` -/
def pyStrip (s : List Char) : List Char :=
  ((s.dropWhile isPySpace).reverse.dropWhile isPySpace).reverse

/-- `str.upper` -/
def CaseMap.str (cm : CaseMap) (s : List Char) : List Char := s.flatMap cm.upper

/-- `s.replace("/", "").replace("_", "").replace("-", "")` -/
def dropSeparators (s : List Char) : List Char :=
  ((s.filter (· ≠ '/')).filter (· ≠ '_')).filter (· ≠ '-')

/-- A catalog entry. -/
structure Instrument where
  symbol : String
  name : String
  category : String
  aliases : List String

/-- `INSTRUMENTS` -/
def instruments : List Instrument :=
  [⟨"NAS100", "Nasdaq 100", "Indices", ["NASDAQ", "NASDAQ100", "US100", "USTEC"]⟩,
    ⟨"US30", "Dow Jones 30", "Indices", ["DJ30", "DOW30", "DOWJONES", "US30USD"]⟩,
    ⟨"XAUUSD", "Gold / US Dollar", "Metals", ["XAU/USD", "GOLD"]⟩,
    ⟨"EURUSD", "Euro / US Dollar", "Forex", ["EUR/USD"]⟩,
    ⟨"USDJPY", "US Dollar / Yen", "Forex", ["USD/JPY"]⟩,
    ⟨"GBPUSD", "British Pound / US Dollar", "Forex", ["GBP/USD"]⟩,
    ⟨"BTCUSD", "Bitcoin / US Dollar", "Crypto", ["BTC/USD", "BITCOIN"]⟩,
    ⟨"DXY", "US Dollar Index", "Index", ["USDINDEX", "USDX"]⟩]

/-- The items of `_ALIAS_TO_SYMBOL`, in the order in which they are set. -/
def aliasEntries (cm : CaseMap) : List (List Char × String) :=
  instruments.flatMap fun item => (item.symbol :: item.aliases).map fun name =>
    (cm.str (dropSeparators name.toList), item.symbol)

/-- `_ALIAS_TO_SYMBOL.get(key)`: the item set last wins. -/
def aliasToSymbol (cm : CaseMap) (key : List Char) : Option String :=
  (aliasEntries cm).reverse.lookup key

/-- `canonical_symbol` -/
def canonicalSymbol (cm : CaseMap) (symbol : String) : String :=
  let key := cm.str (pyStrip (dropSeparators symbol.toList))
  (aliasToSymbol cm key).getD (String.ofList key)

/-- `InstrumentOut` -/
structure InstrumentOut where
  symbol : String
  name : String
  category : String

/-- `instrument_payload` -/
def instrumentPayload : List InstrumentOut :=
  instruments.map fun i => ⟨i.symbol, i.name, i.category⟩

end MarketKill3r
