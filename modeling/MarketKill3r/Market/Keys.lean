import MarketKill3r.Market.Loading

/-!
# Keys as they are written and read

`ingest` stores a bar under the canonical symbol and the timeframe as it was sent. `run_analysis`
reads under the canonical symbol and the timeframe in upper case and without blanks around it,
`chart_bars` (`app/api/routes/market.py`) under the timeframe in upper case.

* `chartBars_isNewest`: a chart shows the newest bars of its selection.
* `upperStr_canonicalSymbol`: the second `upper` of the loader does not change a canonical symbol.
* `read_iff`: a row is read on both paths exactly when its timeframe is a `NormalTimeframe`.
* `ingested_bars_read_iff`: the same for the bars of a successful `ingest`.
-/

namespace MarketKill3r

open Newest (newest IsNewest newest_isNewest)

/-! ## `chart_bars` -/

/-- The rows among which `chart_bars` looks for the newest, unless the `Query` constraints on
`timeframe` reject the request. -/
def chartSelection (cm : CaseMap) (store : BarStore) (symbol timeframe : String) :
    Option (List MarketBar) :=
  if 1 ≤ timeframe.length ∧ timeframe.length ≤ 10 then
    some (selectRows store (canonicalSymbol cm symbol) (cm.upperStr timeframe))
  else none

/-- `chart_bars` -/
def chartBars (cm : CaseMap) (store : BarStore) (symbol timeframe : String) (limit : Nat) :
    Option (List MarketBar) :=
  if 1 ≤ limit ∧ limit ≤ 2000 then
    (chartSelection cm store symbol timeframe).map (newest MarketBar.barTime limit)
  else none

/-- What `chart_bars` returns: the newest of its selection, the oldest first. -/
theorem chartBars_isNewest {cm : CaseMap} {store : BarStore} {symbol timeframe : String}
    {limit : Nat} {found : List MarketBar}
    (h : chartBars cm store symbol timeframe limit = some found) :
    ∃ rows, chartSelection cm store symbol timeframe = some rows ∧
      IsNewest MarketBar.barTime limit rows found := by
  unfold chartBars chartSelection at h
  split at h
  · split at h
    · rename_i hlen
      obtain rfl := Option.some.inj h
      exact ⟨_, if_pos hlen, newest_isNewest limit (selectRows_nodup store _ _)⟩
    · cases h
  · cases h

/-! ## Keys as they are written and read -/

/-- Every analysis request that names the symbol and the timeframe, as its primary timeframe or in
its list, has the row in one of its selections. -/
def ReadByAnalysis (cm : CaseMap) (store : BarStore) (symbol timeframe : String) (r : MarketBar) :
    Prop :=
  ∀ payload : AnalysisRequest, payload.symbol = symbol →
    payload.timeframe = timeframe ∨ timeframe ∈ payload.timeframes.getD [] →
    ∃ tf ∈ payload.requestedTfs cm,
      r ∈ loadSelection cm store (canonicalSymbol cm payload.symbol) tf

/-- The chart request that names the symbol and the timeframe has the row in its selection. -/
def ReadByChart (cm : CaseMap) (store : BarStore) (symbol timeframe : String) (r : MarketBar) :
    Prop :=
  ∃ rows, chartSelection cm store symbol timeframe = some rows ∧ r ∈ rows

/-- The timeframe is written as the readers write it: in upper case, without blanks around it, and
of a length that the chart admits. -/
def NormalTimeframe (cm : CaseMap) (timeframe : String) : Prop :=
  cm.upperStr timeframe = timeframe ∧ stripStr timeframe = timeframe ∧
    1 ≤ timeframe.length ∧ timeframe.length ≤ 10

instance (cm : CaseMap) (timeframe : String) : Decidable (NormalTimeframe cm timeframe) :=
  inferInstanceAs (Decidable (_ ∧ _))

/-- Upper case characters have no other upper case. -/
def CaseMap.Idempotent (cm : CaseMap) : Prop := ∀ c, ∀ d ∈ cm.upper c, cm.upper d = [d]

namespace CaseMap.Idempotent

variable {cm : CaseMap}

/-- A string whose characters are their own upper case. -/
theorem str_of_fixed {s : List Char} (h : ∀ c ∈ s, cm.upper c = [c]) : cm.str s = s := by
  induction s with
  | nil => rfl
  | cons c s ih =>
    rw [CaseMap.str, List.flatMap_cons, h c List.mem_cons_self]
    exact congrArg (c :: ·) (ih fun d hd => h d (List.mem_cons_of_mem _ hd))

theorem fixed_of_mem_str (h : cm.Idempotent) {s : List Char} {c : Char} (hc : c ∈ cm.str s) :
    cm.upper c = [c] := by
  obtain ⟨d, -, hd⟩ := List.mem_flatMap.mp hc
  exact h d c hd

theorem fixed_of_upperStr_eq (h : cm.Idempotent) {s : String} (hs : cm.upperStr s = s) {c : Char}
    (hc : c ∈ s.toList) : cm.upper c = [c] := by
  rw [← hs, upperStr, String.toList_ofList] at hc
  exact h.fixed_of_mem_str hc

end CaseMap.Idempotent

/-- The symbols of the catalog are in upper case. -/
theorem instrument_upper (cm : CaseMap) {item : Instrument} (h : item ∈ instruments) :
    ∀ c ∈ item.symbol.toList, cm.upper c = [c] := by
  have hascii : ∀ item ∈ instruments, ∀ c ∈ item.symbol.toList, c.toNat < 128 ∧ c.toUpper = c := by
    simp [instruments]
  intro c hc
  obtain ⟨hlt, hup⟩ := hascii item h c hc
  rw [cm.upper_ascii c hlt, hup]

/-- A canonical symbol is in upper case. -/
theorem upperStr_canonicalSymbol {cm : CaseMap} (h : cm.Idempotent) (symbol : String) :
    cm.upperStr (canonicalSymbol cm symbol) = canonicalSymbol cm symbol := by
  have hfixed : ∀ c ∈ (canonicalSymbol cm symbol).toList, cm.upper c = [c] := by
    intro c hc
    rw [canonicalSymbol] at hc
    cases ha : aliasToSymbol cm (cm.str (pyStrip (dropSeparators symbol.toList))) with
    | none =>
      simp only [ha, Option.getD_none, String.toList_ofList] at hc
      exact h.fixed_of_mem_str hc
    | some name =>
      simp only [ha, Option.getD_some] at hc
      obtain ⟨pre, post, hl, -⟩ := List.lookup_eq_some_iff.mp ha
      have hmem : (cm.str (pyStrip (dropSeparators symbol.toList)), name) ∈ aliasEntries cm := by
        rw [← List.mem_reverse, hl]
        exact List.mem_append_right _ List.mem_cons_self
      obtain ⟨item, hitem, hname⟩ := List.mem_flatMap.mp hmem
      obtain ⟨spelling, -, he⟩ := List.mem_map.mp hname
      obtain ⟨-, rfl⟩ := Prod.mk.inj he
      exact instrument_upper cm hitem c hc
  rw [CaseMap.upperStr, CaseMap.Idempotent.str_of_fixed hfixed, String.ofList_toList]

theorem pyStrip_sublist (s : List Char) : (pyStrip s).Sublist s := by
  have h1 : ((s.dropWhile isPySpace).reverse.dropWhile isPySpace).Sublist
      (s.dropWhile isPySpace).reverse := List.dropWhile_sublist _
  have h2 := List.reverse_sublist.mpr h1
  rw [List.reverse_reverse] at h2
  exact h2.trans (List.dropWhile_sublist _)

/-- What `strip` leaves of a string in upper case is in upper case. -/
theorem upperStr_stripStr {cm : CaseMap} (h : cm.Idempotent) {s : String}
    (hs : cm.upperStr s = s) : cm.upperStr (stripStr s) = stripStr s := by
  rw [CaseMap.upperStr, stripStr, String.toList_ofList, CaseMap.Idempotent.str_of_fixed]
  exact fun c hc => h.fixed_of_upperStr_eq hs ((pyStrip_sublist s.toList).subset hc)

/-- A string that is stripped twice to itself has no blanks around it. -/
theorem stripStr_of_twice {s : String} (h : stripStr (stripStr s) = s) : stripStr s = s := by
  have h1 : (pyStrip (pyStrip s.toList)) = s.toList := by
    have := congrArg String.toList h
    rwa [stripStr, stripStr, String.toList_ofList, String.toList_ofList] at this
  have h2 := (pyStrip_sublist (pyStrip s.toList)).length_le
  have h3 : pyStrip s.toList = s.toList := by
    refine (pyStrip_sublist s.toList).eq_of_length_le ?_
    rwa [h1] at h2
  rw [stripStr, h3, String.ofList_toList]

/-- The timeframes of a request for one timeframe alone. -/
theorem requestedTfs_single (cm : CaseMap) (symbol timeframe : String) (barLimit : Nat) :
    (AnalysisRequest.mk symbol timeframe none barLimit).requestedTfs cm =
      [cm.normalTimeframe (cm.normalTimeframe timeframe)] := by
  simp [AnalysisRequest.requestedTfs, normalizeTimeframes, List.eraseDups_cons]

/-- A timeframe that is written as the readers write it is among those that a request for it
loads. -/
theorem NormalTimeframe.requested {cm : CaseMap} {timeframe : String}
    (h : NormalTimeframe cm timeframe) {payload : AnalysisRequest}
    (hp : payload.timeframe = timeframe ∨ timeframe ∈ payload.timeframes.getD []) :
    timeframe ∈ payload.requestedTfs cm := by
  obtain ⟨hup, hstrip, hlen, -⟩ := h
  have hnorm : cm.normalTimeframe timeframe = timeframe := by
    rw [CaseMap.normalTimeframe, hup, hstrip]
  have hne : timeframe ≠ "" := by
    rintro rfl
    exact absurd hlen (by decide)
  rw [AnalysisRequest.requestedTfs, normalizeTimeframes, List.mem_eraseDups]
  rcases hp with rfl | hp
  · rw [hnorm, hnorm]
    split
    · assumption
    · exact List.mem_append_right _ List.mem_cons_self
  · have hmem : timeframe ∈ ((payload.timeframes.getD []).filter fun tf =>
        tf ≠ "" ∧ stripStr tf ≠ "").map cm.normalTimeframe := by
      refine List.mem_map.mpr ⟨timeframe, List.mem_filter.mpr ⟨hp, ?_⟩, hnorm⟩
      rw [hstrip]
      simp [hne]
    split
    · exact hmem
    · exact List.mem_append_left _ hmem

/-- **Which rows are read.** A row under the canonical symbol and the timeframe as it was ingested is
read on both paths exactly when the timeframe is written as the readers write it. -/
theorem read_iff {cm : CaseMap} (h : cm.Idempotent) {store : BarStore} {symbol timeframe : String}
    {r : MarketBar} (hr : r ∈ store.rows) (hs : r.symbol = canonicalSymbol cm symbol)
    (ht : r.timeframe = timeframe) :
    ReadByAnalysis cm store symbol timeframe r ∧ ReadByChart cm store symbol timeframe r ↔
      NormalTimeframe cm timeframe := by
  constructor
  · rintro ⟨hana, rows, hchart, hmem⟩
    rw [chartSelection] at hchart
    split at hchart
    case isFalse => cases hchart
    case isTrue hlen =>
      cases hchart
      have hup : cm.upperStr timeframe = timeframe := by
        rw [← (mem_selectRows.mp hmem).2.2, ht]
      obtain ⟨tf, htf, hsel⟩ := hana ⟨symbol, timeframe, none, 1⟩ rfl (Or.inl rfl)
      have hstripped := upperStr_stripStr h hup
      have htf : tf = stripStr (stripStr timeframe) := by
        rw [requestedTfs_single, List.mem_singleton] at htf
        rw [htf, CaseMap.normalTimeframe, CaseMap.normalTimeframe, hup, hstripped]
      have htwice : stripStr (stripStr timeframe) = timeframe := by
        have hload := (mem_selectRows.mp hsel).2.2
        rw [ht, htf, upperStr_stripStr h hstripped] at hload
        exact hload.symm
      exact ⟨hup, stripStr_of_twice htwice, hlen⟩
  · intro hn
    constructor
    · intro payload hsym hp
      refine ⟨timeframe, hn.requested hp, mem_selectRows.mpr ⟨hr, ?_, ?_⟩⟩
      · rw [upperStr_canonicalSymbol h, hsym, hs]
      · rw [hn.1, ht]
    · refine ⟨_, if_pos hn.2.2, mem_selectRows.mpr ⟨hr, hs, ?_⟩⟩
      rw [hn.1, ht]

/-! ## After a successful `ingest` -/

/-- When the loop of `ingest` goes through, each bar has its row. -/
theorem mapM_of_ingest_loop {env : MT5Env} {payload : MT5Payload} {store : BarStore}
    {bars : List OHLCBar} {st st' : BarSession}
    (h : bars.foldlM (ingestBar env payload store) st = .ok st') :
    ∃ rows, bars.mapM (ingestRow env payload) = .ok rows := by
  induction bars generalizing st with
  | nil => exact ⟨[], rfl⟩
  | cons b bars ih =>
    rw [List.foldlM_cons] at h
    cases hrow : ingestRow env payload b with
    | error e => rw [ingestBar, hrow] at h; cases h
    | ok row =>
      rw [ingestBar_eq store st hrow] at h
      obtain ⟨rows, hrows⟩ := ih h
      refine ⟨row :: rows, ?_⟩
      rw [List.mapM_cons, hrow, hrows]
      rfl

/-- A successful `ingest` leaves a row for the key of each of its bars. -/
theorem ingest_has {env : MT5Env} {payload : MT5Payload} {header : Option String}
    {store store' : BarStore} {response : MT5Response}
    (h : ingest env payload header store = .ok (store', response)) :
    ∃ rows, payload.bars.mapM (ingestRow env payload) = .ok rows ∧
      ∀ row ∈ rows, store'.Has row.key := by
  have hkey := ingest_key h
  obtain ⟨rows, hrows⟩ : ∃ rows, payload.bars.mapM (ingestRow env payload) = .ok rows := by
    cases hl : payload.bars.foldlM (ingestBar env payload store) .init with
    | error e =>
      rw [ingest, hkey] at h
      simp only [hl, bind, Except.bind] at h
      cases h
    | ok st => exact mapM_of_ingest_loop hl
  refine ⟨rows, hrows, fun row hrow => ?_⟩
  rw [ingest_eq hkey hrows, storeBatch] at h
  cases hc : store.commit (UniqueTable.newRows MarketBar.key store.rows rows) with
  | none => rw [hc] at h; cases h
  | some s =>
    rw [hc] at h
    cases h
    have hs := UniqueTable.commit_eq_some.mp hc
    by_cases hk : row.key ∈ store.rows.map MarketBar.key
    · show row.key ∈ store'.rows.map MarketBar.key
      rw [hs, List.map_append]
      exact List.mem_append_left _ hk
    · show row.key ∈ store'.rows.map MarketBar.key
      rw [hs, List.map_append]
      exact List.mem_append_right _
        (List.mem_map_of_mem (UniqueTable.mem_newRows.mpr ⟨hrow, hk⟩))

theorem ingestRow_key {env : MT5Env} {payload : MT5Payload} {bar : OHLCBar} {row : MarketBar}
    (h : ingestRow env payload bar = .ok row) :
    ∃ time, parseTime env bar.time = .ok time ∧
      row.key = (canonicalSymbol env.caseMap payload.symbol, payload.timeframe, time) := by
  obtain ⟨-, time, ht, rfl⟩ := ingestRow_eq_ok h
  refine ⟨time, ht, ?_⟩
  simp only [MarketBar.key]

/-- The bar has a row in the store, under its symbol, timeframe and time, which analysis and chart
requests for the same spellings read. -/
def BarRead (env : MT5Env) (payload : MT5Payload) (store : BarStore) (bar : OHLCBar) : Prop :=
  ∃ time, parseTime env bar.time = .ok time ∧ ∃ r ∈ store.rows,
    r.key = (canonicalSymbol env.caseMap payload.symbol, payload.timeframe, time) ∧
    ReadByAnalysis env.caseMap store payload.symbol payload.timeframe r ∧
    ReadByChart env.caseMap store payload.symbol payload.timeframe r

/-- **What the EA ingests is read** exactly when its timeframe is written as the readers write it.
The spelling of the symbol does not matter. -/
theorem ingested_bars_read_iff {env : MT5Env} (hcm : env.caseMap.Idempotent) {payload : MT5Payload}
    {header : Option String} {store store' : BarStore} {response : MT5Response}
    (h : ingest env payload header store = .ok (store', response)) :
    (∀ bar ∈ payload.bars, BarRead env payload store' bar) ↔
      NormalTimeframe env.caseMap payload.timeframe := by
  constructor
  · intro hread
    obtain ⟨bar, hbar⟩ := List.exists_mem_of_length_pos payload.min_length
    obtain ⟨time, -, r, hr, hkey, hreads⟩ := hread bar hbar
    obtain ⟨hs, hrest⟩ := Prod.mk.inj hkey
    exact (read_iff hcm hr hs (Prod.mk.inj hrest).1).mp hreads
  · intro hn bar hbar
    obtain ⟨rows, hrows, hhas⟩ := ingest_has h
    obtain ⟨row, hrow, hbuilt⟩ := exists_of_mem_forall₂ (forall₂_of_mapM_ok hrows).flip hbar
    obtain ⟨time, ht, hkey⟩ := ingestRow_key hbuilt
    obtain ⟨r, hr, hrk⟩ := List.mem_map.mp (hhas row hrow)
    rw [hkey] at hrk
    obtain ⟨hs, hrest⟩ := Prod.mk.inj hrk
    exact ⟨time, ht, r, hr, hrk, (read_iff hcm hr hs (Prod.mk.inj hrest).1).mpr hn⟩

/-! ## Fixtures -/

theorem toUpper_toUpper (c : Char) : c.toUpper.toUpper = c.toUpper := by
  unfold Char.toUpper
  by_cases h : 'a'.val ≤ c.val ∧ c.val ≤ 'z'.val
  · rw [dif_pos h]
    refine dif_neg fun h' => ?_
    have ha : 'a'.val = 97 := rfl
    have hz : 'z'.val = 122 := rfl
    simp only [ha, hz, UInt32.le_iff_toNat_le, UInt32.toNat_add] at h h'
    simp at h h'
    omega
  · rw [dif_neg h, dif_neg h]

theorem ascii_idempotent : CaseMap.ascii.Idempotent := by
  intro c d hd
  rw [List.mem_singleton.mp hd]
  exact congrArg (fun e => [e]) (toUpper_toUpper c)

/-- `ingest` accepts these bars under either spelling of the timeframe. -/
theorem demoPayloadAs_stored {timeframe : String} (h : timeframe = "M15" ∨ timeframe = "m15") :
    ∃ response, ingest demoEnv (demoPayloadAs timeframe) none UniqueTable.empty =
      .ok (demoStoreAs timeframe, response) := by
  have hsome : (ingest demoEnv (demoPayloadAs timeframe) none UniqueTable.empty).toOption.isSome =
      true := by
    rcases h with rfl | rfl <;> decide +kernel
  unfold demoStoreAs BarCall.run
  cases hr : ingest demoEnv (demoPayloadAs timeframe) none UniqueTable.empty with
  | error e => rw [hr] at hsome; cases hsome
  | ok result =>
    have hr' : ingest demoProvider.toMT5Env (demoPayloadAs timeframe) none UniqueTable.empty =
        .ok result := hr
    simp only [hr']
    exact ⟨result.2, rfl⟩

theorem demo_bars_read :
    (∀ bar ∈ (demoPayloadAs "M15").bars,
        BarRead demoEnv (demoPayloadAs "M15") (demoStoreAs "M15") bar) ↔
      NormalTimeframe .ascii "M15" := by
  obtain ⟨response, h⟩ := demoPayloadAs_stored (Or.inl rfl)
  exact ingested_bars_read_iff ascii_idempotent h

/-- Bars of M15 in lower case are stored, and neither path reads them. -/
theorem lower_case_not_read :
    (∃ response, ingest demoEnv (demoPayloadAs "m15") none UniqueTable.empty =
      .ok (demoStoreAs "m15", response)) ∧
      ∃ bar ∈ (demoPayloadAs "m15").bars,
        ¬ BarRead demoEnv (demoPayloadAs "m15") (demoStoreAs "m15") bar := by
  refine ⟨demoPayloadAs_stored (Or.inr rfl), _, List.mem_cons_self, ?_⟩
  rintro ⟨time, -, r, hr, hkey, hreads⟩
  obtain ⟨hs, hrest⟩ := Prod.mk.inj hkey
  exact absurd ((read_iff ascii_idempotent hr hs (Prod.mk.inj hrest).1).mp hreads) (by decide)

end MarketKill3r
