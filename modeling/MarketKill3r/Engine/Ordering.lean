import Mathlib.Data.List.Perm.Basic
import MarketKill3r.Engine.Analysis

/-!
# The order of the timeframes

`analyze_multi_timeframe` goes through `timeframe_bars` in insertion order, and so do the lists of its
result. No decision depends on it.

* `TfMap.Reordered`: the same dictionary in another order; `TfMap.Reordered.get?_eq`: its lookups.
* `AnalysisInput.Reordered.decided_eq`: the decision on a reordered input.
* `analyze_reordered`: an analysis of a reordered input ends in the same way, and its result is the same
  up to the order in which it lists the timeframes.
-/

namespace MarketKill3r

/-! ## Reordered dictionaries -/

/-- The same dictionary in another insertion order. -/
def TfMap.Reordered {α : Type} (m m' : TfMap α) : Prop := m.entries.Perm m'.entries

namespace TfMap.Reordered

variable {α : Type} {m m' : TfMap α}

theorem symm (h : m.Reordered m') : m'.Reordered m := List.Perm.symm h

theorem get?_eq (h : m.Reordered m') (key : String) : m'.get? key = m.get? key := by
  refine Option.ext fun a => ?_
  rw [TfMap.get?_eq_some, TfMap.get?_eq_some]
  exact (List.Perm.mem_iff h).symm

/-- The same for an argument that may be missing. -/
theorem option_symm {o o' : Option (TfMap α)} (h : Option.Rel TfMap.Reordered o o') :
    Option.Rel TfMap.Reordered o' o := by
  cases h with
  | some h => exact .some h.symm
  | none => exact .none

theorem option_get?_eq {o o' : Option (TfMap α)} (h : Option.Rel TfMap.Reordered o o')
    (key : String) : o'.bind (·.get? key) = o.bind (·.get? key) := by
  cases h with
  | some h => exact h.get?_eq key
  | none => rfl

theorem option_entries {o o' : Option (TfMap α)} (h : Option.Rel TfMap.Reordered o o') :
    ((o.map (·.entries)).getD []).Perm ((o'.map (·.entries)).getD []) := by
  cases h with
  | some h => exact h
  | none => exact .nil

end TfMap.Reordered

/-- The same call with its dictionaries in another order. -/
structure AnalysisInput.Reordered (inp inp' : AnalysisInput) : Prop where
  bars : inp.timeframeBars.Reordered inp'.timeframeBars
  correlated : Option.Rel TfMap.Reordered inp.correlatedTimeframeBars inp'.correlatedTimeframeBars
  rest : inp' = { inp with
    timeframeBars := inp'.timeframeBars, correlatedTimeframeBars := inp'.correlatedTimeframeBars }

/-- The same evidence with the timeframes in another order. -/
structure Evidence.Reordered (e e' : Evidence) : Prop where
  timeframes : e.timeframes.Perm e'.timeframes
  correlatedTrends : e.correlatedTrends.Perm e'.correlatedTrends
  rest : e' = { e with timeframes := e'.timeframes, correlatedTrends := e'.correlatedTrends }

/-- The same result with the timeframes in another order. -/
structure AnalysisResult.Reordered (r r' : AnalysisResult) : Prop where
  timeframes : r.timeframes.Perm r'.timeframes
  evidence : Option.Rel Evidence.Reordered r.evidence r'.evidence
  rest : r' = { r with timeframes := r'.timeframes, evidence := r'.evidence }

/-! ## The parts of the pipeline -/

/-- A factor asks whether some timeframe has a detection, or reads the primary one alone. -/
theorem factorHit_perm {es es' : List TimeframeEvidence} (h : es.Perm es')
    (primary : TimeframeEvidence) (lastBar : Bar) (news : Option ℚ) (eventRisk : Bool) :
    factorHit es' primary lastBar news eventRisk = factorHit es primary lastBar news eventRisk := by
  have hany : ∀ p : TimeframeEvidence → Bool, es'.any p = es.any p := fun p => by
    rw [Bool.eq_iff_iff, List.any_eq_true, List.any_eq_true]
    simp only [h.mem_iff]
  funext d k
  cases k with
  | marketStructure => exact hany _
  | orderBlock => exact hany _
  | fvg => exact hany _
  | liquidity => exact hany _
  | _ => rfl

theorem trendVotes_perm {es es' : List TimeframeEvidence} (h : es.Perm es') :
    trendVotes es' = trendVotes es := by
  funext d
  exact ((h.filter _).length_eq).symm

/-- The entry that `evidenceTimeframes` makes of a timeframe. -/
def ShownAs (bars : TfMap (List Bar)) (e : String × TimeframeEvidence) (j : String × EvidenceJson) :
    Prop :=
  ∃ last, ((bars.get? e.1).getD []).getLast? = some last ∧ j = (e.1, evidenceJson e.2 last.close)

theorem evidenceTimeframes_eq_ok {bars : TfMap (List Bar)} {evs : List (String × TimeframeEvidence)}
    {js : List (String × EvidenceJson)} :
    evidenceTimeframes bars evs = .ok js ↔ List.Forall₂ (ShownAs bars) evs js := by
  induction evs generalizing js with
  | nil => simp [evidenceTimeframes, eq_comm]
  | cons e evs ih =>
    obtain ⟨tf, e⟩ := e
    rw [evidenceTimeframes, List.forall₂_cons_left_iff]
    simp only [← ih, ShownAs]
    cases hl : lastItem ((bars.get? tf).getD []) with
    | error err =>
      have hnone : ∀ b, ((bars.get? tf).getD []).getLast? ≠ some b := fun b hb => by
        rw [lastItem_eq_ok.mpr hb] at hl
        cases hl
      simp [bind, Except.bind, hnone]
    | ok last =>
      rw [lastItem_eq_ok] at hl
      cases hr : evidenceTimeframes bars evs with
      | error err => simp [bind, Except.bind]
      | ok later => simp [bind, Except.bind, pure, Except.pure, hl, eq_comm]

/-! ## Reordered inputs -/

namespace AnalysisInput.Reordered

variable {inp inp' : AnalysisInput}

theorem primaryTimeframe (h : inp.Reordered inp') :
    inp'.primaryTimeframe = inp.primaryTimeframe := by rw [h.rest]

theorem lookback (h : inp.Reordered inp') : inp'.lookback = inp.lookback := by rw [h.rest]

theorem symm (h : inp.Reordered inp') : inp'.Reordered inp where
  bars := h.bars.symm
  correlated := TfMap.Reordered.option_symm h.correlated
  rest := by rw [h.rest]

theorem get?_eq (h : inp.Reordered inp') :
    inp'.timeframeBars.get? inp'.primaryTimeframe = inp.timeframeBars.get? inp.primaryTimeframe := by
  rw [h.primaryTimeframe, h.bars.get?_eq]

/-- The evidence of a timeframe looks the correlated bars up. -/
theorem evidenceOn_eq (h : inp.Reordered inp') : inp'.evidenceOn = inp.evidenceOn := by
  funext tf bars
  have hcorr := TfMap.Reordered.option_get?_eq h.correlated tf
  rw [AnalysisInput.evidenceOn, AnalysisInput.evidenceOn, hcorr, h.lookback]

theorem evidences_perm (h : inp.Reordered inp') : inp.evidences.Perm inp'.evidences := by
  rw [AnalysisInput.evidences, AnalysisInput.evidences, h.evidenceOn_eq, h.lookback]
  exact (List.Perm.filter _ h.bars).map _

theorem factors_eq (h : inp.Reordered inp') (bars : List Bar) (lastBar : Bar) :
    inp'.factors bars lastBar = inp.factors bars lastBar := by
  rw [AnalysisInput.factors, AnalysisInput.factors, factorHit_perm (h.evidences_perm.map _),
    h.evidenceOn_eq, h.rest]

/-- **The decision** reads the timeframes through the factors, their number and their votes. -/
theorem decided_eq (h : inp.Reordered inp') (bars : List Bar) (lastBar : Bar) :
    inp'.decided bars lastBar = inp.decided bars lastBar := by
  rw [AnalysisInput.decided, AnalysisInput.decided, h.factors_eq,
    trendVotes_perm (h.evidences_perm.map _), h.evidences_perm.length_eq, h.rest]

/-- The early returns list the timeframes as they are given. -/
theorem unconfirmed (h : inp.Reordered inp') (reasoning : String) :
    (unconfirmed inp reasoning).Reordered (unconfirmed inp' reasoning) where
  timeframes := h.bars.map _
  evidence := .none
  rest := by
    rw [h.rest]
    rfl

/-- The results of all steps. -/
theorem result (h : inp.Reordered inp') (bars : List Bar) (lastBar : Bar)
    {js js' : List (String × EvidenceJson)} (hjs : js.Perm js') (rs : List String) :
    (inp.result bars lastBar js rs).Reordered (inp'.result bars lastBar js' rs) where
  timeframes := h.evidences_perm.map _
  evidence := by
    refine .some ⟨hjs, ?_, ?_⟩
    · rw [h.lookback]
      exact (TfMap.Reordered.option_entries h.correlated).map _
    · rw [h.decided_eq, h.factors_eq, trendVotes_perm (h.evidences_perm.map _), h.rest]
  rest := by
    simp only [AnalysisInput.result]
    rw [h.decided_eq, h.evidenceOn_eq, trendVotes_perm (h.evidences_perm.map _), h.rest]

/-- The entries of the evidence come in the order of the timeframes. -/
theorem evidenceTimeframes (h : inp.Reordered inp') {js : List (String × EvidenceJson)}
    (hjs : evidenceTimeframes inp.timeframeBars inp.evidences = .ok js) :
    ∃ js', MarketKill3r.evidenceTimeframes inp'.timeframeBars inp'.evidences = .ok js' ∧
      js.Perm js' := by
  rw [evidenceTimeframes_eq_ok] at hjs
  obtain ⟨js', hshown, hperm⟩ := List.perm_comp_forall₂ h.evidences_perm.symm hjs
  refine ⟨js', evidenceTimeframes_eq_ok.mpr (hshown.imp fun e j hj => ?_), hperm.symm⟩
  rw [ShownAs, h.bars.get?_eq]
  exact hj

theorem validated (h : inp.Reordered inp') (hval : ∀ e ∈ inp.timeframeBars.entries, Validated e.2) :
    ∀ e ∈ inp'.timeframeBars.entries, Validated e.2 :=
  fun e he => hval e (List.Perm.mem_iff h.bars |>.mpr he)

/-- A reordered input returns when the input does. -/
theorem analyze_ok (h : inp.Reordered inp') {r : AnalysisResult}
    (hr : analyzeMultiTimeframe inp = .ok r) :
    ∃ r', analyzeMultiTimeframe inp' = .ok r' ∧ r.Reordered r' := by
  obtain ⟨hp, rfl⟩ | ⟨bars, hp, hval, hrest⟩ := analyze_eq_ok.mp hr
  · exact ⟨_, analyze_eq_ok.mpr (Or.inl ⟨h.get?_eq.trans hp, rfl⟩), h.unconfirmed _⟩
  · obtain ⟨hev, rfl⟩ | ⟨hev, hc⟩ := hrest
    · refine ⟨_, analyze_eq_ok.mpr (Or.inr ⟨bars, h.get?_eq.trans hp, h.validated hval,
        Or.inl ⟨?_, rfl⟩⟩), h.unconfirmed _⟩
      rw [h.lookback]
      exact hev
    · obtain ⟨lastBar, js, rs, hl, hjs, hrs, rfl⟩ := concludeAnalysis_eq_ok.mp hc
      obtain ⟨js', hjs', hperm⟩ := h.evidenceTimeframes hjs
      refine ⟨_, analyze_eq_ok.mpr (Or.inr ⟨bars, h.get?_eq.trans hp, h.validated hval,
        Or.inr ⟨?_, concludeAnalysis_eq_ok.mpr ⟨lastBar, js', rs, hl, hjs', ?_, rfl⟩⟩⟩),
        h.result bars lastBar hperm rs⟩
      · rw [h.lookback]
        exact hev
      · rw [h.decided_eq, h.factors_eq, h.evidenceOn_eq, h.primaryTimeframe]
        rw [h.rest]
        exact hrs

end AnalysisInput.Reordered

/-! ## Errors -/

theorem collectEvidence_invalid (corr : Option (TfMap (List Bar))) (lookback : Int)
    {entries : List (String × List Bar)} (h : ∃ e ∈ entries, ¬ Validated e.2) :
    ∃ message, collectEvidence corr lookback entries = .error (.valueError message) := by
  induction entries with
  | nil =>
    obtain ⟨e, he, -⟩ := h
    cases he
  | cons e rest ih =>
    obtain ⟨tf, raw⟩ := e
    rw [collectEvidence]
    by_cases hraw : Validated raw
    · obtain ⟨e, he, hinvalid⟩ := h
      have hrest : ∃ e ∈ rest, ¬ Validated e.2 := by
        obtain rfl | he := List.mem_cons.mp he
        · exact absurd hraw hinvalid
        · exact ⟨e, he, hinvalid⟩
      obtain ⟨message, hm⟩ := ih hrest
      exact ⟨message, by rw [validateBars_of_validated hraw, hm]; rfl⟩
    · unfold validateBars
      split
      · exact ⟨_, rfl⟩
      · split
        · exact ⟨_, rfl⟩
        · rename_i hvalid hchron
          exact absurd ⟨not_not.mp hvalid, not_not.mp hchron⟩ hraw

/-- A `ValueError` means that there are primary bars, and some list does not validate. -/
theorem analyze_valueError_iff {inp : AnalysisInput} :
    (∃ message, analyzeMultiTimeframe inp = .error (.valueError message)) ↔
      (∃ bars, inp.timeframeBars.get? inp.primaryTimeframe = some bars) ∧
        ∃ e ∈ inp.timeframeBars.entries, ¬ Validated e.2 := by
  constructor
  · rintro ⟨message, hm⟩
    constructor
    · cases hp : inp.timeframeBars.get? inp.primaryTimeframe with
      | some bars => exact ⟨bars, rfl⟩
      | none =>
        unfold analyzeMultiTimeframe at hm
        rw [hp] at hm
        cases hm
    · by_contra hn
      push Not at hn
      exact analyze_noValueError hn message hm
  · rintro ⟨⟨bars, hp⟩, hinvalid⟩
    obtain ⟨message, hm⟩ := collectEvidence_invalid inp.correlatedTimeframeBars inp.lookback
      hinvalid
    refine ⟨message, ?_⟩
    unfold analyzeMultiTimeframe
    rw [hp]
    simp only [hm, bind, Except.bind]

theorem AnalysisInput.Reordered.valueError {inp inp' : AnalysisInput} (h : inp.Reordered inp')
    (he : ∃ message, analyzeMultiTimeframe inp = .error (.valueError message)) :
    ∃ message, analyzeMultiTimeframe inp' = .error (.valueError message) := by
  obtain ⟨⟨bars, hp⟩, e, hmem, hinvalid⟩ := analyze_valueError_iff.mp he
  exact analyze_valueError_iff.mpr
    ⟨⟨bars, h.get?_eq.trans hp⟩, e, (List.Perm.mem_iff h.bars).mp hmem, hinvalid⟩

/-! ## The analysis -/

/-- Two analyses end in the same way. The message of a `ValueError` is that of the first list that
does not validate. -/
inductive SameEnd : Except PyError AnalysisResult → Except PyError AnalysisResult → Prop
  | returned {r r' : AnalysisResult} (h : r.Reordered r') : SameEnd (.ok r) (.ok r')
  | valueError (message message' : String) :
      SameEnd (.error (.valueError message)) (.error (.valueError message'))
  | indexError : SameEnd (.error .indexError) (.error .indexError)

/-- **The order of the timeframes decides nothing.** With `timeframe_bars` and the correlated bars in
another insertion order, an analysis returns, raises a `ValueError` or raises an `IndexError` as before.
If it returns, status, direction, confidence, score, zone, plan, reasoning and all of the evidence are
the same, up to the order of its lists of timeframes. -/
theorem analyze_reordered {inp inp' : AnalysisInput} (h : inp.Reordered inp') :
    SameEnd (analyzeMultiTimeframe inp) (analyzeMultiTimeframe inp') := by
  cases hr : analyzeMultiTimeframe inp with
  | ok r =>
    obtain ⟨r', hr', hsame⟩ := h.analyze_ok hr
    rw [hr']
    exact .returned hsame
  | error e =>
    cases e with
    | valueError message =>
      obtain ⟨message', hr'⟩ := h.valueError ⟨message, hr⟩
      rw [hr']
      exact .valueError message message'
    | indexError =>
      cases hr' : analyzeMultiTimeframe inp' with
      | ok r' =>
        obtain ⟨r, hr'', -⟩ := h.symm.analyze_ok hr'
        rw [hr] at hr''
        cases hr''
      | error e =>
        cases e with
        | indexError => exact .indexError
        | valueError message =>
          obtain ⟨message', hr''⟩ := h.symm.valueError ⟨message, hr'⟩
          rw [hr] at hr''
          cases hr''

/-- The strongly bullish series on two timeframes, in either order. -/
def twoTimeframes (first second : String) (h : first ≠ second) : AnalysisInput :=
  goldInput ⟨[(first, strongBullish), (second, strongBullish)], by simpa using h⟩ (some 1)

theorem two_timeframes_reordered :
    SameEnd (analyzeMultiTimeframe (twoTimeframes "H1" "M15" (by decide)))
        (analyzeMultiTimeframe (twoTimeframes "M15" "H1" (by decide))) ∧
      ((analyzeMultiTimeframe (twoTimeframes "H1" "M15" (by decide))).toOption.map (·.timeframes)) =
        some ["H1", "M15"] ∧
      ((analyzeMultiTimeframe (twoTimeframes "M15" "H1" (by decide))).toOption.map (·.timeframes)) =
        some ["M15", "H1"] :=
  ⟨analyze_reordered ⟨List.Perm.swap _ _ _, .none, rfl⟩, by decide +kernel, by decide +kernel⟩

end MarketKill3r
