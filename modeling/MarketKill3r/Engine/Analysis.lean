import MarketKill3r.Engine.Pipeline

/-!
# What one analysis does

`analyzeMultiTimeframe` either stops early (`unconfirmed`), raises, or goes through every step.
`analyze_ok_cases` says what the result of the last kind consists of (`FullAnalysis`); the theorems
about results use it and not the definition. On validated input nothing raises but the quotation of
the primary timeframe's last structure event (`analyze_cases_of_valid`), and a `ValueError` comes from
`_validate_bars` alone (`analyze_noValueError`).
-/

namespace MarketKill3r

/-- `_validate_bars` accepts the list. -/
def Validated (bars : List Bar) : Prop := OhlcValid bars ∧ Chronological bars

instance (bars : List Bar) : Decidable (Validated bars) := inferInstanceAs (Decidable (_ ∧ _))

theorem validateBars_of_validated {bars : List Bar} (h : Validated bars) :
    validateBars bars = .ok bars := by
  simp [validateBars, h.1, h.2]

theorem validateBars_eq_ok {bars bars' : List Bar} (h : validateBars bars = .ok bars') :
    Validated bars ∧ bars' = bars := by
  unfold validateBars at h
  split at h
  · cases h
  · split at h
    · cases h
    · rename_i h1 h2
      cases h
      exact ⟨⟨not_not.mp h1, not_not.mp h2⟩, rfl⟩

theorem lastItem_eq_ok {α : Type} {xs : List α} {x : α} :
    lastItem xs = .ok x ↔ xs.getLast? = some x := by
  unfold lastItem
  cases xs.getLast? <;> simp

/-! ## The evidence -/

/-- The list is long enough to be evaluated: `len(bars) >= 2 * lookback + 3`. -/
def Evaluated (lookback : Int) (bars : List Bar) : Prop := 2 * lookback + 3 ≤ bars.length

instance (lookback : Int) (bars : List Bar) : Decidable (Evaluated lookback bars) :=
  inferInstanceAs (Decidable (_ ≤ _))

namespace AnalysisInput

/-- The evidence of timeframe `tf` with the given bars. -/
def evidenceOn (inp : AnalysisInput) (tf : String) (bars : List Bar) : TimeframeEvidence :=
  tfEvidence tf bars (inp.correlatedTimeframeBars.bind (·.get? tf)) inp.lookback

/-- `evidences`, when every list validates. -/
def evidences (inp : AnalysisInput) : List (String × TimeframeEvidence) :=
  (inp.timeframeBars.entries.filter fun e => Evaluated inp.lookback e.2).map
    fun e => (e.1, inp.evidenceOn e.1 e.2)

/-- `factors`, for the primary bars and the last of them. -/
def factors (inp : AnalysisInput) (primaryBars : List Bar) (lastBar : Bar) :
    Direction → Factor → Bool :=
  factorHit (inp.evidences.map (·.2)) (inp.evidenceOn inp.primaryTimeframe primaryBars) lastBar
    inp.newsSentiment inp.calendarBlackout

/-- The decision on the input. -/
def decided (inp : AnalysisInput) (primaryBars : List Bar) (lastBar : Bar) : Decision :=
  decision (inp.factors primaryBars lastBar) (trendVotes (inp.evidences.map (·.2)))
    inp.evidences.length inp.calendarBlackout inp.minConfidence

end AnalysisInput

theorem collectEvidence_eq_ok {corr : Option (TfMap (List Bar))} {lookback : Int}
    {entries : List (String × List Bar)} {evs : List (String × TimeframeEvidence)}
    (h : collectEvidence corr lookback entries = .ok evs) :
    (∀ e ∈ entries, Validated e.2) ∧
      evs = (entries.filter fun e => Evaluated lookback e.2).map
        fun e => (e.1, tfEvidence e.1 e.2 (corr.bind (·.get? e.1)) lookback) := by
  induction entries generalizing evs with
  | nil => cases h; simp
  | cons e rest ih =>
    obtain ⟨tf, raw⟩ := e
    rw [collectEvidence] at h
    cases hv : validateBars raw with
    | error err => rw [hv] at h; cases h
    | ok bars =>
      obtain ⟨hraw, rfl⟩ := validateBars_eq_ok hv
      cases hr : collectEvidence corr lookback rest with
      | error err => rw [hv, hr] at h; cases h
      | ok later =>
        obtain ⟨hrest, rfl⟩ := ih hr
        rw [hv, hr] at h
        refine ⟨List.forall_mem_cons.mpr ⟨hraw, hrest⟩, ?_⟩
        by_cases hs : (bars.length : Int) < 2 * lookback + 3
        · have hne : ¬ Evaluated lookback bars := by simp only [Evaluated]; omega
          simp only [bind, Except.bind, hs, ↓reduceIte, pure, Except.pure, Except.ok.injEq] at h
          rw [← h, List.filter_cons_of_neg (by simpa using hne)]
        · have hev : Evaluated lookback bars := by simp only [Evaluated]; omega
          simp only [bind, Except.bind, hs, ↓reduceIte, pure, Except.pure, Except.ok.injEq] at h
          rw [← h, List.filter_cons_of_pos (by simpa using hev)]
          rfl

theorem collectEvidence_valid (corr : Option (TfMap (List Bar))) (lookback : Int)
    {entries : List (String × List Bar)} (h : ∀ e ∈ entries, Validated e.2) :
    ∃ evs, collectEvidence corr lookback entries = .ok evs := by
  induction entries with
  | nil => exact ⟨[], rfl⟩
  | cons e rest ih =>
    obtain ⟨tf, raw⟩ := e
    obtain ⟨later, hl⟩ := ih fun e he => h e (List.mem_cons_of_mem _ he)
    rw [collectEvidence, validateBars_of_validated (h (tf, raw) List.mem_cons_self), hl]
    simp only [bind, Except.bind]
    split
    · exact ⟨_, rfl⟩
    · exact ⟨_, rfl⟩

namespace TfMap

variable {α : Type} {m : TfMap α}

theorem get?_eq_some {key : String} {a : α} : m.get? key = some a ↔ (key, a) ∈ m.entries := by
  have hn := m.nodup
  unfold TfMap.get?
  generalize m.entries = es at hn
  induction es with
  | nil => simp
  | cons e es ih =>
    obtain ⟨k, b⟩ := e
    rw [List.map_cons, List.nodup_cons] at hn
    by_cases hk : key = k
    · subst hk
      rw [List.lookup_cons, beq_self_eq_true]
      simp only [Option.some.injEq, List.mem_cons, Prod.mk.injEq, true_and]
      constructor
      · rintro rfl; exact Or.inl rfl
      · rintro (rfl | h)
        · rfl
        · exact absurd (List.mem_map_of_mem (f := (·.1)) h) hn.1
    · rw [List.lookup_cons, beq_false_of_ne hk]
      simpa [hk] using ih hn.2

end TfMap

/-- The primary timeframe is evaluated exactly when its bars are long enough. -/
theorem lookup_evidences {inp : AnalysisInput} {bars : List Bar}
    (h : inp.timeframeBars.get? inp.primaryTimeframe = some bars) :
    inp.evidences.lookup inp.primaryTimeframe =
      if Evaluated inp.lookback bars then some (inp.evidenceOn inp.primaryTimeframe bars)
      else none := by
  have hmem := TfMap.get?_eq_some.mp h
  have hn := inp.timeframeBars.nodup
  unfold AnalysisInput.evidences
  generalize inp.timeframeBars.entries = es at hmem hn
  generalize inp.primaryTimeframe = tf at hmem
  induction es with
  | nil => cases hmem
  | cons e es ih =>
    obtain ⟨k, b⟩ := e
    rw [List.map_cons, List.nodup_cons] at hn
    rcases List.mem_cons.mp hmem with heq | hmem'
    · cases heq
      by_cases hev : Evaluated inp.lookback bars
      · rw [List.filter_cons_of_pos (by simpa using hev), List.map_cons, List.lookup_cons,
          beq_self_eq_true, if_pos hev]
      · rw [List.filter_cons_of_neg (by simpa using hev), if_neg hev, List.lookup_eq_none_iff]
        intro p hp
        obtain ⟨q, hq, rfl⟩ := List.mem_map.mp hp
        have hq' := (List.mem_filter.mp hq).1
        rw [bne_iff_ne]
        rintro rfl
        exact hn.1 (List.mem_map_of_mem (f := (·.1)) hq')
    · have hne : tf ≠ k := by
        rintro rfl
        exact hn.1 (List.mem_map_of_mem (f := (·.1)) hmem')
      by_cases hev : Evaluated inp.lookback b
      · rw [List.filter_cons_of_pos (by simpa using hev), List.map_cons, List.lookup_cons,
          beq_false_of_ne hne]
        exact ih hn.2 hmem'
      · rw [List.filter_cons_of_neg (by simpa using hev)]
        exact ih hn.2 hmem'

/-! ## The steps that cannot fail -/

/-- The zone that carries a trade on side `best`. -/
def zoneOf (e : TimeframeEvidence) (best : Direction) : Option PlanZone :=
  match (activeObs e best).getLast? with
  | some o => some (best.zone o.bottom o.top)
  | none => (activeFvgs e best).getLast?.map fun g => best.zone g.bottom g.top

theorem planZone_eq (e : TimeframeEvidence) (best : Direction) :
    planZone e best = .ok (zoneOf e best) := by
  unfold planZone zoneOf lastItem
  cases ho : (activeObs e best).getLast? with
  | some o =>
    have hne : activeObs e best ≠ [] := fun h => by rw [h] at ho; cases ho
    rw [if_pos hne]; rfl
  | none =>
    rw [List.getLast?_eq_none_iff] at ho
    rw [if_neg (not_not.mpr ho)]
    cases hg : (activeFvgs e best).getLast? with
    | some g =>
      have hne : activeFvgs e best ≠ [] := fun h => by rw [h] at hg; cases hg
      rw [if_pos hne]; rfl
    | none =>
      rw [List.getLast?_eq_none_iff] at hg
      rw [if_neg (not_not.mpr hg)]; rfl

theorem evidenceTimeframes_ok {m : TfMap (List Bar)} {evs : List (String × TimeframeEvidence)}
    (h : ∀ e ∈ evs, ∃ bars, m.get? e.1 = some bars ∧ bars ≠ []) :
    ∃ js, evidenceTimeframes m evs = .ok js := by
  induction evs with
  | nil => exact ⟨[], rfl⟩
  | cons e rest ih =>
    obtain ⟨tf, e⟩ := e
    obtain ⟨bars, hb, hne⟩ := h (tf, e) List.mem_cons_self
    obtain ⟨later, hl⟩ := ih fun e he => h e (List.mem_cons_of_mem _ he)
    have hlast := lastItem_eq_ok.mpr (List.getLast?_eq_some_getLast hne)
    rw [evidenceTimeframes, show m.get? tf = some bars from hb, Option.getD_some, hlast, hl]
    exact ⟨_, rfl⟩

/-- The reasons fail exactly when they quote an event that the primary timeframe does not have. -/
theorem reasonsOf_eq_ok {d : Decision} {factors : Direction → Factor → Bool}
    {primary : TimeframeEvidence} {eventRisk : Bool} :
    (∃ rs, reasonsOf d factors primary eventRisk = .ok rs) ↔
      (d.structureOk = true → primary.structureEvents ≠ []) := by
  unfold reasonsOf lastItem
  cases hd : d.structureOk with
  | false => simp [pure, Except.pure, bind, Except.bind]
  | true =>
    cases he : primary.structureEvents.getLast? with
    | none =>
      rw [List.getLast?_eq_none_iff] at he
      simp [he, bind, Except.bind]
    | some e =>
      have hne : primary.structureEvents ≠ [] := fun h => by rw [h] at he; cases he
      simp [hne, pure, Except.pure, bind, Except.bind]

theorem reasonsOf_error {d : Decision} {factors : Direction → Factor → Bool}
    {primary : TimeframeEvidence} {eventRisk : Bool} (hd : d.structureOk = true)
    (he : primary.structureEvents = []) :
    reasonsOf d factors primary eventRisk = .error .indexError := by
  simp [reasonsOf, hd, he, lastItem, bind, Except.bind]

/-! ## The result -/

/-- Result `r` of an analysis that went through every step: the bars of the primary timeframe, the
last of them, and what each field holds. -/
structure FullAnalysis (inp : AnalysisInput) (primaryBars : List Bar) (lastBar : Bar)
    (r : AnalysisResult) : Prop where
  primary : inp.timeframeBars.get? inp.primaryTimeframe = some primaryBars
  validated : ∀ e ∈ inp.timeframeBars.entries, Validated e.2
  evaluated : Evaluated inp.lookback primaryBars
  last : primaryBars.getLast? = some lastBar
  quoted : (inp.decided primaryBars lastBar).structureOk = true →
    (detectStructureEvents primaryBars inp.lookback).1 ≠ []
  status : r.status = (inp.decided primaryBars lastBar).status
  direction : r.direction =
    if r.status = .setup then (inp.decided primaryBars lastBar).best.trade else .noTrade
  confidence : r.confidence = (inp.decided primaryBars lastBar).confidence
  confluenceScore : r.confluenceScore = (inp.decided primaryBars lastBar).score
  marketBias : r.marketBias = htfBias (trendVotes (inp.evidences.map (·.2)))
  timeframes : r.timeframes = inp.evidences.map (·.1)
  entryZone : r.entryZone =
    (zoneOf (inp.evidenceOn inp.primaryTimeframe primaryBars)
      (inp.decided primaryBars lastBar).best).map fun z => (z.low, z.high)
  invalidation : r.invalidation =
    (zoneOf (inp.evidenceOn inp.primaryTimeframe primaryBars)
      (inp.decided primaryBars lastBar).best).map (·.invalidation)
  plan : (⟨r.stopLoss, r.takeProfits, r.riskReward⟩ : RiskPlan) =
    match zoneOf (inp.evidenceOn inp.primaryTimeframe primaryBars)
      (inp.decided primaryBars lastBar).best with
    | some z =>
      if r.status = .setup then
        riskPlan z (inp.decided primaryBars lastBar).best lastBar.close inp.riskRewardTarget
      else ⟨none, [], none⟩
    | none => ⟨none, [], none⟩

/-- The result of all steps, with the evidence of the timeframes and the reasons given. -/
def AnalysisInput.result (inp : AnalysisInput) (primaryBars : List Bar) (lastBar : Bar)
    (timeframes : List (String × EvidenceJson)) (reasons : List String) : AnalysisResult :=
  let d := inp.decided primaryBars lastBar
  let zone := zoneOf (inp.evidenceOn inp.primaryTimeframe primaryBars) d.best
  let votes := trendVotes (inp.evidences.map (·.2))
  let plan : RiskPlan := match zone with
    | some z =>
      if d.status = .setup then riskPlan z d.best lastBar.close inp.riskRewardTarget
      else ⟨none, [], none⟩
    | none => ⟨none, [], none⟩
  { status := d.status
    direction := if d.status = .setup then d.best.trade else .noTrade
    confidence := d.confidence
    confluenceScore := d.score
    symbol := inp.symbol
    primaryTimeframe := inp.primaryTimeframe
    timeframes := inp.evidences.map (·.1)
    marketBias := htfBias votes
    entryZone := zone.map fun z => (z.low, z.high)
    invalidation := zone.map (·.invalidation)
    stopLoss := plan.stop
    takeProfits := plan.takeProfits
    riskReward := plan.riskReward
    evidence := some {
      scores := rawScore (inp.factors primaryBars lastBar)
      technicalHits := technicalHits (inp.factors primaryBars lastBar)
      factors := inp.factors primaryBars lastBar
      trendVotes := votes
      bias := htfBias votes
      aligned := d.crossTf
      materiallyConflicted := d.conflicted
      correlatedTrends := ((inp.correlatedTimeframeBars.map (·.entries)).getD []).map
        fun c => (c.1, (tfEvidence c.1 c.2 none inp.lookback).trend)
      highImpactEvent := inp.calendarBlackout
      events := inp.highImpactEvents.getD []
      newsSentiment := inp.newsSentiment
      timeframes := timeframes }
    reasoning := "; ".intercalate reasons ++ "." }

theorem AnalysisInput.result_direction {inp : AnalysisInput} {primaryBars : List Bar} {lastBar : Bar}
    {js : List (String × EvidenceJson)} {rs : List String}
    (h : (inp.result primaryBars lastBar js rs).status = .setup) :
    (inp.result primaryBars lastBar js rs).direction =
      (inp.decided primaryBars lastBar).best.trade := if_pos h

/-- The part after the evidence returns exactly when the primary bars have a last one, every
timeframe shows its evidence and the reasons can be quoted. -/
theorem concludeAnalysis_eq_ok {inp : AnalysisInput} {primaryBars : List Bar} {r : AnalysisResult} :
    concludeAnalysis inp inp.evidences (inp.evidenceOn inp.primaryTimeframe primaryBars)
        primaryBars = .ok r ↔
      ∃ lastBar js rs, primaryBars.getLast? = some lastBar ∧
        evidenceTimeframes inp.timeframeBars inp.evidences = .ok js ∧
        reasonsOf (inp.decided primaryBars lastBar) (inp.factors primaryBars lastBar)
          (inp.evidenceOn inp.primaryTimeframe primaryBars) inp.calendarBlackout = .ok rs ∧
        r = inp.result primaryBars lastBar js rs := by
  simp only [concludeAnalysis, planZone_eq, bind, Except.bind]
  cases hl : lastItem primaryBars with
  | error e =>
    have hnone : ∀ b, primaryBars.getLast? ≠ some b := fun b hb => by
      rw [lastItem_eq_ok.mpr hb] at hl; cases hl
    simp [hnone]
  | ok lastBar =>
    rw [lastItem_eq_ok] at hl
    have hdec : ∀ n, n = inp.evidences.length →
        decision (inp.factors primaryBars lastBar) (trendVotes (inp.evidences.map (·.2)))
          n inp.calendarBlackout inp.minConfidence = inp.decided primaryBars lastBar := by
      rintro n rfl; rfl
    have hfac : factorHit (inp.evidences.map (·.2)) (inp.evidenceOn inp.primaryTimeframe primaryBars)
        lastBar inp.newsSentiment inp.calendarBlackout = inp.factors primaryBars lastBar := rfl
    simp only [hfac, hdec _ (List.length_map _)]
    cases ht : evidenceTimeframes inp.timeframeBars inp.evidences with
    | error e => simp
    | ok js =>
      cases hr : reasonsOf (inp.decided primaryBars lastBar) (inp.factors primaryBars lastBar)
          (inp.evidenceOn inp.primaryTimeframe primaryBars) inp.calendarBlackout with
      | error e =>
        simp only [hl, reduceCtorEq, false_iff, not_exists, not_and]
        rintro b js' rs hb - hrs
        cases hb
        rw [hr] at hrs; cases hrs
      | ok rs =>
        constructor
        · intro h
          cases h
          exact ⟨lastBar, js, rs, hl, rfl, hr, rfl⟩
        · rintro ⟨b, js', rs', hb, hjs, hrs, rfl⟩
          obtain rfl : lastBar = b := Option.some.inj (hl.symm.trans hb)
          cases hjs
          rw [hr] at hrs
          cases hrs
          rfl

/-- **What a successful analysis consists of**, in closed form. -/
theorem analyze_eq_ok {inp : AnalysisInput} {r : AnalysisResult} :
    analyzeMultiTimeframe inp = .ok r ↔
      (inp.timeframeBars.get? inp.primaryTimeframe = none ∧
        r = unconfirmed inp "Primary timeframe data is unavailable.") ∨
      ∃ primaryBars, inp.timeframeBars.get? inp.primaryTimeframe = some primaryBars ∧
        (∀ e ∈ inp.timeframeBars.entries, Validated e.2) ∧
        ((¬ Evaluated inp.lookback primaryBars ∧
            r = unconfirmed inp "Insufficient confirmed bars on the primary timeframe.") ∨
          (Evaluated inp.lookback primaryBars ∧
            concludeAnalysis inp inp.evidences (inp.evidenceOn inp.primaryTimeframe primaryBars)
              primaryBars = .ok r)) := by
  unfold analyzeMultiTimeframe
  cases hp : inp.timeframeBars.get? inp.primaryTimeframe with
  | none => simp [eq_comm]
  | some primaryBars =>
    simp only [reduceCtorEq, false_and, false_or, Option.some.injEq, exists_eq_left']
    cases hc : collectEvidence inp.correlatedTimeframeBars inp.lookback
        inp.timeframeBars.entries with
    | error e =>
      have hval : ¬ ∀ e ∈ inp.timeframeBars.entries, Validated e.2 := by
        intro hval
        obtain ⟨evs, he⟩ := collectEvidence_valid inp.correlatedTimeframeBars inp.lookback hval
        rw [hc] at he; cases he
      simp only [hval, false_and, bind, Except.bind, reduceCtorEq]
    | ok evs =>
      obtain ⟨hval, hevs⟩ := collectEvidence_eq_ok hc
      obtain rfl : evs = inp.evidences := hevs
      simp only [bind, Except.bind, lookup_evidences hp]
      by_cases hev : Evaluated inp.lookback primaryBars
      · simp only [hev, ↓reduceIte, not_true_eq_false, false_and, true_and, false_or]
        exact ⟨fun h => ⟨hval, h⟩, fun h => h.2⟩
      · simp only [hev, ↓reduceIte, not_false_eq_true, false_and, true_and, or_false, pure,
          Except.pure, Except.ok.injEq]
        exact ⟨fun h => ⟨hval, h.symm⟩, fun h => h.2.symm⟩

/-- What the part after the evidence returns. -/
theorem conclude_full {inp : AnalysisInput} {primaryBars : List Bar} {r : AnalysisResult}
    (hp : inp.timeframeBars.get? inp.primaryTimeframe = some primaryBars)
    (hval : ∀ e ∈ inp.timeframeBars.entries, Validated e.2)
    (hev : Evaluated inp.lookback primaryBars)
    (h : concludeAnalysis inp inp.evidences (inp.evidenceOn inp.primaryTimeframe primaryBars)
      primaryBars = .ok r) : ∃ lastBar, FullAnalysis inp primaryBars lastBar r := by
  obtain ⟨lastBar, js, rs, hl, -, hrs, rfl⟩ := concludeAnalysis_eq_ok.mp h
  exact ⟨lastBar, hp, hval, hev, hl, reasonsOf_eq_ok.mp ⟨rs, hrs⟩, rfl, rfl, rfl, rfl, rfl, rfl, rfl,
    rfl, rfl⟩

/-- **What a successful analysis returns**: an early return, or the result of all steps. -/
theorem analyze_ok_cases {inp : AnalysisInput} {r : AnalysisResult}
    (h : analyzeMultiTimeframe inp = .ok r) :
    (∃ reason, r = unconfirmed inp reason) ∨
      ∃ primaryBars lastBar, FullAnalysis inp primaryBars lastBar r := by
  obtain ⟨-, rfl⟩ | ⟨primaryBars, hp, hval, ⟨-, rfl⟩ | ⟨hev, hc⟩⟩ := analyze_eq_ok.mp h
  · exact Or.inl ⟨_, rfl⟩
  · exact Or.inl ⟨_, rfl⟩
  · obtain ⟨lastBar, hfull⟩ := conclude_full hp hval hev hc
    exact Or.inr ⟨primaryBars, lastBar, hfull⟩

/-- The analysis evaluates these primary bars, the last of which is `lastBar`. -/
structure PrimaryAt (inp : AnalysisInput) (bars : List Bar) (lastBar : Bar) : Prop where
  primary : inp.timeframeBars.get? inp.primaryTimeframe = some bars
  evaluated : Evaluated inp.lookback bars
  last : bars.getLast? = some lastBar

theorem PrimaryAt.unique {inp : AnalysisInput} {bars bars' : List Bar} {lastBar lastBar' : Bar}
    (h : PrimaryAt inp bars lastBar) (h' : PrimaryAt inp bars' lastBar') :
    bars = bars' ∧ lastBar = lastBar' := by
  obtain rfl : bars = bars' := Option.some.inj (h.primary.symm.trans h'.primary)
  exact ⟨rfl, Option.some.inj (h.last.symm.trans h'.last)⟩

/-- **Which result an analysis returns**: the early one without primary bars to evaluate, else that
of all steps. -/
theorem analyze_result {inp : AnalysisInput} {r : AnalysisResult}
    (h : analyzeMultiTimeframe inp = .ok r) :
    ((∀ bars lastBar, ¬ PrimaryAt inp bars lastBar) ∧ ∃ reason, r = unconfirmed inp reason) ∨
      ∃ bars lastBar js rs, PrimaryAt inp bars lastBar ∧ r = inp.result bars lastBar js rs := by
  obtain ⟨hp, rfl⟩ | ⟨bars, hp, -, ⟨hev, rfl⟩ | ⟨hev, hc⟩⟩ := analyze_eq_ok.mp h
  · refine Or.inl ⟨fun bars lastBar hprim => ?_, _, rfl⟩
    exact absurd (hp.symm.trans hprim.primary) (by simp)
  · refine Or.inl ⟨fun bars' lastBar hprim => ?_, _, rfl⟩
    obtain rfl : bars = bars' := Option.some.inj (hp.symm.trans hprim.primary)
    exact hev hprim.evaluated
  · obtain ⟨lastBar, js, rs, hl, -, -, rfl⟩ := concludeAnalysis_eq_ok.mp hc
    exact Or.inr ⟨bars, lastBar, js, rs, ⟨hp, hev, hl⟩, rfl⟩

/-! ## ValueErrors -/

/-- The computation does not end in a `ValueError`. -/
def NoValueError {α : Type} (x : Except PyError α) : Prop := ∀ m, x ≠ .error (.valueError m)

namespace NoValueError

variable {α β : Type}

theorem ok (a : α) : NoValueError (.ok a) := fun _ h => by cases h

theorem bind {x : Except PyError α} {f : α → Except PyError β} (hx : NoValueError x)
    (hf : ∀ a, NoValueError (f a)) : NoValueError (x >>= f) := by
  intro m h
  cases x with
  | error e => exact hx m (by cases h; rfl)
  | ok a => exact hf a m h

theorem lastItem (xs : List α) : NoValueError (lastItem xs) := by
  intro m h
  unfold MarketKill3r.lastItem at h
  split at h <;> cases h

theorem evidenceTimeframes (bars : TfMap (List Bar)) (es : List (String × TimeframeEvidence)) :
    NoValueError (evidenceTimeframes bars es) := by
  induction es with
  | nil => exact ok _
  | cons e es ih =>
    obtain ⟨tf, e⟩ := e
    exact (lastItem _).bind fun _ => ih.bind fun _ => ok _

theorem reasonsOf (d : Decision) (factors : Direction → Factor → Bool) (primary : TimeframeEvidence)
    (eventRisk : Bool) : NoValueError (reasonsOf d factors primary eventRisk) := by
  unfold MarketKill3r.reasonsOf
  dsimp only
  split
  · exact (lastItem _).bind fun _ => ok _
  · exact ok _

theorem conclude (inp : AnalysisInput) (evidences : List (String × TimeframeEvidence))
    (primary : TimeframeEvidence) (bars : List Bar) :
    NoValueError (concludeAnalysis inp evidences primary bars) := by
  refine (lastItem _).bind fun lastBar => bind ?_ fun zone => ?_
  · rw [planZone_eq]
    exact ok _
  · exact (evidenceTimeframes _ _).bind fun _ => (reasonsOf _ _ _ _).bind fun _ => ok _

end NoValueError

/-- On lists that `_validate_bars` accepts, the analysis raises no `ValueError`, with any other
parameters. -/
theorem analyze_noValueError {inp : AnalysisInput}
    (h : ∀ e ∈ inp.timeframeBars.entries, Validated e.2) :
    NoValueError (analyzeMultiTimeframe inp) := by
  unfold analyzeMultiTimeframe
  split
  · exact .ok _
  · obtain ⟨evs, he⟩ := collectEvidence_valid inp.correlatedTimeframeBars inp.lookback h
    rw [he]
    refine NoValueError.bind (.ok _) fun evs => ?_
    split
    · exact .ok _
    · exact .conclude _ _ _ _

/-! ## Totality -/

/-- What a caller promises: a positive lookback, and for each timeframe a non-empty list that
`_validate_bars` accepts. -/
structure ValidInput (inp : AnalysisInput) : Prop where
  lookback : 1 ≤ inp.lookback
  bars : ∀ e ∈ inp.timeframeBars.entries, e.2 ≠ [] ∧ Validated e.2

namespace ValidInput

variable {inp : AnalysisInput} {primaryBars : List Bar}

/-- The evidence is collected on valid input. -/
theorem collectEvidence_eq (h : ValidInput inp) :
    collectEvidence inp.correlatedTimeframeBars inp.lookback inp.timeframeBars.entries =
      .ok inp.evidences := by
  obtain ⟨evs, he⟩ := collectEvidence_valid inp.correlatedTimeframeBars inp.lookback
    fun e hm => (h.bars e hm).2
  rw [he, (collectEvidence_eq_ok he).2]
  rfl

/-- With too few primary bars the analysis stops early. -/
theorem analyze_of_short (h : ValidInput inp)
    (hp : inp.timeframeBars.get? inp.primaryTimeframe = some primaryBars)
    (hs : ¬ Evaluated inp.lookback primaryBars) :
    analyzeMultiTimeframe inp =
      .ok (unconfirmed inp "Insufficient confirmed bars on the primary timeframe.") := by
  unfold analyzeMultiTimeframe
  simp only [hp, h.collectEvidence_eq, bind, Except.bind, lookup_evidences hp, if_neg hs]
  rfl

/-- With enough of them it goes on to the decision. -/
theorem analyze_of_evaluated (h : ValidInput inp)
    (hp : inp.timeframeBars.get? inp.primaryTimeframe = some primaryBars)
    (he : Evaluated inp.lookback primaryBars) :
    analyzeMultiTimeframe inp =
      concludeAnalysis inp inp.evidences (inp.evidenceOn inp.primaryTimeframe primaryBars)
        primaryBars := by
  unfold analyzeMultiTimeframe
  simp only [hp, h.collectEvidence_eq, bind, Except.bind, lookup_evidences hp, if_pos he]

/-- Every evaluated timeframe has a last bar for its evidence. -/
theorem evidenceTimeframes_ok (h : ValidInput inp) :
    ∃ js, evidenceTimeframes inp.timeframeBars inp.evidences = .ok js := by
  refine MarketKill3r.evidenceTimeframes_ok fun e he => ?_
  obtain ⟨⟨tf, bars⟩, hm, rfl⟩ := List.mem_map.mp he
  have hm := (List.mem_filter.mp hm).1
  exact ⟨bars, TfMap.get?_eq_some.mpr hm, (h.bars _ hm).1⟩

/-- The steps after the evidence succeed or fail with the reasons. -/
theorem conclude_cases (h : ValidInput inp) {lastBar : Bar} (hl : primaryBars.getLast? = some lastBar)
    {primary : TimeframeEvidence}
    (hprim : primary = inp.evidenceOn inp.primaryTimeframe primaryBars) :
    ((∃ r, concludeAnalysis inp inp.evidences primary primaryBars = .ok r) ∧
        ((inp.decided primaryBars lastBar).structureOk = true → primary.structureEvents ≠ [])) ∨
      (concludeAnalysis inp inp.evidences primary primaryBars = .error .indexError ∧
        (inp.decided primaryBars lastBar).structureOk = true ∧ primary.structureEvents = []) := by
  obtain ⟨js, hjs⟩ := h.evidenceTimeframes_ok
  have hdec : decision (factorHit (inp.evidences.map (·.2)) primary lastBar inp.newsSentiment
        inp.calendarBlackout) (trendVotes (inp.evidences.map (·.2)))
        (inp.evidences.map (·.2)).length inp.calendarBlackout inp.minConfidence =
      inp.decided primaryBars lastBar := by
    rw [hprim, List.length_map]; rfl
  simp only [concludeAnalysis, lastItem_eq_ok.mpr hl, planZone_eq, hjs, bind, Except.bind, hdec]
  by_cases hq : (inp.decided primaryBars lastBar).structureOk = true ∧ primary.structureEvents = []
  · right
    rw [reasonsOf_error hq.1 hq.2]
    exact ⟨rfl, hq.1, hq.2⟩
  · left
    have himp : (inp.decided primaryBars lastBar).structureOk = true →
        primary.structureEvents ≠ [] := fun h1 h2 => hq ⟨h1, h2⟩
    obtain ⟨rs, hrs⟩ := reasonsOf_eq_ok.mpr himp
    rw [hrs]
    exact ⟨⟨_, rfl⟩, himp⟩

end ValidInput

/-- The primary timeframe is evaluated without a structure event of its own, while the last
structure event of some evaluated timeframe points to the side with the larger weight of evidence:
the reasoning then quotes an event that is not there. -/
def ForeignBreak (inp : AnalysisInput) : Prop :=
  ∃ primaryBars lastBar, inp.timeframeBars.get? inp.primaryTimeframe = some primaryBars ∧
    Evaluated inp.lookback primaryBars ∧ primaryBars.getLast? = some lastBar ∧
    (detectStructureEvents primaryBars inp.lookback).1 = [] ∧
    ∃ e ∈ inp.timeframeBars.entries, Evaluated inp.lookback e.2 ∧
      (detectStructureEvents e.2 inp.lookback).1.getLast?.map (·.direction) =
        some (favoured (inp.factors primaryBars lastBar))

/-- The structure factor of a side: the last structure event of an evaluated timeframe. -/
theorem structureOk_iff {inp : AnalysisInput} {primaryBars : List Bar} {lastBar : Bar} :
    (inp.decided primaryBars lastBar).structureOk = true ↔
      ∃ e ∈ inp.timeframeBars.entries, Evaluated inp.lookback e.2 ∧
        (detectStructureEvents e.2 inp.lookback).1.getLast?.map (·.direction) =
          some (favoured (inp.factors primaryBars lastBar)) := by
  have hfac : (inp.decided primaryBars lastBar).structureOk =
      inp.factors primaryBars lastBar (favoured (inp.factors primaryBars lastBar)) .marketStructure := rfl
  rw [hfac]
  generalize favoured (inp.factors primaryBars lastBar) = d
  simp only [AnalysisInput.factors, factorHit, AnalysisInput.evidences, List.any_eq_true,
    List.mem_map, List.mem_filter, decide_eq_true_eq, Option.any_eq_true, Option.map_eq_some_iff]
  constructor
  · rintro ⟨_, ⟨_, ⟨e, ⟨he, hev⟩, rfl⟩, rfl⟩, x, hx, hd⟩
    exact ⟨e, he, hev, x, hx, hd⟩
  · rintro ⟨e, he, hev, x, hx, hd⟩
    exact ⟨_, ⟨_, ⟨e, ⟨he, hev⟩, rfl⟩, rfl⟩, x, hx, hd⟩

/-- On valid input the analysis can only fail with an `IndexError`, and does so exactly when it
quotes a foreign break. -/
theorem analyze_cases_of_valid {inp : AnalysisInput} (h : ValidInput inp) :
    ((∃ r, analyzeMultiTimeframe inp = .ok r) ∧ ¬ ForeignBreak inp) ∨
      (analyzeMultiTimeframe inp = .error .indexError ∧ ForeignBreak inp) := by
  cases hp : inp.timeframeBars.get? inp.primaryTimeframe with
  | none =>
    left
    refine ⟨⟨_, by unfold analyzeMultiTimeframe; rw [hp]⟩, ?_⟩
    rintro ⟨_, _, hp', -⟩
    rw [hp] at hp'; cases hp'
  | some primaryBars =>
    by_cases he : Evaluated inp.lookback primaryBars
    · have hne := (h.bars _ (TfMap.get?_eq_some.mp hp)).1
      have hl := List.getLast?_eq_some_getLast hne
      rw [h.analyze_of_evaluated hp he]
      obtain ⟨hok, hq⟩ | ⟨herr, hs, hev⟩ := h.conclude_cases hl rfl
      · refine Or.inl ⟨hok, ?_⟩
        rintro ⟨bs, lb, hp', -, hl', hnil, hex⟩
        obtain rfl : primaryBars = bs := Option.some.inj (hp.symm.trans hp')
        obtain rfl := Option.some.inj (hl.symm.trans hl')
        exact hq (structureOk_iff.mpr hex) hnil
      · exact Or.inr ⟨herr, primaryBars, _, hp, he, hl, hev, structureOk_iff.mp hs⟩
    · left
      refine ⟨⟨_, h.analyze_of_short hp he⟩, ?_⟩
      rintro ⟨bs, lb, hp', he', -⟩
      obtain rfl : primaryBars = bs := Option.some.inj (hp.symm.trans hp')
      exact he he'

/-- **Totality.** On valid input an analysis returns a result exactly when it does not quote a
structure event that only another timeframe has. -/
theorem analyze_returns_iff {inp : AnalysisInput} (h : ValidInput inp) :
    (∃ r, analyzeMultiTimeframe inp = .ok r) ↔ ¬ ForeignBreak inp := by
  obtain ⟨hok, hn⟩ | ⟨herr, hf⟩ := analyze_cases_of_valid h
  · exact ⟨fun _ => hn, fun _ => hok⟩
  · refine ⟨fun ⟨r, hr⟩ => ?_, fun hn => absurd hf hn⟩
    rw [herr] at hr; cases hr

/-! ## Fixtures -/

/-- Bar `i` of a minute series: open, high, low and close. -/
def minuteBar (i : Nat) (o h l c : ℚ) : Bar := ⟨⟨60000000 * i, 0⟩, o, h, l, c, 0⟩

/-- `strong_bullish()` of `tests/test_analysis_pipeline.py`. -/
def strongBullish : List Bar :=
  [minuteBar 0 10 10 9 10, minuteBar 1 10 11 10 11, minuteBar 2 11 13 11 12,
    minuteBar 3 12 12 10 (105 / 10), minuteBar 4 (105 / 10) 11 (103 / 10) (108 / 10),
    minuteBar 5 (108 / 10) 20 (105 / 10) (195 / 10), minuteBar 6 (195 / 10) 21 13 20,
    minuteBar 7 20 22 19 21, minuteBar 8 21 21 18 19, minuteBar 9 19 25 (185 / 10) 24]

/-- An analysis of these timeframes for XAUUSD with primary timeframe M15, at lookback 2 and the
thresholds of a default request. -/
def goldInput (timeframeBars : TfMap (List Bar)) (news : Option ℚ) : AnalysisInput where
  symbol := "XAUUSD"
  timeframeBars := timeframeBars
  primaryTimeframe := "M15"
  correlatedTimeframeBars := none
  newsSentiment := news
  highImpactEvents := none
  calendarBlackout := false
  lookback := 2
  minConfidence := 60
  riskRewardTarget := 2

/-- The strongly bullish series alone. -/
def strongInput : AnalysisInput := goldInput ⟨[("M15", strongBullish)], by decide⟩ none

theorem analyze_strong_returns :
    (∃ r, analyzeMultiTimeframe strongInput = .ok r) ↔ ¬ ForeignBreak strongInput :=
  analyze_returns_iff ⟨by decide, by decide +kernel⟩

/-- The strongly bullish series on H1, while M15 does not move. -/
def quietPrimaryInput : AnalysisInput :=
  goldInput ⟨[("H1", strongBullish), ("M15", (List.range 10).map fun i => minuteBar i 10 10 9 10)],
    by decide⟩ none

/-- A valid input on which the analysis raises. -/
theorem quietPrimary_raises :
    ValidInput quietPrimaryInput ∧
      analyzeMultiTimeframe quietPrimaryInput = .error .indexError := by
  have hv : ValidInput quietPrimaryInput := ⟨by decide, by decide +kernel⟩
  refine ⟨hv, ?_⟩
  obtain ⟨⟨r, hr⟩, -⟩ | ⟨h, -⟩ := analyze_cases_of_valid hv
  · have hnone : (analyzeMultiTimeframe quietPrimaryInput).toOption.isNone = true := by
      decide +kernel
    rw [hr] at hnone
    cases hnone
  · exact h

end MarketKill3r
