import MarketKill3r.Engine.Plan

/-!
# News cannot create a setup

The news sentiment reaches the decision through the two factors `news` and `fundamental`: it can
add up to ten points to the side it points to, and changes nothing else.

* `rawScore_news`: the score of a side with the sentiment is its score without, plus the points.
* `Boosted`: the factors of a run compared with the same run without news. A boost of the favoured
  side keeps it and its SETUP (`Boosted.favours`), a boost of the other side can at most flip the
  favour, and a flipped decision is no SETUP (`Boosted.no_flip`).
* `news_cannot_create_setup`: the law about whole analyses.
-/

namespace MarketKill3r

/-! ## Scores -/

/-- `n_direction` -/
def newsSide (s : ℚ) : Direction := if 0 < s then .bullish else .bearish

/-- The points that a sentiment adds to a side. -/
def newsPoints (s : ℚ) (eventRisk : Bool) (d : Direction) : Nat :=
  (if fundamentalHit (some s) eventRisk d then Factor.fundamental.weight else 0) +
    if newsHit (some s) d then Factor.news.weight else 0

theorem rawScore_eq_sum (factors : Direction → Factor → Bool) (d : Direction) :
    rawScore factors d = (Factor.all.map fun k => if factors d k then k.weight else 0).sum := by
  unfold rawScore
  induction Factor.all with
  | nil => rfl
  | cons k ks ih =>
    rw [List.map_cons, List.sum_cons, ← ih]
    cases hk : factors d k with
    | false => rw [List.filter_cons_of_neg (by simp [hk])]; simp
    | true => rw [List.filter_cons_of_pos hk, List.map_cons, List.sum_cons]; simp

/-- The technical part of a score, and the two factors that a sentiment sets. -/
theorem rawScore_split (factors : Direction → Factor → Bool) (d : Direction) :
    rawScore factors d = (technicalKeys.map fun k => if factors d k then k.weight else 0).sum +
      ((if factors d .fundamental then Factor.fundamental.weight else 0) +
        if factors d .news then Factor.news.weight else 0) := by
  have hall : Factor.all = technicalKeys ++ [.fundamental, .news] := rfl
  rw [rawScore_eq_sum, hall, List.map_append, List.sum_append]
  simp

/-- A sentiment changes no technical factor. -/
theorem factorHit_technical (es : List TimeframeEvidence) (primary : TimeframeEvidence)
    (lastBar : Bar) (news news' : Option ℚ) (eventRisk : Bool) (d : Direction) :
    ∀ k ∈ technicalKeys, factorHit es primary lastBar news eventRisk d k =
      factorHit es primary lastBar news' eventRisk d k := by
  intro k hk
  cases k with
  | fundamental => simp [technicalKeys] at hk
  | news => simp [technicalKeys] at hk
  | _ => rfl

/-- A sentiment adds its points to the score. -/
theorem rawScore_news (es : List TimeframeEvidence) (primary : TimeframeEvidence) (lastBar : Bar)
    (s : ℚ) (eventRisk : Bool) (d : Direction) :
    rawScore (factorHit es primary lastBar (some s) eventRisk) d =
      rawScore (factorHit es primary lastBar none eventRisk) d + newsPoints s eventRisk d := by
  have htech := List.map_congr_left fun k hk =>
    congrArg (fun hit => if hit then k.weight else 0)
      (factorHit_technical es primary lastBar (some s) none eventRisk d k hk)
  rw [rawScore_split, rawScore_split (factorHit es primary lastBar none eventRisk), htech]
  rfl

theorem newsPoints_le (s : ℚ) (eventRisk : Bool) (d : Direction) : newsPoints s eventRisk d ≤ 10 := by
  simp only [newsPoints, Factor.weight]
  split <;> split <;> omega

/-- The side that a sentiment does not point to gets no points. -/
theorem newsPoints_other (s : ℚ) (eventRisk : Bool) :
    newsPoints s eventRisk (newsSide s).opposite = 0 := by
  by_cases h : 0 < s
  · have h1 : fundamentalHit (some s) eventRisk .bearish = false := by simp [fundamentalHit, h]
    have h2 : newsHit (some s) .bearish = false := by
      simp only [newsHit, decide_eq_false_iff_not, not_lt]
      linarith
    simp [newsSide, h, Direction.opposite, newsPoints, h1, h2]
  · have h1 : fundamentalHit (some s) eventRisk .bullish = false := by simp [fundamentalHit, h]
    have h2 : newsHit (some s) .bullish = false := by
      simp only [newsHit, decide_eq_false_iff_not, not_lt]
      linarith
    simp [newsSide, h, Direction.opposite, newsPoints, h1, h2]

/-! ## Two decisions -/

/-- The factors `f` are the factors `f₀` with up to ten more points for side `d`. The technical
factors are the same. -/
structure Boosted (f₀ f : Direction → Factor → Bool) (d : Direction) : Prop where
  technical : ∀ e, ∀ k ∈ technicalKeys, f e k = f₀ e k
  gain : ∃ points ≤ 10, rawScore f d = rawScore f₀ d + points
  other : rawScore f d.opposite = rawScore f₀ d.opposite

/-- The factors with a sentiment are the factors without, boosted on the side it points to. -/
theorem boosted_news (es : List TimeframeEvidence) (primary : TimeframeEvidence) (lastBar : Bar)
    (s : ℚ) (eventRisk : Bool) :
    Boosted (factorHit es primary lastBar none eventRisk)
      (factorHit es primary lastBar (some s) eventRisk) (newsSide s) where
  technical := factorHit_technical es primary lastBar (some s) none eventRisk
  gain := ⟨_, newsPoints_le s eventRisk _, rawScore_news es primary lastBar s eventRisk _⟩
  other := by rw [rawScore_news, newsPoints_other, Nat.add_zero]

/-- What a SETUP takes. -/
theorem decision_setup_iff {factors : Direction → Factor → Bool} {votes : Direction → Nat} {n : Nat}
    {eventRisk : Bool} {minConfidence : ℚ} :
    (decision factors votes n eventRisk minConfidence).status = .setup ↔
      factors (favoured factors) .marketStructure = true ∧
        3 ≤ (technicalHits factors (favoured factors)).length ∧
        crossTfOk n (votes (favoured factors)) = true ∧
        (decision factors votes n eventRisk minConfidence).conflicted = false ∧
        minConfidence ≤ (decision factors votes n eventRisk minConfidence).confidence ∧
        eventRisk = false := by
  simp only [decision]
  by_cases hh : technicalHits factors (favoured factors) = []
  · simp [hh]
  · cases eventRisk with
    | true => simp [hh]
    | false => simp [hh]

/-- A structure break alone is worth 28 points. -/
theorem structure_score {factors : Direction → Factor → Bool} {d : Direction}
    (h : factors d .marketStructure = true) : 28 ≤ rawScore factors d := by
  simp only [rawScore_eq_sum, Factor.all, List.map_cons, List.sum_cons, h, ↓reduceIte, Factor.weight]
  omega

/-- A higher score without more conflict is no less confident. -/
theorem confidenceOf_mono {score score' : Nat} {c c' : Bool} (hs : score ≤ score')
    (hc : c' = true → c = true) : confidenceOf score c ≤ confidenceOf score' c' := by
  refine pyRound_mono (min_le_min le_rfl ?_) 1
  have hs' : (score : ℚ) ≤ score' := by exact_mod_cast hs
  have h0 : (0 : ℚ) ≤ score := by positivity
  cases c' with
  | true => rw [hc rfl]; simp only [↓reduceIte]; linarith
  | false => cases c <;> simp only [↓reduceIte, Bool.false_eq_true] <;> linarith

namespace Boosted

variable {f₀ f : Direction → Factor → Bool} {d : Direction} {votes : Direction → Nat} {n : Nat}
  {eventRisk : Bool} {minConfidence : ℚ}

theorem structure_eq (h : Boosted f₀ f d) (e : Direction) :
    f e .marketStructure = f₀ e .marketStructure := h.technical e _ (by simp [technicalKeys])

theorem technicalHits_eq (h : Boosted f₀ f d) (e : Direction) :
    technicalHits f e = technicalHits f₀ e := List.filter_congr (h.technical e)

/-- A boost of the favoured side keeps it favoured. -/
theorem favoured_eq (h : Boosted f₀ f d) (hd : favoured f₀ = d) : favoured f = d := by
  obtain ⟨points, -, hgain⟩ := h.gain
  have hother := h.other
  unfold favoured at hd ⊢
  cases d with
  | bullish =>
    simp only [Direction.opposite] at hother
    split at hd
    · rw [if_pos (by omega)]
    · cases hd
  | bearish =>
    simp only [Direction.opposite] at hother
    split at hd
    · cases hd
    · rw [if_neg (by omega)]

/-- A boost of the favoured side raises the confidence and keeps a SETUP. -/
theorem favours (h : Boosted f₀ f d) (hd : favoured f₀ = d) :
    (decision f₀ votes n eventRisk minConfidence).confidence ≤
        (decision f votes n eventRisk minConfidence).confidence ∧
      ((decision f₀ votes n eventRisk minConfidence).status = .setup →
        (decision f votes n eventRisk minConfidence).status = .setup) := by
  obtain ⟨points, hle, hgain⟩ := h.gain
  have hother := h.other
  have hfav := h.favoured_eq hd
  -- The opposing score stays, so the boost can only end a conflict.
  have hconf : (decision f votes n eventRisk minConfidence).conflicted = true →
      (decision f₀ votes n eventRisk minConfidence).conflicted = true := by
    simp only [decision, hd, hfav, materiallyConflicted, decide_eq_true_eq, hother, hgain]
    omega
  have hmono : (decision f₀ votes n eventRisk minConfidence).confidence ≤
      (decision f votes n eventRisk minConfidence).confidence := by
    have hscore : rawScore f₀ (favoured f₀) ≤ rawScore f (favoured f) := by
      rw [hd, hfav]
      omega
    exact confidenceOf_mono hscore hconf
  refine ⟨hmono, fun hs => ?_⟩
  rw [decision_setup_iff] at hs ⊢
  obtain ⟨h1, h2, h3, h4, h5, h6⟩ := hs
  rw [hd] at h1 h2 h3
  rw [hfav, h.structure_eq, h.technicalHits_eq]
  refine ⟨h1, h2, h3, ?_, h5.trans hmono, h6⟩
  cases hc : (decision f votes n eventRisk minConfidence).conflicted with
  | false => rfl
  | true => rw [hconf hc] at h4; cases h4

/-- A boost that flips the favour leaves the decision conflicted, or without structure: the side
that lost the favour keeps at least the score of the other side less ten. -/
theorem no_flip (h : Boosted f₀ f d) (hd : favoured f₀ ≠ d)
    (hs : (decision f votes n eventRisk minConfidence).status = .setup) :
    favoured f = favoured f₀ := by
  by_contra hne
  obtain ⟨points, hle, hgain⟩ := h.gain
  have hother := h.other
  obtain ⟨h1, -, -, h4, -, -⟩ := decision_setup_iff.mp hs
  have hflip : favoured f = d := by
    rw [Direction.ne_iff_eq_opposite.mp hne, Direction.ne_iff_eq_opposite.mp hd,
      Direction.opposite_opposite]
  rw [hflip, h.structure_eq] at h1
  have h28 := structure_score h1
  -- Before the boost the other side was ahead.
  have hbefore : rawScore f₀ d ≤ rawScore f₀ d.opposite := by
    unfold favoured at hd
    cases d with
    | bullish =>
      split at hd
      · exact absurd rfl hd
      · simp only [Direction.opposite]; omega
    | bearish =>
      split at hd
      · simp only [Direction.opposite]; omega
      · exact absurd rfl hd
  simp only [decision, hflip, materiallyConflicted, decide_eq_false_iff_not, hother, hgain] at h4
  omega

/-- A boost of the other side that leaves the favour creates no SETUP. -/
theorem opposes (h : Boosted f₀ f d) (hd : favoured f₀ ≠ d)
    (hs : (decision f votes n eventRisk minConfidence).status = .setup) :
    (decision f₀ votes n eventRisk minConfidence).status = .setup := by
  obtain ⟨points, hle, hgain⟩ := h.gain
  have hother := h.other
  have hfav := h.no_flip hd hs
  have hopp := Direction.ne_iff_eq_opposite.mp hd
  have hconf : (decision f₀ votes n eventRisk minConfidence).conflicted = true →
      (decision f votes n eventRisk minConfidence).conflicted = true := by
    simp only [decision, hfav, hopp, materiallyConflicted, decide_eq_true_eq, hother,
      Direction.opposite_opposite]
    omega
  have hmono : (decision f votes n eventRisk minConfidence).confidence ≤
      (decision f₀ votes n eventRisk minConfidence).confidence := by
    have hscore : rawScore f (favoured f) ≤ rawScore f₀ (favoured f₀) := by
      rw [hfav, hopp, hother]
    exact confidenceOf_mono hscore hconf
  rw [decision_setup_iff] at hs ⊢
  obtain ⟨h1, h2, h3, h4, h5, h6⟩ := hs
  rw [hfav] at h1 h2 h3
  rw [h.structure_eq] at h1
  rw [h.technicalHits_eq] at h2
  refine ⟨h1, h2, h3, ?_, h5.trans hmono, h6⟩
  cases hc : (decision f₀ votes n eventRisk minConfidence).conflicted with
  | false => rfl
  | true => rw [hconf hc] at h4; cases h4

/-- A SETUP trades on the side that was favoured before the boost. -/
theorem setup_favoured (h : Boosted f₀ f d)
    (hs : (decision f votes n eventRisk minConfidence).status = .setup) :
    favoured f = favoured f₀ := by
  by_cases hd : favoured f₀ = d
  · rw [h.favoured_eq hd, hd]
  · exact h.no_flip hd hs

end Boosted

/-! ## Two analyses -/

/-- The same input with another sentiment. -/
def AnalysisInput.withNews (inp : AnalysisInput) (news : Option ℚ) : AnalysisInput :=
  { inp with newsSentiment := news }

/-- The side with the higher raw score, bearish on a tie, of a result that reports scores. -/
def AnalysisResult.favouredSide (r : AnalysisResult) : Option Direction :=
  r.evidence.map fun e => if e.scores .bearish < e.scores .bullish then .bullish else .bearish

/-- The decision on an input with the given sentiment. -/
abbrev AnalysisInput.decidedWith (inp : AnalysisInput) (bars : List Bar) (lastBar : Bar)
    (news : Option ℚ) : Decision := (inp.withNews news).decided bars lastBar

theorem boosted_withNews (inp : AnalysisInput) (bars : List Bar) (lastBar : Bar) (s : ℚ) :
    Boosted ((inp.withNews none).factors bars lastBar) ((inp.withNews (some s)).factors bars lastBar)
      (newsSide s) := boosted_news _ _ lastBar s inp.calendarBlackout

/-- The sentiment enters after the evidence: either every sentiment gives the same early return, or
every sentiment goes through all steps, on the same bars and evidence. -/
theorem analyze_withNews {inp : AnalysisInput} {news : Option ℚ} {r : AnalysisResult}
    (h : analyzeMultiTimeframe (inp.withNews news) = .ok r) :
    (r.evidence = none ∧ r.status ≠ .setup ∧
      ∀ news', analyzeMultiTimeframe (inp.withNews news') = .ok r) ∨
    ∃ bars lastBar js, ∀ news' r', analyzeMultiTimeframe (inp.withNews news') = .ok r' ↔
      ∃ rs, reasonsOf (inp.decidedWith bars lastBar news')
          ((inp.withNews news').factors bars lastBar)
          (inp.evidenceOn inp.primaryTimeframe bars) inp.calendarBlackout = .ok rs ∧
        r' = (inp.withNews news').result bars lastBar js rs := by
  obtain ⟨hp, rfl⟩ | ⟨bars, hp, hval, ⟨hev, rfl⟩ | ⟨hev, hc⟩⟩ := analyze_eq_ok.mp h
  · left
    refine ⟨rfl, by simp [unconfirmed], fun news' => ?_⟩
    exact analyze_eq_ok.mpr (Or.inl ⟨hp, rfl⟩)
  · left
    refine ⟨rfl, by simp [unconfirmed], fun news' => ?_⟩
    exact analyze_eq_ok.mpr (Or.inr ⟨bars, hp, hval, Or.inl ⟨hev, rfl⟩⟩)
  · right
    obtain ⟨lastBar, js, _, hl, hjs, -, -⟩ := concludeAnalysis_eq_ok.mp hc
    refine ⟨bars, lastBar, js, fun news' r' => ?_⟩
    constructor
    · intro h'
      obtain ⟨hp', -⟩ | ⟨bars', hp', -, ⟨hev', -⟩ | ⟨-, hc'⟩⟩ := analyze_eq_ok.mp h'
      · exact absurd (hp.symm.trans hp') (by simp)
      · obtain rfl : bars = bars' := Option.some.inj (hp.symm.trans hp')
        exact absurd hev hev'
      · obtain rfl : bars = bars' := Option.some.inj (hp.symm.trans hp')
        obtain ⟨lastBar', js', rs, hl', hjs', hrs, rfl⟩ := concludeAnalysis_eq_ok.mp hc'
        obtain rfl : lastBar = lastBar' := Option.some.inj (hl.symm.trans hl')
        obtain rfl : js = js' := Except.ok.inj (hjs.symm.trans hjs')
        exact ⟨rs, hrs, rfl⟩
    · rintro ⟨rs, hrs, rfl⟩
      refine analyze_eq_ok.mpr (Or.inr ⟨bars, hp, hval, Or.inr ⟨hev, ?_⟩⟩)
      exact concludeAnalysis_eq_ok.mpr ⟨lastBar, js, rs, hl, hjs, hrs, rfl⟩

section Decided

variable {inp : AnalysisInput} {bars : List Bar} {lastBar : Bar} {s : ℚ}

theorem decidedWith_eq (news : Option ℚ) :
    inp.decidedWith bars lastBar news =
      decision ((inp.withNews news).factors bars lastBar) (trendVotes (inp.evidences.map (·.2)))
        inp.evidences.length inp.calendarBlackout inp.minConfidence := rfl

theorem decidedWith_best (news : Option ℚ) :
    (inp.decidedWith bars lastBar news).best =
      favoured ((inp.withNews news).factors bars lastBar) := rfl

theorem decidedWith_favours
    (hd : favoured ((inp.withNews none).factors bars lastBar) = newsSide s) :
    (inp.decidedWith bars lastBar none).confidence ≤
        (inp.decidedWith bars lastBar (some s)).confidence ∧
      ((inp.decidedWith bars lastBar none).status = .setup →
        (inp.decidedWith bars lastBar (some s)).status = .setup) := by
  rw [decidedWith_eq, decidedWith_eq]
  exact (boosted_withNews inp bars lastBar s).favours hd

theorem decidedWith_opposes
    (hd : favoured ((inp.withNews none).factors bars lastBar) ≠ newsSide s)
    (hs : (inp.decidedWith bars lastBar (some s)).status = .setup) :
    (inp.decidedWith bars lastBar none).status = .setup := by
  rw [decidedWith_eq] at hs ⊢
  exact (boosted_withNews inp bars lastBar s).opposes hd hs

/-- A SETUP trades on the side that is favoured without news. -/
theorem decidedWith_setup_best (hs : (inp.decidedWith bars lastBar (some s)).status = .setup) :
    (inp.decidedWith bars lastBar (some s)).best = (inp.decidedWith bars lastBar none).best := by
  rw [decidedWith_eq] at hs
  exact (boosted_withNews inp bars lastBar s).setup_favoured hs

/-- The reasons can be quoted for one sentiment if they can for another one that favours the same
side. -/
theorem reasons_withNews
    (hbest : (inp.decidedWith bars lastBar (some s)).best =
      (inp.decidedWith bars lastBar none).best) :
    (∃ rs, reasonsOf (inp.decidedWith bars lastBar (some s))
        ((inp.withNews (some s)).factors bars lastBar)
        (inp.evidenceOn inp.primaryTimeframe bars) inp.calendarBlackout = .ok rs) ↔
      ∃ rs, reasonsOf (inp.decidedWith bars lastBar none) ((inp.withNews none).factors bars lastBar)
        (inp.evidenceOn inp.primaryTimeframe bars) inp.calendarBlackout = .ok rs := by
  have hok : ∀ news, (inp.decidedWith bars lastBar news).structureOk =
      (inp.withNews news).factors bars lastBar (inp.decidedWith bars lastBar news).best
        .marketStructure := fun _ => rfl
  rw [reasonsOf_eq_ok, reasonsOf_eq_ok, hok, hok, hbest,
    (boosted_withNews inp bars lastBar s).structure_eq]

end Decided

/-- A sentiment that points to the favoured side. -/
theorem news_favours {inp : AnalysisInput} {r₀ : AnalysisResult} {s : ℚ}
    (h₀ : analyzeMultiTimeframe (inp.withNews none) = .ok r₀)
    (hd : r₀.favouredSide = some (newsSide s)) :
    ∃ r, analyzeMultiTimeframe (inp.withNews (some s)) = .ok r ∧ r₀.confidence ≤ r.confidence ∧
      (r₀.status = .setup → r.status = .setup ∧ r.direction = r₀.direction) := by
  obtain ⟨hev, -, -⟩ | ⟨bars, lastBar, js, hall⟩ := analyze_withNews h₀
  · rw [AnalysisResult.favouredSide, hev] at hd
    cases hd
  obtain ⟨rs₀, hrs₀, rfl⟩ := (hall none r₀).mp h₀
  have hside : favoured ((inp.withNews none).factors bars lastBar) = newsSide s := Option.some.inj hd
  have hbest : (inp.decidedWith bars lastBar (some s)).best =
      (inp.decidedWith bars lastBar none).best := by
    rw [decidedWith_best, decidedWith_best, (boosted_withNews inp bars lastBar s).favoured_eq hside,
      hside]
  obtain ⟨rs, hrs⟩ := (reasons_withNews hbest).mpr ⟨rs₀, hrs₀⟩
  obtain ⟨hconf, hsetup⟩ := decidedWith_favours hside
  refine ⟨_, (hall (some s) _).mpr ⟨rs, hrs, rfl⟩, hconf, fun hs => ?_⟩
  have hs' : ((inp.withNews (some s)).result bars lastBar js rs).status = .setup := hsetup hs
  refine ⟨hs', ?_⟩
  rw [AnalysisInput.result_direction hs', AnalysisInput.result_direction hs]
  exact congrArg Direction.trade hbest

/-- A sentiment that points to the other side. -/
theorem news_opposes {inp : AnalysisInput} {r₀ r : AnalysisResult} {s : ℚ}
    (h₀ : analyzeMultiTimeframe (inp.withNews none) = .ok r₀)
    (hd : r₀.favouredSide = some (newsSide s).opposite)
    (h : analyzeMultiTimeframe (inp.withNews (some s)) = .ok r) (hs : r.status = .setup) :
    r₀.status = .setup := by
  obtain ⟨hev, -, -⟩ | ⟨bars, lastBar, js, hall⟩ := analyze_withNews h₀
  · rw [AnalysisResult.favouredSide, hev] at hd
    cases hd
  obtain ⟨rs₀, -, rfl⟩ := (hall none r₀).mp h₀
  obtain ⟨rs, -, rfl⟩ := (hall (some s) r).mp h
  have hside : favoured ((inp.withNews none).factors bars lastBar) = (newsSide s).opposite :=
    Option.some.inj hd
  have hne : favoured ((inp.withNews none).factors bars lastBar) ≠ newsSide s := by
    rw [hside]
    cases newsSide s <;> simp [Direction.opposite]
  exact decidedWith_opposes hne hs

/-- A SETUP with a sentiment trades on the side that is favoured without one, which then has a
result as well. -/
theorem news_setup {inp : AnalysisInput} {r : AnalysisResult} {s : ℚ}
    (h : analyzeMultiTimeframe (inp.withNews (some s)) = .ok r) (hs : r.status = .setup) :
    ∃ r₀ d, analyzeMultiTimeframe (inp.withNews none) = .ok r₀ ∧ r₀.favouredSide = some d ∧
      r.direction = d.trade := by
  obtain ⟨-, hst, -⟩ | ⟨bars, lastBar, js, hall⟩ := analyze_withNews h
  · exact absurd hs hst
  obtain ⟨rs, hrs, rfl⟩ := (hall (some s) r).mp h
  have hbest := decidedWith_setup_best (s := s) hs
  obtain ⟨rs₀, hrs₀⟩ := (reasons_withNews hbest).mp ⟨rs, hrs⟩
  refine ⟨_, (inp.decidedWith bars lastBar none).best, (hall none _).mpr ⟨rs₀, hrs₀, rfl⟩, rfl, ?_⟩
  rw [AnalysisInput.result_direction hs]
  exact congrArg Direction.trade hbest

/-- **News cannot create or flip a setup.** Compare the analysis of an input with every sentiment
with its analysis `r₀` without one. A sentiment that points to the favoured side of `r₀` keeps the
SETUP and its direction and does not lower the confidence; one that points to the other side makes
no SETUP; without scores, or without a result, there is nothing a sentiment can change into a
SETUP. No two sentiments give SETUPs of opposite directions. -/
theorem news_cannot_create_setup (inp : AnalysisInput) :
    (∀ r₀, analyzeMultiTimeframe (inp.withNews none) = .ok r₀ → ∀ s : ℚ,
      (r₀.favouredSide = some (newsSide s) →
        ∃ r, analyzeMultiTimeframe (inp.withNews (some s)) = .ok r ∧
          r₀.confidence ≤ r.confidence ∧
          (r₀.status = .setup → r.status = .setup ∧ r.direction = r₀.direction)) ∧
      (r₀.favouredSide = some (newsSide s).opposite → r₀.status ≠ .setup →
        ∀ r, analyzeMultiTimeframe (inp.withNews (some s)) = .ok r → r.status ≠ .setup) ∧
      (r₀.favouredSide = none → analyzeMultiTimeframe (inp.withNews (some s)) = .ok r₀)) ∧
    ((∀ r₀, analyzeMultiTimeframe (inp.withNews none) ≠ .ok r₀) →
      ∀ s r, analyzeMultiTimeframe (inp.withNews (some s)) = .ok r → r.status ≠ .setup) ∧
    ∀ s s' r r', analyzeMultiTimeframe (inp.withNews (some s)) = .ok r →
      analyzeMultiTimeframe (inp.withNews (some s')) = .ok r' →
      r.status = .setup → r'.status = .setup → r.direction = r'.direction := by
  refine ⟨fun r₀ h₀ s => ⟨news_favours h₀, ?_, ?_⟩, ?_, ?_⟩
  · intro hd hst r h hs
    exact hst (news_opposes h₀ hd h hs)
  · intro hnone
    obtain ⟨-, -, hall⟩ | ⟨bars, lastBar, js, hall⟩ := analyze_withNews h₀
    · exact hall (some s)
    · obtain ⟨_, -, rfl⟩ := (hall none r₀).mp h₀
      cases hnone
  · intro hnone s r h hs
    obtain ⟨r₀, -, h₀, -⟩ := news_setup h hs
    exact hnone r₀ h₀
  · intro s s' r r' h h' hs hs'
    obtain ⟨r₀, d, h₀, hd, hdir⟩ := news_setup h hs
    obtain ⟨r₀', d', h₀', hd', hdir'⟩ := news_setup h' hs'
    obtain rfl : r₀ = r₀' := Except.ok.inj (h₀.symm.trans h₀')
    obtain rfl : d = d' := Option.some.inj (hd.symm.trans hd')
    rw [hdir, hdir']

/-- A positive sentiment keeps the SETUP of the strongly bullish series. -/
theorem strong_news :
    ∃ r₀ r, analyzeMultiTimeframe (strongInput.withNews none) = .ok r₀ ∧
      r₀.favouredSide = some .bullish ∧ r₀.status = .setup ∧
      analyzeMultiTimeframe (strongInput.withNews (some (1 / 2))) = .ok r ∧ r.status = .setup ∧
      r.direction = r₀.direction := by
  obtain ⟨r₀, h₀, hside, hs⟩ : ∃ r, analyzeMultiTimeframe (strongInput.withNews none) = .ok r ∧
      r.favouredSide = some .bullish ∧ r.status = .setup := exists_result (by decide +kernel)
  have hd : newsSide (1 / 2) = .bullish := by decide +kernel
  obtain ⟨r, h, -, hkeep⟩ := ((news_cannot_create_setup strongInput).1 r₀ h₀ (1 / 2)).1
    (by rw [hd, hside])
  exact ⟨r₀, r, h₀, hside, hs, h, hkeep hs⟩

end MarketKill3r
