import MarketKill3r.Engine.SetupBasis

/-!
# The decision favours no side

`best` falls to bearish on equal scores, and one side of each threshold is strict where the other is
not. None of it decides a trade: with the sides of the evidence swapped and the price and the news
negated, the same SETUP comes out on the other side.

* `Swapped`: the factors of two decisions are the same with the sides exchanged.
* `no_setup_on_tie`: equal scores are a material conflict, as soon as there is a structure break.
* `Swapped.setup`, `decision_neutral`: a SETUP and its mirror image.
-/

namespace MarketKill3r

/-! ## Swapped evidence -/

/-- `"sell_side"` for `"buy_side"`, and the other way round. -/
def SweepSide.other : SweepSide → SweepSide
  | .buySide => .sellSide
  | .sellSide => .buySide

/-- The evidence with bullish and bearish, buy side and sell side exchanged, and the equilibrium
negated. -/
def TimeframeEvidence.swapSides (e : TimeframeEvidence) : TimeframeEvidence :=
  { e with
    trend := e.trend.map .opposite
    structureEvents := e.structureEvents.map fun x => { x with direction := x.direction.opposite }
    fvgs := e.fvgs.map fun g => { g with direction := g.direction.opposite }
    orderBlocks := e.orderBlocks.map fun o => { o with direction := o.direction.opposite }
    sweeps := e.sweeps.map fun s => { s with direction := s.direction.other }
    dealingRange := e.dealingRange.map fun dr => { dr with equilibrium := -dr.equilibrium }
    smt := e.smt.map fun x => { x with direction := x.direction.opposite } }

/-- The bar with its close negated. -/
def Bar.negateClose (b : Bar) : Bar := { b with close := -b.close }

/-- What the decision part of `analyze_multi_timeframe` reads: the evidence of the timeframes, that of
the primary one, its last bar, the sentiment, the event risk and the threshold. -/
structure DecisionInput where
  evidences : List TimeframeEvidence
  primary : TimeframeEvidence
  lastBar : Bar
  news : Option ℚ
  eventRisk : Bool
  minConfidence : ℚ

namespace DecisionInput

/-- `factors` -/
def factors (x : DecisionInput) : Direction → Factor → Bool :=
  factorHit x.evidences x.primary x.lastBar x.news x.eventRisk

/-- The decision part of `analyze_multi_timeframe`. -/
def decided (x : DecisionInput) : Decision :=
  decision x.factors (trendVotes x.evidences) x.evidences.length x.eventRisk x.minConfidence

/-- The mirrored input: the sides exchanged, last price and sentiment negated. -/
def swapSides (x : DecisionInput) : DecisionInput :=
  { x with
    evidences := x.evidences.map .swapSides
    primary := x.primary.swapSides
    lastBar := x.lastBar.negateClose
    news := x.news.map Neg.neg }

end DecisionInput

/-- What an analysis hands to its decision part. -/
def AnalysisInput.decisionInput (inp : AnalysisInput) (bars : List Bar) (lastBar : Bar) :
    DecisionInput where
  evidences := inp.evidences.map (·.2)
  primary := inp.evidenceOn inp.primaryTimeframe bars
  lastBar := lastBar
  news := inp.newsSentiment
  eventRisk := inp.calendarBlackout
  minConfidence := inp.minConfidence

/-- The decision of an analysis is the one on what it hands over. -/
theorem AnalysisInput.decided_decisionInput (inp : AnalysisInput) (bars : List Bar) (lastBar : Bar) :
    (inp.decisionInput bars lastBar).decided = inp.decided bars lastBar := by
  simp only [DecisionInput.decided, AnalysisInput.decisionInput, List.length_map]
  rfl

theorem sweepDir_opposite (d : Direction) (s : SweepSide) :
    s.other = d.opposite.sweepDir ↔ s = d.sweepDir := by
  cases d <;> cases s <;> simp [SweepSide.other, Direction.opposite, Direction.sweepDir]

/-- The preferred zone of a side, seen from the other side of the equilibrium. -/
theorem zoneFor_neg (dr : DealingRange) (p : ℚ) (d : Direction) :
    ({ dr with equilibrium := -dr.equilibrium } : DealingRange).zoneFor (-p) =
        d.opposite.preferredZone ↔ dr.zoneFor p = d.preferredZone := by
  simp only [DealingRange.zoneFor, neg_lt_neg_iff]
  rcases lt_trichotomy p dr.equilibrium with h | h | h
  · rw [if_pos h, if_neg h.not_gt, if_pos h]
    cases d <;> simp [Direction.opposite, Direction.preferredZone]
  · subst h
    cases d <;> simp [Direction.opposite, Direction.preferredZone]
  · rw [if_neg h.not_gt, if_pos h, if_pos h]
    cases d <;> simp [Direction.opposite, Direction.preferredZone]

theorem newsHit_neg (news : Option ℚ) (d : Direction) :
    newsHit (news.map Neg.neg) d.opposite = newsHit news d := by
  cases news with
  | none => cases d <;> rfl
  | some s =>
    cases d with
    | bullish => simp [newsHit, Direction.opposite]
    | bearish => simp [newsHit, Direction.opposite, lt_neg]

/-- A sentiment of weight is not zero, so that it points to exactly one side. -/
theorem fundamentalHit_neg (news : Option ℚ) (eventRisk : Bool) (d : Direction) :
    fundamentalHit (news.map Neg.neg) eventRisk d.opposite = fundamentalHit news eventRisk d := by
  cases news with
  | none => rfl
  | some s =>
    simp only [Option.map_some, fundamentalHit, abs_neg]
    by_cases hw : 15 / 100 ≤ |s|
    · have hne : s ≠ 0 := by
        rintro rfl
        norm_num at hw
      rcases lt_or_gt_of_ne hne with h | h
      · rw [if_pos (neg_pos.mpr h), if_neg h.not_gt]
        cases d <;> rfl
      · rw [if_neg (by linarith), if_pos h]
        cases d <;> rfl
    · simp [hw]

/-- **The factors of swapped evidence** are those of the evidence, for the other side. -/
theorem factorHit_swapSides (es : List TimeframeEvidence) (primary : TimeframeEvidence)
    (lastBar : Bar) (news : Option ℚ) (eventRisk : Bool) (d : Direction) (k : Factor) :
    factorHit (es.map .swapSides) primary.swapSides lastBar.negateClose (news.map Neg.neg) eventRisk
        d.opposite k = factorHit es primary lastBar news eventRisk d k := by
  cases k with
  | marketStructure =>
    simp [factorHit, TimeframeEvidence.swapSides, List.any_map, Function.comp_def,
      List.getLast?_map, Option.any_map, Direction.opposite_eq_iff]
  | orderBlock =>
    simp [factorHit, TimeframeEvidence.swapSides, List.any_map, Function.comp_def,
      Direction.opposite_eq_iff]
  | fvg =>
    simp [factorHit, TimeframeEvidence.swapSides, List.any_map, Function.comp_def,
      Direction.opposite_eq_iff]
  | liquidity =>
    simp [factorHit, TimeframeEvidence.swapSides, List.any_map, Function.comp_def,
      sweepDir_opposite]
  | premiumDiscount =>
    simp only [factorHit, TimeframeEvidence.swapSides, Bar.negateClose, Option.any_map, zoneFor_neg]
  | displacement => rfl
  | smt =>
    simp [factorHit, TimeframeEvidence.swapSides, List.any_map, Function.comp_def,
      Direction.opposite_eq_iff]
  | session => rfl
  | fundamental => exact fundamentalHit_neg news eventRisk d
  | news => exact newsHit_neg news d

theorem trendVotes_swapSides (es : List TimeframeEvidence) (d : Direction) :
    trendVotes (es.map .swapSides) d.opposite = trendVotes es d := by
  simp only [trendVotes, List.filter_map, List.length_map]
  congr 1
  refine List.filter_congr fun e _ => ?_
  cases ht : e.trend <;> simp [TimeframeEvidence.swapSides, ht, Direction.opposite_eq_iff]

/-! ## Swapped decisions -/

/-- The factors and votes of `g` are those of `f` with the sides exchanged. -/
structure Swapped (f g : Direction → Factor → Bool) (votes votes' : Direction → Nat) : Prop where
  factors : ∀ d k, g d.opposite k = f d k
  votes : ∀ d, votes' d.opposite = votes d

/-- Swapping the sides of the evidence exchanges factors and votes. -/
theorem swapped_evidence (x : DecisionInput) :
    Swapped x.factors x.swapSides.factors (trendVotes x.evidences)
      (trendVotes x.swapSides.evidences) where
  factors := factorHit_swapSides x.evidences x.primary x.lastBar x.news x.eventRisk
  votes := trendVotes_swapSides x.evidences

/-- **Equal scores never trade**: with a structure break they are 28 or more, and in conflict. -/
theorem no_setup_on_tie {f : Direction → Factor → Bool} {votes : Direction → Nat} {n : Nat}
    {eventRisk : Bool} {minConfidence : ℚ}
    (hs : (decision f votes n eventRisk minConfidence).status = .setup) :
    rawScore f (favoured f).opposite < rawScore f (favoured f) := by
  obtain ⟨hstruct, -, -, hfree, -, -⟩ := decision_setup_iff.mp hs
  have h28 := structure_score hstruct
  simp only [decision, materiallyConflicted, decide_eq_false_iff_not] at hfree
  omega

namespace Swapped

variable {f g : Direction → Factor → Bool} {votes votes' : Direction → Nat} {n : Nat}
  {eventRisk : Bool} {minConfidence : ℚ}

theorem symm (h : Swapped f g votes votes') : Swapped g f votes' votes where
  factors d k := by rw [← h.factors, Direction.opposite_opposite]
  votes d := by rw [← h.votes, Direction.opposite_opposite]

theorem rawScore_eq (h : Swapped f g votes votes') (d : Direction) :
    rawScore g d.opposite = rawScore f d := by
  rw [rawScore, funext (h.factors d), rawScore]

theorem technicalHits_eq (h : Swapped f g votes votes') (d : Direction) :
    technicalHits g d.opposite = technicalHits f d := by
  rw [technicalHits, funext (h.factors d), technicalHits]

/-- A SETUP is a SETUP on the other side after the swap. -/
theorem setup (h : Swapped f g votes votes')
    (hs : (decision f votes n eventRisk minConfidence).status = .setup) :
    (decision g votes' n eventRisk minConfidence).status = .setup ∧
      (decision g votes' n eventRisk minConfidence).best =
        (decision f votes n eventRisk minConfidence).best.opposite ∧
      (decision g votes' n eventRisk minConfidence).confidence =
        (decision f votes n eventRisk minConfidence).confidence ∧
      (decision g votes' n eventRisk minConfidence).score =
        (decision f votes n eventRisk minConfidence).score := by
  have hlt := no_setup_on_tie hs
  -- The scores differ, so the swap also exchanges the favoured side.
  have hfav : favoured g = (favoured f).opposite := by
    refine favoured_of_lt ?_
    rw [h.rawScore_eq, h.rawScore_eq]
    exact hlt
  have hscore : rawScore g (favoured g) = rawScore f (favoured f) := by rw [hfav, h.rawScore_eq]
  have hother : rawScore g (favoured g).opposite = rawScore f (favoured f).opposite := by
    rw [hfav, h.rawScore_eq]
  have hconflict : (decision g votes' n eventRisk minConfidence).conflicted =
      (decision f votes n eventRisk minConfidence).conflicted := by
    simp only [decision, hscore, hother]
  have hconf : (decision g votes' n eventRisk minConfidence).confidence =
      (decision f votes n eventRisk minConfidence).confidence := by
    simp only [decision, hscore, hother]
  refine ⟨?_, hfav, hconf, hscore⟩
  obtain ⟨h1, h2, h3, h4, h5, h6⟩ := decision_setup_iff.mp hs
  refine decision_setup_iff.mpr ⟨?_, ?_, ?_, ?_, ?_, h6⟩
  · rw [hfav, h.factors]
    exact h1
  · rw [hfav, h.technicalHits_eq]
    exact h2
  · rw [hfav, h.votes]
    exact h3
  · rw [hconflict]
    exact h4
  · rw [hconf]
    exact h5

end Swapped

theorem DecisionInput.swapSides_decided (x : DecisionInput) :
    x.swapSides.decided = decision x.swapSides.factors (trendVotes x.swapSides.evidences)
      x.evidences.length x.eventRisk x.minConfidence := by
  rw [DecisionInput.decided, DecisionInput.swapSides, List.length_map]

/-- **Neutrality of the decision.** On any evidence, last bar and sentiment the decision is a SETUP
exactly when it is one on the mirrored input. It then trades the other way with the same confidence
and score, and the scores of the two sides differ. -/
theorem decision_neutral (x : DecisionInput) :
    (x.decided.status = .setup ↔ x.swapSides.decided.status = .setup) ∧
      (x.decided.status = .setup →
        x.swapSides.decided.best = x.decided.best.opposite ∧
        x.swapSides.decided.confidence = x.decided.confidence ∧
        x.swapSides.decided.score = x.decided.score ∧
        rawScore x.factors x.decided.best.opposite < rawScore x.factors x.decided.best) := by
  have hswap := swapped_evidence x
  rw [x.swapSides_decided]
  constructor
  · exact ⟨fun hs => (hswap.setup hs).1, fun hs => (hswap.symm.setup hs).1⟩
  · intro hs
    obtain ⟨-, hbest, hconf, hscore⟩ := hswap.setup hs
    exact ⟨hbest, hconf, hscore, no_setup_on_tie hs⟩

/-- The decision on the strongly bullish series. -/
def strongDecision : DecisionInput :=
  strongInput.decisionInput strongBullish (minuteBar 9 19 25 (185 / 10) 24)

/-- A bullish SETUP, and a bearish one on the mirrored input. -/
theorem strong_swapped : strongDecision.decided.best = .bullish ∧
    strongDecision.swapSides.decided.status = .setup ∧
    strongDecision.swapSides.decided.best = .bearish := by
  have hs : strongDecision.decided.status = .setup := by decide +kernel
  have hd : strongDecision.decided.best = .bullish := by decide +kernel
  obtain ⟨hiff, hrest⟩ := decision_neutral strongDecision
  exact ⟨hd, hiff.mp hs, by rw [(hrest hs).1, hd]; rfl⟩

end MarketKill3r
