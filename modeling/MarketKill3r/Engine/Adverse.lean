import MarketKill3r.Engine.News

/-!
# Adverse context and the confidence

A blackout takes the five points of the `fundamental` factor from the side that the news points to;
a sentiment adds points to the side it points to. Both act on the scores, so they can end or start
the penalty for a material conflict, which is a quarter of the higher score: the confidence follows
the quarter points of the two scores (`quarterPoints`, `confidence_le_iff`).

* `blackout_le_iff`, `sentiment_le_iff`: when a change of one score does not raise the quarter points.
* `adverse_context_iff`: when an event risk, or a sentiment against the stronger side, does not raise
  the confidence of an analysis.
-/

namespace MarketKill3r

open Rounding

/-! ## The confidence of two scores -/

/-- Four times the higher score, or three times when the lower one conflicts with it. -/
def quarterPoints (score opposing : Nat) : Nat :=
  if materiallyConflicted score opposing then 3 * score else 4 * score

/-- Rounding to one decimal keeps the order of quarters. -/
theorem pyRound_quarter_le_iff {v w : Nat} :
    pyRound ((v : ℚ) / 4) 1 ≤ pyRound ((w : ℚ) / 4) 1 ↔ v ≤ w := by
  constructor
  · intro h
    by_contra hlt
    have hstep : (w : ℚ) + 1 ≤ v := by exact_mod_cast (not_le.mp hlt)
    have hv := le_roundHalfEven ((v : ℚ) / 4 * 10 ^ 1)
    have hw := roundHalfEven_le ((w : ℚ) / 4 * 10 ^ 1)
    simp only [pyRound] at h
    rw [div_le_div_iff_of_pos_right (by norm_num)] at h
    linarith
  · intro h
    have hq : (v : ℚ) ≤ w := by exact_mod_cast h
    exact pyRound_mono (by linarith) 1

theorem confidenceOf_eq {score : Nat} (h : score ≤ 100) (opposing : Nat) :
    confidenceOf score (materiallyConflicted score opposing) =
      pyRound ((quarterPoints score opposing : ℚ) / 4) 1 := by
  have hq : (score : ℚ) ≤ 100 := by exact_mod_cast h
  have h0 : (0 : ℚ) ≤ score := by positivity
  unfold confidenceOf quarterPoints
  cases materiallyConflicted score opposing with
  | true =>
    simp only [↓reduceIte, Nat.cast_mul, Nat.cast_ofNat]
    rw [min_eq_right (by linarith)]
    congr 1
    ring
  | false =>
    simp only [Bool.false_eq_true, ↓reduceIte, Nat.cast_mul, Nat.cast_ofNat]
    rw [min_eq_right (by linarith)]
    congr 1
    ring

theorem rawScore_le (factors : Direction → Factor → Bool) (d : Direction) :
    rawScore factors d ≤ 100 := by
  have hsub : ((Factor.all.filter (factors d)).map Factor.weight).sum ≤
      (Factor.all.map Factor.weight).sum :=
    List.Sublist.sum_le_sum (List.filter_sublist.map _) fun _ _ => Nat.zero_le _
  exact hsub

/-- The two scores of a decision, from the view of side `d`. -/
theorem decision_confidence (factors : Direction → Factor → Bool) (votes : Direction → Nat) (n : Nat)
    (eventRisk : Bool) (minConfidence : ℚ) (d : Direction) :
    (decision factors votes n eventRisk minConfidence).confidence =
      pyRound ((quarterPoints (max (rawScore factors d) (rawScore factors d.opposite))
        (min (rawScore factors d) (rawScore factors d.opposite)) : ℚ) / 4) 1 := by
  have hbest : rawScore factors (favoured factors) =
      max (rawScore factors d) (rawScore factors d.opposite) ∧
      rawScore factors (favoured factors).opposite =
        min (rawScore factors d) (rawScore factors d.opposite) := by
    unfold favoured
    cases d <;> simp only [Direction.opposite] <;> split <;> simp only <;> omega
  rw [← hbest.1, ← hbest.2, ← confidenceOf_eq (rawScore_le _ _)]
  rfl

/-- **The confidence follows the quarter points** of the two scores. -/
theorem confidence_le_iff {f g : Direction → Factor → Bool} {votes : Direction → Nat} {n : Nat}
    {risk risk' : Bool} {minConfidence : ℚ} (d : Direction) :
    (decision f votes n risk minConfidence).confidence ≤
        (decision g votes n risk' minConfidence).confidence ↔
      quarterPoints (max (rawScore f d) (rawScore f d.opposite))
          (min (rawScore f d) (rawScore f d.opposite)) ≤
        quarterPoints (max (rawScore g d) (rawScore g d.opposite))
          (min (rawScore g d) (rawScore g d.opposite)) := by
  rw [decision_confidence f votes n risk minConfidence d,
    decision_confidence g votes n risk' minConfidence d, pyRound_quarter_le_iff]

/-! ## One score changes -/

/-- Taking five points from a score `x + 5` raises the quarter points exactly when these five points
lift it to the conflict margin of the other score. -/
theorem blackout_le_iff (x o : Nat) :
    quarterPoints (max x o) (min x o) ≤ quarterPoints (max (x + 5) o) (min (x + 5) o) ↔
      ¬ (20 ≤ o ∧ max 20 (o - 10) ≤ x + 5 ∧ x < max 20 (o - 10)) := by
  simp only [quarterPoints, materiallyConflicted, decide_eq_true_eq]
  split_ifs <;> omega

/-- Adding up to ten points to the lower score `b` does not raise the quarter points exactly when it
does not get ahead of the other one, or starts a conflict that costs at least as much. -/
theorem sentiment_le_iff {b o p : Nat} (hb : b < o) (hp : p ≤ 10) :
    quarterPoints (max (b + p) o) (min (b + p) o) ≤ quarterPoints (max b o) (min b o) ↔
      b + p ≤ o ∨ (b < 20 ∧ 20 ≤ o ∧ 3 * (b + p) ≤ 4 * o) := by
  simp only [quarterPoints, materiallyConflicted, decide_eq_true_eq]
  split_ifs <;> omega

/-! ## Analyses -/

/-- The same input with another answer of the calendar. -/
def AnalysisInput.withBlackout (inp : AnalysisInput) (blackout : Bool) : AnalysisInput :=
  { inp with calendarBlackout := blackout }

/-- What a result says about the scores: nothing, or those of the decision. -/
theorem analysis_confidence {inp : AnalysisInput} {r : AnalysisResult}
    (h : analyzeMultiTimeframe inp = .ok r) :
    ((∀ bars lastBar, ¬ PrimaryAt inp bars lastBar) ∧ r.confidence = 0 ∧ r.evidence = none) ∨
      ∃ bars lastBar, PrimaryAt inp bars lastBar ∧
        r.confidence = (inp.decided bars lastBar).confidence ∧
        r.evidence.map (·.scores) = some (rawScore (inp.factors bars lastBar)) := by
  obtain ⟨hno, _, rfl⟩ | ⟨bars, lastBar, _, _, hp, rfl⟩ := analyze_result h
  · exact Or.inl ⟨hno, rfl, rfl⟩
  · exact Or.inr ⟨bars, lastBar, hp, rfl, rfl⟩

/-- The weight of the technical evidence for a side, which is its score without news. -/
def AnalysisInput.technicalWeight (inp : AnalysisInput) (bars : List Bar) (lastBar : Bar)
    (d : Direction) : Nat :=
  (technicalKeys.map fun k => if inp.factors bars lastBar d k then k.weight else 0).sum

/-- A score is the weight of the technical evidence and the points of the news. -/
theorem rawScore_factors (inp : AnalysisInput) (bars : List Bar) (lastBar : Bar) (d : Direction) :
    rawScore (inp.factors bars lastBar) d = inp.technicalWeight bars lastBar d +
      inp.newsSentiment.elim 0 fun s => newsPoints s inp.calendarBlackout d := by
  have hnews : ∀ news : Option ℚ,
      ((if fundamentalHit news inp.calendarBlackout d then Factor.fundamental.weight else 0) +
        if newsHit news d then Factor.news.weight else 0) =
      news.elim 0 fun s => newsPoints s inp.calendarBlackout d := by
    intro news
    cases news with
    | none => cases d <;> rfl
    | some s => rfl
  rw [rawScore_split, ← hnews]
  rfl

/-- The event risk takes five points from the side of a sentiment of weight. -/
theorem newsPoints_risk (s : ℚ) : newsPoints s false (newsSide s) =
    newsPoints s true (newsSide s) + if 15 / 100 ≤ |s| then 5 else 0 := by
  by_cases h : 15 / 100 ≤ |s| <;>
    simp [newsPoints, fundamentalHit, newsSide, h, Factor.weight, Nat.add_comm]

/-- A blackout raises the confidence: the other side has 20 points or more, and the five points that
the news side loses alone lifted it to the conflict margin of the other side, which is 20 points or
ten less than the other side. -/
def BlackoutRaises (inp : AnalysisInput) : Prop :=
  ∃ bars lastBar s, PrimaryAt inp bars lastBar ∧ inp.newsSentiment = some s ∧ 15 / 100 ≤ |s| ∧
    20 ≤ inp.technicalWeight bars lastBar (newsSide s).opposite ∧
    max 20 (inp.technicalWeight bars lastBar (newsSide s).opposite - 10) ≤
      inp.technicalWeight bars lastBar (newsSide s) + newsPoints s true (newsSide s) + 5 ∧
    inp.technicalWeight bars lastBar (newsSide s) + newsPoints s true (newsSide s) <
      max 20 (inp.technicalWeight bars lastBar (newsSide s).opposite - 10)

/-- A sentiment against the stronger side raises the confidence: the side it points to gets ahead,
and this starts no conflict that costs as much. -/
def SentimentRaises (inp : AnalysisInput) (s : ℚ) : Prop :=
  ∃ bars lastBar, PrimaryAt inp bars lastBar ∧
    inp.technicalWeight bars lastBar (newsSide s).opposite <
      inp.technicalWeight bars lastBar (newsSide s) +
        newsPoints s inp.calendarBlackout (newsSide s) ∧
    ¬ (inp.technicalWeight bars lastBar (newsSide s) < 20 ∧
      20 ≤ inp.technicalWeight bars lastBar (newsSide s).opposite ∧
      3 * (inp.technicalWeight bars lastBar (newsSide s) +
          newsPoints s inp.calendarBlackout (newsSide s)) ≤
        4 * inp.technicalWeight bars lastBar (newsSide s).opposite)

/-- Two analyses of one input with different context: both stop early, or both decide on the same
bars. -/
theorem same_primary (inp inp' : AnalysisInput) {r r' : AnalysisResult}
    (htf : inp'.timeframeBars = inp.timeframeBars)
    (hpt : inp'.primaryTimeframe = inp.primaryTimeframe) (hlb : inp'.lookback = inp.lookback)
    (h : analyzeMultiTimeframe inp = .ok r) (h' : analyzeMultiTimeframe inp' = .ok r') :
    ((∀ bars lastBar, ¬ PrimaryAt inp bars lastBar) ∧ r'.confidence ≤ r.confidence ∧
        r.evidence = none) ∨
      ∃ bars lastBar, PrimaryAt inp bars lastBar ∧
        r.confidence = (inp.decided bars lastBar).confidence ∧
        r'.confidence = (inp'.decided bars lastBar).confidence ∧
        r.evidence.map (·.scores) = some (rawScore (inp.factors bars lastBar)) := by
  have hsame : ∀ bars lastBar, PrimaryAt inp' bars lastBar ↔ PrimaryAt inp bars lastBar :=
    fun bars lastBar => ⟨fun ⟨h1, h2, h3⟩ => ⟨by rw [← htf, ← hpt, h1], by rwa [← hlb], h3⟩,
      fun ⟨h1, h2, h3⟩ => ⟨by rw [htf, hpt, h1], by rwa [hlb], h3⟩⟩
  obtain ⟨hno, hr, he⟩ | ⟨bars, lastBar, hp, hr, he⟩ := analysis_confidence h <;>
    obtain ⟨hno', hr', -⟩ | ⟨bars', lastBar', hp', hr', -⟩ := analysis_confidence h'
  · exact Or.inl ⟨hno, by rw [hr, hr'], he⟩
  · exact absurd ((hsame _ _).mp hp') (hno _ _)
  · exact absurd ((hsame _ _).mpr hp) (hno' _ _)
  · obtain ⟨rfl, rfl⟩ := hp.unique ((hsame _ _).mp hp')
    exact Or.inr ⟨bars, lastBar, hp, hr, hr', he⟩

/-- When a blackout does not raise the confidence. -/
theorem blackout_confidence_iff {inp : AnalysisInput} {r₀ r₁ : AnalysisResult}
    (h₀ : analyzeMultiTimeframe (inp.withBlackout false) = .ok r₀)
    (h₁ : analyzeMultiTimeframe (inp.withBlackout true) = .ok r₁) :
    r₁.confidence ≤ r₀.confidence ↔ ¬ BlackoutRaises inp := by
  obtain ⟨hno, hle, -⟩ | ⟨bars, lastBar, hp, hr, hr', -⟩ :=
    same_primary (inp.withBlackout false) (inp.withBlackout true) rfl rfl rfl h₀ h₁
  · exact iff_of_true hle fun ⟨bars, lastBar, _, hp, _⟩ => hno bars lastBar ⟨hp.1, hp.2, hp.3⟩
  have hp : PrimaryAt inp bars lastBar := ⟨hp.1, hp.2, hp.3⟩
  have hscore : ∀ b d, rawScore ((inp.withBlackout b).factors bars lastBar) d =
      inp.technicalWeight bars lastBar d + inp.newsSentiment.elim 0 fun s => newsPoints s b d :=
    fun b d => rawScore_factors (inp.withBlackout b) bars lastBar d
  rw [hr, hr']
  cases hnews : inp.newsSentiment with
  | none =>
    refine iff_of_true ((confidence_le_iff .bullish).mpr ?_) fun ⟨_, _, s, _, hs, _⟩ => ?_
    · simp only [hscore, hnews, Option.elim_none, le_refl]
    · rw [hnews] at hs
      cases hs
  | some s =>
    refine (confidence_le_iff (newsSide s)).trans ?_
    simp only [hscore, hnews, Option.elim_some, newsPoints_other, newsPoints_risk, Nat.add_zero]
    by_cases hw : 15 / 100 ≤ |s|
    · rw [if_pos hw, ← Nat.add_assoc, blackout_le_iff]
      refine not_congr ⟨fun h => ⟨bars, lastBar, s, hp, hnews, hw, h⟩, ?_⟩
      rintro ⟨bars', lastBar', s', hp', hs', -, h⟩
      obtain ⟨rfl, rfl⟩ := hp.unique hp'
      obtain rfl : s = s' := Option.some.inj (hnews.symm.trans hs')
      exact h
    · refine iff_of_true (by rw [if_neg hw, Nat.add_zero]) ?_
      rintro ⟨_, _, s', -, hs', hw', -⟩
      obtain rfl : s = s' := Option.some.inj (hnews.symm.trans hs')
      exact hw hw'

/-- When a sentiment against the stronger side does not raise the confidence. -/
theorem sentiment_confidence_iff {inp : AnalysisInput} {s : ℚ} {r₀ r₁ : AnalysisResult}
    (h₀ : analyzeMultiTimeframe (inp.withNews none) = .ok r₀)
    (h₁ : analyzeMultiTimeframe (inp.withNews (some s)) = .ok r₁)
    (hside : ∃ e, r₀.evidence = some e ∧ e.scores (newsSide s) < e.scores (newsSide s).opposite) :
    r₁.confidence ≤ r₀.confidence ↔ ¬ SentimentRaises inp s := by
  obtain ⟨e, he, hlt⟩ := hside
  obtain ⟨-, -, hnone⟩ | ⟨bars, lastBar, hp, hr, hr', hev⟩ :=
    same_primary (inp.withNews none) (inp.withNews (some s)) rfl rfl rfl h₀ h₁
  · rw [hnone] at he
    cases he
  have hp : PrimaryAt inp bars lastBar := ⟨hp.1, hp.2, hp.3⟩
  have hnews : ∀ d, rawScore ((inp.withNews (some s)).factors bars lastBar) d =
      inp.technicalWeight bars lastBar d + newsPoints s inp.calendarBlackout d :=
    rawScore_factors (inp.withNews (some s)) bars lastBar
  have hplain : ∀ d, rawScore ((inp.withNews none).factors bars lastBar) d =
      inp.technicalWeight bars lastBar d := rawScore_factors (inp.withNews none) bars lastBar
  rw [he, Option.map_some, Option.some_inj] at hev
  rw [hev, hplain, hplain] at hlt
  rw [hr, hr']
  refine (confidence_le_iff (newsSide s)).trans ?_
  simp only [hnews, hplain, newsPoints_other, Nat.add_zero]
  rw [sentiment_le_iff hlt (newsPoints_le _ _ _), ← not_iff_not, not_not, not_or, not_le]
  constructor
  · rintro ⟨h1, h2⟩
    exact ⟨bars, lastBar, hp, h1, h2⟩
  · rintro ⟨bars', lastBar', hp', h⟩
    obtain ⟨rfl, rfl⟩ := hp.unique hp'
    exact h

/-- **When adverse context does not raise the confidence.** A blackout does not, unless the points
that it takes from the news side ended a material conflict; a sentiment that points away from the
side with the higher score does not, unless it lifts the other side above it. -/
theorem adverse_context_iff (inp : AnalysisInput) :
    (∀ r₀ r₁, analyzeMultiTimeframe (inp.withBlackout false) = .ok r₀ →
      analyzeMultiTimeframe (inp.withBlackout true) = .ok r₁ →
      (r₁.confidence ≤ r₀.confidence ↔ ¬ BlackoutRaises inp)) ∧
    ∀ s r₀ r₁, analyzeMultiTimeframe (inp.withNews none) = .ok r₀ →
      analyzeMultiTimeframe (inp.withNews (some s)) = .ok r₁ →
      (∃ e, r₀.evidence = some e ∧ e.scores (newsSide s) < e.scores (newsSide s).opposite) →
      (r₁.confidence ≤ r₀.confidence ↔ ¬ SentimentRaises inp s) :=
  ⟨fun _ _ h₀ h₁ => blackout_confidence_iff h₀ h₁,
    fun _ _ _ h₀ h₁ hside => sentiment_confidence_iff h₀ h₁ hside⟩

/-! ## A contested market -/

/-- A series with evidence for both sides: 28 points against 10 after six bars, 28 against 20 after
eight. -/
def contestedBars : List Bar :=
  [minuteBar 0 100 103 97 103, minuteBar 1 104 112 104 110, minuteBar 2 109 110 103 106,
    minuteBar 3 106 112 105 110, minuteBar 4 108 110 106 109, minuteBar 5 108 116 105 114,
    minuteBar 6 114 119 112 118, minuteBar 7 117 119 111 111]

/-- The first `n` bars of the series, at lookback 1. -/
def contestedInput (n : Nat) (news : Option ℚ) : AnalysisInput :=
  { goldInput ⟨[("M15", contestedBars.take n)], List.nodup_singleton _⟩ news with lookback := 1 }

/-- Adverse context raises the confidence: a blackout from 21 to 28, because it ends the conflict that
the news had started; a sentiment against the stronger side from 21 to 22.5. -/
theorem adverse_context_raises :
    (∃ r₀ r₁,
      analyzeMultiTimeframe ((contestedInput 6 (some (-1 / 2))).withBlackout false) = .ok r₀ ∧
      analyzeMultiTimeframe ((contestedInput 6 (some (-1 / 2))).withBlackout true) = .ok r₁ ∧
      r₀.confidence = 21 ∧ r₁.confidence = 28) ∧
    ∃ r₀ r₁, analyzeMultiTimeframe ((contestedInput 8 none).withNews none) = .ok r₀ ∧
      analyzeMultiTimeframe ((contestedInput 8 none).withNews (some (-1 / 2))) = .ok r₁ ∧
      r₀.evidence.any (fun e => e.scores .bearish < e.scores .bullish) = true ∧
      newsSide (-1 / 2) = .bearish ∧ r₀.confidence = 21 ∧ r₁.confidence = 45 / 2 := by
  obtain ⟨a₀, ha₀, hc₀⟩ : ∃ r,
      analyzeMultiTimeframe ((contestedInput 6 (some (-1 / 2))).withBlackout false) = .ok r ∧
      r.confidence = 21 := exists_result (by decide +kernel)
  obtain ⟨a₁, ha₁, hc₁⟩ : ∃ r,
      analyzeMultiTimeframe ((contestedInput 6 (some (-1 / 2))).withBlackout true) = .ok r ∧
      r.confidence = 28 := exists_result (by decide +kernel)
  obtain ⟨b₀, hb₀, hs, hd₀⟩ : ∃ r,
      analyzeMultiTimeframe ((contestedInput 8 none).withNews none) = .ok r ∧
      r.evidence.any (fun e => e.scores .bearish < e.scores .bullish) = true ∧
      r.confidence = 21 := exists_result (by decide +kernel)
  obtain ⟨b₁, hb₁, hd₁⟩ : ∃ r,
      analyzeMultiTimeframe ((contestedInput 8 none).withNews (some (-1 / 2))) = .ok r ∧
      r.confidence = 45 / 2 := exists_result (by decide +kernel)
  exact ⟨⟨a₀, a₁, ha₀, ha₁, hc₀, hc₁⟩, b₀, b₁, hb₀, hb₁, hs, by decide +kernel, hd₀, hd₁⟩

/-- The same blackout with positive news: the points that it takes are those of the stronger side. -/
theorem contested_blackout :
    ∃ r₀ r₁, analyzeMultiTimeframe ((contestedInput 6 (some (1 / 2))).withBlackout false) = .ok r₀ ∧
      analyzeMultiTimeframe ((contestedInput 6 (some (1 / 2))).withBlackout true) = .ok r₁ ∧
      r₀.confidence = 38 ∧ r₁.confidence = 33 ∧ ¬ BlackoutRaises (contestedInput 6 (some (1 / 2))) := by
  obtain ⟨r₀, h₀, hc₀⟩ : ∃ r,
      analyzeMultiTimeframe ((contestedInput 6 (some (1 / 2))).withBlackout false) = .ok r ∧
      r.confidence = 38 := exists_result (by decide +kernel)
  obtain ⟨r₁, h₁, hc₁⟩ : ∃ r,
      analyzeMultiTimeframe ((contestedInput 6 (some (1 / 2))).withBlackout true) = .ok r ∧
      r.confidence = 33 := exists_result (by decide +kernel)
  refine ⟨r₀, r₁, h₀, h₁, hc₀, hc₁, ?_⟩
  refine ((adverse_context_iff (contestedInput 6 (some (1 / 2)))).1 r₀ r₁ h₀ h₁).mp ?_
  rw [hc₀, hc₁]
  norm_num

end MarketKill3r
