import MarketKill3r.Engine.Adverse

/-!
# What a SETUP rests on

A SETUP asks for a structure break on the favoured side, for three technical factors and for the
trend votes of half the timeframes, rounded up.

* `setup_bias_iff`: half of an even number of votes is no majority; on a tie the published bias is
  bullish, also for a bearish SETUP.
* `setup_two_categories_iff`: two of the eight technical factors are the same for both sides, so that
  a structure break alone can reach three.
-/

namespace MarketKill3r

open Rounding

/-! ## The votes -/

/-- The bias that a direction stands for. -/
def Direction.bias : Direction → MarketBias
  | .bullish => .bullish
  | .bearish => .bearish

theorem trendVotes_le (es : List TimeframeEvidence) :
    trendVotes es .bullish + trendVotes es .bearish ≤ es.length := by
  unfold trendVotes
  induction es with
  | nil => simp
  | cons e es ih =>
    simp only [List.filter_cons, decide_eq_true_eq, List.length_cons]
    by_cases h1 : e.trend = some .bullish
    · simp [h1]
      omega
    · by_cases h2 : e.trend = some .bearish
      · simp [h2]
        omega
      · simp [h1, h2]
        omega

/-- The bias of the votes is the direction that has enough of them, unless they are tied. -/
theorem htfBias_eq_iff {votes : Direction → Nat} {n : Nat} {d : Direction}
    (hle : votes .bullish + votes .bearish ≤ n) (hd : max 1 ((n + 1) / 2) ≤ votes d) :
    htfBias votes = d.bias ↔ ¬ (votes .bullish = votes .bearish ∧ d = .bearish) := by
  unfold htfBias
  cases d with
  | bullish =>
    rw [if_neg (by omega), if_pos (by omega)]
    simp [Direction.bias]
  | bearish =>
    rw [if_neg (by omega)]
    simp only [Direction.bias, and_true]
    split
    · exact iff_of_false (by simp) (by omega)
    · exact iff_of_true rfl (by omega)

/-- The trend of a timeframe is the direction of its last structure event. -/
theorem evidence_trend {inp : AnalysisInput} {e : TimeframeEvidence}
    (he : e ∈ inp.evidences.map (·.2)) : e.trend = e.structureEvents.getLast?.map (·.direction) := by
  simp only [AnalysisInput.evidences, List.map_map, List.mem_map] at he
  obtain ⟨⟨tf, bars⟩, -, rfl⟩ := he
  exact detectStructureEvents_trend bars inp.lookback

/-- A SETUP has the votes: a single timeframe trends in the direction of its structure break. -/
theorem setup_votes {inp : AnalysisInput} {bars : List Bar} {lastBar : Bar}
    (hs : (inp.decided bars lastBar).status = .setup) :
    max 1 ((inp.evidences.length + 1) / 2) ≤
      trendVotes (inp.evidences.map (·.2)) (inp.decided bars lastBar).best := by
  obtain ⟨hstruct, -, hcross, -⟩ := decision_setup_iff.mp hs
  simp only [crossTfOk, Bool.or_eq_true, decide_eq_true_eq] at hcross
  rcases hcross with hone | hcross
  · rw [AnalysisInput.factors, factorHit, List.any_eq_true] at hstruct
    obtain ⟨e, he, hlast⟩ := hstruct
    rw [Option.any_eq_true] at hlast
    obtain ⟨x, hx, hd⟩ := hlast
    have htrend : e.trend = some (inp.decided bars lastBar).best := by
      rw [evidence_trend he, hx]
      exact congrArg some (of_decide_eq_true hd)
    have hvote : 0 < trendVotes (inp.evidences.map (·.2)) (inp.decided bars lastBar).best :=
      List.length_pos_of_mem (List.mem_filter.mpr ⟨he, decide_eq_true htrend⟩)
    omega
  · exact hcross

/-- The trend votes are tied, and the evidence favours the bearish side. -/
def BearishTie (inp : AnalysisInput) : Prop :=
  trendVotes (inp.evidences.map (·.2)) .bullish = trendVotes (inp.evidences.map (·.2)) .bearish ∧
    ∃ bars lastBar, PrimaryAt inp bars lastBar ∧ favoured (inp.factors bars lastBar) = .bearish

/-- **When the published bias is the direction of the trade**: unless half of the timeframes trend
one way, half the other way, and the trade is bearish. -/
theorem setup_bias_iff {inp : AnalysisInput} {r : AnalysisResult}
    (h : analyzeMultiTimeframe inp = .ok r) (hs : r.status = .setup) :
    (∃ d : Direction, r.direction = d.trade ∧ r.marketBias = d.bias) ↔ ¬ BearishTie inp := by
  obtain ⟨-, _, rfl⟩ | ⟨bars, lastBar, js, rs, hp, rfl⟩ := analyze_result h
  · cases hs
  have hvotes := setup_votes hs
  have hle := trendVotes_le (inp.evidences.map (·.2))
  rw [List.length_map] at hle
  have htie : BearishTie inp ↔
      trendVotes (inp.evidences.map (·.2)) .bullish = trendVotes (inp.evidences.map (·.2)) .bearish ∧
        (inp.decided bars lastBar).best = .bearish := by
    refine and_congr_right fun _ => ⟨?_, fun hb => ⟨bars, lastBar, hp, hb⟩⟩
    rintro ⟨bars', lastBar', hp', hb⟩
    obtain ⟨rfl, rfl⟩ := hp.unique hp'
    exact hb
  rw [htie, ← htfBias_eq_iff hle hvotes, AnalysisInput.result_direction hs]
  constructor
  · rintro ⟨d, hd, hb⟩
    have hbest : (inp.decided bars lastBar).best = d := Direction.trade_injective hd
    rw [hbest]
    exact hb
  · exact fun hb => ⟨_, rfl, hb⟩

/-- A bearish series on M15, a bullish break on H1. -/
def splitInput : AnalysisInput :=
  { goldInput ⟨[("M15", [minuteBar 0 100 101 98 100, minuteBar 1 102 105 100 104,
        minuteBar 2 102 102 102 102, minuteBar 3 100 106 100 104, minuteBar 4 106 107 104 105,
        minuteBar 5 103 103 96 97, minuteBar 6 95 98 95 97]),
      ("H1", [minuteBar 0 10 11 9 10, minuteBar 1 10 14 10 13, minuteBar 2 13 13 11 12,
        minuteBar 3 12 16 12 15, minuteBar 4 15 15 14 15])], by decide⟩ none with lookback := 1 }

/-- A bearish SETUP with a bullish bias, at the default threshold. -/
theorem split_bias :
    ValidInput splitInput ∧ ∃ r, analyzeMultiTimeframe splitInput = .ok r ∧ r.status = .setup ∧
      r.direction = .bearish ∧ r.marketBias = .bullish :=
  ⟨⟨by decide, by decide +kernel⟩, exists_result (by decide +kernel)⟩

theorem strong_bias : ∃ r, analyzeMultiTimeframe strongInput = .ok r ∧ r.status = .setup ∧
    (∃ d : Direction, r.direction = d.trade ∧ r.marketBias = d.bias) ∧ ¬ BearishTie strongInput := by
  obtain ⟨r, hr, hs, hd, hb⟩ : ∃ r, analyzeMultiTimeframe strongInput = .ok r ∧ r.status = .setup ∧
      r.direction = .bullish ∧ r.marketBias = .bullish := exists_result (by decide +kernel)
  have hbias : ∃ d : Direction, r.direction = d.trade ∧ r.marketBias = d.bias := ⟨.bullish, hd, hb⟩
  exact ⟨r, hr, hs, hbias, (setup_bias_iff hr hs).mp hbias⟩

/-! ## The categories -/

/-- The technical factors that look at the direction. The other two, displacement and session, are
the same for both sides. -/
def directionalKeys : List Factor :=
  [.marketStructure, .orderBlock, .fvg, .liquidity, .premiumDiscount, .smt]

/-- The side has a structure break, displacement and the session, and no other technical factor. -/
structure LoneBreak (factors : Direction → Factor → Bool) (d : Direction) : Prop where
  marketStructure : factors d .marketStructure = true
  displacement : factors d .displacement = true
  session : factors d .session = true
  alone : ∀ k ∈ directionalKeys, k ≠ .marketStructure → factors d k = false

section Lone

variable {factors : Direction → Factor → Bool} {d : Direction}

/-- Three technical factors, one of them the structure break, that are not two directional ones. -/
theorem loneBreak_iff (hstruct : factors d .marketStructure = true) :
    LoneBreak factors d ↔ 3 ≤ (technicalHits factors d).length ∧
      ¬ 2 ≤ (directionalKeys.filter (factors d)).length := by
  constructor
  · intro h
    have hoff : factors d .orderBlock = false ∧ factors d .fvg = false ∧
        factors d .liquidity = false ∧ factors d .premiumDiscount = false ∧ factors d .smt = false := by
      refine ⟨?_, ?_, ?_, ?_, ?_⟩ <;> exact h.alone _ (by decide) (by decide)
    obtain ⟨h1, h2, h3, h4, h5⟩ := hoff
    simp [technicalHits, technicalKeys, directionalKeys, hstruct, h.displacement, h.session, h1, h2,
      h3, h4, h5]
  · rintro ⟨hthree, htwo⟩
    have hoff : ∀ k ∈ directionalKeys, k ≠ .marketStructure → factors d k = false := by
      intro k hk hne
      by_contra hhit
      have hsub : [Factor.marketStructure, k].Subperm (directionalKeys.filter (factors d)) := by
        refine List.subperm_of_subset (by simp [Ne.symm hne]) fun x hx => ?_
        rcases List.mem_pair.mp hx with rfl | rfl
        · exact List.mem_filter.mpr ⟨by decide, hstruct⟩
        · exact List.mem_filter.mpr ⟨hk, by simpa using hhit⟩
      exact htwo hsub.length_le
    have h1 := hoff .orderBlock (by decide) (by decide)
    have h2 := hoff .fvg (by decide) (by decide)
    have h3 := hoff .liquidity (by decide) (by decide)
    have h4 := hoff .premiumDiscount (by decide) (by decide)
    have h5 := hoff .smt (by decide) (by decide)
    cases hd : factors d .displacement <;> cases hs : factors d .session <;>
      simp [technicalHits, technicalKeys, hstruct, h1, h2, h3, h4, h5, hd, hs] at hthree
    exact ⟨hstruct, hd, hs, hoff⟩

end Lone

/-- The points of the news for a side, without an event risk. -/
def AnalysisInput.contextPoints (inp : AnalysisInput) (d : Direction) : Nat :=
  inp.newsSentiment.elim 0 fun s => newsPoints s false d

/-- A SETUP on a lone break: 41 points and those of the news, without conflict, at or above the
threshold, with the votes and without a blackout. -/
def LoneBreakSetup (inp : AnalysisInput) : Prop :=
  ∃ bars lastBar d, PrimaryAt inp bars lastBar ∧ LoneBreak (inp.factors bars lastBar) d ∧
    crossTfOk inp.evidences.length (trendVotes (inp.evidences.map (·.2)) d) = true ∧
    inp.technicalWeight bars lastBar d.opposite + inp.contextPoints d.opposite <
      31 + inp.contextPoints d ∧
    inp.minConfidence ≤ 41 + inp.contextPoints d ∧ inp.calendarBlackout = false

theorem confidenceOf_nat {score : Nat} (h : score ≤ 100) : confidenceOf score false = score := by
  have hq : (score : ℚ) ≤ 100 := by exact_mod_cast h
  have hten : (score : ℚ) * 10 ^ 1 = ((score * 10 : Int) : ℚ) := by push_cast; ring
  rw [confidenceOf, if_neg (by simp), mul_one, min_eq_right hq, pyRound, hten, roundHalfEven_intCast]
  push_cast
  ring

/-- The technical weight of a lone break. -/
theorem LoneBreak.weight {inp : AnalysisInput} {bars : List Bar} {lastBar : Bar} {d : Direction}
    (h : LoneBreak (inp.factors bars lastBar) d) : inp.technicalWeight bars lastBar d = 41 := by
  have hoff : ∀ k ∈ directionalKeys, k ≠ .marketStructure →
      inp.factors bars lastBar d k = false := h.alone
  simp [AnalysisInput.technicalWeight, technicalKeys, h.marketStructure, h.displacement, h.session,
    hoff .orderBlock (by decide) (by decide), hoff .fvg (by decide) (by decide),
    hoff .liquidity (by decide) (by decide), hoff .premiumDiscount (by decide) (by decide),
    hoff .smt (by decide) (by decide), Factor.weight]

section LoneSetup

variable {inp : AnalysisInput} {bars : List Bar} {lastBar : Bar}

theorem rawScore_calm (hcalm : inp.calendarBlackout = false) (d : Direction) :
    rawScore (inp.factors bars lastBar) d =
      inp.technicalWeight bars lastBar d + inp.contextPoints d := by
  rw [rawScore_factors, hcalm]
  rfl

theorem favoured_of_lt {factors : Direction → Factor → Bool} {d : Direction}
    (h : rawScore factors d.opposite < rawScore factors d) : favoured factors = d := by
  unfold favoured
  cases d with
  | bullish => exact if_pos h
  | bearish => exact if_neg (not_lt.mpr h.le)

theorem LoneBreak.score {d : Direction} (h : LoneBreak (inp.factors bars lastBar) d)
    (hcalm : inp.calendarBlackout = false) :
    rawScore (inp.factors bars lastBar) d = 41 + inp.contextPoints d := by
  rw [rawScore_calm hcalm, h.weight]

/-- A lone break on the favoured side is in conflict from ten points below its own on. -/
theorem lone_conflict_iff (hlone : LoneBreak (inp.factors bars lastBar) (inp.decided bars lastBar).best)
    (hcalm : inp.calendarBlackout = false) : (inp.decided bars lastBar).conflicted = false ↔
      inp.technicalWeight bars lastBar (inp.decided bars lastBar).best.opposite +
          inp.contextPoints (inp.decided bars lastBar).best.opposite <
        31 + inp.contextPoints (inp.decided bars lastBar).best := by
  have hconflict : (inp.decided bars lastBar).conflicted =
      materiallyConflicted (rawScore (inp.factors bars lastBar) (inp.decided bars lastBar).best)
        (rawScore (inp.factors bars lastBar) (inp.decided bars lastBar).best.opposite) := rfl
  rw [hconflict, hlone.score hcalm, rawScore_calm hcalm]
  simp only [materiallyConflicted, decide_eq_false_iff_not, not_le]
  omega

/-- Without a conflict its points are the confidence. -/
theorem lone_confidence (hlone : LoneBreak (inp.factors bars lastBar) (inp.decided bars lastBar).best)
    (hcalm : inp.calendarBlackout = false) (hfree : (inp.decided bars lastBar).conflicted = false) :
    (inp.decided bars lastBar).confidence =
      41 + inp.contextPoints (inp.decided bars lastBar).best := by
  have hconf : (inp.decided bars lastBar).confidence =
      confidenceOf (rawScore (inp.factors bars lastBar) (inp.decided bars lastBar).best)
        (inp.decided bars lastBar).conflicted := rfl
  rw [hconf, hfree, confidenceOf_nat (rawScore_le _ _), hlone.score hcalm]
  push_cast
  rfl

/-- When the decision is a SETUP on a lone break. -/
theorem lone_setup_iff :
    ((inp.decided bars lastBar).status = .setup ∧
        LoneBreak (inp.factors bars lastBar) (inp.decided bars lastBar).best) ↔
      ∃ d, LoneBreak (inp.factors bars lastBar) d ∧
        crossTfOk inp.evidences.length (trendVotes (inp.evidences.map (·.2)) d) = true ∧
        inp.technicalWeight bars lastBar d.opposite + inp.contextPoints d.opposite <
          31 + inp.contextPoints d ∧
        inp.minConfidence ≤ 41 + inp.contextPoints d ∧ inp.calendarBlackout = false := by
  constructor
  · rintro ⟨hs, hlone⟩
    obtain ⟨-, -, hcross, hfree, hmin, hcalm⟩ := decision_setup_iff.mp hs
    refine ⟨_, hlone, hcross, (lone_conflict_iff hlone hcalm).mp hfree, ?_, hcalm⟩
    rw [← lone_confidence hlone hcalm hfree]
    exact hmin
  · rintro ⟨d, hlone, hcross, hlt, hmin, hcalm⟩
    -- The points of the break outweigh those of the other side, so that its side is favoured.
    obtain rfl : (inp.decided bars lastBar).best = d := by
      refine favoured_of_lt ?_
      rw [rawScore_calm hcalm, hlone.score hcalm]
      omega
    have hfree := (lone_conflict_iff hlone hcalm).mpr hlt
    obtain ⟨hthree, -⟩ := (loneBreak_iff hlone.marketStructure).mp hlone
    refine ⟨decision_setup_iff.mpr
      ⟨hlone.marketStructure, hthree, hcross, hfree, ?_, hcalm⟩, hlone⟩
    rw [← lone_confidence hlone hcalm hfree] at hmin
    exact hmin

end LoneSetup

/-- **When a SETUP rests on two directional categories.** It does, unless the favoured side has a
structure break alone while displacement and the session, which count for both sides, make up the
three technical factors. -/
theorem setup_two_categories_iff {inp : AnalysisInput} {r : AnalysisResult}
    (h : analyzeMultiTimeframe inp = .ok r) :
    (r.status = .setup → ∃ (d : Direction) (e : Evidence), r.direction = d.trade ∧
        r.evidence = some e ∧ 2 ≤ (directionalKeys.filter (e.factors d)).length) ↔
      ¬ LoneBreakSetup inp := by
  obtain ⟨hno, _, rfl⟩ | ⟨bars, lastBar, js, rs, hp, rfl⟩ := analyze_result h
  · refine iff_of_true (fun hs => by cases hs) ?_
    rintro ⟨bars, lastBar, _, hp, -⟩
    exact hno bars lastBar hp
  have hlone : LoneBreakSetup inp ↔ (inp.decided bars lastBar).status = .setup ∧
      LoneBreak (inp.factors bars lastBar) (inp.decided bars lastBar).best := by
    rw [lone_setup_iff]
    constructor
    · rintro ⟨bars', lastBar', d, hp', hrest⟩
      obtain ⟨rfl, rfl⟩ := hp.unique hp'
      exact ⟨d, hrest⟩
    · rintro ⟨d, hrest⟩
      exact ⟨bars, lastBar, d, hp, hrest⟩
  rw [hlone, not_and]
  have hst : (inp.result bars lastBar js rs).status = (inp.decided bars lastBar).status := rfl
  refine forall_congr' fun hs => ?_
  obtain ⟨hstruct, hthree, -⟩ := decision_setup_iff.mp (hst ▸ hs)
  have hbest : LoneBreak (inp.factors bars lastBar) (inp.decided bars lastBar).best ↔ _ :=
    loneBreak_iff hstruct
  rw [AnalysisInput.result_direction hs, hbest, not_and, not_not]
  constructor
  · rintro ⟨d, e, hd, he, htwo⟩ -
    obtain rfl : (inp.decided bars lastBar).best = d := Direction.trade_injective hd
    obtain rfl := Option.some.inj he
    exact htwo
  · exact fun htwo => ⟨_, _, rfl, rfl, htwo hthree⟩

/-- Six candles of the morning, the last of which breaks the structure upwards in a large step, and
leaves no block, gap or sweep for the bullish side. -/
def loneBreakInput (minConfidence : ℚ) : AnalysisInput :=
  { goldInput ⟨[("M15", [minuteBar 540 100 106 99 105, minuteBar 541 107 107 106 107,
        minuteBar 542 109 110 106 110, minuteBar 543 108 109 102 102, minuteBar 544 104 108 103 108,
        minuteBar 545 110 117 109 116])], List.nodup_singleton _⟩ none with
    lookback := 1, minConfidence := minConfidence }

/-- A SETUP on the structure break alone. -/
theorem lone_break_setup :
    ValidInput (loneBreakInput 40) ∧ ∃ r, analyzeMultiTimeframe (loneBreakInput 40) = .ok r ∧
      r.status = .setup ∧ r.direction = .bullish ∧ r.confidence = 41 ∧
      r.evidence.any (fun e => directionalKeys.filter (e.factors .bullish) = [.marketStructure]) =
        true :=
  ⟨⟨by decide, by decide +kernel⟩, exists_result (by decide +kernel)⟩

theorem strong_categories : ∃ r, analyzeMultiTimeframe strongInput = .ok r ∧ r.status = .setup ∧
    (∃ (d : Direction) (e : Evidence), r.direction = d.trade ∧ r.evidence = some e ∧
      2 ≤ (directionalKeys.filter (e.factors d)).length) ∧ ¬ LoneBreakSetup strongInput := by
  obtain ⟨r, hr, hs, hd, hany⟩ : ∃ r, analyzeMultiTimeframe strongInput = .ok r ∧
      r.status = .setup ∧ r.direction = .bullish ∧
      r.evidence.any (fun e => 2 ≤ (directionalKeys.filter (e.factors .bullish)).length) = true :=
    exists_result (by decide +kernel)
  rw [Option.any_eq_true] at hany
  obtain ⟨e, he, htwo⟩ := hany
  have htwo : ∃ (d : Direction) (e : Evidence), r.direction = d.trade ∧ r.evidence = some e ∧
      2 ≤ (directionalKeys.filter (e.factors d)).length := ⟨.bullish, e, hd, he, of_decide_eq_true htwo⟩
  exact ⟨r, hr, hs, htwo, (setup_two_categories_iff hr).mp fun _ => htwo⟩

end MarketKill3r
