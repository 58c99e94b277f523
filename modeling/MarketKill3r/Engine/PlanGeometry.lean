import MarketKill3r.Engine.Plan

/-!
# The geometry of a risk plan

A plan orders its levels along the direction of the trade: stop, invalidation, entry, take-profits.

* `PlanGeometry`: how the levels of a plan lie to each other.
* `planGeometry_zone`: so they do on a zone of positive height.
* `setup_geometry`: the plan of every SETUP with a zone has this geometry.
-/

namespace MarketKill3r

/-! ## The plan of a zone -/

/-- The levels of a plan in direction `d` on zone `z`: the zone has a width, the stop lies behind the
edge that invalidates it and the entry inside, the three take-profits are one risk apart in the
direction of the trade, and the first is on the profit side for a positive target. -/
structure PlanGeometry (d : Direction) (z : PlanZone) (stop target : ℚ) (takeProfits : List ℚ)
    (riskReward : ℚ) : Prop where
  width : z.low < z.high
  bullish_edge : d = .bullish → z.invalidation = z.low
  bearish_edge : d = .bearish → z.invalidation = z.high
  stop_behind : d.Behind stop z.invalidation
  invalidation_behind : d.Behind z.invalidation z.entry
  entry_inside : z.low < z.entry ∧ z.entry < z.high
  risk_pos : 0 < z.risk stop
  ladder : ∃ tp₁ tp₂ tp₃, takeProfits = [tp₁, tp₂, tp₃] ∧ tp₂ = d.along tp₁ (z.risk stop) ∧
    tp₃ = d.along tp₂ (z.risk stop) ∧ (d.Behind z.entry tp₁ ↔ 0 < target)
  riskReward_eq : riskReward = pyRound |target| 2

/-- The plan of a zone of positive height has this geometry. -/
theorem planGeometry_zone (d : Direction) {bottom top : ℚ} (h : bottom < top) (p target : ℚ) :
    ∃ stop rr, (riskPlan (d.zone bottom top) d p target).stop = some stop ∧
      (riskPlan (d.zone bottom top) d p target).riskReward = some rr ∧
      PlanGeometry d (d.zone bottom top) stop target
        (riskPlan (d.zone bottom top) d p target).takeProfits rr := by
  have hrisk := zone_risk_pos d h p
  rw [riskPlan_zone d h]
  refine ⟨_, _, rfl, rfl, ?_⟩
  constructor
  · exact h
  · rintro rfl
    rfl
  · rintro rfl
    rfl
  · exact stop_behind_zone h
  · exact invalidation_behind_entry h
  · constructor <;> simp only [Direction.zone, PlanZone.entry] <;> linarith
  · exact hrisk
  · refine ⟨_, _, _, rfl, rfl, rfl, ?_⟩
    rw [Direction.behind_along_iff]
    exact mul_pos_iff_of_pos_left hrisk
  · rfl

/-! ## SETUPs -/

/-- The zone of an analysis, if there is one, is that of a block or a gap of positive height. -/
theorem FullAnalysis.zone_height {inp : AnalysisInput} {bars : List Bar} {lastBar : Bar}
    {r : AnalysisResult} (hf : FullAnalysis inp bars lastBar r) (hinv : r.invalidation ≠ none) :
    ∃ bottom top, bottom < top ∧
      zoneOf (inp.evidenceOn inp.primaryTimeframe bars) (inp.decided bars lastBar).best =
        some ((inp.decided bars lastBar).best.zone bottom top) := by
  obtain ⟨o, -, ho, hz⟩ | ⟨g, -, hg, hz⟩ | ⟨-, hz⟩ := zoneOf_cases inp inp.primaryTimeframe bars
    (inp.decided bars lastBar).best
  · exact ⟨_, _, block_bottom_lt_top hf.ohlcValid (mem_activeObs.mp ho).1, hz⟩
  · exact ⟨_, _, gap_bottom_lt_top (mem_activeFvgs.mp hg).1, hz⟩
  · rw [hf.invalidation, hz] at hinv
    exact absurd rfl hinv

/-- **The geometry of every plan.** A SETUP with an invalidation has a complete plan on a zone, and
its levels are ordered along the trade. -/
theorem setup_geometry {inp : AnalysisInput} {r : AnalysisResult}
    (h : analyzeMultiTimeframe inp = .ok r) (hs : r.status = .setup) (hinv : r.invalidation ≠ none) :
    ∃ d z stop rr, r.direction = d.trade ∧ r.entryZone = some (z.low, z.high) ∧
      r.invalidation = some z.invalidation ∧ r.stopLoss = some stop ∧ r.riskReward = some rr ∧
      PlanGeometry d z stop inp.riskRewardTarget r.takeProfits rr := by
  obtain ⟨bars, lastBar, hf, hdir⟩ := setup_full h hs
  obtain ⟨bottom, top, hlt, hz⟩ := hf.zone_height hinv
  obtain ⟨stop, rr, hstop, hrr, hgeo⟩ :=
    planGeometry_zone (inp.decided bars lastBar).best hlt lastBar.close inp.riskRewardTarget
  have hplan := hf.plan
  rw [hz] at hplan
  simp only [if_pos hs] at hplan
  rw [← hplan] at hstop hrr hgeo
  refine ⟨_, _, stop, rr, hdir, ?_, ?_, hstop, hrr, hgeo⟩
  · rw [hf.entryZone, hz]
    rfl
  · rw [hf.invalidation, hz]
    rfl

theorem strong_geometry : ∃ r, analyzeMultiTimeframe strongInput = .ok r ∧ r.status = .setup ∧
    r.invalidation = some 10 ∧ ∃ d z stop rr, r.direction = d.trade ∧
      r.entryZone = some (z.low, z.high) ∧ r.invalidation = some z.invalidation ∧
      r.stopLoss = some stop ∧ r.riskReward = some rr ∧
      PlanGeometry d z stop strongInput.riskRewardTarget r.takeProfits rr := by
  obtain ⟨r, hr, hs, hinv⟩ : ∃ r, analyzeMultiTimeframe strongInput = .ok r ∧ r.status = .setup ∧
      r.invalidation = some 10 := exists_result (by decide +kernel)
  exact ⟨r, hr, hs, hinv, setup_geometry hr hs (by rw [hinv]; exact Option.some_ne_none _)⟩

end MarketKill3r
