import MarketKill3r.Engine.Smt

/-!
# What an SMT divergence compares

A divergence says that the correlated market did not go on from an earlier swing to a later one. The
two searches of `detect_smt_divergence` for these swings are independent of each other: the one for
the later primary swing ends at the last eligible swing, and so may the other one.

* `SmtComparison.first_eq_last_iff`: when both searches end at the same swing.
* `SmtComparison.Witness`: two swings that carry a divergence.
* `smt_sound_iff`: **every divergence is carried by two swings exactly when every comparison finds two
  eligible swings whose midpoint is not before the earlier primary swing, or none at all.**
-/

namespace MarketKill3r

namespace SmtComparison

/-- The correlated swing that is matched to the earlier primary swing. -/
def first (cmp : SmtComparison) (c : List SwingPoint) : Option SwingPoint :=
  nearestByTime (c.filter (·.kind = cmp.kind)) cmp.a.index cmp.b.index

/-- The correlated swing that is matched to the later primary swing. -/
def second (cmp : SmtComparison) (c : List SwingPoint) : Option SwingPoint :=
  nearestByTime (c.filter (·.kind = cmp.kind)) cmp.b.index cmp.b.index

/-- Two distinct correlated swings, the earlier one matched to the earlier primary swing, the later
one to the later primary swing, that fail to confirm the move of the primary. -/
structure Witness (cmp : SmtComparison) (c : List SwingPoint) (ca cb : SwingPoint) : Prop where
  mem : ca ∈ c ∧ cb ∈ c
  kind : ca.kind = cmp.kind ∧ cb.kind = cmp.kind
  first : cmp.first c = some ca
  second : cmp.second c = some cb
  earlier : ca.index < cb.index
  fails : cmp.kind.fails ca.price cb.price = true

/-- There is no eligible correlated swing, or two of them have their midpoint at or after the earlier
primary swing. -/
def Paired (cmp : SmtComparison) (c : List SwingPoint) : Prop :=
  cmp.eligible c = [] ∨ ∃ s ∈ cmp.eligible c, ∃ t ∈ cmp.eligible c,
    s.index < t.index ∧ 2 * cmp.a.index ≤ s.index + t.index

instance (cmp : SmtComparison) (c : List SwingPoint) : Decidable (cmp.Paired c) :=
  inferInstanceAs (Decidable (_ ∨ _))

section

variable {cmp : SmtComparison} {c : List SwingPoint}

theorem first_eq (cmp : SmtComparison) (c : List SwingPoint) : cmp.first c =
    (cmp.eligible c).argmin fun s => ((s.index : Int) - cmp.a.index).natAbs := rfl

theorem second_eq (cmp : SmtComparison) (c : List SwingPoint) : cmp.second c =
    (cmp.eligible c).argmin fun s => ((s.index : Int) - cmp.b.index).natAbs := rfl

theorem reports_iff_matched : cmp.reports (cmp.eligible c) = true ↔
    ∃ ca cb, cmp.first c = some ca ∧ cmp.second c = some cb ∧ cmp.kind.fails ca.price cb.price := by
  rw [reports, ← first_eq, ← second_eq]
  simp only [Option.any_eq_true]
  constructor
  · rintro ⟨ca, hca, cb, hcb, hf⟩
    exact ⟨ca, cb, hca, hcb, hf⟩
  · rintro ⟨ca, cb, hca, hcb, hf⟩
    exact ⟨ca, hca, cb, hcb, hf⟩

/-! ### The two searches -/

section Searches

variable {init : List SwingPoint} {last : SwingPoint}

/-- The eligible swings before the last one have smaller positions. -/
theorem index_lt_last (h : (init ++ [last]).Pairwise fun s t : SwingPoint => s.index < t.index) :
    ∀ s ∈ init, s.index < last.index := fun _ hs =>
  (List.pairwise_append.mp h).2.2 _ hs _ List.mem_cons_self

theorem last_notMem (h : (init ++ [last]).Pairwise fun s t : SwingPoint => s.index < t.index) :
    last ∉ init := fun hm => Nat.lt_irrefl _ (index_lt_last h last hm)

/-- The search for the later primary swing ends at the last eligible swing. -/
theorem second_eq_last (h : (init ++ [last]).Pairwise fun s t : SwingPoint => s.index < t.index)
    (he : cmp.eligible c = init ++ [last]) : cmp.second c = some last := by
  rw [second_eq, he, Scan.argmin_concat_eq_iff (last_notMem h)]
  intro s hs
  have hlt := index_lt_last h s hs
  have hle : last.index ≤ cmp.b.index := by
    have hmem : last ∈ cmp.eligible c := by rw [he]; simp
    exact (mem_swingsUpTo.mp hmem).2.2
  omega

/-- **The search for the earlier primary swing ends there too** exactly when no two eligible swings
have their midpoint at or after it. -/
theorem first_eq_last_iff (h : (init ++ [last]).Pairwise fun s t : SwingPoint => s.index < t.index)
    (he : cmp.eligible c = init ++ [last]) : cmp.first c = some last ↔ ¬ cmp.Paired c := by
  rw [first_eq, he, Scan.argmin_concat_eq_iff (last_notMem h), Paired, he]
  have hlast := index_lt_last h
  constructor
  · rintro hnear (hnil | ⟨s, hs, t, ht, hst, hmid⟩)
    · simp at hnil
    · -- The earlier of the two swings is not nearer than the last one, but as late as it may be.
      have hle : ∀ u ∈ init ++ [last], u.index ≤ last.index := by
        intro u hu
        rcases List.mem_append.mp hu with hu | hu
        · exact (hlast u hu).le
        · rw [List.mem_singleton.mp hu]
      have ht' := hle t ht
      have hs' : s ∈ init := by
        rcases List.mem_append.mp hs with hs | hs
        · exact hs
        · rw [List.mem_singleton.mp hs] at hst
          omega
      have := hnear s hs'
      omega
  · intro hno s hs
    have hlt := hlast s hs
    have hmid : ¬ 2 * cmp.a.index ≤ s.index + last.index := fun hmid =>
      hno (Or.inr ⟨s, by simp [hs], last, by simp, hlt, hmid⟩)
    omega

end Searches

/-- The eligible swings, with the last of them, in the order of their positions. -/
theorem eligible_cases (cmp : SmtComparison)
    (hc : c.Pairwise fun s t => s.kind = t.kind → s.index < t.index) :
    cmp.eligible c = [] ∨ ∃ init last, cmp.eligible c = init ++ [last] ∧
      (init ++ [last]).Pairwise fun s t : SwingPoint => s.index < t.index := by
  obtain hnil | ⟨init, last, he⟩ := List.eq_nil_or_concat' (cmp.eligible c)
  · exact Or.inl hnil
  · exact Or.inr ⟨init, last, he, he ▸ swingsUpTo_pairwise hc⟩

/-- The search for the earlier primary swing finds a swing of the kind. -/
theorem first_mem {ca : SwingPoint} (h : cmp.first c = some ca) : ca ∈ cmp.eligible c :=
  List.argmin_mem h

/-- A report on paired swings has a witness, a report on the others has none. -/
theorem witness_iff (hc : c.Pairwise fun s t => s.kind = t.kind → s.index < t.index)
    (hrep : cmp.reports (cmp.eligible c) = true) :
    (∃ ca cb, cmp.Witness c ca cb) ↔ cmp.Paired c := by
  obtain ⟨ca, cb, hca, hcb, hf⟩ := reports_iff_matched.mp hrep
  obtain hnil | ⟨init, last, he, hsorted⟩ := cmp.eligible_cases hc
  · have hmem := first_mem hca
    rw [hnil] at hmem
    cases hmem
  obtain rfl : cb = last := Option.some.inj (hcb.symm.trans (second_eq_last hsorted he))
  constructor
  · rintro ⟨ca', cb', hw⟩
    by_contra hno
    have hsame := (first_eq_last_iff hsorted he).mpr hno
    obtain rfl := Option.some.inj (hw.first.symm.trans hsame)
    obtain rfl := Option.some.inj (hw.second.symm.trans hcb)
    exact Nat.lt_irrefl _ hw.earlier
  · intro hp
    have hne : ca ≠ cb := by
      rintro rfl
      exact (first_eq_last_iff hsorted he).mp hca hp
    have hmem := first_mem hca
    rw [he] at hmem
    have hlt : ca.index < cb.index := by
      rcases List.mem_append.mp hmem with hm | hm
      · exact index_lt_last hsorted ca hm
      · exact absurd (List.mem_singleton.mp hm) hne
    obtain ⟨h1, h2, -⟩ := mem_swingsUpTo.mp (first_mem hca)
    have hcb' : cb ∈ cmp.eligible c := by rw [he]; simp
    obtain ⟨h3, h4, -⟩ := mem_swingsUpTo.mp hcb'
    exact ⟨ca, cb, ⟨h1, h3⟩, ⟨h2, h4⟩, hca, hcb, hlt, hf⟩

end

end SmtComparison

/-- Every divergence is that of a comparison of the primary's last swings, and two correlated swings
carry it. -/
def SmtSound (primaryBars correlatedBars : List Bar) (lookback : Int) (inverse : Bool) : Prop :=
  ∀ dv ∈ detectSmtDivergence primaryBars correlatedBars lookback inverse,
    ∃ cmp ∈ smtComparisons primaryBars lookback inverse, dv = cmp.divergence ∧
      ∃ ca cb, cmp.Witness (findSwingPoints correlatedBars lookback) ca cb

/-- The correlated market has fewer than two swings, or every comparison finds paired swings. -/
def SmtPaired (primaryBars correlatedBars : List Bar) (lookback : Int) (inverse : Bool) : Prop :=
  (findSwingPoints correlatedBars lookback).length < 2 ∨
    ∀ cmp ∈ smtComparisons primaryBars lookback inverse,
      cmp.Paired (findSwingPoints correlatedBars lookback)

instance (primaryBars correlatedBars : List Bar) (lookback : Int) (inverse : Bool) :
    Decidable (SmtPaired primaryBars correlatedBars lookback inverse) :=
  inferInstanceAs (Decidable (_ ∨ _))

section

variable {primaryBars correlatedBars : List Bar} {lookback : Int} {inverse : Bool}

/-- What a comparison reports, in swings: without a report there is nothing to carry, and a swing
that is compared with itself always fails to confirm. -/
theorem SmtComparison.outcome_witness_iff {cmp : SmtComparison}
    (h : cmp ∈ smtComparisons primaryBars lookback inverse) :
    (cmp.reports (cmp.eligible (findSwingPoints correlatedBars lookback)) = true →
      ∃ ca cb, cmp.Witness (findSwingPoints correlatedBars lookback) ca cb) ↔
      cmp.Paired (findSwingPoints correlatedBars lookback) := by
  obtain ⟨k, hk, rfl⟩ := smtComparisons_lookback h
  have hc := findSwingPoints_pairwise correlatedBars hk
  constructor
  · intro hw
    by_cases hp : cmp.Paired (findSwingPoints correlatedBars k)
    · exact hp
    obtain hnil | ⟨init, last, he, hsorted⟩ := cmp.eligible_cases hc
    · exact Or.inl hnil
    have hrep : cmp.reports (cmp.eligible (findSwingPoints correlatedBars k)) = true :=
      reports_iff_matched.mpr ⟨last, last, (first_eq_last_iff hsorted he).mpr hp,
        second_eq_last hsorted he, by cases cmp.kind <;> simp [SwingType.fails]⟩
    exact (witness_iff hc hrep).mp (hw hrep)
  · exact fun hp hrep => (witness_iff hc hrep).mpr hp

theorem SmtSound.paired (h : SmtSound primaryBars correlatedBars lookback inverse) :
    SmtPaired primaryBars correlatedBars lookback inverse := by
  by_cases hfew : (findSwingPoints correlatedBars lookback).length < 2
  · exact Or.inl hfew
  refine Or.inr fun cmp hcmp => (SmtComparison.outcome_witness_iff hcmp).mp fun hrep => ?_
  obtain ⟨cmp', hcmp', heq, hw⟩ :=
    h _ ((SmtComparison.divergence_mem hcmp correlatedBars).mpr ⟨Nat.not_lt.mp hfew, hrep⟩)
  obtain rfl := smtComparisons_direction hcmp hcmp' (congrArg SMTDivergence.direction heq)
  exact hw

theorem SmtPaired.sound (h : SmtPaired primaryBars correlatedBars lookback inverse) :
    SmtSound primaryBars correlatedBars lookback inverse := by
  intro dv hdv
  obtain ⟨hmany, cmp, hcmp, hrep, rfl⟩ := mem_detectSmtDivergence.mp hdv
  rcases h with hfew | h
  · omega
  · exact ⟨cmp, hcmp, rfl, (SmtComparison.outcome_witness_iff hcmp).mpr (h cmp hcmp) hrep⟩

end

/-- **When divergences compare two swings.** Every divergence has its two distinct correlated swings
exactly when the comparisons find paired swings. -/
theorem smt_sound_iff (primaryBars correlatedBars : List Bar) (lookback : Int) (inverse : Bool) :
    SmtSound primaryBars correlatedBars lookback inverse ↔
      SmtPaired primaryBars correlatedBars lookback inverse :=
  ⟨SmtSound.paired, SmtPaired.sound⟩

/-- An inverse market with a single swing high, and a swing low. -/
def loneDollar : List Bar :=
  hourlyBars 0 [(12, 10), (12, 10), (14, 10), (12, 10), (12, 10), (12, 8), (12, 10), (12, 10)]

/-- The single high is compared with itself: it did not make a higher high. -/
theorem smt_self_comparison :
    (detectSmtDivergence demoGold loneDollar 2 true).length = 1 ∧
      ((findSwingPoints loneDollar 2).filter (·.kind = .high)).length = 1 ∧
      (∃ cmp ∈ smtComparisons demoGold 2 true,
        cmp.first (findSwingPoints loneDollar 2) = cmp.second (findSwingPoints loneDollar 2)) ∧
      ¬ SmtSound demoGold loneDollar 2 true :=
  ⟨by decide +kernel, by decide +kernel, by decide +kernel,
    fun h => absurd h.paired (by decide +kernel)⟩

end MarketKill3r
