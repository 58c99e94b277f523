import Mathlib.Data.List.ReduceOption
import MarketKill3r.Engine.Pending
import MarketKill3r.Engine.Pipeline

/-!
# SMT and time

`detect_smt_divergence` matches the swings of two markets by their positions in the two lists. The
docstring of the source promises more: swings nearest in time, and no bar from the future of the
primary swing.

* `smtComparisons`: what the primary's last swings ask the correlated market;
  `detectSmtDivergence_eq`: the detector answers these questions one by one.
* `SmtCausal`: the promise, about every correlated list that agrees up to the last primary bar.
* `SmtSecure`: a condition on the two lists up to that bar.
* `smt_causal_iff`: **the promise is kept exactly under the condition.**
-/

namespace MarketKill3r

/-! ## The comparisons -/

/-- The correlated market fails to go on: `cb.price <= ca.price` for highs, `>=` for lows. -/
def SwingType.fails : SwingType → ℚ → ℚ → Bool
  | .high, ca, cb => cb ≤ ca
  | .low, ca, cb => ca ≤ cb

theorem SwingType.fails_high : SwingType.high.fails = fun ca cb => decide (cb ≤ ca) := rfl

theorem SwingType.fails_low : SwingType.low.fails = fun ca cb => decide (ca ≤ cb) := rfl

/-- A comparison of `detect_smt_divergence`: the last two swings of the primary, the kind of the
correlated swings that are matched to them, and what is reported when these fail to confirm. -/
structure SmtComparison where
  a : SwingPoint
  b : SwingPoint
  kind : SwingType
  direction : Direction
  detail : String

/-- The question after a lower low. -/
def lowerLow (p : List SwingPoint) (inverseCorrelation : Bool) : Option SmtComparison :=
  (lastTwo (p.filter (·.kind = .low))).bind fun (a, b) =>
    if b.price < a.price then
      if inverseCorrelation then
        some ⟨a, b, .high, .bullish,
          "Primary made a lower low while the inverse instrument failed to make a higher high."⟩
      else
        some ⟨a, b, .low, .bullish,
          "Primary made a lower low while the correlated instrument failed to confirm with " ++
            "a lower low."⟩
    else none

/-- The question after a higher high. -/
def higherHigh (p : List SwingPoint) (inverseCorrelation : Bool) : Option SmtComparison :=
  (lastTwo (p.filter (·.kind = .high))).bind fun (a, b) =>
    if a.price < b.price then
      if inverseCorrelation then
        some ⟨a, b, .low, .bearish,
          "Primary made a higher high while the inverse instrument failed to make a lower low."⟩
      else
        some ⟨a, b, .high, .bearish,
          "Primary made a higher high while the correlated instrument failed to confirm with " ++
            "a higher high."⟩
    else none

/-- The comparisons that the last swings of the primary ask for. -/
def smtComparisons (primaryBars : List Bar) (lookback : Int) (inverseCorrelation : Bool) :
    List SmtComparison :=
  let p := findSwingPoints primaryBars lookback
  (lowerLow p inverseCorrelation).toList ++ (higherHigh p inverseCorrelation).toList

namespace SmtComparison

/-- The swings that `nearest_by_time` finds for `a` and for `b` among the correlated swings. -/
def matched (cmp : SmtComparison) (c : List SwingPoint) : List SwingPoint :=
  [nearestByTime (c.filter (·.kind = cmp.kind)) cmp.a.index cmp.b.index,
    nearestByTime (c.filter (·.kind = cmp.kind)) cmp.b.index cmp.b.index].reduceOption

/-- The correlated swings matched among the eligible ones exist and fail to confirm. -/
def reports (cmp : SmtComparison) (eligible : List SwingPoint) : Bool :=
  (eligible.argmin fun s => ((s.index : Int) - cmp.a.index).natAbs).any fun ca =>
    (eligible.argmin fun s => ((s.index : Int) - cmp.b.index).natAbs).any fun cb =>
      cmp.kind.fails ca.price cb.price

/-- The swings of `c` that the comparison may use. -/
def eligible (cmp : SmtComparison) (c : List SwingPoint) : List SwingPoint :=
  swingsUpTo cmp.kind cmp.b.index c

/-- The divergence that it reports. -/
def divergence (cmp : SmtComparison) : SMTDivergence :=
  ⟨cmp.b.index, cmp.b.time, cmp.direction, cmp.detail⟩

/-- The entries that it contributes to the result. -/
def outcome (cmp : SmtComparison) (c : List SwingPoint) : List SMTDivergence :=
  if cmp.reports (cmp.eligible c) then [cmp.divergence] else []

theorem outcome_eq (cmp : SmtComparison) (c : List SwingPoint) :
    cmp.outcome c = smtCompare cmp.a cmp.b (c.filter (·.kind = cmp.kind)) cmp.direction
      cmp.kind.fails cmp.detail := by
  have hreports : cmp.reports (cmp.eligible c) =
      (nearestByTime (c.filter (·.kind = cmp.kind)) cmp.a.index cmp.b.index).any fun ca =>
        (nearestByTime (c.filter (·.kind = cmp.kind)) cmp.b.index cmp.b.index).any fun cb =>
          cmp.kind.fails ca.price cb.price := rfl
  rw [outcome, hreports, smtCompare]
  cases nearestByTime (c.filter (·.kind = cmp.kind)) cmp.a.index cmp.b.index with
  | none => rfl
  | some ca =>
    cases nearestByTime (c.filter (·.kind = cmp.kind)) cmp.b.index cmp.b.index with
    | none => rfl
    | some cb => rfl

theorem mem_matched {cmp : SmtComparison} {c : List SwingPoint} {s : SwingPoint}
    (hs : s ∈ cmp.matched c) : s ∈ cmp.eligible c := by
  rw [matched, List.reduceOption_mem_iff] at hs
  simp only [List.mem_cons, List.not_mem_nil, or_false] at hs
  rcases hs with h | h
  · exact List.argmin_mem h.symm
  · exact List.argmin_mem h.symm

end SmtComparison

theorem lastTwo_spec {swings : List SwingPoint} {a b : SwingPoint} (h : lastTwo swings = some (a, b)) :
    a ∈ swings ∧ b ∈ swings ∧ 2 ≤ swings.length := by
  unfold lastTwo at h
  split at h
  · rename_i b' a' rest heq
    obtain ⟨rfl, rfl⟩ : a' = a ∧ b' = b := by simpa using h
    have hmem : ∀ s, s ∈ swings ↔ s ∈ b' :: a' :: rest := fun s => by rw [← heq, List.mem_reverse]
    refine ⟨(hmem _).mpr (by simp), (hmem _).mpr (by simp), ?_⟩
    rw [← List.length_reverse, heq]
    simp
  · cases h

/-- A comparison is between the last two of the primary's swings of a kind. -/
theorem lastTwo_bind_spec {p : List SwingPoint} {q : SwingPoint → Bool}
    {ask : SwingPoint × SwingPoint → Option SmtComparison} {d : Direction}
    (hask : ∀ a b cmp, ask (a, b) = some cmp → cmp.b = b ∧ cmp.direction = d) {cmp : SmtComparison}
    (h : (lastTwo (p.filter q)).bind ask = some cmp) :
    cmp.b ∈ p ∧ 2 ≤ p.length ∧ cmp.direction = d := by
  obtain ⟨⟨a, b⟩, hlast, h⟩ := Option.bind_eq_some_iff.mp h
  obtain ⟨-, hb, hlen⟩ := lastTwo_spec hlast
  obtain ⟨rfl, hd⟩ := hask a b cmp h
  exact ⟨List.mem_of_mem_filter hb, Nat.le_trans hlen (List.length_filter_le _ _), hd⟩

theorem lowerLow_spec {p : List SwingPoint} {inverse : Bool} {cmp : SmtComparison}
    (h : lowerLow p inverse = some cmp) :
    cmp.b ∈ p ∧ 2 ≤ p.length ∧ cmp.direction = .bullish := by
  refine lastTwo_bind_spec (fun a b cmp h => ?_) h
  simp only at h
  split at h
  · split at h <;> obtain rfl := Option.some.inj h <;> exact ⟨rfl, rfl⟩
  · cases h

theorem higherHigh_spec {p : List SwingPoint} {inverse : Bool} {cmp : SmtComparison}
    (h : higherHigh p inverse = some cmp) :
    cmp.b ∈ p ∧ 2 ≤ p.length ∧ cmp.direction = .bearish := by
  refine lastTwo_bind_spec (fun a b cmp h => ?_) h
  simp only at h
  split at h
  · split at h <;> obtain rfl := Option.some.inj h <;> exact ⟨rfl, rfl⟩
  · cases h

theorem mem_smtComparisons {primaryBars : List Bar} {lookback : Int} {inverse : Bool}
    {cmp : SmtComparison} : cmp ∈ smtComparisons primaryBars lookback inverse ↔
      lowerLow (findSwingPoints primaryBars lookback) inverse = some cmp ∨
      higherHigh (findSwingPoints primaryBars lookback) inverse = some cmp := by
  simp only [smtComparisons, List.mem_append, Option.mem_toList]

section Comparisons

variable {primaryBars : List Bar} {lookback : Int} {inverse : Bool} {cmp cmp' : SmtComparison}

theorem smtComparisons_spec (h : cmp ∈ smtComparisons primaryBars lookback inverse) :
    cmp.b ∈ findSwingPoints primaryBars lookback ∧
      2 ≤ (findSwingPoints primaryBars lookback).length := by
  rcases mem_smtComparisons.mp h with h | h
  · exact ⟨(lowerLow_spec h).1, (lowerLow_spec h).2.1⟩
  · exact ⟨(higherHigh_spec h).1, (higherHigh_spec h).2.1⟩

/-- There is at most one comparison for each direction. -/
theorem smtComparisons_direction (h : cmp ∈ smtComparisons primaryBars lookback inverse)
    (h' : cmp' ∈ smtComparisons primaryBars lookback inverse)
    (heq : cmp.direction = cmp'.direction) : cmp = cmp' := by
  rcases mem_smtComparisons.mp h with h | h <;> rcases mem_smtComparisons.mp h' with h' | h'
  · exact Option.some.inj (h.symm.trans h')
  · rw [(lowerLow_spec h).2.2, (higherHigh_spec h').2.2] at heq
    cases heq
  · rw [(higherHigh_spec h).2.2, (lowerLow_spec h').2.2] at heq
    cases heq
  · exact Option.some.inj (h.symm.trans h')

end Comparisons

/-- **The detector asks its comparisons one by one**, once both markets have two swings. -/
theorem detectSmtDivergence_eq (primaryBars correlatedBars : List Bar) (lookback : Int)
    (inverse : Bool) :
    detectSmtDivergence primaryBars correlatedBars lookback inverse =
      if (findSwingPoints correlatedBars lookback).length < 2 then [] else
        (smtComparisons primaryBars lookback inverse).flatMap
          (·.outcome (findSwingPoints correlatedBars lookback)) := by
  by_cases hc : (findSwingPoints correlatedBars lookback).length < 2
  · rw [if_pos hc, detectSmtDivergence, if_pos (Or.inr hc)]
  rw [if_neg hc]
  by_cases hp : (findSwingPoints primaryBars lookback).length < 2
  · have hnil : smtComparisons primaryBars lookback inverse = [] :=
      List.eq_nil_iff_forall_not_mem.mpr fun cmp h => by
        have := (smtComparisons_spec h).2
        omega
    rw [hnil, detectSmtDivergence, if_pos (Or.inl hp)]
    rfl
  · unfold detectSmtDivergence smtComparisons lowerLow higherHigh
    simp only [hp, hc, or_self, ↓reduceIte, List.flatMap_append]
    congr 1
    · cases lastTwo ((findSwingPoints primaryBars lookback).filter (·.kind = .low)) with
      | none => rfl
      | some ab =>
        simp only [Option.bind_some]
        split
        · cases inverse <;> simp [SmtComparison.outcome_eq, SwingType.fails_high, SwingType.fails_low]
        · rfl
    · cases lastTwo ((findSwingPoints primaryBars lookback).filter (·.kind = .high)) with
      | none => rfl
      | some ab =>
        simp only [Option.bind_some]
        split
        · cases inverse <;> simp [SmtComparison.outcome_eq, SwingType.fails_high, SwingType.fails_low]
        · rfl

/-! ## Time -/

/-- The correlated bars no later than the last primary bar. -/
def barsUpTo (primaryBars correlatedBars : List Bar) : List Bar :=
  correlatedBars.filter fun c => primaryBars.getLast?.any fun p => c.time.utc ≤ p.time.utc

/-- **SMT never looks ahead.** On every correlated list that has the same bars up to the last
primary bar: a swing matched to a primary swing is no later than the later primary swing, and the
result is the same. -/
structure SmtCausal (primaryBars correlatedBars : List Bar) (lookback : Int) (inverse : Bool) :
    Prop where
  uses : ∀ other, Chronological other →
    barsUpTo primaryBars other = barsUpTo primaryBars correlatedBars →
    2 ≤ (findSwingPoints other lookback).length →
    ∀ cmp ∈ smtComparisons primaryBars lookback inverse,
    ∀ s ∈ cmp.matched (findSwingPoints other lookback), s.time.utc ≤ cmp.b.time.utc
  result : ∀ other, Chronological other →
    barsUpTo primaryBars other = barsUpTo primaryBars correlatedBars →
    detectSmtDivergence primaryBars other lookback inverse =
      detectSmtDivergence primaryBars correlatedBars lookback inverse

/-- What keeps a comparison from the future, in the correlated bars `known` up to the last primary
bar. -/
structure SmtComparison.Secure (cmp : SmtComparison) (known : List Bar) (lookback : Int) : Prop where
  /-- The position of `b` is one of a known bar. -/
  covered : cmp.b.index < known.length
  /-- No swing up to that position, confirmed or pending, is later than `b`. -/
  inTime : ∀ s ∈ cmp.eligible (possibleSwings known lookback.toNat), s.time.utc ≤ cmp.b.time.utc
  /-- The pending swing, if there is one, does not matter. -/
  settled : cmp.reports (cmp.eligible (findSwingPoints known lookback)) =
    cmp.reports (cmp.eligible (possibleSwings known lookback.toNat))
  /-- What is reported does not wait for the second correlated swing. -/
  enough : cmp.reports (cmp.eligible (findSwingPoints known lookback)) →
    2 ≤ (findSwingPoints known lookback).length

/-- Every comparison is kept from the future. -/
def SmtSecure (primaryBars correlatedBars : List Bar) (lookback : Int) (inverse : Bool) : Prop :=
  ∀ cmp ∈ smtComparisons primaryBars lookback inverse,
    cmp.Secure (barsUpTo primaryBars correlatedBars) lookback

instance (cmp : SmtComparison) (known : List Bar) (lookback : Int) :
    Decidable (cmp.Secure known lookback) :=
  decidable_of_iff
    (cmp.b.index < known.length ∧
      (∀ s ∈ cmp.eligible (possibleSwings known lookback.toNat),
        s.time.utc ≤ cmp.b.time.utc) ∧
      cmp.reports (cmp.eligible (findSwingPoints known lookback)) =
        cmp.reports (cmp.eligible (possibleSwings known lookback.toNat)) ∧
      (cmp.reports (cmp.eligible (findSwingPoints known lookback)) →
        2 ≤ (findSwingPoints known lookback).length))
    ⟨fun ⟨h1, h2, h3, h4⟩ => ⟨h1, h2, h3, h4⟩, fun h => ⟨h.covered, h.inTime, h.settled, h.enough⟩⟩

instance (primaryBars correlatedBars : List Bar) (lookback : Int) (inverse : Bool) :
    Decidable (SmtSecure primaryBars correlatedBars lookback inverse) :=
  inferInstanceAs (Decidable (∀ cmp ∈ smtComparisons primaryBars lookback inverse, _))

section

variable {primaryBars correlatedBars : List Bar}

/-- The rest of a chronological list is later than the last primary bar. -/
theorem exists_eq_barsUpTo_append (primaryBars : List Bar) (h : Chronological correlatedBars) :
    ∃ more, correlatedBars = barsUpTo primaryBars correlatedBars ++ more := by
  refine Scan.exists_eq_filter_append (chronological_iff_pairwise.mp h) fun a b hab hb => ?_
  simp only [Option.any_eq_true, decide_eq_true_eq] at hb ⊢
  obtain ⟨l, hl, hle⟩ := hb
  exact ⟨l, hl, Int.le_trans (Int.le_of_lt hab) hle⟩

theorem chronological_barsUpTo (h : Chronological correlatedBars) :
    Chronological (barsUpTo primaryBars correlatedBars) :=
  chronological_iff_pairwise.mpr ((chronological_iff_pairwise.mp h).filter _)

theorem barsUpTo_barsUpTo :
    barsUpTo primaryBars (barsUpTo primaryBars correlatedBars) =
      barsUpTo primaryBars correlatedBars := by
  simp only [barsUpTo, List.filter_filter, Bool.and_self]

/-- Later bars may be appended to the known ones. -/
theorem barsUpTo_append {l : Bar} (hl : primaryBars.getLast? = some l)
    (h : Chronological correlatedBars) {more : List Bar} (hmore : Chronological more)
    (hlate : ∀ b ∈ more, l.time.utc < b.time.utc) :
    Chronological (barsUpTo primaryBars correlatedBars ++ more) ∧
      barsUpTo primaryBars (barsUpTo primaryBars correlatedBars ++ more) =
        barsUpTo primaryBars correlatedBars := by
  constructor
  · refine chronological_append.mpr ⟨chronological_barsUpTo h, hmore, fun b hb c hc => ?_⟩
    have hb := (List.mem_filter.mp hb).2
    simp only [hl, Option.any_some, decide_eq_true_eq] at hb
    exact Int.lt_of_le_of_lt hb (hlate c hc)
  · have hnil : barsUpTo primaryBars more = [] := by
      refine List.filter_eq_nil_iff.mpr fun c hc hle => ?_
      simp only [hl, Option.any_some, decide_eq_true_eq] at hle
      exact absurd (hlate c hc) (Int.not_lt.mpr hle)
    have happend : barsUpTo primaryBars (barsUpTo primaryBars correlatedBars ++ more) =
        barsUpTo primaryBars (barsUpTo primaryBars correlatedBars) ++ barsUpTo primaryBars more :=
      List.filter_append _ _
    rw [happend, hnil, List.append_nil, barsUpTo_barsUpTo]

end

/-! ## The condition keeps the promise -/

theorem length_findSwingPoints_append (bars more : List Bar) (lookback : Int) :
    (findSwingPoints bars lookback).length ≤ (findSwingPoints (bars ++ more) lookback).length := by
  have h := findSwingPoints_take (bars ++ more) lookback bars.length
  rw [List.take_left] at h
  rw [h]
  exact List.length_filter_le _ _

namespace SmtComparison.Secure

variable {cmp : SmtComparison} {known : List Bar} {k : Nat}

theorem eligible_append (h : cmp.Secure known k) (hk : 1 ≤ k) (more : List Bar) :
    cmp.eligible (findSwingPoints (known ++ more) k) = cmp.eligible (findSwingPoints known k) ∨
    cmp.eligible (findSwingPoints (known ++ more) k) = cmp.eligible (possibleSwings known k) :=
  swingsUpTo_append hk h.covered cmp.kind more

theorem reports_append (h : cmp.Secure known k) (hk : 1 ≤ k) (more : List Bar) :
    cmp.reports (cmp.eligible (findSwingPoints (known ++ more) k)) =
      cmp.reports (cmp.eligible (findSwingPoints known k)) := by
  rcases h.eligible_append hk more with he | he
  · rw [he]
  · rw [he]
    exact h.settled.symm

theorem time_le (h : cmp.Secure known k) (hk : 1 ≤ k) {more : List Bar} {s : SwingPoint}
    (hs : s ∈ cmp.eligible (findSwingPoints (known ++ more) k)) : s.time.utc ≤ cmp.b.time.utc := by
  obtain ⟨hs, hkind, hle⟩ := mem_swingsUpTo.mp hs
  exact h.inTime s (mem_swingsUpTo.mpr
    ⟨mem_possible_of_mem_append hk h.covered hs hle, hkind, hle⟩)

end SmtComparison.Secure

theorem smtComparisons_lookback {primaryBars : List Bar} {lookback : Int} {inverse : Bool}
    {cmp : SmtComparison} (h : cmp ∈ smtComparisons primaryBars lookback inverse) :
    ∃ k : Nat, 1 ≤ k ∧ lookback = k := by
  have hb := (smtComparisons_spec h).1
  by_cases hlb : lookback < 1
  · rw [findSwingPoints_of_lt_one _ hlb] at hb
    cases hb
  · exact ⟨lookback.toNat, by omega, by omega⟩

/-- The result on a list that goes on after the known bars, when every comparison is secure. -/
theorem detectSmtDivergence_append {primaryBars known : List Bar} {lookback : Int} {inverse : Bool}
    (h : ∀ cmp ∈ smtComparisons primaryBars lookback inverse, cmp.Secure known lookback)
    (more : List Bar) :
    detectSmtDivergence primaryBars (known ++ more) lookback inverse =
      (smtComparisons primaryBars lookback inverse).flatMap
        (·.outcome (findSwingPoints known lookback)) := by
  rw [detectSmtDivergence_eq]
  split
  · rename_i hfew
    -- Too few swings: no comparison reports, or it would have had two of them.
    refine (List.flatMap_eq_nil_iff.mpr fun cmp hcmp => ?_).symm
    refine if_neg fun hrep => ?_
    have h1 := (h cmp hcmp).enough hrep
    have h2 := length_findSwingPoints_append known more lookback
    omega
  · refine List.flatMap_congr fun cmp hcmp => ?_
    obtain ⟨k, hk, rfl⟩ := smtComparisons_lookback hcmp
    rw [SmtComparison.outcome, SmtComparison.outcome, (h cmp hcmp).reports_append hk more]

theorem SmtSecure.causal {primaryBars correlatedBars : List Bar} {lookback : Int} {inverse : Bool}
    (hC : Chronological correlatedBars)
    (h : SmtSecure primaryBars correlatedBars lookback inverse) :
    SmtCausal primaryBars correlatedBars lookback inverse := by
  have hresult : ∀ other, Chronological other →
      barsUpTo primaryBars other = barsUpTo primaryBars correlatedBars →
      detectSmtDivergence primaryBars other lookback inverse =
        (smtComparisons primaryBars lookback inverse).flatMap
          (·.outcome (findSwingPoints (barsUpTo primaryBars correlatedBars) lookback)) := by
    intro other hother heq
    obtain ⟨more, hmore⟩ := exists_eq_barsUpTo_append primaryBars hother
    rw [hmore, heq]
    exact detectSmtDivergence_append h more
  constructor
  · intro other hother heq _ cmp hcmp s hs
    obtain ⟨k, hk, rfl⟩ := smtComparisons_lookback hcmp
    obtain ⟨more, hmore⟩ := exists_eq_barsUpTo_append primaryBars hother
    rw [hmore, heq] at hs
    exact (h cmp hcmp).time_le hk (SmtComparison.mem_matched hs)
  · intro other hother heq
    rw [hresult other hother heq, hresult correlatedBars hC rfl]

/-! ## Without the condition a later bar shows -/

/-- A bar without a range. -/
def flatBar (t : Int) (x : ℚ) : Bar := ⟨⟨t, 0⟩, x, x, x, x, 0⟩

/-- `n` flat bars after the time `t`. -/
def flatBars (t : Int) (price : Nat → ℚ) (n : Nat) : List Bar :=
  (List.range n).map fun j : Nat => flatBar (t + 1 + j) (price j)

theorem SwingType.level_flatBar (κ : SwingType) (t : Int) (x : ℚ) : κ.level (flatBar t x) = x := by
  cases κ <;> rfl

theorem flatBars_getElem? {t : Int} {price : Nat → ℚ} {n j : Nat} {b : Bar} :
    (flatBars t price n)[j]? = some b ↔ j < n ∧ flatBar (t + 1 + j) (price j) = b := by
  rw [List.getElem?_eq_some_iff]
  simp only [flatBars, List.length_map, List.length_range, List.getElem_map, List.getElem_range,
    exists_prop]

theorem chronological_flatBars (t : Int) (price : Nat → ℚ) (n : Nat) :
    Chronological (flatBars t price n) ∧ ∀ b ∈ flatBars t price n, t < b.time.utc := by
  constructor
  · rw [chronological_iff_pairwise, flatBars, List.pairwise_map]
    refine List.pairwise_lt_range.imp fun {i j} hij => ?_
    simp only [flatBar]
    omega
  · intro b hb
    obtain ⟨j, -, rfl⟩ := List.mem_map.mp hb
    simp only [flatBar]
    omega

/-- Two distinct swings. -/
theorem two_le_length {swings : List SwingPoint} {s t : SwingPoint} (hs : s ∈ swings)
    (ht : t ∈ swings) (hne : s.index ≠ t.index) : 2 ≤ swings.length := by
  match swings, hs, ht with
  | [u], hs, ht =>
    rw [List.mem_singleton] at hs ht
    exact absurd (by rw [hs, ht]) hne
  | _ :: _ :: _, _, _ => simp

/-- Bars after `t` that put two swings of the kind behind the known bars, the first at position
`p`; the bars before it have the price `v`. -/
theorem exists_peaks (κ : SwingType) (known : List Bar) (t : Int) (v : ℚ) {k p : Nat} (hk : 1 ≤ k)
    (hp : k ≤ p) (hm : known.length ≤ p) :
    ∃ more, Chronological more ∧ (∀ b ∈ more, t < b.time.utc) ∧
      (∀ j b, more[j]? = some b → known.length + j < p → κ.level b = v) ∧
      (∃ s ∈ findSwingPoints (known ++ more) k, s.kind = κ ∧ s.index = p) ∧
      2 ≤ (findSwingPoints (known ++ more) k).length := by
  obtain ⟨w, hw⟩ := κ.exists_outer (v :: known.map κ.level)
  let price := fun j : Nat => if known.length + j = p ∨ known.length + j = p + k + 1 then w else v
  let more := flatBars t price (p + 2 * k + 2 - known.length)
  have hlen : (known ++ more).length = p + 2 * k + 2 := by
    simp only [more, flatBars, List.length_append, List.length_map, List.length_range]
    omega
  -- Each of the two positions has the outer price, and within `k` bars of it no other has.
  have hpeak : ∀ q, q = p ∨ q = p + k + 1 →
      ∃ s ∈ findSwingPoints (known ++ more) k, s.kind = κ ∧ s.index = q := by
    intro q hq
    have hcenter : (known ++ more)[q]? = some (flatBar (t + 1 + (q - known.length : Nat)) w) := by
      rw [List.getElem?_append_right (by omega)]
      refine flatBars_getElem?.mpr ⟨by omega, ?_⟩
      have : price (q - known.length) = w := if_pos (by omega)
      rw [this]
    refine exists_swing hk (by omega) (by omega) hcenter fun j b hb h1 h2 hne => ?_
    rw [κ.level_flatBar]
    by_cases hj : j < known.length
    · rw [List.getElem?_append_left hj] at hb
      exact hw _ (List.mem_cons_of_mem _ (List.mem_map_of_mem (List.mem_of_getElem? hb)))
    · rw [List.getElem?_append_right (by omega)] at hb
      obtain ⟨-, rfl⟩ := flatBars_getElem?.mp hb
      have : price (j - known.length) = v := if_neg (by omega)
      rw [κ.level_flatBar, this]
      exact hw v List.mem_cons_self
  obtain ⟨s, hs, hkind, hsp⟩ := hpeak p (Or.inl rfl)
  obtain ⟨s', hs', -, hsp'⟩ := hpeak (p + k + 1) (Or.inr rfl)
  refine ⟨more, (chronological_flatBars t price _).1, (chronological_flatBars t price _).2,
    fun j b hb hj => ?_, ⟨s, hs, hkind, hsp⟩, two_le_length hs hs' (by omega)⟩
  obtain ⟨-, rfl⟩ := flatBars_getElem?.mp hb
  rw [κ.level_flatBar]
  exact if_neg (by omega)

/-- The later of the two matched swings is the last eligible one. -/
theorem SmtComparison.exists_matched {cmp : SmtComparison} {c : List SwingPoint} {s : SwingPoint}
    (hs : s ∈ cmp.eligible c) : ∃ cb ∈ cmp.matched c, s.index ≤ cb.index := by
  let dist := fun t : SwingPoint => ((t.index : Int) - cmp.b.index).natAbs
  cases hcb : (cmp.eligible c).argmin dist with
  | none =>
    rw [List.argmin_eq_none.mp hcb] at hs
    cases hs
  | some cb =>
    have hle : dist cb ≤ dist s := List.le_of_mem_argmin hs hcb
    have h1 := (mem_swingsUpTo.mp hs).2.2
    have h2 := (mem_swingsUpTo.mp (List.argmin_mem hcb)).2.2
    refine ⟨cb, List.reduceOption_mem_iff.mpr ?_, ?_⟩
    · exact List.mem_cons_of_mem _ (List.mem_singleton.mpr hcb.symm)
    · simp only [dist] at hle
      omega

/-- A divergence is that of a comparison which reports. -/
theorem mem_detectSmtDivergence {primaryBars correlatedBars : List Bar} {lookback : Int}
    {inverse : Bool} {dv : SMTDivergence} :
    dv ∈ detectSmtDivergence primaryBars correlatedBars lookback inverse ↔
      2 ≤ (findSwingPoints correlatedBars lookback).length ∧
        ∃ cmp ∈ smtComparisons primaryBars lookback inverse,
          cmp.reports (cmp.eligible (findSwingPoints correlatedBars lookback)) = true ∧
            dv = cmp.divergence := by
  rw [detectSmtDivergence_eq]
  split
  · rename_i hfew
    simp only [List.not_mem_nil, false_iff]
    exact fun h => absurd h.1 (Nat.not_le.mpr hfew)
  · rename_i hmany
    simp only [List.mem_flatMap, SmtComparison.outcome, List.mem_ite_nil_right, List.mem_singleton]
    exact (and_iff_right (Nat.not_lt.mp hmany)).symm

theorem SmtComparison.divergence_mem {primaryBars : List Bar} {lookback : Int} {inverse : Bool}
    {cmp : SmtComparison} (h : cmp ∈ smtComparisons primaryBars lookback inverse)
    (correlatedBars : List Bar) :
    cmp.divergence ∈ detectSmtDivergence primaryBars correlatedBars lookback inverse ↔
      2 ≤ (findSwingPoints correlatedBars lookback).length ∧
        cmp.reports (cmp.eligible (findSwingPoints correlatedBars lookback)) := by
  rw [mem_detectSmtDivergence]
  refine and_congr_right fun _ => ⟨?_, fun hrep => ⟨cmp, h, hrep, rfl⟩⟩
  rintro ⟨cmp', h', hrep, heq⟩
  obtain rfl := smtComparisons_direction h h' (congrArg SMTDivergence.direction heq)
  exact hrep

/-- The primary swing `b` is not later than the last primary bar. -/
theorem smtComparisons_last {primaryBars : List Bar} {lookback : Int} {inverse : Bool}
    {cmp : SmtComparison} (hP : Chronological primaryBars)
    (h : cmp ∈ smtComparisons primaryBars lookback inverse) :
    ∃ l, primaryBars.getLast? = some l ∧ cmp.b.time.utc ≤ l.time.utc := by
  obtain ⟨k, hk, rfl⟩ := smtComparisons_lookback h
  obtain ⟨b, hb, hbt, -⟩ := ((mem_findSwingPoints hk).mp (smtComparisons_spec h).1).center
  have hmem := List.mem_of_getElem? hb
  obtain ⟨l, hl⟩ : ∃ l, primaryBars.getLast? = some l :=
    ⟨_, List.getLast?_eq_some_getLast (List.ne_nil_of_mem hmem)⟩
  exact ⟨l, hl, by rw [hbt]; exact hP.time_le_last hmem hl⟩

theorem SwingPoint.Fractal.time_le {bars : List Bar} {k : Nat} {s t : SwingPoint}
    (hs : s.Fractal bars k) (ht : t.Fractal bars k) (h : Chronological bars)
    (hle : s.index ≤ t.index) : s.time.utc ≤ t.time.utc := by
  obtain ⟨b, hb, hbt, -⟩ := hs.center
  obtain ⟨c, hc, hct, -⟩ := ht.center
  rw [hbt, hct]
  exact h.time_le hb hc hle

namespace SmtCausal

variable {primaryBars correlatedBars : List Bar} {inverse : Bool} {k : Nat} {cmp : SmtComparison}

/-- A bar at the position of `b` may be matched, so the known bars reach that far. -/
theorem covered (h : SmtCausal primaryBars correlatedBars k inverse) (hk : 1 ≤ k)
    (hP : Chronological primaryBars) (hC : Chronological correlatedBars)
    (hcmp : cmp ∈ smtComparisons primaryBars k inverse) :
    cmp.b.index < (barsUpTo primaryBars correlatedBars).length := by
  by_contra hshort
  obtain ⟨l, hl, hbl⟩ := smtComparisons_last hP hcmp
  have hleft := ((mem_findSwingPoints hk).mp (smtComparisons_spec hcmp).1).left
  obtain ⟨more, hmore, hlate, -, ⟨s, hs, hkind, hidx⟩, hlen⟩ :=
    exists_peaks cmp.kind (barsUpTo primaryBars correlatedBars) l.time.utc 0 hk hleft (by omega)
  obtain ⟨hchron, hsame⟩ := barsUpTo_append hl hC hmore hlate
  obtain ⟨cb, hcb, hle⟩ := SmtComparison.exists_matched
    (mem_swingsUpTo.mpr ⟨hs, hkind, Nat.le_of_eq hidx⟩)
  have htime := h.uses _ hchron hsame hlen cmp hcmp cb hcb
  obtain ⟨hcb, -, -⟩ := mem_swingsUpTo.mp (SmtComparison.mem_matched hcb)
  obtain ⟨b, hb, hbt, -⟩ := ((mem_findSwingPoints hk).mp hcb).center
  rw [List.getElem?_append_right (by omega)] at hb
  have := hlate b (List.mem_of_getElem? hb)
  rw [hbt] at htime
  omega

/-- There are later bars that start with more than `k` bars at a given price. -/
theorem exists_later (hk : 1 ≤ k) (hP : Chronological primaryBars)
    (hC : Chronological correlatedBars) (hcmp : cmp ∈ smtComparisons primaryBars k inverse) (v : ℚ) :
    ∃ more, Chronological (barsUpTo primaryBars correlatedBars ++ more) ∧
      barsUpTo primaryBars (barsUpTo primaryBars correlatedBars ++ more) =
        barsUpTo primaryBars correlatedBars ∧
      2 ≤ (findSwingPoints (barsUpTo primaryBars correlatedBars ++ more) k).length ∧
      k < more.length ∧ ∀ j b, more[j]? = some b → j < k → cmp.kind.level b = v := by
  obtain ⟨l, hl, -⟩ := smtComparisons_last hP hcmp
  set known := barsUpTo primaryBars correlatedBars
  obtain ⟨more, hmore, hlate, hflat, ⟨s, hs, -, hidx⟩, hlen⟩ :=
    exists_peaks cmp.kind known l.time.utc v hk (p := known.length + k) (by omega) (by omega)
  obtain ⟨hchron, hsame⟩ := barsUpTo_append hl hC hmore hlate
  have hright := ((mem_findSwingPoints hk).mp hs).right
  rw [List.length_append] at hright
  exact ⟨more, hchron, hsame, hlen, by omega, fun j b hb hj => hflat j b hb (by omega)⟩

/-- There are later bars that confirm every possible swing. -/
theorem exists_realized (hk : 1 ≤ k) (hP : Chronological primaryBars)
    (hC : Chronological correlatedBars) (hcmp : cmp ∈ smtComparisons primaryBars k inverse)
    (hcov : cmp.b.index < (barsUpTo primaryBars correlatedBars).length) :
    ∃ other, Chronological other ∧
      barsUpTo primaryBars other = barsUpTo primaryBars correlatedBars ∧
      2 ≤ (findSwingPoints other k).length ∧
      cmp.eligible (findSwingPoints other k) =
        cmp.eligible (possibleSwings (barsUpTo primaryBars correlatedBars) k) := by
  obtain ⟨v, hv⟩ :=
    cmp.kind.exists_inner ((barsUpTo primaryBars correlatedBars).map cmp.kind.level)
  obtain ⟨more, hchron, hsame, hlen, hmore, hflat⟩ := exists_later hk hP hC hcmp v
  refine ⟨_, hchron, hsame, hlen, swingsUpTo_realized hk hcov (by omega) fun j b hb hj c hc => ?_⟩
  rw [hflat j b hb hj]
  exact hv _ (List.mem_map_of_mem hc)

/-- There are later bars that confirm none of the pending swings. -/
theorem exists_dropped (hk : 1 ≤ k) (hP : Chronological primaryBars)
    (hC : Chronological correlatedBars) (hcmp : cmp ∈ smtComparisons primaryBars k inverse)
    (hcov : cmp.b.index < (barsUpTo primaryBars correlatedBars).length) :
    ∃ other, Chronological other ∧
      barsUpTo primaryBars other = barsUpTo primaryBars correlatedBars ∧
      2 ≤ (findSwingPoints other k).length ∧
      cmp.eligible (findSwingPoints other k) =
        cmp.eligible (findSwingPoints (barsUpTo primaryBars correlatedBars) k) := by
  obtain ⟨v, hv⟩ :=
    cmp.kind.exists_outer ((barsUpTo primaryBars correlatedBars).map cmp.kind.level)
  obtain ⟨more, hchron, hsame, hlen, hmore, hflat⟩ := exists_later hk hP hC hcmp v
  obtain ⟨b, hb⟩ : ∃ b, more[0]? = some b := ⟨_, List.getElem?_eq_getElem (by omega)⟩
  refine ⟨_, hchron, hsame, hlen, swingsUpTo_dropped hk hcov hb fun c hc => ?_⟩
  rw [hflat 0 b hb (by omega)]
  exact hv _ (List.mem_map_of_mem hc)

/-- On every list with the same known bars and two swings the comparison reports the same. -/
theorem reports_iff (h : SmtCausal primaryBars correlatedBars k inverse)
    (hcmp : cmp ∈ smtComparisons primaryBars k inverse) {other : List Bar}
    (hother : Chronological other)
    (hsame : barsUpTo primaryBars other = barsUpTo primaryBars correlatedBars)
    (hlen : 2 ≤ (findSwingPoints other k).length) :
    cmp.reports (cmp.eligible (findSwingPoints other k)) ↔
      cmp.divergence ∈ detectSmtDivergence primaryBars correlatedBars k inverse := by
  rw [← h.result other hother hsame, SmtComparison.divergence_mem hcmp]
  exact ⟨fun hrep => ⟨hlen, hrep⟩, fun hrep => hrep.2⟩

theorem secure (h : SmtCausal primaryBars correlatedBars k inverse) (hk : 1 ≤ k)
    (hP : Chronological primaryBars) (hC : Chronological correlatedBars)
    (hcmp : cmp ∈ smtComparisons primaryBars k inverse) :
    cmp.Secure (barsUpTo primaryBars correlatedBars) k := by
  have hcov := h.covered hk hP hC hcmp
  obtain ⟨real, hreal, hrsame, hrlen, hrel⟩ := exists_realized hk hP hC hcmp hcov
  obtain ⟨drop, hdrop, hdsame, hdlen, hdel⟩ := exists_dropped hk hP hC hcmp hcov
  have hr := h.reports_iff hcmp hreal hrsame hrlen
  have hd := h.reports_iff hcmp hdrop hdsame hdlen
  rw [hrel] at hr
  rw [hdel] at hd
  refine ⟨hcov, fun s hs => ?_, ?_, fun hrep => ?_⟩
  · rw [Int.toNat_natCast, ← hrel] at hs
    obtain ⟨cb, hcb, hle⟩ := SmtComparison.exists_matched hs
    have htime := h.uses real hreal hrsame hrlen cmp hcmp cb hcb
    have hs := (mem_findSwingPoints hk).mp (mem_swingsUpTo.mp hs).1
    have hcb := (mem_findSwingPoints hk).mp
      (mem_swingsUpTo.mp (SmtComparison.mem_matched hcb)).1
    exact Int.le_trans (hs.time_le hcb hreal hle) htime
  · rw [Int.toNat_natCast]
    exact Bool.eq_iff_iff.mpr (hd.trans hr.symm)
  · -- The list without later bars reports it too, so it has its two swings.
    have hmem := hd.mp hrep
    rw [← h.result _ (chronological_barsUpTo hC) barsUpTo_barsUpTo,
      SmtComparison.divergence_mem hcmp] at hmem
    exact hmem.1

end SmtCausal

/-- **SMT looks at no future bar exactly when the known bars settle its comparisons.** -/
theorem smt_causal_iff {primaryBars correlatedBars : List Bar} (hP : Chronological primaryBars)
    (hC : Chronological correlatedBars) (lookback : Int) (inverse : Bool) :
    SmtCausal primaryBars correlatedBars lookback inverse ↔
      SmtSecure primaryBars correlatedBars lookback inverse := by
  constructor
  · intro h cmp hcmp
    obtain ⟨k, hk, rfl⟩ := smtComparisons_lookback hcmp
    exact h.secure hk hP hC hcmp
  · exact fun h => h.causal hC

/-- Hourly bars from the hour `start`, with the given highs and lows. -/
def hourlyBars (start : Int) (prices : List (ℚ × ℚ)) : List Bar :=
  prices.zipIdx.map fun (p, i) => ⟨⟨(start + i) * 3600000000, 0⟩, 11, p.1, p.2, 11, 0⟩

/-- A market with a lower low at position 5. -/
def demoGold : List Bar :=
  hourlyBars 0 [(12, 10), (12, 10), (12, 8), (12, 10), (12, 10), (12, 7), (12, 10), (12, 10)]

/-- The inverse market, whose first bar is `start` hours later: a lower high at position 5. -/
def demoDollar (start : Int) : List Bar :=
  hourlyBars start
    [(12, 10), (12, 10), (14, 10), (12, 10), (12, 10), (13, 10), (12, 10), (12, 10)]

/-- Aligned markets: the divergence is found, and no later bar can change it. -/
theorem demo_smt_causal :
    SmtCausal demoGold (demoDollar 0) 2 true ∧
      (detectSmtDivergence demoGold (demoDollar 0) 2 true).length = 1 :=
  ⟨(smt_causal_iff (by decide +kernel) (by decide +kernel) 2 true).mpr (by decide +kernel),
    by decide +kernel⟩

/-- The inverse market starts three hours later, and its bar at position 5 is three hours later
than the primary's: the swing matched to the lower low is later than it, and later than the last
primary bar, and the divergence is gone without the bars after that one. -/
theorem smt_sees_future :
    Chronological demoGold ∧ Chronological (demoDollar 3) ∧
      (∃ cmp ∈ smtComparisons demoGold 2 true,
        ∃ s ∈ cmp.matched (findSwingPoints (demoDollar 3) 2), cmp.b.time.utc < s.time.utc) ∧
      (detectSmtDivergence demoGold (demoDollar 3) 2 true).length = 1 ∧
      detectSmtDivergence demoGold (barsUpTo demoGold (demoDollar 3)) 2 true = [] := by
  decide +kernel

end MarketKill3r
