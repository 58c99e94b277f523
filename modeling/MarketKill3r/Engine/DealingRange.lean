import MarketKill3r.Engine.Analysis
import MarketKill3r.Engine.EventSpec
import MarketKill3r.Engine.Pending

/-!
# What the dealing range says

`compute_dealing_range` takes the latest swing high and the latest swing low, each on its own. Two
swings whose windows touch are in order, but in a market that runs away from the earlier one the
later swing forms wholly on its far side, and the range is upside down. It looks for the swings in
the last bars of the list, and hands out their positions there.

* `getLast_swings_iff`: the last swing of a kind is the latest one.
* `SwingPoint.Fractal.lt_of_near`: a swing low is below a swing high within its window.
* `dealing_range_real_iff`: **the range is a range exactly when the market has not run away.**
* `SwingPoint.fractal_drop_iff`, `latestSwing_drop_iff`: the swings of the last bars.
* `dealing_range_indices_iff`: **the indices are positions in the list exactly when the two swings
  recur at the same prices, as far back as the window begins.**
-/

namespace MarketKill3r

theorem getLast_swings_iff {bars : List Bar} {k : Nat} (hk : 1 ≤ k) {κ : SwingType} {s : SwingPoint} :
    ((findSwingPoints bars k).filter (·.kind = κ)).getLast? = some s ↔
      LatestSwing bars k bars.length κ s := by
  have hmem : ∀ t, t ∈ (findSwingPoints bars k).filter (·.kind = κ) ↔
      t.Fractal bars k ∧ t.kind = κ := fun t => by
    simp only [List.mem_filter, decide_eq_true_eq, mem_findSwingPoints hk]
  have hpair : ((findSwingPoints bars k).filter (·.kind = κ)).Pairwise
      fun s t => s.index < t.index := by
    refine ((findSwingPoints_pairwise bars hk).filter _).imp_of_mem fun {s t} hs ht hst => hst ?_
    rw [((hmem s).mp hs).2, ((hmem t).mp ht).2]
  rw [Scan.getLast?_eq_some_iff_max hpair, hmem]
  constructor
  · rintro ⟨⟨hf, hκ⟩, hlatest⟩
    exact ⟨hf, hκ, hf.right, fun t ht htκ _ => hlatest t ((hmem t).mpr ⟨ht, htκ⟩)⟩
  · intro h
    refine ⟨⟨h.fractal, h.kind⟩, fun t ht => ?_⟩
    obtain ⟨htf, htκ⟩ := (hmem t).mp ht
    exact h.latest t htf htκ htf.right

/-- The dealing range is an interval with its equilibrium inside, and the zones agree with it. -/
structure DealingRange.Real (dr : DealingRange) : Prop where
  ordered : dr.rangeLow < dr.rangeHigh
  above_low : dr.rangeLow < dr.equilibrium
  below_high : dr.equilibrium < dr.rangeHigh
  discount : ∀ price, price < dr.rangeLow → dr.zoneFor price = .discount
  premium : ∀ price, dr.rangeHigh < price → dr.zoneFor price = .premium

/-- The bars at most `k` away from bar `i`. -/
def Around (bars : List Bar) (k i : Nat) (b : Bar) : Prop :=
  ∃ j, bars[j]? = some b ∧ i ≤ j + k ∧ j ≤ i + k

/-- Of the latest swing high and the latest swing low, the later one formed beyond the earlier one:
no bar of its window trades inside. -/
structure RanAway (bars : List Bar) (k : Nat) (high low : SwingPoint) : Prop where
  latestHigh : LatestSwing bars k bars.length .high high
  latestLow : LatestSwing bars k bars.length .low low
  beyond : (high.index + k < low.index ∧ ∀ b, Around bars k low.index b → high.price ≤ b.low) ∨
    (low.index + k < high.index ∧ ∀ b, Around bars k high.index b → b.high ≤ low.price)

section

variable {bars : List Bar} {k : Nat} {s t : SwingPoint}

theorem Bar.Valid.low_le_high {b : Bar} (h : b.Valid) : b.low ≤ b.high :=
  h.low_le_close.trans h.close_le_high

/-- A swing low is below the swing highs that are at most `k` bars away. -/
theorem SwingPoint.Fractal.lt_of_near (hv : OhlcValid bars) (hk : 1 ≤ k) (hs : s.Fractal bars k)
    (ht : t.Fractal bars k) (hsk : s.kind = .high) (htk : t.kind = .low)
    (hnear : s.index ≤ t.index + k ∧ t.index ≤ s.index + k) : t.price < s.price := by
  obtain ⟨b, hb, -, hbp⟩ := ht.center
  rw [htk, SwingType.level] at hbp
  by_cases heq : s.index = t.index
  · -- An outside bar: its neighbour lies between.
    have hright := ht.right
    have hc := List.getElem?_eq_getElem (show t.index + 1 < bars.length by omega)
    have h1 := hs.beyond _ _ hc (by omega) (by omega) (by omega)
    have h2 := ht.beyond _ _ hc (by omega) (by omega) (by omega)
    rw [hsk, SwingType.Beyond] at h1
    rw [htk, SwingType.Beyond] at h2
    linarith [(hv.getElem? hc).low_le_high]
  · have h1 := hs.beyond t.index b hb (by omega) (by omega) (by omega)
    rw [hsk, SwingType.Beyond] at h1
    linarith [(hv.getElem? hb).low_le_high]

/-- The window of a swing lies within its price. -/
theorem SwingPoint.Fractal.around (hs : s.Fractal bars k) {b : Bar}
    (hb : Around bars k s.index b) :
    (s.kind = .high → b.high ≤ s.price) ∧ (s.kind = .low → s.price ≤ b.low) := by
  obtain ⟨j, hj, h1, h2⟩ := hb
  by_cases hji : j = s.index
  · obtain ⟨c, hc, -, hp⟩ := hs.center
    obtain rfl : b = c := by rw [hji, hc] at hj; exact (Option.some.inj hj).symm
    constructor
    · intro hκ
      rw [hp, hκ, SwingType.level]
    · intro hκ
      rw [hp, hκ, SwingType.level]
  · have hb := hs.beyond j b hj h1 h2 hji
    constructor
    · intro hκ
      rw [hκ, SwingType.Beyond] at hb
      exact hb.le
    · intro hκ
      rw [hκ, SwingType.Beyond] at hb
      exact hb.le

/-- A swing is in its own window. -/
theorem SwingPoint.Fractal.exists_around (hs : s.Fractal bars k) :
    ∃ b, Around bars k s.index b ∧ s.price = s.kind.level b := by
  obtain ⟨b, hb, -, hp⟩ := hs.center
  exact ⟨b, ⟨s.index, hb, Nat.le_add_right _ _, Nat.le_add_right _ _⟩, hp⟩

/-- The latest swings are out of order exactly when the market has run away from the earlier one. -/
theorem ranAway_iff (hv : OhlcValid bars) (hk : 1 ≤ k) (hs : LatestSwing bars k bars.length .high s)
    (ht : LatestSwing bars k bars.length .low t) : RanAway bars k s t ↔ s.price ≤ t.price := by
  constructor
  · rintro ⟨-, -, ⟨-, hbeyond⟩ | ⟨-, hbeyond⟩⟩
    · obtain ⟨b, hb, hp⟩ := ht.fractal.exists_around
      rw [hp, ht.kind]
      exact hbeyond b hb
    · obtain ⟨b, hb, hp⟩ := hs.fractal.exists_around
      rw [hp, hs.kind]
      exact hbeyond b hb
  · intro hle
    refine ⟨hs, ht, ?_⟩
    by_cases hlow : s.index + k < t.index
    · exact Or.inl ⟨hlow, fun b hb => hle.trans ((ht.fractal.around hb).2 ht.kind)⟩
    · by_cases hhigh : t.index + k < s.index
      · exact Or.inr ⟨hhigh, fun b hb => ((hs.fractal.around hb).1 hs.kind).trans hle⟩
      · have hlt := hs.fractal.lt_of_near hv hk ht.fractal hs.kind ht.kind ⟨by omega, by omega⟩
        exact absurd hle (not_le.mpr hlt)

/-- The midpoint of two prices lies between them, and the zones follow. -/
theorem DealingRange.real_iff {dr : DealingRange}
    (hmid : dr.equilibrium = (dr.rangeHigh + dr.rangeLow) / 2) :
    dr.Real ↔ dr.rangeLow < dr.rangeHigh := by
  refine ⟨fun h => h.ordered, fun hlt => ?_⟩
  have hlow : dr.rangeLow < dr.equilibrium := by linarith
  have hhigh : dr.equilibrium < dr.rangeHigh := by linarith
  refine ⟨hlt, hlow, hhigh, fun price hp => ?_, fun price hp => ?_⟩
  · have h1 : ¬ dr.equilibrium < price := by linarith
    have h2 : price < dr.equilibrium := by linarith
    simp [zoneFor, h1, h2]
  · have h1 : dr.equilibrium < price := by linarith
    simp [zoneFor, h1]

/-- What `compute_dealing_range` returns. -/
theorem computeDealingRange_eq_some {bars : List Bar} {window : Int} (hk : 1 ≤ k) {dr : DealingRange} :
    computeDealingRange bars k window = some dr ↔
      ∃ high low, LatestSwing (recentBars bars window) k (recentBars bars window).length .high high ∧
        LatestSwing (recentBars bars window) k (recentBars bars window).length .low low ∧
        dr = ⟨high.price, low.price, (high.price + low.price) / 2, high.index, low.index⟩ := by
  simp only [← getLast_swings_iff hk, computeDealingRange]
  split
  · rename_i high low hhigh hlow
    simp only [hhigh, hlow, Option.some.injEq, exists_and_left]
    constructor
    · rintro rfl
      exact ⟨high, rfl, low, rfl, rfl⟩
    · rintro ⟨_, rfl, _, rfl, rfl⟩
      rfl
  · rename_i hnone
    simp only [reduceCtorEq, false_iff, not_exists, not_and]
    exact fun high low hhigh hlow _ => hnone high low hhigh hlow

theorem OhlcValid.recentBars (hv : OhlcValid bars) (window : Int) :
    OhlcValid (recentBars bars window) := by
  unfold MarketKill3r.recentBars sliceFrom
  split
  · exact fun b hb => hv b (List.mem_of_mem_drop hb)
  · exact hv

end

/-- **When the dealing range is a range.** Whatever `compute_dealing_range` returns is an interval
with the equilibrium inside exactly when the market has not run away from the earlier of the two
latest swings. -/
theorem dealing_range_real_iff {bars : List Bar} (hv : OhlcValid bars) {k : Nat} (hk : 1 ≤ k)
    (window : Int) :
    (∀ dr, computeDealingRange bars k window = some dr → dr.Real) ↔
      ∀ high low, ¬ RanAway (recentBars bars window) k high low := by
  have hrecent := hv.recentBars window
  constructor
  · intro h high low haway
    have hreal := h _ ((computeDealingRange_eq_some hk).mpr
      ⟨high, low, haway.latestHigh, haway.latestLow, rfl⟩)
    have hle := (ranAway_iff hrecent hk haway.latestHigh haway.latestLow).mp haway
    exact absurd hreal.ordered (not_lt.mpr hle)
  · intro h dr hdr
    obtain ⟨high, low, hhigh, hlow, rfl⟩ := (computeDealingRange_eq_some hk).mp hdr
    refine (DealingRange.real_iff rfl).mpr ?_
    by_contra hle
    exact h high low ((ranAway_iff hrecent hk hhigh hlow).mpr (not_lt.mp hle))

/-- A swing high at 12, then a market that trades above it and sets a swing low at 19. -/
def runawayBars : List Bar :=
  [minuteBar 0 10 10 9 10, minuteBar 1 10 12 10 11, minuteBar 2 11 (23 / 2) (21 / 2) 11,
    minuteBar 3 20 21 20 21, minuteBar 4 21 22 19 22, minuteBar 5 22 24 20 23]

theorem dealing_range_not_real :
    OhlcValid runawayBars ∧ computeDealingRange runawayBars 1 50 = some ⟨12, 19, 31 / 2, 1, 4⟩ ∧
      ¬ (⟨12, 19, 31 / 2, 1, 4⟩ : DealingRange).Real := by
  refine ⟨by decide +kernel, by decide +kernel, fun h => ?_⟩
  exact absurd h.ordered (by norm_num)

/-- The candles of the swing high at 20 and the swing low at 5 next to it. -/
theorem dealing_range_real_four :
    let bars := [minuteBar 0 10 10 9 10, minuteBar 1 10 20 10 15, minuteBar 2 15 15 5 10,
      minuteBar 3 10 10 9 10]
    OhlcValid bars ∧ computeDealingRange bars 1 50 = some ⟨20, 5, 25 / 2, 1, 2⟩ ∧
      ∀ high low, ¬ RanAway (recentBars bars 50) 1 high low := by
  intro bars
  have hdr : computeDealingRange bars 1 50 = some ⟨20, 5, 25 / 2, 1, 2⟩ := by decide +kernel
  refine ⟨by decide +kernel, hdr, (dealing_range_real_iff (by decide +kernel) le_rfl 50).mp ?_⟩
  intro dr h
  obtain rfl := Option.some.inj (hdr.symm.trans h)
  exact (DealingRange.real_iff (by norm_num)).mpr (by norm_num)

/-! ## Positions

The swings of the range are found in the last bars of the list, and their positions there are handed
out. -/

/-- The number of bars before the window. -/
def barsBefore (bars : List Bar) (window : Int) : Nat := bars.length - window.toNat

theorem recentBars_eq_drop (bars : List Bar) {window : Int} (hw : 1 ≤ window) :
    recentBars bars window = bars.drop (barsBefore bars window) := by
  unfold recentBars sliceFrom barsBefore
  by_cases hlen : window < bars.length
  · rw [if_pos hlen, if_pos (by omega)]
    congr 1
    omega
  · rw [if_neg hlen, show bars.length - window.toNat = 0 by omega, List.drop_zero]

/-- The swing `d` bars later. -/
def SwingPoint.later (d : Nat) (s : SwingPoint) : SwingPoint :=
  { s with index := s.index + d, confirmedAt := s.confirmedAt.map (· + d) }

@[simp] theorem SwingPoint.later_index (d : Nat) (s : SwingPoint) :
    (s.later d).index = s.index + d := rfl

@[simp] theorem SwingPoint.later_kind (d : Nat) (s : SwingPoint) : (s.later d).kind = s.kind := rfl

@[simp] theorem SwingPoint.later_price (d : Nat) (s : SwingPoint) :
    (s.later d).price = s.price := rfl

section

variable {bars : List Bar} {k d : Nat} {κ : SwingType} {s : SwingPoint}

/-- The swings of the last bars are the swings of the list whose windows lie in them. -/
theorem SwingPoint.fractal_drop_iff :
    s.Fractal (bars.drop d) k ↔ (s.later d).Fractal bars k ∧ k ≤ s.index := by
  have hget : ∀ j, (bars.drop d)[j]? = bars[j + d]? := fun j => by
    rw [List.getElem?_drop, Nat.add_comm]
  constructor
  · intro h
    have hright := h.right
    rw [List.length_drop] at hright
    refine ⟨⟨?_, ?_, ?_, ?_, fun j b hb h1 h2 hne => ?_⟩, h.left⟩
    · simp only [later, h.confirmed, Option.map_some]
      congr 1
      omega
    · exact h.left.trans (Nat.le_add_right _ _)
    · rw [later_index]
      omega
    · obtain ⟨b, hb, hbar⟩ := h.center
      exact ⟨b, by rw [later_index, ← hget, hb], hbar⟩
    · have hleft := h.left
      simp only [later_index] at h1 h2 hne
      refine h.beyond (j - d) b ?_ (by omega) (by omega) (by omega)
      rw [hget, Nat.sub_add_cancel (by omega), hb]
  · rintro ⟨h, hleft⟩
    have hright := h.right
    rw [later_index] at hright
    refine ⟨?_, hleft, ?_, ?_, fun j b hb h1 h2 hne => ?_⟩
    · have hconf := h.confirmed
      simp only [later, Option.map_eq_some_iff] at hconf
      obtain ⟨c, hc, hcd⟩ := hconf
      rw [hc]
      congr 1
      omega
    · rw [List.length_drop]
      omega
    · obtain ⟨b, hb, hbar⟩ := h.center
      exact ⟨b, by rw [hget]; exact hb, hbar⟩
    · rw [hget] at hb
      exact h.beyond (j + d) b hb (by rw [later_index]; omega) (by rw [later_index]; omega)
        (by rw [later_index]; omega)

/-- A swing whose window lies in the last bars is a swing of these. -/
theorem SwingPoint.Fractal.exists_later (h : s.Fractal bars k) (hd : d + k ≤ s.index) :
    ∃ t : SwingPoint, t.later d = s ∧ t.Fractal (bars.drop d) k := by
  have hlater : SwingPoint.later d
      { s with index := s.index - d, confirmedAt := some (s.index - d + k) } = s := by
    have hconf := h.confirmed
    obtain ⟨i, time, price, kind, conf⟩ := s
    simp only at hconf hd
    subst hconf
    simp only [later, Option.map_some, SwingPoint.mk.injEq, Option.some.injEq, true_and]
    omega
  exact ⟨_, hlater, fractal_drop_iff.mpr ⟨by rw [hlater]; exact h, Nat.le_sub_of_add_le (by omega)⟩⟩

/-- The latest swing of the last bars is the latest one of the list, if its window lies in them. -/
theorem latestSwing_drop_iff :
    LatestSwing (bars.drop d) k (bars.drop d).length κ s ↔
      LatestSwing bars k bars.length κ (s.later d) ∧ k ≤ s.index := by
  constructor
  · intro h
    obtain ⟨hf, hleft⟩ := SwingPoint.fractal_drop_iff.mp h.fractal
    refine ⟨⟨hf, h.kind, hf.right, fun t ht hκ _ => ?_⟩, hleft⟩
    rw [SwingPoint.later_index]
    by_cases hd : d + k ≤ t.index
    · obtain ⟨u, rfl, hu⟩ := ht.exists_later hd
      have hle := h.latest u hu hκ hu.right
      rw [SwingPoint.later_index]
      omega
    · omega
  · rintro ⟨h, hleft⟩
    have hf := SwingPoint.fractal_drop_iff.mpr ⟨h.fractal, hleft⟩
    refine ⟨hf, h.kind, hf.right, fun t ht hκ _ => ?_⟩
    have ht' := (SwingPoint.fractal_drop_iff.mp ht).1
    have hle := h.latest (t.later d) ht' hκ ht'.right
    simp only [SwingPoint.later_index] at hle
    omega

end

/-- Bar `i` is a swing of the kind at price `p`. -/
def SwingAt (bars : List Bar) (k : Nat) (κ : SwingType) (i : Nat) (p : ℚ) : Prop :=
  ∃ s ∈ findSwingPoints bars k, s.kind = κ ∧ s.index = i ∧ s.price = p

/-- The indices of the range are positions in `bars` with its prices, and swings of their kinds. -/
structure DealingRange.InBars (bars : List Bar) (k : Nat) (dr : DealingRange) : Prop where
  high : (bars[dr.highIndex]?).map (·.high) = some dr.rangeHigh
  low : (bars[dr.lowIndex]?).map (·.low) = some dr.rangeLow
  highSwing : ∃ s ∈ findSwingPoints bars k, s.kind = .high ∧ s.index = dr.highIndex
  lowSwing : ∃ s ∈ findSwingPoints bars k, s.kind = .low ∧ s.index = dr.lowIndex

section

variable {bars : List Bar} {k : Nat}

/-- The price of a swing is the one of its bar. -/
theorem swingAt_iff (hk : 1 ≤ k) {κ : SwingType} {i : Nat} {p : ℚ} :
    SwingAt bars k κ i p ↔ (bars[i]?).map κ.level = some p ∧
      ∃ s ∈ findSwingPoints bars k, s.kind = κ ∧ s.index = i := by
  have hprice : ∀ s ∈ findSwingPoints bars k, (bars[s.index]?).map s.kind.level = some s.price := by
    intro s hs
    obtain ⟨b, hb, -, hp⟩ := ((mem_findSwingPoints hk).mp hs).center
    rw [hb, hp]
    rfl
  constructor
  · rintro ⟨s, hs, rfl, rfl, rfl⟩
    exact ⟨hprice s hs, s, hs, rfl, rfl⟩
  · rintro ⟨hp, s, hs, rfl, rfl⟩
    exact ⟨s, hs, rfl, rfl, Option.some.inj ((hprice s hs).symm.trans hp)⟩

theorem DealingRange.inBars_iff (hk : 1 ≤ k) {dr : DealingRange} : dr.InBars bars k ↔
    SwingAt bars k .high dr.highIndex dr.rangeHigh ∧ SwingAt bars k .low dr.lowIndex dr.rangeLow := by
  rw [swingAt_iff hk, swingAt_iff hk]
  exact ⟨fun h => ⟨⟨h.high, h.highSwing⟩, h.low, h.lowSwing⟩,
    fun ⟨⟨h1, h2⟩, h3, h4⟩ => ⟨h1, h3, h2, h4⟩⟩

/-- The swings of the window, by their places in the list. -/
theorem latestSwing_recentBars_iff {window : Int} (hw : 1 ≤ window) {κ : SwingType} {s : SwingPoint} :
    LatestSwing (recentBars bars window) k (recentBars bars window).length κ s ↔
      LatestSwing bars k bars.length κ (s.later (barsBefore bars window)) ∧ k ≤ s.index := by
  rw [recentBars_eq_drop bars hw]
  exact latestSwing_drop_iff

end

/-- **When the indices of the dealing range are positions in the list.** Let `d` bars come before the
window, and let the windows of the latest swing high and the latest swing low lie behind them. The
indices are right exactly when the list has a swing high `d` bars before that swing high, at the
same price, and so for the low. -/
theorem dealing_range_indices_iff {bars : List Bar} {k : Nat} (hk : 1 ≤ k) {window : Int}
    (hw : 1 ≤ window) :
    (∀ dr, computeDealingRange bars k window = some dr → dr.InBars bars k) ↔
      ∀ high low, LatestSwing bars k bars.length .high high →
        LatestSwing bars k bars.length .low low →
        barsBefore bars window + k ≤ high.index → barsBefore bars window + k ≤ low.index →
          SwingAt bars k .high (high.index - barsBefore bars window) high.price ∧
            SwingAt bars k .low (low.index - barsBefore bars window) low.price := by
  simp only [computeDealingRange_eq_some hk, latestSwing_recentBars_iff hw]
  constructor
  · intro h high low hhigh hlow hdhigh hdlow
    obtain ⟨high, rfl, hfhigh⟩ := hhigh.fractal.exists_later hdhigh
    obtain ⟨low, rfl, hflow⟩ := hlow.fractal.exists_later hdlow
    have hin := h _ ⟨high, low, ⟨hhigh, hfhigh.left⟩, ⟨hlow, hflow.left⟩, rfl⟩
    rw [DealingRange.inBars_iff hk] at hin
    simpa using hin
  · rintro h dr ⟨high, low, ⟨hhigh, hkhigh⟩, ⟨hlow, hklow⟩, rfl⟩
    have hat := h _ _ hhigh hlow (by rw [SwingPoint.later_index]; omega)
      (by rw [SwingPoint.later_index]; omega)
    rw [DealingRange.inBars_iff hk]
    simpa using hat

theorem LatestSwing.swingAt {bars : List Bar} {k : Nat} (hk : 1 ≤ k) {κ : SwingType} {s : SwingPoint}
    (h : LatestSwing bars k bars.length κ s) : SwingAt bars k κ s.index s.price :=
  ⟨s, (mem_findSwingPoints hk).mpr h.fractal, h.kind, rfl, rfl⟩

/-- Without bars before the window the indices are right. -/
theorem inBars_of_short {bars : List Bar} {k : Nat} (hk : 1 ≤ k) {window : Int}
    (hlen : (bars.length : Int) ≤ window) {dr : DealingRange}
    (h : computeDealingRange bars k window = some dr) : dr.InBars bars k := by
  have hrecent : recentBars bars window = bars := by
    rw [recentBars, if_neg (not_lt.mpr hlen)]
  obtain ⟨high, low, hhigh, hlow, rfl⟩ := (computeDealingRange_eq_some hk).mp h
  rw [hrecent] at hhigh hlow
  exact (DealingRange.inBars_iff hk).mpr ⟨hhigh.swingAt hk, hlow.swingAt hk⟩

/-- Fifty flat bars, then the swing high at 20 and the swing low at 5. -/
def lateSwingBars : List Bar :=
  (List.range 50).map (fun i => minuteBar i 10 10 9 10) ++
    [minuteBar 50 10 10 9 10, minuteBar 51 10 20 10 15, minuteBar 52 15 15 5 10,
      minuteBar 53 10 10 9 10]

/-- The swings are bars 51 and 52. The range says 47 and 48, their places in the last fifty bars. -/
theorem indices_of_window : OhlcValid lateSwingBars ∧
    computeDealingRange lateSwingBars 1 50 = some ⟨20, 5, 25 / 2, 47, 48⟩ ∧
    (findSwingPoints lateSwingBars 1).map (fun s => (s.index, s.kind, s.price)) =
      [(51, .high, 20), (52, .low, 5)] ∧
    ¬ (⟨20, 5, 25 / 2, 47, 48⟩ : DealingRange).InBars lateSwingBars 1 := by
  refine ⟨by decide +kernel, by decide +kernel, by decide +kernel, fun h => ?_⟩
  exact absurd h.high (by decide +kernel)

theorem indices_right_four :
    let bars := [minuteBar 0 10 10 9 10, minuteBar 1 10 20 10 15, minuteBar 2 15 15 5 10,
      minuteBar 3 10 10 9 10]
    computeDealingRange bars 1 50 = some ⟨20, 5, 25 / 2, 1, 2⟩ ∧
      (⟨20, 5, 25 / 2, 1, 2⟩ : DealingRange).InBars bars 1 := by
  intro bars
  have hdr : computeDealingRange bars 1 50 = some ⟨20, 5, 25 / 2, 1, 2⟩ := by decide +kernel
  refine ⟨hdr, (dealing_range_indices_iff le_rfl (by decide)).mpr ?_ _ hdr⟩
  intro high low hhigh hlow _ _
  exact ⟨hhigh.swingAt le_rfl, hlow.swingAt le_rfl⟩

end MarketKill3r
