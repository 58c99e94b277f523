import MarketKill3r.Engine.Structure

/-!
# Swings of a list that grows

A fractal needs `k` bars on its right. At the last `k` positions of a list the bars so far may
allow one without confirming it; what is appended decides.

* `possibleSwings`: the swings that no bar of the list excludes, confirmed or not.
* `SwingPoint.Possible.eq_of_pending`: of one kind at most one swing awaits its confirmation.
* `swingsUpTo_append`: up to a position of the list, a longer list has the confirmed swings or all
  the possible ones. `swingsUpTo_realized` and `swingsUpTo_dropped`: which of them, from the bars
  appended.
-/

namespace MarketKill3r

/-! ## Inner and outer prices -/

/-- `p` lies strictly beyond `q`, on the outer side of the kind. -/
def SwingType.Outer : SwingType → ℚ → ℚ → Prop
  | .high, p, q => q < p
  | .low, p, q => p < q

theorem SwingType.beyond_iff {κ : SwingType} {p : ℚ} {b : Bar} :
    κ.Beyond p b ↔ κ.Outer p (κ.level b) := by
  cases κ <;> rfl

theorem SwingType.Outer.asymm {κ : SwingType} {p q : ℚ} (h : κ.Outer p q) : ¬ κ.Outer q p := by
  cases κ
  · exact not_lt_of_gt h
  · exact not_lt_of_gt h

theorem exists_above (qs : List ℚ) : ∃ v : ℚ, ∀ q ∈ qs, q < v := by
  induction qs with
  | nil => exact ⟨0, fun q hq => by cases hq⟩
  | cons p qs ih =>
    obtain ⟨v, hv⟩ := ih
    refine ⟨max v (p + 1), fun q hq => ?_⟩
    rcases List.mem_cons.mp hq with rfl | hq
    · exact lt_max_of_lt_right (lt_add_one q)
    · exact lt_max_of_lt_left (hv q hq)

theorem exists_below (qs : List ℚ) : ∃ v : ℚ, ∀ q ∈ qs, v < q := by
  obtain ⟨v, hv⟩ := exists_above (qs.map Neg.neg)
  exact ⟨-v, fun q hq => neg_lt.mp (hv (-q) (List.mem_map_of_mem hq))⟩

theorem SwingType.exists_outer (κ : SwingType) (qs : List ℚ) : ∃ v, ∀ q ∈ qs, κ.Outer v q := by
  cases κ
  · exact exists_above qs
  · exact exists_below qs

theorem SwingType.exists_inner (κ : SwingType) (qs : List ℚ) : ∃ v, ∀ q ∈ qs, κ.Outer q v := by
  cases κ
  · exact exists_below qs
  · exact exists_above qs

/-! ## Possible swings -/

/-- The swings that the bars do not exclude: `find_swing_points` run up to the last bar, where its
slices on the right are shorter. -/
def possibleSwings (bars : List Bar) (k : Nat) : List SwingPoint :=
  (List.range' k (bars.length - k)).flatMap (swingsAt bars k)

theorem mem_possibleSwings {bars : List Bar} {k : Nat} {s : SwingPoint} :
    s ∈ possibleSwings bars k ↔ s.Possible bars k := by
  rw [possibleSwings, List.mem_flatMap]
  constructor
  · rintro ⟨i, hi, hs⟩
    rw [List.mem_range'_1] at hi
    exact ((mem_swingsAt_possible hi.1).mp hs).2
  · intro h
    obtain ⟨b, hb, -⟩ := h.center
    obtain ⟨hlt, -⟩ := List.getElem?_eq_some_iff.mp hb
    have hk := h.left
    exact ⟨s.index, List.mem_range'_1.mpr ⟨hk, by omega⟩, (mem_swingsAt_possible hk).mpr ⟨rfl, h⟩⟩

/-- The swings of one kind come in the order of their positions. -/
theorem flatMap_swingsAt_pairwise (bars : List Bar) (k a l : Nat) :
    ((List.range' a l).flatMap (swingsAt bars k)).Pairwise
      (fun s t => s.kind = t.kind → s.index < t.index) := by
  rw [List.pairwise_flatMap]
  constructor
  · intro i _
    unfold swingsAt
    cases bars[i]? with
    | none => exact List.Pairwise.nil
    | some center =>
      simp only
      split <;> split <;> simp
  · refine List.Pairwise.imp ?_ List.pairwise_lt_range'
    intro i j hij s hs t ht _
    rw [(swingsAt_index hs).1, (swingsAt_index ht).1]
    exact hij

namespace SwingPoint

variable {bars : List Bar} {k : Nat} {s t : SwingPoint}

theorem Possible.index_lt (h : s.Possible bars k) : s.index < bars.length := by
  obtain ⟨b, hb, -⟩ := h.center
  exact (List.getElem?_eq_some_iff.mp hb).1

theorem Possible.of_append {more : List Bar} (h : s.Possible (bars ++ more) k)
    (hs : s.index < bars.length) : s.Possible bars k := by
  refine ⟨h.confirmed, h.left, ?_, fun j b hb => h.beyond j b ?_⟩
  · obtain ⟨b, hb, hbs⟩ := h.center
    exact ⟨b, by rwa [List.getElem?_append_left hs] at hb, hbs⟩
  · rw [List.getElem?_append_left (List.getElem?_eq_some_iff.mp hb).1, hb]

/-- A possible swing stays possible when the appended bars of its window do not exclude it. -/
theorem Possible.append {more : List Bar} (h : s.Possible bars k)
    (hmore : ∀ j b, more[j]? = some b → bars.length + j ≤ s.index + k → s.kind.Beyond s.price b) :
    s.Possible (bars ++ more) k := by
  have hlt := h.index_lt
  refine ⟨h.confirmed, h.left, ?_, fun j b hb h1 h2 hne => ?_⟩
  · obtain ⟨b, hb, hbs⟩ := h.center
    exact ⟨b, by rwa [List.getElem?_append_left hlt], hbs⟩
  · by_cases hj : j < bars.length
    · rw [List.getElem?_append_left hj] at hb
      exact h.beyond j b hb h1 h2 hne
    · rw [List.getElem?_append_right (by omega)] at hb
      exact hmore (j - bars.length) b hb (by omega)

/-- A confirmed swing stays one. -/
theorem Fractal.append (h : s.Fractal bars k) (more : List Bar) : s.Fractal (bars ++ more) k := by
  obtain ⟨hp, hr⟩ := fractal_iff.mp h
  refine fractal_iff.mpr ⟨hp.append fun j b _ hj => ?_, ?_⟩
  · omega
  · rw [List.length_append]
    omega

/-- Of two possible swings of one kind within `k` positions each would exceed the other. -/
theorem Possible.far (hs : s.Possible bars k) (ht : t.Possible bars k) (hkind : s.kind = t.kind)
    (hlt : s.index < t.index) : s.index + k < t.index := by
  by_contra hnear
  obtain ⟨b, hb, -, hbp⟩ := hs.center
  obtain ⟨c, hc, -, hcp⟩ := ht.center
  have h1 := hs.beyond t.index c hc (by omega) (by omega) (by omega)
  have h2 := ht.beyond s.index b hb (by omega) (by omega) (by omega)
  rw [SwingType.beyond_iff, hkind, ← hcp] at h1
  rw [SwingType.beyond_iff, ← hkind, ← hbp, hkind] at h2
  exact h1.asymm h2

/-- **Of one kind at most one possible swing awaits its confirmation.** -/
theorem Possible.eq_of_pending (hs : s.Possible bars k) (ht : t.Possible bars k)
    (hkind : s.kind = t.kind) (hps : bars.length ≤ s.index + k) (hpt : bars.length ≤ t.index + k) :
    s.index = t.index := by
  have h1 := hs.index_lt
  have h2 := ht.index_lt
  rcases Nat.lt_trichotomy s.index t.index with h | h | h
  · have := hs.far ht hkind h
    omega
  · exact h
  · have := ht.far hs hkind.symm h
    omega

/-- A possible swing is determined by its kind and its position. -/
theorem Possible.ext (hs : s.Possible bars k) (ht : t.Possible bars k) (hkind : s.kind = t.kind)
    (hidx : s.index = t.index) : s = t := by
  obtain ⟨b, hb, hb1, hb2⟩ := hs.center
  obtain ⟨c, hc, hc1, hc2⟩ := ht.center
  have hconf := hs.confirmed
  have hconf' := ht.confirmed
  cases s
  cases t
  simp only at *
  subst hkind hidx
  obtain rfl : b = c := by simpa [hb] using hc
  simp [hb1, hc1, hb2, hc2, hconf, hconf']

end SwingPoint

/-- A bar that goes beyond the `k` bars on each side is a swing. -/
theorem exists_swing {bars : List Bar} {k i : Nat} (hk : 1 ≤ k) (hl : k ≤ i)
    (hr : i + k < bars.length) {κ : SwingType} {b : Bar} (hb : bars[i]? = some b)
    (hout : ∀ j c, bars[j]? = some c → i ≤ j + k → j ≤ i + k → j ≠ i →
      κ.Outer (κ.level b) (κ.level c)) :
    ∃ s ∈ findSwingPoints bars k, s.kind = κ ∧ s.index = i :=
  ⟨⟨i, b.time, κ.level b, κ, some (i + k)⟩,
    (mem_findSwingPoints hk).mpr ⟨rfl, hl, hr, ⟨b, hb, rfl, rfl⟩,
      fun j c hc h1 h2 hne => SwingType.beyond_iff.mpr (hout j c hc h1 h2 hne)⟩, rfl, rfl⟩

/-! ## The swings of one kind up to a position -/

/-- The swings of kind `κ` at the positions up to `n`. -/
def swingsUpTo (κ : SwingType) (n : Nat) (swings : List SwingPoint) : List SwingPoint :=
  (swings.filter (·.kind = κ)).filter (·.index ≤ n)

theorem mem_swingsUpTo {κ : SwingType} {n : Nat} {swings : List SwingPoint} {s : SwingPoint} :
    s ∈ swingsUpTo κ n swings ↔ s ∈ swings ∧ s.kind = κ ∧ s.index ≤ n := by
  simp only [swingsUpTo, List.mem_filter, decide_eq_true_eq, and_assoc]

theorem swingsUpTo_pairwise {κ : SwingType} {n : Nat} {swings : List SwingPoint}
    (h : swings.Pairwise (fun s t => s.kind = t.kind → s.index < t.index)) :
    (swingsUpTo κ n swings).Pairwise (fun s t => s.index < t.index) := by
  refine List.Pairwise.imp_of_mem (fun {s t} hs ht hst => hst ?_) ((h.filter _).filter _)
  rw [(mem_swingsUpTo.mp hs).2.1, (mem_swingsUpTo.mp ht).2.1]

theorem findSwingPoints_pairwise (bars : List Bar) {k : Nat} (hk : 1 ≤ k) :
    (findSwingPoints bars k).Pairwise (fun s t => s.kind = t.kind → s.index < t.index) := by
  rw [findSwingPoints_eq bars hk]
  exact flatMap_swingsAt_pairwise bars k _ _

/-- Swings of one kind in the order of their positions are determined by which they are. -/
theorem swingsUpTo_congr {κ : SwingType} {n : Nat} {swings swings' : List SwingPoint}
    (h : swings.Pairwise (fun s t => s.kind = t.kind → s.index < t.index))
    (h' : swings'.Pairwise (fun s t => s.kind = t.kind → s.index < t.index))
    (hmem : ∀ s, s.kind = κ → s.index ≤ n → (s ∈ swings ↔ s ∈ swings')) :
    swingsUpTo κ n swings = swingsUpTo κ n swings' := by
  have : Std.Irrefl (fun s t : SwingPoint => s.index < t.index) := ⟨fun s => Nat.lt_irrefl _⟩
  have : Std.Antisymm (fun s t : SwingPoint => s.index < t.index) :=
    ⟨fun s t h1 h2 => absurd h1 (Nat.lt_asymm h2)⟩
  refine (swingsUpTo_pairwise h).eq_of_mem_iff (swingsUpTo_pairwise h') fun s => ?_
  rw [mem_swingsUpTo, mem_swingsUpTo]
  constructor
  · rintro ⟨hs, h1, h2⟩
    exact ⟨(hmem s h1 h2).mp hs, h1, h2⟩
  · rintro ⟨hs, h1, h2⟩
    exact ⟨(hmem s h1 h2).mpr hs, h1, h2⟩

section Append

variable {bars more : List Bar} {k n : Nat} {κ : SwingType}

theorem mem_possible_of_mem_append (hk : 1 ≤ k) (hn : n < bars.length) {s : SwingPoint}
    (hs : s ∈ findSwingPoints (bars ++ more) k) (hsn : s.index ≤ n) : s ∈ possibleSwings bars k := by
  have hp := (SwingPoint.fractal_iff.mp ((mem_findSwingPoints hk).mp hs)).1
  exact mem_possibleSwings.mpr (hp.of_append (Nat.lt_of_le_of_lt hsn hn))

theorem mem_append_of_mem (hk : 1 ≤ k) {s : SwingPoint} (hs : s ∈ findSwingPoints bars k) :
    s ∈ findSwingPoints (bars ++ more) k :=
  (mem_findSwingPoints hk).mpr (((mem_findSwingPoints hk).mp hs).append more)

/-- The appended bars confirm every possible swing when the first `k` of them stay inside. -/
theorem swingsUpTo_realized (hk : 1 ≤ k) (hn : n < bars.length) (hmore : k ≤ more.length)
    (hin : ∀ j b, more[j]? = some b → j < k → ∀ c ∈ bars, κ.Outer (κ.level c) (κ.level b)) :
    swingsUpTo κ n (findSwingPoints (bars ++ more) k) = swingsUpTo κ n (possibleSwings bars k) := by
  refine swingsUpTo_congr (findSwingPoints_pairwise _ hk) (flatMap_swingsAt_pairwise bars k _ _)
    fun s hkind hsn => ⟨fun hs => mem_possible_of_mem_append hk hn hs hsn, fun hs => ?_⟩
  have hp := mem_possibleSwings.mp hs
  have hlt := hp.index_lt
  refine (mem_findSwingPoints hk).mpr (SwingPoint.fractal_iff.mpr ⟨hp.append fun j b hb hj => ?_, ?_⟩)
  · obtain ⟨c, hc, -, hcp⟩ := hp.center
    rw [SwingType.beyond_iff, hcp, hkind]
    exact hin j b hb (by omega) c (List.mem_of_getElem? hc)
  · rw [List.length_append]
    omega

/-- Bars that confirm no pending swing of the kind leave its swings as they are. -/
theorem swingsUpTo_kept (hk : 1 ≤ k) (hn : n < bars.length)
    (hnone : ∀ s ∈ findSwingPoints (bars ++ more) k, s.kind = κ → s.Possible bars k →
      s.index + k < bars.length) :
    swingsUpTo κ n (findSwingPoints (bars ++ more) k) = swingsUpTo κ n (findSwingPoints bars k) := by
  refine swingsUpTo_congr (findSwingPoints_pairwise _ hk) (findSwingPoints_pairwise _ hk)
    fun s hkind hsn => ⟨fun hs => ?_, mem_append_of_mem hk⟩
  have hposs := mem_possibleSwings.mp (mem_possible_of_mem_append hk hn hs hsn)
  exact (mem_findSwingPoints hk).mpr (SwingPoint.fractal_iff.mpr ⟨hposs, hnone s hs hkind hposs⟩)

/-- They confirm none when the first of them goes beyond every bar. -/
theorem swingsUpTo_dropped (hk : 1 ≤ k) (hn : n < bars.length) {b : Bar} (hb : more[0]? = some b)
    (hout : ∀ c ∈ bars, κ.Outer (κ.level b) (κ.level c)) :
    swingsUpTo κ n (findSwingPoints (bars ++ more) k) = swingsUpTo κ n (findSwingPoints bars k) := by
  refine swingsUpTo_kept hk hn fun s hs hkind hposs => ?_
  by_contra hlate
  have hlt := hposs.index_lt
  have hbey := ((mem_findSwingPoints hk).mp hs).beyond bars.length b
    (by rw [List.getElem?_append_right (Nat.le_refl _), Nat.sub_self, hb]) (by omega) (by omega)
    (by omega)
  obtain ⟨c, hc, -, hcp⟩ := hposs.center
  rw [SwingType.beyond_iff, hcp, hkind] at hbey
  exact hbey.asymm (hout c (List.mem_of_getElem? hc))

/-- **The swings of a longer list up to a position of the list**: the confirmed ones, or all the
possible ones, since at most one of a kind is pending. -/
theorem swingsUpTo_append (hk : 1 ≤ k) (hn : n < bars.length) (κ : SwingType) (more : List Bar) :
    swingsUpTo κ n (findSwingPoints (bars ++ more) k) = swingsUpTo κ n (findSwingPoints bars k) ∨
    swingsUpTo κ n (findSwingPoints (bars ++ more) k) = swingsUpTo κ n (possibleSwings bars k) := by
  by_cases hall : ∀ s ∈ possibleSwings bars k, s.kind = κ → s.index ≤ n →
      s ∈ findSwingPoints (bars ++ more) k
  · right
    exact swingsUpTo_congr (findSwingPoints_pairwise _ hk) (flatMap_swingsAt_pairwise bars k _ _)
      fun s hkind hsn =>
        ⟨fun hs => mem_possible_of_mem_append hk hn hs hsn, fun hs => hall s hs hkind hsn⟩
  · left
    simp only [not_forall] at hall
    obtain ⟨t, ht, htkind, -, hnot⟩ := hall
    have ht := mem_possibleSwings.mp ht
    have hpend : ¬ t.index + k < bars.length := fun h =>
      hnot (mem_append_of_mem hk ((mem_findSwingPoints hk).mpr (SwingPoint.fractal_iff.mpr ⟨ht, h⟩)))
    refine swingsUpTo_kept hk hn fun s hs hkind hposs => ?_
    by_contra hlate
    have hkk := hkind.trans htkind.symm
    have hidx := hposs.eq_of_pending ht hkk (by omega) (by omega)
    rw [hposs.ext ht hkk hidx] at hs
    exact hnot hs

end Append

end MarketKill3r
