import MarketKill3r.Engine.Analysis
import MarketKill3r.Engine.Pending

/-!
# Which swing labels are right

`label_swings` compares each swing with the one of its kind before it, but it keeps the labels by bar.
A bar that is a swing high and a swing low at once has one entry for the two: the low's, or the high's
when the low is the first one.

* `labels_step`: what one swing writes.
* `labelSwings_single`, `labelSwings_both`: the entry of a bar with one swing and with two.
* `swing_labels_iff`: **the labels of the evidence are right exactly when no bar is a swing high and a
  swing low at once, other than the first bar with a swing.**
-/

namespace MarketKill3r

/-- The label of a swing at `price` whose predecessor of the same kind is at `prev`. -/
def SwingType.labelAfter : SwingType → ℚ → ℚ → StructureLabel
  | .high, prev, price => if prev < price then .HH else .LH
  | .low, prev, price => if prev < price then .HL else .LL

/-- `p` is the swing of the same kind before `s`. -/
structure Precedes (swings : List SwingPoint) (p s : SwingPoint) : Prop where
  mem : p ∈ swings
  kind : p.kind = s.kind
  before : p.index < s.index
  latest : ∀ t ∈ swings, t.kind = s.kind → t.index < s.index → t.index ≤ p.index

/-- The entry carries the label of its swing, and none if its swing is the first of its kind. -/
def SwingJson.Right (swings : List SwingPoint) (x : SwingJson) : Prop :=
  (∀ p, Precedes swings p x.swing →
    x.label = some (x.swing.kind.labelAfter p.price x.swing.price)) ∧
  ((∀ p, ¬ Precedes swings p x.swing) → x.label = none)

/-! ## The loop -/

/-- The last swing of the kind that the loop has read. -/
def LabelState.lastOf (st : LabelState) : SwingType → Option SwingPoint
  | .high => st.lastHigh
  | .low => st.lastLow

section Loop

variable {st : LabelState} {κ : SwingType} {i : Nat}

theorem lastOf_step (st : LabelState) (s : SwingPoint) (κ : SwingType) :
    (labelStep st s).lastOf κ = if s.kind = κ then some s else st.lastOf κ := by
  unfold labelStep
  cases hs : s.kind <;> cases κ <;> rfl

/-- What a swing writes: its label, at its bar, if there was a swing of its kind. -/
theorem labels_step (st : LabelState) (s : SwingPoint) (i : Nat) :
    (labelStep st s).labels i =
      if s.index = i then
        ((st.lastOf s.kind).map fun p => s.kind.labelAfter p.price s.price).or (st.labels i)
      else st.labels i := by
  unfold labelStep
  cases s.kind with
  | high =>
    cases hp : st.lastHigh with
    | none => simp [LabelState.lastOf, hp]
    | some p =>
      simp only [setLabel, LabelState.lastOf, hp, Option.map_some, Option.some_or,
        SwingType.labelAfter, eq_comm]
  | low =>
    cases hp : st.lastLow with
    | none => simp [LabelState.lastOf, hp]
    | some p =>
      simp only [setLabel, LabelState.lastOf, hp, Option.map_some, Option.some_or,
        SwingType.labelAfter, eq_comm]

theorem lastOf_foldl (xs : List SwingPoint) :
    (xs.foldl labelStep st).lastOf κ = ((xs.filter (·.kind = κ)).getLast?).or (st.lastOf κ) := by
  induction xs generalizing st with
  | nil => rfl
  | cons s xs ih =>
    rw [List.foldl_cons, ih, lastOf_step]
    by_cases hs : s.kind = κ
    · rw [List.filter_cons_of_pos (by simpa using hs), List.getLast?_cons, if_pos hs]
      cases (xs.filter (·.kind = κ)).getLast? <;> rfl
    · rw [List.filter_cons_of_neg (by simpa using hs), if_neg hs]

/-- Swings at other bars leave the entry of bar `i`. -/
theorem labels_foldl_of_ne {xs : List SwingPoint} (h : ∀ s ∈ xs, s.index ≠ i) :
    (xs.foldl labelStep st).labels i = st.labels i := by
  induction xs generalizing st with
  | nil => rfl
  | cons s xs ih =>
    rw [List.foldl_cons, ih fun t ht => h t (List.mem_cons_of_mem _ ht), labels_step,
      if_neg (h s List.mem_cons_self)]

end Loop

/-! ## The entry of a bar -/

/-- The swings come bar by bar, and of one bar first the high and then the low. -/
def SwingOrder (s t : SwingPoint) : Prop :=
  s.index < t.index ∨ (s.index = t.index ∧ s.kind = .high ∧ t.kind = .low)

theorem findSwingPoints_order (bars : List Bar) {k : Nat} (hk : 1 ≤ k) :
    (findSwingPoints bars k).Pairwise SwingOrder := by
  rw [findSwingPoints_eq bars hk, List.pairwise_flatMap]
  constructor
  · intro i _
    unfold swingsAt
    cases bars[i]? with
    | none => exact List.Pairwise.nil
    | some c =>
      dsimp only
      split_ifs <;> simp [SwingOrder]
  · refine List.Pairwise.imp ?_ List.pairwise_lt_range'
    intro i j hij s hs t ht
    left
    rw [(swingsAt_index hs).1, (swingsAt_index ht).1]
    exact hij

/-- The label that belongs to the swing, if any. -/
def ownLabel (swings : List SwingPoint) (s : SwingPoint) : Option StructureLabel :=
  (((swings.filter (·.index < s.index)).filter (·.kind = s.kind)).getLast?).map fun p =>
    s.kind.labelAfter p.price s.price

section Entry

variable {swings : List SwingPoint} {i : Nat}

theorem SwingOrder.index_le {s t : SwingPoint} (h : SwingOrder s t) : s.index ≤ t.index := by
  rcases h with h | h
  · exact h.le
  · exact h.1.le

/-- The loop up to bar `i`, at it, and after it. -/
theorem labelSwings_at (h : swings.Pairwise SwingOrder) (i : Nat) :
    labelSwings swings i = ((swings.filter (·.index = i)).foldl labelStep
      ((swings.filter (·.index < i)).foldl labelStep ⟨fun _ => none, none, none⟩)).labels i := by
  have hle : swings.Pairwise fun s t => s.index ≤ t.index := h.imp SwingOrder.index_le
  rw [labelSwings, hle.insertionSort_eq]
  conv_lhs => rw [Scan.split_at_key hle i, List.foldl_append, List.foldl_append]
  refine labels_foldl_of_ne fun s hs => ?_
  have := (List.mem_filter.mp hs).2
  simp only [decide_eq_true_eq] at this
  omega

/-- Before bar `i` nothing is written at it. -/
theorem labels_before (swings : List SwingPoint) (i : Nat) :
    ((swings.filter (·.index < i)).foldl labelStep ⟨fun _ => none, none, none⟩).labels i = none := by
  rw [labels_foldl_of_ne]
  intro s hs
  have := (List.mem_filter.mp hs).2
  simp only [decide_eq_true_eq] at this
  omega

theorem lastOf_before (swings : List SwingPoint) (i : Nat) (κ : SwingType) :
    ((swings.filter (·.index < i)).foldl labelStep ⟨fun _ => none, none, none⟩).lastOf κ =
      ((swings.filter (·.index < i)).filter (·.kind = κ)).getLast? := by
  rw [lastOf_foldl]
  cases κ <;> exact Option.or_none

/-- A bar with one swing has its label. -/
theorem labelSwings_single (h : swings.Pairwise SwingOrder) {s : SwingPoint} (hi : s.index = i)
    (hbar : swings.filter (·.index = i) = [s]) : labelSwings swings i = ownLabel swings s := by
  rw [labelSwings_at h, hbar, List.foldl_cons, List.foldl_nil, labels_step, if_pos hi, labels_before,
    lastOf_before, Option.or_none, ownLabel, hi]

/-- A bar with two swings has the low's label, or else the high's. -/
theorem labelSwings_both (h : swings.Pairwise SwingOrder) {high low : SwingPoint}
    (hhigh : high.index = i ∧ high.kind = .high) (hlow : low.index = i ∧ low.kind = .low)
    (hbar : swings.filter (·.index = i) = [high, low]) :
    labelSwings swings i = (ownLabel swings low).or (ownLabel swings high) := by
  rw [labelSwings_at h, hbar, List.foldl_cons, List.foldl_cons, List.foldl_nil, labels_step,
    if_pos hlow.1, lastOf_step, if_neg (by rw [hhigh.2, hlow.2]; decide), labels_step, if_pos hhigh.1,
    labels_before, lastOf_before, lastOf_before, Option.or_none, ownLabel, ownLabel, hhigh.1, hlow.1]

/-- The swings of a bar: one, or a high and a low. -/
theorem swings_of_bar (h : swings.Pairwise SwingOrder) {s : SwingPoint} (hs : s ∈ swings)
    (hi : s.index = i) : swings.filter (·.index = i) = [s] ∨
      ∃ high low, swings.filter (·.index = i) = [high, low] ∧
        (high.index = i ∧ high.kind = .high) ∧ low.index = i ∧ low.kind = .low := by
  have hbar : ∀ t ∈ swings.filter (·.index = i), t.index = i := fun t ht => by
    simpa using (List.mem_filter.mp ht).2
  have hmem : s ∈ swings.filter (·.index = i) := List.mem_filter.mpr ⟨hs, by simpa using hi⟩
  have hpair : (swings.filter (·.index = i)).Pairwise fun t u => t.kind = .high ∧ u.kind = .low := by
    refine (h.filter _).imp_of_mem fun {t u} ht hu htu => ?_
    rcases htu with hlt | ⟨-, hkinds⟩
    · exact absurd hlt (by rw [hbar t ht, hbar u hu]; exact Nat.lt_irrefl _)
    · exact hkinds
  match hfilter : swings.filter (·.index = i) with
  | [] => simp [hfilter] at hmem
  | [t] =>
    rw [hfilter, List.mem_singleton] at hmem
    exact Or.inl (by rw [hfilter, hmem])
  | [high, low] =>
    rw [hfilter] at hpair hbar
    obtain ⟨hh, hl⟩ := (List.pairwise_cons.mp hpair).1 low (List.mem_singleton_self _)
    exact Or.inr ⟨high, low, hfilter, ⟨hbar high List.mem_cons_self, hh⟩,
      hbar low (List.mem_cons_of_mem _ (List.mem_singleton_self _)), hl⟩
  | _ :: low :: last :: _ =>
    -- The second of three would be a low and a high.
    rw [hfilter] at hpair
    have h1 := ((List.pairwise_cons.mp hpair).1 low List.mem_cons_self).2
    have h2 := ((List.pairwise_cons.mp (List.pairwise_cons.mp hpair).2).1 last List.mem_cons_self).1
    rw [h1] at h2
    cases h2

/-! ## Right labels -/

theorem precedes_iff (h : swings.Pairwise SwingOrder) {p s : SwingPoint} : Precedes swings p s ↔
    ((swings.filter (·.index < s.index)).filter (·.kind = s.kind)).getLast? = some p := by
  have hmem : ∀ t, t ∈ (swings.filter (·.index < s.index)).filter (·.kind = s.kind) ↔
      t ∈ swings ∧ t.index < s.index ∧ t.kind = s.kind := fun t => by
    simp only [List.mem_filter, decide_eq_true_eq, and_assoc]
  have hpair : ((swings.filter (·.index < s.index)).filter (·.kind = s.kind)).Pairwise
      fun t u => t.index < u.index := by
    refine ((h.filter _).filter _).imp_of_mem fun {t u} ht hu htu => ?_
    rcases htu with hlt | ⟨-, hkt, hku⟩
    · exact hlt
    · have hsame := ((hmem t).mp ht).2.2.trans ((hmem u).mp hu).2.2.symm
      rw [hkt, hku] at hsame
      cases hsame
  rw [Scan.getLast?_eq_some_iff_max hpair, hmem]
  constructor
  · intro hp
    refine ⟨⟨hp.mem, hp.before, hp.kind⟩, fun t ht => ?_⟩
    obtain ⟨ht, hlt, hκ⟩ := (hmem t).mp ht
    exact hp.latest t ht hκ hlt
  · rintro ⟨⟨hmem', hlt, hκ⟩, hlatest⟩
    exact ⟨hmem', hκ, hlt, fun t ht htκ htlt => hlatest t ((hmem t).mpr ⟨ht, htlt, htκ⟩)⟩

/-- An entry is right when it carries the label of its swing. -/
theorem right_iff (h : swings.Pairwise SwingOrder) {x : SwingJson} :
    x.Right swings ↔ x.label = ownLabel swings x.swing := by
  unfold SwingJson.Right ownLabel
  simp only [precedes_iff h]
  cases hp : ((swings.filter (·.index < x.swing.index)).filter
    (·.kind = x.swing.kind)).getLast? with
  | none => simp
  | some p => simp

/-- A high and a low never have the same label. -/
theorem labelAfter_high_ne_low (prev price prev' price' : ℚ) :
    SwingType.high.labelAfter prev price ≠ SwingType.low.labelAfter prev' price' := by
  unfold SwingType.labelAfter
  dsimp only
  split_ifs <;> decide

/-- Without swings before its bar a swing has no label. -/
theorem ownLabel_eq_none {s : SwingPoint} (h : ∀ u ∈ swings, s.index ≤ u.index) :
    ownLabel swings s = none := by
  have hnone : swings.filter (·.index < s.index) = [] := by
    rw [List.filter_eq_nil_iff]
    intro u hu
    simpa using h u hu
  rw [ownLabel, hnone]
  rfl

/-- Without a label a swing is the first of its kind. -/
theorem no_swing_before {s : SwingPoint} (h : ownLabel swings s = none) :
    ∀ u ∈ swings, u.kind = s.kind → s.index ≤ u.index := by
  intro u hu hκ
  rw [ownLabel, Option.map_eq_none_iff, List.getLast?_eq_none_iff, List.eq_nil_iff_forall_not_mem] at h
  by_contra hlt
  refine h u ?_
  simp only [List.mem_filter, decide_eq_true_eq]
  exact ⟨⟨hu, by omega⟩, hκ⟩

/-- The entry of a bar with two swings is right for both only when nothing comes before the bar. -/
theorem both_right_iff (h : swings.Pairwise SwingOrder) {high low : SwingPoint}
    (hhigh : high.index = i ∧ high.kind = .high) (hlow : low.index = i ∧ low.kind = .low)
    (hbar : swings.filter (·.index = i) = [high, low]) :
    (labelSwings swings i = ownLabel swings high ∧ labelSwings swings i = ownLabel swings low) ↔
      ∀ u ∈ swings, i ≤ u.index := by
  rw [labelSwings_both h hhigh hlow hbar]
  constructor
  · rintro ⟨h1, h2⟩
    have heq : ownLabel swings high = ownLabel swings low := h1.symm.trans h2
    have hnone : ownLabel swings high = none := by
      cases ho : ownLabel swings high with
      | none => rfl
      | some l =>
        rw [ho] at heq
        obtain ⟨p, -, hp⟩ := Option.map_eq_some_iff.mp ho
        obtain ⟨q, -, hq⟩ := Option.map_eq_some_iff.mp heq.symm
        rw [hhigh.2] at hp
        rw [hlow.2] at hq
        exact absurd (hp.trans hq.symm) (labelAfter_high_ne_low _ _ _ _)
    intro u hu
    cases hκ : u.kind with
    | high =>
      have := no_swing_before hnone u hu (hκ.trans hhigh.2.symm)
      omega
    | low =>
      have := no_swing_before (heq.symm.trans hnone) u hu (hκ.trans hlow.2.symm)
      omega
  · intro hfirst
    rw [ownLabel_eq_none fun u hu => hhigh.1.trans_le (hfirst u hu),
      ownLabel_eq_none fun u hu => hlow.1.trans_le (hfirst u hu)]
    exact ⟨rfl, rfl⟩

/-- The entry of a bar is right for each of its swings when there is one, or when they are two and
nothing comes before the bar. -/
theorem bar_right_iff (h : swings.Pairwise SwingOrder) {s : SwingPoint} (hs : s ∈ swings) :
    (∀ t ∈ swings.filter (·.index = s.index), labelSwings swings s.index = ownLabel swings t) ↔
      ∀ t ∈ swings.filter (·.index = s.index), s.kind ≠ t.kind → ∀ u ∈ swings, s.index ≤ u.index := by
  rcases swings_of_bar h hs rfl with hbar | ⟨high, low, hbar, hhigh, hlow⟩
  · rw [hbar]
    simp only [List.mem_singleton, forall_eq]
    exact iff_of_true (labelSwings_single h rfl hbar) fun hκ => absurd rfl hκ
  · have hboth := both_right_iff h hhigh hlow hbar
    rw [hbar]
    simp only [List.forall_mem_cons, List.not_mem_nil, false_imp_iff, implies_true, and_true, hboth,
      hhigh.2, hlow.2]
    -- The bar is a high and a low, so one of the two differs from `s` in its kind.
    cases hκ : s.kind <;> simp

end Entry

/-- **When the swing labels are right.** Every entry of the evidence carries the label of its swing
exactly when a bar that is a swing high and a swing low at once has no swing before it. -/
theorem swing_labels_iff (bars : List Bar) {k : Nat} (hk : 1 ≤ k) (timeframe : String)
    (correlated : Option (List Bar)) (currentPrice : ℚ) :
    (∀ x ∈ (evidenceJson (tfEvidence timeframe bars correlated k) currentPrice).swings,
        x.Right (findSwingPoints bars k)) ↔
      ∀ s ∈ findSwingPoints bars k, ∀ t ∈ findSwingPoints bars k, s.index = t.index →
        s.kind ≠ t.kind → ∀ u ∈ findSwingPoints bars k, s.index ≤ u.index := by
  have horder := findSwingPoints_order bars hk
  have hright : (∀ x ∈ (evidenceJson (tfEvidence timeframe bars correlated k) currentPrice).swings,
      x.Right (findSwingPoints bars k)) ↔ ∀ s ∈ findSwingPoints bars k,
        labelSwings (findSwingPoints bars k) s.index = ownLabel (findSwingPoints bars k) s := by
    simp only [evidenceJson, tfEvidence, List.forall_mem_map, right_iff horder]
  rw [hright]
  constructor
  · intro h s hs t ht hidx
    refine (bar_right_iff horder hs).mp (fun u hu => ?_) t (List.mem_filter.mpr ⟨ht, by simp [hidx]⟩)
    obtain ⟨hu, hui⟩ := List.mem_filter.mp hu
    rw [← of_decide_eq_true hui]
    exact h u hu
  · intro h s hs
    refine (bar_right_iff horder hs).mpr (fun t ht => ?_) s (List.mem_filter.mpr ⟨hs, by simp⟩)
    obtain ⟨ht, hti⟩ := List.mem_filter.mp ht
    exact h s hs t ht (of_decide_eq_true hti).symm

/-- A swing high and a swing low, and then a bar that is both. -/
def outsideBars : List Bar :=
  [minuteBar 0 10 10 9 10, minuteBar 1 10 15 10 11, minuteBar 2 11 11 8 9, minuteBar 3 9 12 9 11,
    minuteBar 4 11 16 7 10, minuteBar 5 10 12 9 11]

/-- The swing high of bar 4, above the one of bar 1, is labelled as a low. -/
theorem outside_bar_mislabelled : OhlcValid outsideBars ∧
    (evidenceJson (tfEvidence "M15" outsideBars none 1) 11).swings.map
        (fun x => (x.swing.index, x.swing.kind, x.swing.price, x.label)) =
      [(1, .high, 15, none), (2, .low, 8, none), (4, .high, 16, some .LL), (4, .low, 7, some .LL)] ∧
    ¬ ∀ x ∈ (evidenceJson (tfEvidence "M15" outsideBars none 1) 11).swings,
      x.Right (findSwingPoints outsideBars 1) := by
  have hlabels : (evidenceJson (tfEvidence "M15" outsideBars none 1) 11).swings.map
      (fun x => (x.swing.index, x.swing.kind, x.swing.price, x.label)) =
    [(1, .high, 15, none), (2, .low, 8, none), (4, .high, 16, some .LL), (4, .low, 7, some .LL)] := by
    decide +kernel
  refine ⟨by decide +kernel, hlabels, fun h => ?_⟩
  obtain ⟨x, hx, hlabel⟩ : ∃ x ∈ (evidenceJson (tfEvidence "M15" outsideBars none 1) 11).swings,
      x.label ≠ ownLabel (findSwingPoints outsideBars 1) x.swing := by decide +kernel
  exact hlabel ((right_iff (findSwingPoints_order outsideBars le_rfl)).mp (h x hx))

/-- Two swing highs with a low between them, each bar a swing of one kind. -/
def zigzagBars : List Bar :=
  [minuteBar 0 10 10 9 10, minuteBar 1 10 15 10 11, minuteBar 2 11 11 8 9, minuteBar 3 9 16 9 11,
    minuteBar 4 11 12 9 10]

/-- The higher of the two highs is labelled so. -/
theorem labels_right :
    (evidenceJson (tfEvidence "M15" zigzagBars none 1) 10).swings.map
        (fun x => (x.swing.index, x.swing.kind, x.label)) =
      [(1, .high, none), (2, .low, none), (3, .high, some .HH)] ∧
    ∀ x ∈ (evidenceJson (tfEvidence "M15" zigzagBars none 1) 10).swings,
      x.Right (findSwingPoints zigzagBars 1) :=
  ⟨by decide +kernel, (swing_labels_iff _ le_rfl "M15" none 10).mpr (by decide +kernel)⟩

end MarketKill3r
