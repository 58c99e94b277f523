import MarketKill3r.Engine.Levels

/-!
# Structure events without a state

The events of `detect_structure_events` are described bar by bar: bar `i` breaks a level exactly when
it is the first bar, from the confirmation of the latest swing of the kind on, that closes beyond
that swing (`BreakAt`). The machine keeps, for each kind, the latest confirmed swing while no bar has
closed beyond it (`StructureState.Live`).

* `StructureState.Live.step`, `structure_live`: the invariant, for a step and for a run.
* `structureRun_iff`: an event of the run is a break of the specification, and conversely.
* `structure_events_spec`: the specification of the events and of the trend.
-/

namespace MarketKill3r

/-- The kind of swing that a break in the direction closes beyond. -/
def Direction.breaks : Direction → SwingType
  | .bullish => .high
  | .bearish => .low

/-- `s` is the swing of the kind with the largest index among those confirmed before bar `n`. -/
structure LatestSwing (bars : List Bar) (k n : Nat) (κ : SwingType) (s : SwingPoint) : Prop where
  fractal : s.Fractal bars k
  kind : s.kind = κ
  confirmed : s.index + k < n
  latest : ∀ t : SwingPoint, t.Fractal bars k → t.kind = κ → t.index + k < n → t.index ≤ s.index

/-- From the confirmation of the swing on, every bar before bar `n` closes within it. -/
def SwingPoint.Whole (bars : List Bar) (k n : Nat) (s : SwingPoint) : Prop :=
  ∀ j b, bars[j]? = some b → s.index + k ≤ j → j < n → s.kind.Respects s.price b.close

/-- **A break at bar `i`**: the bar closes beyond the latest swing of the kind that is confirmed by
then, and no bar between the confirmation and bar `i` did. -/
structure BreakAt (bars : List Bar) (k i : Nat) (d : Direction) (s : SwingPoint) : Prop where
  latest : LatestSwing bars k (i + 1) d.breaks s
  closes : ∃ bar, bars[i]? = some bar ∧ d.Crosses bar s
  first : ∀ j bar, bars[j]? = some bar → s.index + k ≤ j → j < i → ¬ d.Crosses bar s

theorem Direction.crosses_iff {d : Direction} {bar : Bar} {s : SwingPoint} (hs : s.kind = d.breaks) :
    d.Crosses bar s ↔ ¬ s.kind.Respects s.price bar.close := by
  cases d <;> simp only [Direction.breaks] at hs <;>
    simp [Direction.Crosses, SwingType.Respects, hs]

/-- Two swings of one kind at one bar are the same. -/
theorem SwingPoint.Fractal.ext {bars : List Bar} {k : Nat} {s t : SwingPoint}
    (hs : s.Fractal bars k) (ht : t.Fractal bars k) (hkind : s.kind = t.kind)
    (hidx : s.index = t.index) : s = t := by
  obtain ⟨b, hb, htime, hprice⟩ := hs.center
  obtain ⟨c, hc, htime', hprice'⟩ := ht.center
  have hconf := hs.confirmed
  have hconf' := ht.confirmed
  rw [hidx] at hb hconf
  obtain rfl : b = c := by rw [hb] at hc; exact Option.some.inj hc
  obtain ⟨i, τ, p, κ, cf⟩ := s
  obtain ⟨i', τ', p', κ', cf'⟩ := t
  simp only at hkind hidx htime htime' hprice hprice' hconf hconf'
  simp only [SwingPoint.mk.injEq]
  exact ⟨hidx, by rw [htime, htime'], by rw [hprice, hprice', hkind], hkind,
    by rw [hconf, hconf']⟩

theorem LatestSwing.ext {bars : List Bar} {k n : Nat} {κ : SwingType} {s t : SwingPoint}
    (hs : LatestSwing bars k n κ s) (ht : LatestSwing bars k n κ t) : s = t :=
  hs.fractal.ext ht.fractal (hs.kind.trans ht.kind.symm)
    (le_antisymm (ht.latest s hs.fractal hs.kind hs.confirmed)
      (hs.latest t ht.fractal ht.kind ht.confirmed))

/-! ## The protected swings -/

namespace StructureState

/-- The protected swing of a kind is the latest one that is confirmed, while it is whole. -/
def Live (bars : List Bar) (k n : Nat) (st : StructureState) : Prop :=
  ∀ κ s, st.protectedOf κ = some s ↔ LatestSwing bars k n κ s ∧ s.Whole bars k n

variable {bars : List Bar} {k i : Nat} {st : StructureState}

theorem live_init (bars : List Bar) (k : Nat) : StructureState.init.Live bars k 0 := by
  intro κ s
  constructor
  · intro h
    cases κ <;> simp [protectedOf, StructureState.init] at h
  · rintro ⟨h, -⟩
    exact absurd h.confirmed (Nat.not_lt_zero _)

/-- The swings of a kind that bar `i` confirms: there is at most one. -/
theorem mem_confirmedOn_kind (hk : 1 ≤ k) {κ : SwingType} {s : SwingPoint} :
    s ∈ (confirmedOn (findSwingPoints bars k) i).filter (·.kind = κ) ↔
      s.Fractal bars k ∧ s.kind = κ ∧ s.index + k = i := by
  simp only [confirmedOn, List.mem_filter, decide_eq_true_eq, mem_findSwingPoints hk]
  constructor
  · rintro ⟨⟨hf, hc⟩, hκ⟩
    exact ⟨hf, hκ, by rwa [hf.confirmKey hk] at hc⟩
  · rintro ⟨hf, hκ, hc⟩
    exact ⟨⟨hf, by rwa [hf.confirmKey hk]⟩, hκ⟩

/-- When bar `i` is judged, the latest swing that it may know of is protected, if the bars before it
left it whole. -/
theorem Live.learnAll (hk : 1 ≤ k) (h : st.Live bars k i) (κ : SwingType) (s : SwingPoint) :
    (st.learnAll (findSwingPoints bars k) i).protectedOf κ = some s ↔
      LatestSwing bars k (i + 1) κ s ∧ s.Whole bars k i := by
  rw [learnAll_protectedOf]
  rcases List.eq_nil_or_concat
      ((confirmedOn (findSwingPoints bars k) i).filter (·.kind = κ)) with hnone | ⟨ss, t, hss⟩
  · -- Bar `i` confirms no swing of the kind.
    have hno : ∀ t : SwingPoint, t.Fractal bars k → t.kind = κ → t.index + k ≠ i := by
      intro t ht hκ hti
      have := (mem_confirmedOn_kind hk).mpr ⟨ht, hκ, hti⟩
      rw [hnone] at this
      cases this
    rw [hnone, List.getLast?_nil, Option.none_or, h κ s]
    refine and_congr_left fun _ => ⟨fun hl => ?_, fun hl => ?_⟩
    · refine ⟨hl.fractal, hl.kind, by have := hl.confirmed; omega, fun t ht hκ hti => ?_⟩
      exact hl.latest t ht hκ (by have := hno t ht hκ; omega)
    · have := hno s hl.fractal hl.kind
      refine ⟨hl.fractal, hl.kind, by have := hl.confirmed; omega, fun t ht hκ hti => ?_⟩
      exact hl.latest t ht hκ (by omega)
  · -- The swing that bar `i` confirms is the latest one, and no bar before `i` follows it.
    have ht : t ∈ (confirmedOn (findSwingPoints bars k) i).filter (·.kind = κ) := by
      rw [hss]
      simp
    obtain ⟨htf, hκ, hti⟩ := (mem_confirmedOn_kind hk).mp ht
    have hlatest : LatestSwing bars k (i + 1) κ t :=
      ⟨htf, hκ, by omega, fun u _ _ hu => by omega⟩
    have hwhole : t.Whole bars k i := fun j b _ h1 h2 => by omega
    rw [hss, List.concat_eq_append, List.getLast?_concat, Option.some_or, Option.some_inj]
    constructor
    · rintro rfl
      exact ⟨hlatest, hwhole⟩
    · rintro ⟨hl, -⟩
      exact hlatest.ext hl

/-- A step keeps a protected swing exactly when the bar closes within it. -/
theorem step_protectedOf (hi : i ≤ bars.length) {bar : Bar} {swings : List SwingPoint}
    (h₁ : (st.learnAll swings i).Held bars k i) {κ : SwingType} {s : SwingPoint} :
    (structureStep swings st i bar).1.protectedOf κ = some s ↔
      (st.learnAll swings i).protectedOf κ = some s ∧ s.kind.Respects s.price bar.close := by
  refine ⟨respects_of_step hi h₁, fun ⟨hs, hresp⟩ => ?_⟩
  rw [(h₁ κ s hs).2.1] at hresp
  obtain ⟨e, -, -⟩ | ⟨t, ht, hp, e⟩ | ⟨t, ht, hp, e⟩ := structureStep_cases swings st i bar
  · rw [e]
    exact hs
  · rw [e]
    cases κ with
    | high =>
      obtain rfl := Option.some.inj (hs.symm.trans ht)
      exact absurd hp (not_lt.mpr hresp)
    | low => exact hs
  · rw [e]
    cases κ with
    | high => exact hs
    | low =>
      obtain rfl := Option.some.inj (hs.symm.trans ht)
      exact absurd hp (not_lt.mpr hresp)

/-- The invariant is kept by the step at bar `i`. -/
theorem Live.step (hv : OhlcValid bars) (hk : 1 ≤ k) {bar : Bar} (hb : bars[i]? = some bar)
    (hheld : st.Held bars k i) (h : st.Live bars k i) :
    (structureStep (findSwingPoints bars k) st i bar).1.Live bars k (i + 1) := by
  obtain ⟨hi, -⟩ := List.getElem?_eq_some_iff.mp hb
  intro κ s
  rw [step_protectedOf hi.le (hheld.learnAll hv hk), h.learnAll hk, and_assoc]
  refine and_congr_right fun hl => ⟨fun ⟨hw, hresp⟩ j b hj h1 h2 => ?_, fun hw => ⟨?_, ?_⟩⟩
  · by_cases hji : j = i
    · obtain rfl : bar = b := by rw [hji, hb] at hj; exact Option.some.inj hj
      exact hresp
    · exact hw j b hj h1 (by omega)
  · exact fun j b hj h1 h2 => hw j b hj h1 (by omega)
  · exact hw i bar hb (by have := hl.confirmed; omega) (by omega)

end StructureState

/-- The state before each bar of a run. -/
theorem structure_live {bars : List Bar} (hv : OhlcValid bars) {k : Nat} (hk : 1 ≤ k) {i : Nat}
    (hi : i ≤ bars.length) :
    (Machine.stateFrom (structureStep (findSwingPoints bars k)) .init 0 (bars.take i)).Live bars k
      i := by
  have h := Machine.run_invariant (structureStep (findSwingPoints bars k))
    (fun i st => st.Held bars k i ∧ st.Live bars k i)
    ⟨StructureState.held_init bars k, StructureState.live_init bars k⟩
    (fun _ _ _ hb hst => ⟨hst.1.step hv hk hb, hst.2.step hv hk hb hst.1⟩) i hi
  exact h.2

/-! ## The events -/

/-- A bar breaks the protected swing of a kind exactly when it closes beyond it: a break of the other
kind never takes its place. -/
theorem StructureState.step_breaks {bars : List Bar} {k i : Nat} {st : StructureState} {bar : Bar}
    {swings : List SwingPoint} (hi : i ≤ bars.length) (h₁ : (st.learnAll swings i).Held bars k i)
    {d : Direction} {s : SwingPoint} :
    (∃ e ∈ (structureStep swings st i bar).2, e.direction = d ∧ e.brokenSwing = s) ↔
      (st.learnAll swings i).protectedOf d.breaks = some s ∧ d.Crosses bar s := by
  have hkind := fun κ s hs => (h₁ κ s hs).2.1
  -- A protected swing that the bar closes beyond does not stay protected.
  have hgone : (st.learnAll swings i).protectedOf d.breaks = some s → d.Crosses bar s →
      (structureStep swings st i bar).1.protectedOf d.breaks ≠ some s := fun hs hc h =>
    (Direction.crosses_iff (hkind _ s hs)).mp hc ((step_protectedOf hi h₁).mp h).2
  obtain ⟨e, -, -⟩ | ⟨t, ht, hp, e⟩ | ⟨t, ht, hp, e⟩ := structureStep_cases swings st i bar
  all_goals
    rw [e] at hgone ⊢
    constructor
  · rintro ⟨_, he, -⟩
    cases he
  · rintro ⟨hs, hc⟩
    exact absurd hs (hgone hs hc)
  · rintro ⟨_, he, hd, hs⟩
    obtain rfl := List.mem_singleton.mp he
    subst hd hs
    exact ⟨ht, hkind .high t ht, hp⟩
  · rintro ⟨hs, hc⟩
    cases d with
    | bullish =>
      obtain rfl := Option.some.inj (hs.symm.trans ht)
      exact ⟨_, List.mem_singleton_self _, rfl, rfl⟩
    | bearish => exact absurd hs (hgone hs hc)
  · rintro ⟨_, he, hd, hs⟩
    obtain rfl := List.mem_singleton.mp he
    subst hd hs
    exact ⟨ht, hkind .low t ht, hp⟩
  · rintro ⟨hs, hc⟩
    cases d with
    | bullish => exact absurd hs (hgone hs hc)
    | bearish =>
      obtain rfl := Option.some.inj (hs.symm.trans ht)
      exact ⟨_, List.mem_singleton_self _, rfl, rfl⟩

theorem structureStep_length (swings : List SwingPoint) (st : StructureState) (i : Nat) (bar : Bar) :
    (structureStep swings st i bar).2.length ≤ 1 := by
  obtain ⟨e, -, -⟩ | ⟨_, -, -, e⟩ | ⟨_, -, -, e⟩ := structureStep_cases swings st i bar
  all_goals rw [e]; simp

/-- The type of an event compares its direction with the trend before it. -/
theorem structureStep_type {swings : List SwingPoint} {st : StructureState} {i : Nat} {bar : Bar}
    {e : StructureEvent} (he : e ∈ (structureStep swings st i bar).2) :
    e.eventType = if st.trend = some e.direction.opposite then .CHOCH else .BOS := by
  obtain ⟨h, -, -⟩ | ⟨_, -, -, h⟩ | ⟨_, -, -, h⟩ := structureStep_cases swings st i bar
  all_goals rw [h] at he
  · cases he
  · obtain rfl := List.mem_singleton.mp he
    simp only [StructureState.learnAll_trend]
    rfl
  · obtain rfl := List.mem_singleton.mp he
    simp only [StructureState.learnAll_trend]
    rfl

/-- The machine of `detect_structure_events` on all bars. -/
def structureRun (bars : List Bar) (k : Nat) : List StructureEvent :=
  Machine.outputsFrom (structureStep (findSwingPoints bars k)) .init 0 bars

section Run

variable {bars : List Bar} {k : Nat}

/-- **An event of the run is a break of the specification**, and conversely. -/
theorem structureRun_iff (hv : OhlcValid bars) (hk : 1 ≤ k) {i : Nat} {d : Direction}
    {s : SwingPoint} :
    (∃ e ∈ structureRun bars k, e.index = i ∧ e.direction = d ∧ e.brokenSwing = s) ↔
      BreakAt bars k i d s := by
  have hstep : ∀ bar, bars[i]? = some bar →
      ((∃ e ∈ (structureStep (findSwingPoints bars k) (Machine.stateFrom
        (structureStep (findSwingPoints bars k)) .init 0 (bars.take i)) i bar).2,
          e.direction = d ∧ e.brokenSwing = s) ↔ BreakAt bars k i d s) := by
    intro bar hb
    obtain ⟨hi, -⟩ := List.getElem?_eq_some_iff.mp hb
    rw [StructureState.step_breaks hi.le ((structure_held hv hk hi.le).learnAll hv hk),
      (structure_live hv hk hi.le).learnAll hk]
    constructor
    · rintro ⟨⟨hl, hw⟩, hc⟩
      exact ⟨hl, ⟨bar, hb, hc⟩, fun j b hj h1 h2 =>
        mt (Direction.crosses_iff hl.kind).mp (not_not.mpr (hw j b hj h1 h2))⟩
    · rintro ⟨hl, ⟨bar', hb', hc⟩, hfirst⟩
      obtain rfl := Option.some.inj (hb.symm.trans hb')
      exact ⟨⟨hl, fun j b hj h1 h2 =>
        not_not.mp (mt (Direction.crosses_iff hl.kind).mpr (hfirst j b hj h1 h2))⟩, hc⟩
  constructor
  · rintro ⟨e, he, rfl, hd, hs⟩
    obtain ⟨j, bar, hb, he⟩ := Machine.mem_run.mp he
    obtain rfl := structureStep_index _ _ _ _ e he
    exact (hstep bar hb).mp ⟨e, he, hd, hs⟩
  · intro h
    obtain ⟨bar, hb, -⟩ := h.closes
    obtain ⟨e, he, hd, hs⟩ := (hstep bar hb).mpr h
    exact ⟨e, Machine.mem_run.mpr ⟨i, bar, hb, he⟩, structureStep_index _ _ _ _ e he, hd, hs⟩

/-- A swing is broken after the bar that confirms it. -/
theorem BreakAt.after_confirmation (hv : OhlcValid bars) {i : Nat} {d : Direction} {s : SwingPoint}
    (h : BreakAt bars k i d s) : s.index + k < i := by
  obtain ⟨bar, hb, hc⟩ := h.closes
  refine Nat.lt_of_le_of_ne (Nat.le_of_lt_succ h.latest.confirmed) fun heq => ?_
  refine (Direction.crosses_iff h.latest.kind).mp hc ?_
  exact h.latest.fractal.unbroken hv i bar hb (by omega) (by omega)

/-- The length guard hides no event. -/
theorem detectStructureEvents_eq (hv : OhlcValid bars) (hk : 1 ≤ k) :
    (detectStructureEvents bars k).1 = structureRun bars k := by
  unfold detectStructureEvents
  split
  · rename_i hlen
    rw [eq_comm, List.eq_nil_iff_forall_not_mem]
    intro e he
    have h := (structureRun_iff hv hk).mp ⟨e, he, rfl, rfl, rfl⟩
    obtain ⟨bar, hb, -⟩ := h.closes
    obtain ⟨hi, -⟩ := List.getElem?_eq_some_iff.mp hb
    have h1 := h.after_confirmation hv
    have h2 := h.latest.fractal.left
    omega
  · rfl

/-- The trend before an event is the direction of the event before it. -/
theorem structureRun_type {past later : List StructureEvent} {e : StructureEvent}
    (h : structureRun bars k = past ++ e :: later) :
    e.eventType =
      if past.getLast?.map (·.direction) = some e.direction.opposite then .CHOCH else .BOS := by
  obtain ⟨j, bar, -, rfl, he⟩ := Machine.outputsFrom_split (structureStep_length _) h
  have htrend := Machine.stateFrom_last (structureStep (findSwingPoints bars k)) (·.trend)
    (·.direction) (structureStep_trend _) .init 0 (bars.take j)
  rw [structureStep_type he, htrend]
  simp [StructureState.init]

/-- The events come in the order of their bars, one at most for a bar, and each breaks a swing of its
own. -/
theorem structureRun_pairwise (hv : OhlcValid bars) (hk : 1 ≤ k) :
    (structureRun bars k).Pairwise fun e f => e.index < f.index ∧ e.brokenSwing ≠ f.brokenSwing := by
  have hlt : (structureRun bars k).Pairwise fun e f => e.index < f.index :=
    Machine.outputsFrom_pairwise (structureStep_length _) (structureStep_index _)
  refine hlt.imp_of_mem fun {e f} he hf hef => ⟨hef, fun hsame => ?_⟩
  have hbe := (structureRun_iff hv hk).mp ⟨e, he, rfl, rfl, rfl⟩
  have hbf := (structureRun_iff hv hk).mp ⟨f, hf, rfl, rfl, rfl⟩
  obtain ⟨bar, hb, hc⟩ := hbe.closes
  have hd : e.direction = f.direction := by
    have := hbe.latest.kind.symm.trans ((congrArg SwingPoint.kind hsame).trans hbf.latest.kind)
    cases hde : e.direction <;> cases hdf : f.direction <;> simp [hde, hdf, Direction.breaks] at this ⊢
  have hconf := hbe.latest.confirmed
  rw [hsame] at hc hconf
  exact hbf.first e.index bar hb (by omega) hef (hd ▸ hc)

end Run

/-- **The events meet a specification without a state.** For every bar, direction and swing there is
an event exactly when the specification has a break there; the events come in the order of their
bars, one at most for a bar, and no swing is broken twice; an event is a CHoCH exactly when the one
before it has the opposite direction; the trend is the direction of the last event. -/
theorem structure_events_spec {bars : List Bar} (hv : OhlcValid bars) {k : Nat} (hk : 1 ≤ k) :
    (∀ i d s, (∃ e ∈ (detectStructureEvents bars k).1,
        e.index = i ∧ e.direction = d ∧ e.brokenSwing = s) ↔ BreakAt bars k i d s) ∧
    (detectStructureEvents bars k).1.Pairwise
      (fun e f => e.index < f.index ∧ e.brokenSwing ≠ f.brokenSwing) ∧
    (∀ past e later, (detectStructureEvents bars k).1 = past ++ e :: later →
      e.eventType =
        if past.getLast?.map (·.direction) = some e.direction.opposite then .CHOCH else .BOS) ∧
    (detectStructureEvents bars k).2 =
      (detectStructureEvents bars k).1.getLast?.map (·.direction) := by
  refine ⟨fun i d s => ?_, ?_, fun past e later h => ?_, detectStructureEvents_trend bars k⟩
  · rw [detectStructureEvents_eq hv hk]
    exact structureRun_iff hv hk
  · rw [detectStructureEvents_eq hv hk]
    exact structureRun_pairwise hv hk
  · rw [detectStructureEvents_eq hv hk] at h
    exact structureRun_type h

/-- Five candles: the fourth closes above the swing high of the second one, the fifth below the swing
low between them. -/
def reversalBars : List Bar :=
  [⟨⟨0, 0⟩, 10, 11, 9, 10, 0⟩, ⟨⟨1, 0⟩, 12, 14, 12, 13, 0⟩, ⟨⟨2, 0⟩, 13, 13, 11, 12, 0⟩,
    ⟨⟨3, 0⟩, 12, 16, 12, 15, 0⟩, ⟨⟨4, 0⟩, 15, 15, 10, 10, 0⟩]

theorem reversal_valid : OhlcValid reversalBars := by decide +kernel

theorem reversal_events :
    (detectStructureEvents reversalBars 1).1.map (fun e => (e.eventType, e.index)) =
        [(.BOS, 3), (.CHOCH, 4)] ∧
      BreakAt reversalBars 1 3 .bullish ⟨1, ⟨1, 0⟩, 14, .high, some 2⟩ ∧
      BreakAt reversalBars 1 4 .bearish ⟨2, ⟨2, 0⟩, 11, .low, some 3⟩ := by
  obtain ⟨hspec, -⟩ := structure_events_spec (k := 1) reversal_valid le_rfl
  exact ⟨by decide +kernel, (hspec _ _ _).mp (by decide +kernel), (hspec _ _ _).mp (by decide +kernel)⟩

end MarketKill3r
