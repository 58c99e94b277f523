import MarketKill3r.Engine.Structure

/-!
# Protected levels

While a swing is protected no bar closes beyond it: from `lookback` bars before the swing on, every
close respects its price (`SwingPoint.Unbroken`). Two protected levels were therefore respected by
one common close, and the high is not below the low (`StructureState.Held.apart`), so no bar breaks
both.

* `learnAll_protectedOf`: the protected swing of a kind after the swings of a bar are known.
* `StructureState.Held.step`, `structure_held`: the invariant, for a step and for a run.
* `levels_never_cross`: **no bar meets crossed levels**, and `detectStructureEvents_plain`: so the loop
  needs no choice between two breaks.
-/

namespace MarketKill3r

/-! ## The protected swing of a kind -/

namespace StructureState

/-- The protected swing of the kind. -/
def protectedOf (st : StructureState) : SwingType → Option SwingPoint
  | .high => st.protectedHigh
  | .low => st.protectedLow

theorem ext_protected {st st' : StructureState} (ht : st.trend = st'.trend)
    (hp : ∀ κ, st.protectedOf κ = st'.protectedOf κ) : st = st' := by
  obtain ⟨t, h, l⟩ := st
  obtain ⟨t', h', l'⟩ := st'
  have h1 := hp .high
  have h2 := hp .low
  simp only [protectedOf] at ht h1 h2
  rw [ht, h1, h2]

theorem learn_protectedOf (st : StructureState) (s : SwingPoint) (κ : SwingType) :
    (st.learn s).protectedOf κ = if s.kind = κ then some s else st.protectedOf κ := by
  unfold learn
  cases hs : s.kind <;> cases κ <;> rfl

/-- The last swing of the kind that the bar confirms is protected, or the one that was. -/
theorem learnAll_protectedOf (st : StructureState) (swings : List SwingPoint) (i : Nat)
    (κ : SwingType) :
    (st.learnAll swings i).protectedOf κ =
      ((confirmedOn swings i).filter (·.kind = κ)).getLast?.or (st.protectedOf κ) := by
  unfold learnAll
  induction confirmedOn swings i generalizing st with
  | nil => rfl
  | cons s ss ih =>
    rw [List.foldl_cons, ih, learn_protectedOf]
    by_cases hs : s.kind = κ
    · rw [List.filter_cons_of_pos (by simpa using hs), List.getLast?_cons, if_pos hs]
      cases (ss.filter (·.kind = κ)).getLast? <;> rfl
    · rw [List.filter_cons_of_neg (by simpa using hs), if_neg hs]

end StructureState

/-! ## Closes that respect a level -/

/-- A close `x` respects a level of the kind at price `p`. -/
def SwingType.Respects : SwingType → ℚ → ℚ → Prop
  | .high, p, x => x ≤ p
  | .low, p, x => p ≤ x

/-- From `k` bars before the swing on, every bar before bar `i` closes within it. -/
def SwingPoint.Unbroken (bars : List Bar) (k i : Nat) (s : SwingPoint) : Prop :=
  ∀ j b, bars[j]? = some b → s.index ≤ j + k → j < i → s.kind.Respects s.price b.close

/-- The bars around a fractal close within it. -/
theorem SwingPoint.Fractal.unbroken {bars : List Bar} (hv : OhlcValid bars) {k : Nat}
    {s : SwingPoint} (h : s.Fractal bars k) : s.Unbroken bars k (s.index + k + 1) := by
  intro j b hb h1 h2
  have hbar := hv.getElem? hb
  have hlo := hbar.low_le_close
  have hhi := hbar.close_le_high
  by_cases hj : j = s.index
  · obtain ⟨c, hc, -, hp⟩ := h.center
    obtain rfl : b = c := by rw [hj, hc] at hb; exact (Option.some.inj hb).symm
    rw [hp]
    cases s.kind with
    | high => exact hhi
    | low => exact hlo
  · have hout := h.beyond j b hb h1 (by omega) hj
    cases hs : s.kind with
    | high =>
      simp only [hs, SwingType.Beyond] at hout
      simp only [SwingType.Respects]
      linarith
    | low =>
      simp only [hs, SwingType.Beyond] at hout
      simp only [SwingType.Respects]
      linarith

namespace StructureState

/-- Each protected swing is a fractal before bar `i` that no bar has broken. -/
def Held (bars : List Bar) (k i : Nat) (st : StructureState) : Prop :=
  ∀ κ s, st.protectedOf κ = some s →
    s.Fractal bars k ∧ s.kind = κ ∧ s.index < i ∧ s.Unbroken bars k i

variable {bars : List Bar} {k i : Nat} {st : StructureState}

/-- Two protected levels do not cross: the later of their two bars closes between them. -/
theorem Held.apart (h : st.Held bars k i) (hi : i ≤ bars.length) {s l : SwingPoint}
    (hs : st.protectedHigh = some s) (hl : st.protectedLow = some l) : l.price ≤ s.price := by
  obtain ⟨-, hsk, hsi, hsu⟩ := h .high s hs
  obtain ⟨-, hlk, hli, hlu⟩ := h .low l hl
  have hlt : max s.index l.index < i := max_lt hsi hli
  have hb := List.getElem?_eq_getElem (Nat.lt_of_lt_of_le hlt hi)
  have h1 := hsu _ _ hb (le_trans (le_max_left _ _) (Nat.le_add_right _ k)) hlt
  have h2 := hlu _ _ hb (le_trans (le_max_right _ _) (Nat.le_add_right _ k)) hlt
  rw [hsk] at h1
  rw [hlk] at h2
  exact le_trans h2 h1

/-- No bar breaks both levels. -/
theorem Held.not_both (h : st.Held bars k i) (hi : i ≤ bars.length) {bar : Bar} {s : SwingPoint}
    (hs : st.brokeHigh bar = some s) : st.brokeLow bar = none := by
  cases hl : st.brokeLow bar with
  | none => rfl
  | some l =>
    simp only [brokeHigh, brokeLow, Option.filter_eq_some_iff, decide_eq_true_eq] at hs hl
    have := h.apart hi hs.1 hl.1
    linarith [hs.2, hl.2]

theorem Held.broke_one (h : st.Held bars k i) (hi : i ≤ bars.length) (bar : Bar) :
    st.brokeHigh bar = none ∨ st.brokeLow bar = none := by
  cases hs : st.brokeHigh bar with
  | none => exact Or.inl rfl
  | some s => exact Or.inr (h.not_both hi hs)

/-- The swings that bar `i` confirms have not been broken before it. -/
theorem Held.learnAll (hv : OhlcValid bars) (hk : 1 ≤ k) (h : st.Held bars k i) :
    (st.learnAll (findSwingPoints bars k) i).Held bars k i := by
  intro κ s hs
  rw [learnAll_protectedOf, Option.or_eq_some_iff] at hs
  rcases hs with hs | ⟨-, hs⟩
  · have hmem := List.mem_of_getLast? hs
    simp only [confirmedOn, List.mem_filter, decide_eq_true_eq] at hmem
    obtain ⟨⟨hmem, hconf⟩, hkind⟩ := hmem
    have hf := (mem_findSwingPoints hk).mp hmem
    rw [hf.confirmKey hk] at hconf
    refine ⟨hf, hkind, by omega, fun j b hb h1 h2 => ?_⟩
    exact hf.unbroken hv j b hb h1 (by omega)
  · exact h κ s hs

/-- The swings that a step leaves protected respect its close. -/
theorem respects_of_step (hi : i ≤ bars.length) {bar : Bar} {swings : List SwingPoint}
    (h₁ : (st.learnAll swings i).Held bars k i) {κ : SwingType} {s : SwingPoint}
    (hs : (structureStep swings st i bar).1.protectedOf κ = some s) :
    (st.learnAll swings i).protectedOf κ = some s ∧ s.kind.Respects s.price bar.close := by
  obtain ⟨e, hhigh, hlow⟩ | ⟨t, ht, hp, e⟩ | ⟨t, ht, hp, e⟩ := structureStep_cases swings st i bar
  · -- Nothing is broken.
    rw [e] at hs
    refine ⟨hs, ?_⟩
    rw [(h₁ κ s hs).2.1]
    cases κ with
    | high =>
      simp only [protectedOf] at hs
      simpa [brokeHigh, hs, Option.filter_eq_none_iff, SwingType.Respects] using hhigh
    | low =>
      simp only [protectedOf] at hs
      simpa [brokeLow, hs, Option.filter_eq_none_iff, SwingType.Respects] using hlow
  · -- The high is broken: the low lies below it.
    rw [e] at hs
    cases κ with
    | high => simp [protectedOf] at hs
    | low =>
      refine ⟨hs, ?_⟩
      have hap := h₁.apart hi ht hs
      rw [(h₁ .low s hs).2.1]
      exact le_trans hap hp.le
  · -- The low is broken: the high lies above it.
    rw [e] at hs
    cases κ with
    | high =>
      refine ⟨hs, ?_⟩
      have hap := h₁.apart hi hs ht
      rw [(h₁ .high s hs).2.1]
      exact le_trans hp.le hap
    | low => simp [protectedOf] at hs

/-- The invariant is kept by the step at bar `i`. -/
theorem Held.step (hv : OhlcValid bars) (hk : 1 ≤ k) {bar : Bar} (hb : bars[i]? = some bar)
    (h : st.Held bars k i) :
    (structureStep (findSwingPoints bars k) st i bar).1.Held bars k (i + 1) := by
  obtain ⟨hi, -⟩ := List.getElem?_eq_some_iff.mp hb
  have h₁ := h.learnAll hv hk
  intro κ s hs
  obtain ⟨hs, hresp⟩ := respects_of_step hi.le h₁ hs
  obtain ⟨hf, hkind, hlt, hu⟩ := h₁ κ s hs
  refine ⟨hf, hkind, by omega, fun j b hj h1 h2 => ?_⟩
  by_cases hji : j = i
  · obtain rfl : bar = b := by rw [hji, hb] at hj; exact Option.some.inj hj
    exact hresp
  · exact hu j b hj h1 (by omega)

theorem held_init (bars : List Bar) (k : Nat) : StructureState.init.Held bars k 0 := by
  intro κ s hs
  cases κ <;> simp [protectedOf, StructureState.init] at hs

end StructureState

/-- **The protected levels of a run** are held before every bar. -/
theorem structure_held {bars : List Bar} (hv : OhlcValid bars) {k : Nat} (hk : 1 ≤ k) {i : Nat}
    (hi : i ≤ bars.length) :
    (Machine.stateFrom (structureStep (findSwingPoints bars k)) .init 0 (bars.take i)).Held bars k
      i :=
  Machine.run_invariant (structureStep (findSwingPoints bars k))
    (fun i st => st.Held bars k i) (StructureState.held_init bars k)
    (fun _ _ _ hb hst => hst.step hv hk hb) i hi

/-! ## No bar breaks both levels -/

/-- The state at bar `i` of the loop, after the swings that the bar confirms have been taken over. -/
def learnedAt (bars : List Bar) (lookback : Int) (i : Nat) : StructureState :=
  (Machine.stateFrom (structureStep (findSwingPoints bars lookback)) .init 0
    (bars.take i)).learnAll (findSwingPoints bars lookback) i

/-- The body of the loop without the choice between two breaks. -/
def structureStepPlain (swings : List SwingPoint) (st : StructureState) (i : Nat) (bar : Bar) :
    StructureState × List StructureEvent :=
  let st := st.learnAll swings i
  emitBreak st i bar
    (((st.brokeHigh bar).map (.bullish, ·)).or ((st.brokeLow bar).map (.bearish, ·)))

/-- **Protected levels never cross**: at every bar the protected high is not below the protected low,
and the bar does not break both. -/
theorem levels_never_cross {bars : List Bar} (hv : OhlcValid bars) {lookback : Int}
    (hk : 1 ≤ lookback) {i : Nat} {bar : Bar} (hb : bars[i]? = some bar) :
    (∀ s l, (learnedAt bars lookback i).protectedHigh = some s →
      (learnedAt bars lookback i).protectedLow = some l → l.price ≤ s.price) ∧
    ((learnedAt bars lookback i).brokeHigh bar = none ∨
      (learnedAt bars lookback i).brokeLow bar = none) := by
  obtain ⟨k, rfl⟩ := Int.eq_ofNat_of_zero_le (show 0 ≤ lookback by omega)
  have hk' : 1 ≤ k := by omega
  have hi : i ≤ bars.length := (List.getElem?_eq_some_iff.mp hb).1.le
  have hheld : (learnedAt bars k i).Held bars k i := (structure_held hv hk' hi).learnAll hv hk'
  exact ⟨fun s l hs hl => hheld.apart hi hs hl, hheld.broke_one hi bar⟩

/-- A swing high at 5 and a swing low at 0, both known at the fourth bar. -/
theorem levels_apart_at_four :
    let bars := [⟨⟨0, 0⟩, 2, 3, 1, 2, 0⟩, ⟨⟨60, 0⟩, 3, 5, 2, 3, 0⟩, ⟨⟨120, 0⟩, 2, 3, 0, 1, 0⟩,
      ⟨⟨180, 0⟩, 2, 4, 1, 3, 0⟩]
    OhlcValid bars ∧ (learnedAt bars 1 3).protectedHigh.map (·.price) = some 5 ∧
      (learnedAt bars 1 3).protectedLow.map (·.price) = some 0 ∧
      ((learnedAt bars 1 3).brokeHigh ⟨⟨180, 0⟩, 2, 4, 1, 3, 0⟩ = none ∨
        (learnedAt bars 1 3).brokeLow ⟨⟨180, 0⟩, 2, 4, 1, 3, 0⟩ = none) := by
  intro bars
  have hv : OhlcValid bars := by decide +kernel
  exact ⟨hv, by decide +kernel, by decide +kernel,
    (@levels_never_cross bars hv 1 (by decide) 3 _ rfl).2⟩

theorem structureStepPlain_eq {swings : List SwingPoint} {st : StructureState} {i : Nat} {bar : Bar}
    (h : (st.learnAll swings i).brokeHigh bar = none ∨ (st.learnAll swings i).brokeLow bar = none) :
    structureStepPlain swings st i bar = structureStep swings st i bar := by
  have hchoice : ∀ b s : Option SwingPoint, b = none ∨ s = none →
      (b.map (Direction.bullish, ·)).or (s.map (Direction.bearish, ·)) = chooseBreak bar b s := by
    rintro (_ | b) (_ | s) h
    · rfl
    · rfl
    · rfl
    · simp at h
  exact congrArg (emitBreak (st.learnAll swings i) i bar) (hchoice _ _ h)

/-- The choice between two breaks is never made: a run without it is the same run. -/
theorem detectStructureEvents_plain {bars : List Bar} (hv : OhlcValid bars) {k : Nat} (hk : 1 ≤ k) :
    let step := structureStep (findSwingPoints bars k)
    let plain := structureStepPlain (findSwingPoints bars k)
    Machine.stateFrom plain .init 0 bars = Machine.stateFrom step .init 0 bars ∧
      Machine.outputsFrom plain .init 0 bars = Machine.outputsFrom step .init 0 bars := by
  intro step plain
  have hstep : ∀ j bar st, bars[j]? = some bar → st.Held bars k (0 + j) →
      plain (id st) (0 + j) (id bar) =
        (id (step st (0 + j) bar).1, (step st (0 + j) bar).2.map id) := by
    intro j bar st hb hst
    rw [Nat.zero_add] at hst ⊢
    have hj : j ≤ bars.length := (List.getElem?_eq_some_iff.mp hb).1.le
    rw [List.map_id]
    exact structureStepPlain_eq ((hst.learnAll hv hk).broke_one hj bar)
  have hheld : ∀ j bar (st : StructureState), bars[j]? = some bar → st.Held bars k (0 + j) →
      (step st (0 + j) bar).1.Held bars k (0 + j + 1) := by
    intro j bar st hb hst
    rw [Nat.zero_add] at hst ⊢
    exact hst.step hv hk hb
  have hrun := Machine.run_map (I := fun i (st : StructureState) => st.Held bars k i)
    (StructureState.held_init bars k) hheld hstep
  simpa using hrun

end MarketKill3r
