import MarketKill3r.Engine.Analysis
import MarketKill3r.Engine.Pending

/-!
# Which sweeps are genuine

The docstring of `liquidity.py` asks of a sweep that it occurs after its pool exists, and that it
closes back on the original side. The loop looks at one bar at a time: it takes in the swing that the
bar itself confirms before it looks for pools, and it does not look at the bar before.

* `sweepState_before`: the state before bar `i` holds the swings confirmed before it.
* `reported_iff`: the levels reported at a bar, without the loop.
* `GenuineSweep`: what the docstring promises.
* `sweeps_genuine_iff`: **every sweep is genuine exactly when no bar comes back from beyond a pooled
  level, and none sweeps a pool of which it confirms the second swing itself.**
-/

namespace MarketKill3r

/-! ## The state of the loop -/

/-- The kind of the swings that make up the pools of a side. -/
def SweepSide.swings : SweepSide → SwingType
  | .buySide => .high
  | .sellSide => .low

/-- The swings of a kind that are confirmed before bar `n`. -/
def confirmedBefore (swings : List SwingPoint) (κ : SwingType) (n : Nat) : List SwingPoint :=
  swings.filter fun s => s.confirmedAt.any (· < n) && s.kind = κ

/-- A swing is confirmed `lookback` bars after its own. -/
theorem swing_confirmedAt {bars : List Bar} {lookback : Int} {s : SwingPoint}
    (h : s ∈ findSwingPoints bars lookback) :
    ∃ k : Nat, 1 ≤ k ∧ lookback = k ∧ s.confirmedAt = some (s.index + k) := by
  by_cases hlb : lookback < 1
  · rw [findSwingPoints_of_lt_one _ hlb] at h
    cases h
  · obtain ⟨k, rfl⟩ := Int.eq_ofNat_of_zero_le (show 0 ≤ lookback by omega)
    have hk : 1 ≤ k := by omega
    exact ⟨k, hk, rfl, ((mem_findSwingPoints hk).mp h).confirmed⟩

/-- The swings come in the order of their confirmation. -/
theorem findSwingPoints_confirmed (bars : List Bar) (lookback : Int) :
    (findSwingPoints bars lookback).Pairwise fun s t =>
      ∀ c d, s.confirmedAt = some c → t.confirmedAt = some d → c ≤ d := by
  by_cases hlb : lookback < 1
  · rw [findSwingPoints_of_lt_one _ hlb]
    exact List.Pairwise.nil
  obtain ⟨k, rfl⟩ := Int.eq_ofNat_of_zero_le (show 0 ≤ lookback by omega)
  rw [findSwingPoints_eq bars (by omega), List.pairwise_flatMap]
  constructor
  · intro i _
    refine List.pairwise_of_forall_mem_list fun s hs t ht c d hc hd => ?_
    rw [(swingsAt_index hs).2] at hc
    rw [(swingsAt_index ht).2] at hd
    cases hc
    cases hd
    exact Nat.le_refl _
  · refine List.Pairwise.imp ?_ List.pairwise_lt_range'
    intro i j hij s hs t ht c d hc hd
    rw [(swingsAt_index hs).2] at hc
    rw [(swingsAt_index ht).2] at hd
    cases hc
    cases hd
    omega

/-- Bar `i` adds the swings that it confirms. -/
theorem confirmedBefore_succ (bars : List Bar) (lookback : Int) (κ : SwingType) (i : Nat) :
    confirmedBefore (findSwingPoints bars lookback) κ i ++
        ((findSwingPoints bars lookback).filter fun s => s.confirmedAt = some i).filter
          (·.kind = κ) =
      confirmedBefore (findSwingPoints bars lookback) κ (i + 1) := by
  rw [confirmedBefore, confirmedBefore, List.filter_filter, Scan.filter_append_filter]
  · refine List.filter_congr fun s _ => ?_
    cases hc : s.confirmedAt with
    | none => simp
    | some c =>
      by_cases hκ : s.kind = κ
      · simp only [hκ, Option.any_some, decide_true, Bool.and_true, Bool.true_and,
          Option.some.injEq, ← Bool.decide_or, decide_eq_decide]
        omega
      · simp [hκ]
  · intro s _ hs hs'
    simp only [Bool.and_eq_true, Option.any_eq_true, decide_eq_true_eq] at hs hs'
    obtain ⟨⟨c, hc, hlt⟩, -⟩ := hs
    rw [hs'.2] at hc
    cases hc
    exact Nat.lt_irrefl _ hlt
  · refine (findSwingPoints_confirmed bars lookback).imp fun {s t} hst hs ht => ?_
    simp only [Bool.and_eq_true, Option.any_eq_true, decide_eq_true_eq] at hs ht
    obtain ⟨⟨c, hc, hlt⟩, -⟩ := ht
    have := hst _ _ hs.2 hc
    omega

/-- **The state before a bar** holds the swings confirmed before it. -/
theorem sweepState_before (bars : List Bar) (lookback : Int) (tol : ℚ) {i : Nat}
    (hi : i ≤ bars.length) :
    Machine.stateFrom (sweepStep (findSwingPoints bars lookback) tol) ⟨[], []⟩ 0 (bars.take i) =
      ⟨confirmedBefore (findSwingPoints bars lookback) .high i,
        confirmedBefore (findSwingPoints bars lookback) .low i⟩ := by
  have hempty : ∀ κ, confirmedBefore (findSwingPoints bars lookback) κ 0 = [] := fun κ => by
    simp [confirmedBefore]
  refine Machine.run_invariant (sweepStep (findSwingPoints bars lookback) tol)
    (fun i st => st = ⟨confirmedBefore (findSwingPoints bars lookback) .high i,
      confirmedBefore (findSwingPoints bars lookback) .low i⟩) ?_ (fun j bar st _ hst => ?_) i hi
  · rw [hempty, hempty]
  · rw [hst, sweepStep, confirmedBefore_succ, confirmedBefore_succ]

/-! ## Pools -/

/-- The levels of a side, clustered from the swings confirmed before bar `n`. -/
def levelsBefore (bars : List Bar) (lookback : Int) (tol : ℚ) (side : SweepSide) (n : Nat) : List ℚ :=
  cluster ((confirmedBefore (findSwingPoints bars lookback) side.swings n).map (·.price)) tol

/-- The pool at a level: the swings within the tolerance that are confirmed before bar `n`. -/
def poolBefore (bars : List Bar) (lookback : Int) (tol : ℚ) (side : SweepSide) (n : Nat) (level : ℚ) :
    List SwingPoint :=
  (confirmedBefore (findSwingPoints bars lookback) side.swings n).filter
    fun s => levelDistance level s.price ≤ tol

section

variable {bars : List Bar} {lookback : Int} {tol : ℚ} {side : SweepSide} {i : Nat} {level : ℚ}

theorem mem_poolBefore {n : Nat} {s : SwingPoint} : s ∈ poolBefore bars lookback tol side n level ↔
    s ∈ findSwingPoints bars lookback ∧ (∃ c, s.confirmedAt = some c ∧ c < n) ∧
      s.kind = side.swings ∧ levelDistance level s.price ≤ tol := by
  simp only [poolBefore, confirmedBefore, List.mem_filter, Bool.and_eq_true, Option.any_eq_true,
    decide_eq_true_eq, and_assoc]

/-- A swing confirmed by bar `i` lies before it, so the members that the loop counts at the bar are
the whole pool. -/
theorem poolMembers_eq :
    poolMembers (confirmedBefore (findSwingPoints bars lookback) side.swings (i + 1)) tol i level =
      poolBefore bars lookback tol side (i + 1) level := by
  refine List.filter_congr fun s hs => ?_
  simp only [confirmedBefore, List.mem_filter, Bool.and_eq_true, Option.any_eq_true,
    decide_eq_true_eq] at hs
  obtain ⟨hmem, ⟨c, hc, hlt⟩, -⟩ := hs
  obtain ⟨k, hk, -, hconf⟩ := swing_confirmedAt hmem
  rw [hconf] at hc
  cases hc
  have hidx : s.index < i := by omega
  simp [hidx]

/-- The level has a pool of two or more when bar `i` is closed. -/
structure Pooled (bars : List Bar) (lookback : Int) (tol : ℚ) (side : SweepSide) (i : Nat)
    (level : ℚ) : Prop where
  clustered : level ∈ levelsBefore bars lookback tol side (i + 1)
  pool : 2 ≤ (poolBefore bars lookback tol side (i + 1) level).length

/-- Bar `i` goes through the level and closes back on the original side. -/
def WicksAt (bars : List Bar) (side : SweepSide) (i : Nat) (level : ℚ) : Prop :=
  ∃ bar, bars[i]? = some bar ∧ side.Wicks bar level

theorem mem_sweepOfLevel {confirmed : List SwingPoint} {bar : Bar} {s : LiquiditySweep} :
    s ∈ sweepOfLevel side confirmed tol i bar level ↔
      (2 ≤ (poolMembers confirmed tol i level).length ∧ side.Wicks bar level) ∧
        ∃ nearest, (poolMembers confirmed tol i level).argmin (fun s => |s.price - level|) =
            some nearest ∧ s = ⟨i, bar.time, side, level, nearest.index⟩ := by
  unfold sweepOfLevel
  dsimp only
  split
  · rename_i hreport
    cases (poolMembers confirmed tol i level).argmin fun s => |s.price - level| with
    | none => simp
    | some nearest => simp [hreport]
  · rename_i hreport
    simp [hreport]

/-- What the loop over the levels of one side reports. -/
theorem exists_mem_sweepsOfSide {confirmed : List SwingPoint} {bar : Bar} {side' : SweepSide} :
    (∃ s ∈ sweepsOfSide side' confirmed tol i bar, s.direction = side ∧ s.sweptLevel = level) ↔
      side' = side ∧ level ∈ cluster (confirmed.map (·.price)) tol ∧
        2 ≤ (poolMembers confirmed tol i level).length ∧ side.Wicks bar level := by
  simp only [sweepsOfSide, List.mem_flatMap, mem_sweepOfLevel]
  constructor
  · rintro ⟨s, ⟨l, hl, ⟨hpool, hw⟩, nearest, -, rfl⟩, rfl, rfl⟩
    exact ⟨rfl, hl, hpool, hw⟩
  · rintro ⟨rfl, hl, hpool, hw⟩
    obtain ⟨nearest, hn⟩ : ∃ nearest, (poolMembers confirmed tol i level).argmin
        (fun s => |s.price - level|) = some nearest := by
      cases hn : (poolMembers confirmed tol i level).argmin fun s => |s.price - level| with
      | none =>
        rw [List.argmin_eq_none.mp hn] at hpool
        simp at hpool
      | some nearest => exact ⟨nearest, rfl⟩
    exact ⟨_, ⟨level, hl, ⟨hpool, hw⟩, nearest, hn, rfl⟩, rfl, rfl⟩

/-- What bar `i` reports in the state that the run reaches. -/
theorem step_reports_iff {bar : Bar} :
    (∃ s ∈ (sweepStep (findSwingPoints bars lookback) tol
        ⟨confirmedBefore (findSwingPoints bars lookback) .high i,
          confirmedBefore (findSwingPoints bars lookback) .low i⟩ i bar).2,
      s.direction = side ∧ s.sweptLevel = level) ↔
      Pooled bars lookback tol side i level ∧ side.Wicks bar level := by
  have hside : ∀ side' : SweepSide,
      (∃ s ∈ sweepsOfSide side' (confirmedBefore (findSwingPoints bars lookback) side'.swings (i + 1))
        tol i bar, s.direction = side ∧ s.sweptLevel = level) ↔
      side' = side ∧ Pooled bars lookback tol side i level ∧ side.Wicks bar level := by
    intro side'
    rw [exists_mem_sweepsOfSide, poolMembers_eq]
    constructor
    · rintro ⟨rfl, hl, hpool, hw⟩
      exact ⟨rfl, ⟨hl, hpool⟩, hw⟩
    · rintro ⟨rfl, ⟨hl, hpool⟩, hw⟩
      exact ⟨rfl, hl, hpool, hw⟩
  simp only [sweepStep, confirmedBefore_succ, List.mem_append, or_and_right, exists_or]
  refine (or_congr (hside .buySide) (hside .sellSide)).trans ?_
  cases side <;> simp

/-- **What is reported**: the pooled levels that a bar goes through and closes back from. -/
theorem reported_iff : (∃ s ∈ detectLiquiditySweeps bars lookback tol,
      s.index = i ∧ s.direction = side ∧ s.sweptLevel = level) ↔
    Pooled bars lookback tol side i level ∧ WicksAt bars side i level := by
  constructor
  · rintro ⟨s, hs, rfl, hside⟩
    obtain ⟨j, bar, hb, hs⟩ := Machine.mem_run.mp hs
    have hj := (List.getElem?_eq_some_iff.mp hb).1
    have hidx := sweepStep_index _ _ _ _ _ s hs
    rw [sweepState_before bars lookback tol hj.le] at hs
    obtain ⟨hpool, hw⟩ := step_reports_iff.mp ⟨s, hs, hside⟩
    rw [hidx]
    exact ⟨hpool, bar, hb, hw⟩
  · rintro ⟨hpool, bar, hb, hw⟩
    have hi := (List.getElem?_eq_some_iff.mp hb).1
    obtain ⟨s, hs, hside⟩ := step_reports_iff.mpr ⟨hpool, hw⟩
    refine ⟨s, Machine.mem_run.mpr ⟨i, bar, hb, ?_⟩, sweepStep_index _ _ _ _ _ s hs, hside⟩
    rw [sweepState_before bars lookback tol hi.le]
    exact hs

/-! ## Genuine sweeps -/

/-- The bar closed beyond the level. -/
def SweepSide.ClosedBeyond (side : SweepSide) (bar : Bar) (level : ℚ) : Prop :=
  match side with
  | .buySide => level < bar.close
  | .sellSide => bar.close < level

/-- What the docstring promises of a sweep: the pool of its level existed before its bar, the bar
before closed on the original side of the level, and the bar goes through it and closes back. -/
structure GenuineSweep (bars : List Bar) (lookback : Int) (tol : ℚ) (s : LiquiditySweep) : Prop where
  pool : 2 ≤ (poolBefore bars lookback tol s.direction s.index s.sweptLevel).length
  original : ∃ j prev, s.index = j + 1 ∧ bars[j]? = some prev ∧
    ¬ s.direction.ClosedBeyond prev s.sweptLevel
  wicks : WicksAt bars s.direction s.index s.sweptLevel

/-- Bar `i` comes back from beyond a pooled level: the bar before it closed there. -/
structure ReturnsFromBeyond (bars : List Bar) (lookback : Int) (tol : ℚ) (side : SweepSide) (i : Nat)
    (level : ℚ) : Prop where
  pooled : Pooled bars lookback tol side i level
  beyond : ∃ j prev, i = j + 1 ∧ bars[j]? = some prev ∧ side.ClosedBeyond prev level
  wicks : WicksAt bars side i level

/-- Bar `i` sweeps a level near a single confirmed swing, and confirms another one near it. -/
structure SweepsOwnPool (bars : List Bar) (lookback : Int) (tol : ℚ) (side : SweepSide) (i : Nat)
    (level : ℚ) : Prop where
  clustered : level ∈ levelsBefore bars lookback tol side (i + 1)
  single : (poolBefore bars lookback tol side i level).length = 1
  fresh : ∃ s ∈ poolBefore bars lookback tol side (i + 1) level, s.confirmedAt = some i
  wicks : WicksAt bars side i level

/-- The swings that bar `i` adds to the pool. -/
def freshIn (bars : List Bar) (lookback : Int) (tol : ℚ) (side : SweepSide) (i : Nat) (level : ℚ) :
    List SwingPoint :=
  (((findSwingPoints bars lookback).filter fun s => s.confirmedAt = some i).filter
    (·.kind = side.swings)).filter fun s => levelDistance level s.price ≤ tol

theorem poolBefore_succ : poolBefore bars lookback tol side (i + 1) level =
    poolBefore bars lookback tol side i level ++ freshIn bars lookback tol side i level := by
  rw [poolBefore, ← confirmedBefore_succ, List.filter_append]
  rfl

theorem mem_freshIn {s : SwingPoint} : s ∈ freshIn bars lookback tol side i level ↔
    s ∈ poolBefore bars lookback tol side (i + 1) level ∧ s.confirmedAt = some i := by
  simp only [freshIn, mem_poolBefore, List.mem_filter, decide_eq_true_eq]
  constructor
  · rintro ⟨⟨⟨hs, hc⟩, hκ⟩, htol⟩
    exact ⟨⟨hs, ⟨i, hc, Nat.lt_succ_self i⟩, hκ, htol⟩, hc⟩
  · rintro ⟨⟨hs, -, hκ, htol⟩, hc⟩
    exact ⟨⟨⟨hs, hc⟩, hκ⟩, htol⟩

/-- A bar confirms at most one swing of a kind. -/
theorem length_freshIn_le : (freshIn bars lookback tol side i level).length ≤ 1 := by
  match hf : freshIn bars lookback tol side i level with
  | [] => simp
  | [s] => simp
  | s :: t :: rest =>
    have hs : s ∈ freshIn bars lookback tol side i level := by simp [hf]
    have ht : t ∈ freshIn bars lookback tol side i level := by simp [hf]
    obtain ⟨hs, hsc⟩ := mem_freshIn.mp hs
    obtain ⟨ht, htc⟩ := mem_freshIn.mp ht
    obtain ⟨hs, -, hsκ, -⟩ := mem_poolBefore.mp hs
    obtain ⟨ht, -, htκ, -⟩ := mem_poolBefore.mp ht
    obtain ⟨k, hk, rfl, hsi⟩ := swing_confirmedAt hs
    obtain ⟨k', -, hkk, hti⟩ := swing_confirmedAt ht
    obtain rfl : k = k' := Int.ofNat.inj hkk
    have hpair : (s :: t :: rest).Pairwise fun s t => s.kind = t.kind → s.index < t.index := by
      rw [← hf]
      exact (((findSwingPoints_pairwise bars hk).filter _).filter _).filter _
    have hlt := (List.pairwise_cons.mp hpair).1 t List.mem_cons_self (hsκ.trans htκ.symm)
    rw [hsc, Option.some_inj] at hsi
    rw [htc, Option.some_inj] at hti
    omega

/-- A pool of two of which fewer are confirmed before the bar got its second swing from the bar. -/
theorem sweepsOwnPool_iff : SweepsOwnPool bars lookback tol side i level ↔
    Pooled bars lookback tol side i level ∧ WicksAt bars side i level ∧
      ¬ 2 ≤ (poolBefore bars lookback tol side i level).length := by
  have hlen : (poolBefore bars lookback tol side (i + 1) level).length =
      (poolBefore bars lookback tol side i level).length +
        (freshIn bars lookback tol side i level).length := by
    rw [poolBefore_succ, List.length_append]
  constructor
  · rintro ⟨hl, hsingle, ⟨s, hs, hc⟩, hw⟩
    have hfresh := List.length_pos_of_mem (mem_freshIn.mpr ⟨hs, hc⟩)
    exact ⟨⟨hl, by omega⟩, hw, by omega⟩
  · rintro ⟨⟨hl, hpool⟩, hw, hfew⟩
    have hone := @length_freshIn_le bars lookback tol side i level
    obtain ⟨s, hs⟩ := List.exists_mem_of_length_pos
      (show 0 < (freshIn bars lookback tol side i level).length by omega)
    exact ⟨hl, by omega, ⟨s, mem_freshIn.mp hs⟩, hw⟩

/-- A pooled level has a bar before the one that finds it. -/
theorem Pooled.exists_previous (h : Pooled bars lookback tol side i level) (hi : i < bars.length) :
    ∃ j prev, i = j + 1 ∧ bars[j]? = some prev := by
  obtain ⟨s, hs⟩ := List.exists_mem_of_length_pos (Nat.lt_of_lt_of_le Nat.zero_lt_two h.pool)
  obtain ⟨hs, ⟨c, hc, hlt⟩, -⟩ := mem_poolBefore.mp hs
  obtain ⟨k, hk, -, hconf⟩ := swing_confirmedAt hs
  rw [hconf, Option.some_inj] at hc
  exact ⟨i - 1, _, by omega, List.getElem?_eq_getElem (show i - 1 < bars.length by omega)⟩

end

/-- **When sweeps are genuine.** Every reported sweep has its pool before its bar and comes from the
original side of its level, exactly when no bar of the list returns from beyond a pooled level or
sweeps a pool that it completes itself. -/
theorem sweeps_genuine_iff (bars : List Bar) (lookback : Int) (tol : ℚ) :
    (∀ s ∈ detectLiquiditySweeps bars lookback tol, GenuineSweep bars lookback tol s) ↔
      ∀ side i level, ¬ ReturnsFromBeyond bars lookback tol side i level ∧
        ¬ SweepsOwnPool bars lookback tol side i level := by
  constructor
  · intro h side i level
    constructor
    · rintro ⟨hpool, ⟨j, prev, rfl, hprev, hbeyond⟩, hw⟩
      obtain ⟨s, hs, hi, rfl, rfl⟩ := reported_iff.mpr ⟨hpool, hw⟩
      obtain ⟨j', prev', hj, hprev', hside⟩ := (h s hs).original
      obtain rfl : j = j' := Nat.succ.inj (hi.symm.trans hj)
      obtain rfl := Option.some.inj (hprev.symm.trans hprev')
      exact hside hbeyond
    · intro hown
      obtain ⟨hpool, hw, hfew⟩ := sweepsOwnPool_iff.mp hown
      obtain ⟨s, hs, rfl, rfl, rfl⟩ := reported_iff.mpr ⟨hpool, hw⟩
      exact hfew (h s hs).pool
  · intro h s hs
    obtain ⟨hpool, hw⟩ := reported_iff.mp ⟨s, hs, rfl, rfl, rfl⟩
    obtain ⟨hreturn, hown⟩ := h s.direction s.index s.sweptLevel
    obtain ⟨bar, hb, -⟩ := id hw
    obtain ⟨j, prev, hj, hprev⟩ := hpool.exists_previous (List.getElem?_eq_some_iff.mp hb).1
    refine ⟨?_, ⟨j, prev, hj, hprev, fun hbeyond => ?_⟩, hw⟩
    · by_contra hfew
      exact hown (sweepsOwnPool_iff.mpr ⟨hpool, hw, hfew⟩)
    · exact hreturn ⟨hpool, ⟨j, prev, hj, hprev, hbeyond⟩, hw⟩

/-- Two equal highs at 15, a close above them, and a bar that falls back below. -/
def returningBars : List Bar :=
  [minuteBar 0 10 10 9 10, minuteBar 1 10 15 9 10, minuteBar 2 10 10 9 10, minuteBar 3 10 15 9 10,
    minuteBar 4 10 10 9 10, minuteBar 5 10 17 10 16, minuteBar 6 16 18 9 12]

/-- A high at 100, one at 100.04, and a bar that confirms the second one and goes above the first. -/
def ownPoolBars : List Bar :=
  [minuteBar 0 99 99 98 99, minuteBar 1 99 100 98 99, minuteBar 2 99 99 98 99, minuteBar 3 99 99 98 99,
    minuteBar 4 99 (10004 / 100) 98 99, minuteBar 5 99 (10002 / 100) 98 99]

/-- Two sweeps that are not genuine: a bar that comes from beyond the level, and a pool that did not
exist before its sweep. -/
theorem sweeps_not_genuine :
    (OhlcValid returningBars ∧ ∃ s ∈ detectLiquiditySweeps returningBars 1 defaultTolerance,
      s.index = 6 ∧ s.direction = .buySide ∧ s.sweptLevel = 15 ∧
        ¬ GenuineSweep returningBars 1 defaultTolerance s) ∧
    OhlcValid ownPoolBars ∧ ∃ s ∈ detectLiquiditySweeps ownPoolBars 1 defaultTolerance,
      s.index = 5 ∧ s.direction = .buySide ∧ s.sweptLevel = 100 ∧
        ¬ GenuineSweep ownPoolBars 1 defaultTolerance s := by
  refine ⟨⟨by decide +kernel, ?_⟩, by decide +kernel, ?_⟩
  · obtain ⟨s, hs, hi, hside, hlevel⟩ : ∃ s ∈ detectLiquiditySweeps returningBars 1 defaultTolerance,
        s.index = 6 ∧ s.direction = .buySide ∧ s.sweptLevel = 15 := by decide +kernel
    refine ⟨s, hs, hi, hside, hlevel, fun hg => ?_⟩
    obtain ⟨j, prev, hj, hprev, hnot⟩ := hg.original
    obtain rfl : 5 = j := Nat.succ.inj (hi.symm.trans hj)
    obtain rfl := Option.some.inj hprev
    rw [hside, hlevel] at hnot
    exact hnot (by norm_num [SweepSide.ClosedBeyond, minuteBar])
  · obtain ⟨s, hs, hi, hside, hlevel⟩ : ∃ s ∈ detectLiquiditySweeps ownPoolBars 1 defaultTolerance,
        s.index = 5 ∧ s.direction = .buySide ∧ s.sweptLevel = 100 := by decide +kernel
    refine ⟨s, hs, hi, hside, hlevel, fun hg => ?_⟩
    have hpool := hg.pool
    rw [hi, hside, hlevel] at hpool
    exact absurd hpool (by decide +kernel)

end MarketKill3r
