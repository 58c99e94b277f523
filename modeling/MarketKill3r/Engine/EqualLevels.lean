import MarketKill3r.Engine.Sweeps

/-!
# Equal levels and pools

`find_equal_levels` lists every level of the clustering, the sweep detector counts the swings near a
level and takes two or more of them for a pool. The two agree where no level is made by one swing.

* `mem_cluster_iff`: the levels of the clustering, without the loop.
* `Pooled.listed_iff`: a listed level is a pool at the last bar when it has two members.
* `equal_levels_pools_iff`: **the listed levels are the pools exactly when no swing is alone at a
  level that it opens**; `findEqualLevels_arePools_iff_near`: for prices that are not negative, when
  every swing has another one within the tolerance.
-/

namespace MarketKill3r

/-! ## The levels of the clustering -/

/-- The price is farther from the last level than the tolerance. -/
def Opens (tol : ℚ) (levels : List ℚ) (p : ℚ) : Prop :=
  ∀ l, levels.getLast? = some l → tol < levelDistance l p

section Cluster

variable {tol p : ℚ} {levels : List ℚ}

theorem clusterStep_cases (tol : ℚ) (levels : List ℚ) (p : ℚ) :
    (Opens tol levels p ∧ clusterStep tol levels p = levels ++ [p]) ∨
      (¬ Opens tol levels p ∧ clusterStep tol levels p = levels) := by
  unfold clusterStep Opens
  cases levels.getLast? with
  | none => simp
  | some l =>
    by_cases h : tol < levelDistance l p
    · exact Or.inl ⟨by simpa using h, by simp [h]⟩
    · exact Or.inr ⟨by simpa using h, by simp [h]⟩

/-- The loop adds prices that it reads, and only those. -/
theorem mem_foldl_cluster {xs : List ℚ} (hp : p ∈ xs.foldl (clusterStep tol) levels) :
    p ∈ levels ∨ p ∈ xs := by
  induction xs generalizing levels with
  | nil => exact Or.inl hp
  | cons x xs ih =>
    rcases ih hp with h | h
    · obtain ⟨-, e⟩ | ⟨-, e⟩ := clusterStep_cases tol levels x
      · rw [e, List.mem_append, List.mem_singleton] at h
        rcases h with h | rfl
        · exact Or.inl h
        · exact Or.inr List.mem_cons_self
      · rw [e] at h
        exact Or.inl h
    · exact Or.inr (List.mem_cons_of_mem _ h)

/-- A level stays. -/
theorem mem_foldl_cluster_of_mem {xs : List ℚ} (hp : p ∈ levels) :
    p ∈ xs.foldl (clusterStep tol) levels := by
  induction xs generalizing levels with
  | nil => exact hp
  | cons x xs ih =>
    apply ih
    obtain ⟨-, e⟩ | ⟨-, e⟩ := clusterStep_cases tol levels x
    · rw [e]
      exact List.mem_append_left _ hp
    · rwa [e]

/-- Of equal prices the first one decides. -/
theorem mem_foldl_cluster_same {xs : List ℚ} (hxs : ∀ x ∈ xs, x = p) (hp : p ∉ levels) :
    p ∈ xs.foldl (clusterStep tol) levels ↔ xs ≠ [] ∧ Opens tol levels p := by
  induction xs with
  | nil => simpa using hp
  | cons x xs ih =>
    obtain rfl := hxs x List.mem_cons_self
    rw [List.foldl_cons]
    obtain ⟨hopen, e⟩ | ⟨hopen, e⟩ := clusterStep_cases tol levels x
    · rw [e]
      have hmem : x ∈ xs.foldl (clusterStep tol) (levels ++ [x]) :=
        mem_foldl_cluster_of_mem (List.mem_append_right _ (List.mem_singleton_self x))
      simp [hmem, hopen]
    · rw [e, ih fun y hy => hxs y (List.mem_cons_of_mem _ hy)]
      simp [hopen]

/-- The smaller prices of a sorted list come first. -/
theorem insertionSort_filter (prices : List ℚ) (P : ℚ → Bool) :
    (prices.filter P).insertionSort (· ≤ ·) = (prices.insertionSort (· ≤ ·)).filter P :=
  ((List.perm_insertionSort _ _).trans ((List.perm_insertionSort _ prices).filter P).symm).eq_of_pairwise'
    (List.pairwise_insertionSort _ _) ((List.pairwise_insertionSort _ _).filter P)

/-- **The levels of the clustering**: the prices that are farther from the last level of the lower
prices than the tolerance. -/
theorem mem_cluster_iff {prices : List ℚ} :
    p ∈ cluster prices tol ↔ p ∈ prices ∧ Opens tol (cluster (prices.filter (· < p)) tol) p := by
  have hlow : p ∉ cluster (prices.filter (· < p)) tol := by
    intro h
    rcases mem_foldl_cluster h with h | h
    · cases h
    · simp at h
  have hmem : p ∈ prices ↔ (prices.insertionSort (· ≤ ·)).filter (· = p) ≠ [] := by
    rw [Ne, List.filter_eq_nil_iff]
    simp
  have hhigh : ∀ levels : List ℚ,
      p ∈ ((prices.insertionSort (· ≤ ·)).filter (p < ·)).foldl (clusterStep tol) levels ↔
        p ∈ levels := by
    refine fun levels => ⟨fun h => ?_, mem_foldl_cluster_of_mem⟩
    rcases mem_foldl_cluster h with h | h
    · exact h
    · simp at h
  have hsplit := @Scan.split_at_key _ _ _ id _ (List.pairwise_insertionSort (· ≤ ·) prices) p
  simp only [id] at hsplit
  rw [cluster, hsplit, List.foldl_append, List.foldl_append, hhigh, ← insertionSort_filter,
    ← cluster, hmem]
  exact mem_foldl_cluster_same (by simp) hlow

end Cluster

/-! ## Listed levels and pools -/

/-- The listed levels that a side takes liquidity at. -/
def EqualLevels.of (levels : EqualLevels) : SweepSide → List ℚ
  | .buySide => levels.highs
  | .sellSide => levels.lows

/-- A level is listed exactly when it is a pool of the sweep detector at the last bar. -/
def EqualLevels.ArePools (levels : EqualLevels) (bars : List Bar) (lookback : Int) (tol : ℚ) : Prop :=
  ∀ side level, level ∈ levels.of side ↔ Pooled bars lookback tol side (bars.length - 1) level

/-- The swing is farther from the last level of the lower prices than the tolerance, and every other
swing of its kind is farther from it than the tolerance. -/
structure SwingPoint.Alone (swings : List SwingPoint) (tol : ℚ) (s : SwingPoint) : Prop where
  mem : s ∈ swings
  opens : Opens tol (cluster ((pricesOf s.kind swings).filter (· < s.price)) tol) s.price
  apart : ∀ t ∈ swings, t.kind = s.kind → t ≠ s → tol < levelDistance s.price t.price

section

variable {bars : List Bar} {lookback : Int} {tol level : ℚ} {side : SweepSide}

theorem levelDistance_nonneg (level price : ℚ) : 0 ≤ levelDistance level price := by
  unfold levelDistance
  positivity

theorem levelDistance_self (level : ℚ) : levelDistance level level = 0 := by
  simp [levelDistance]

theorem mem_pricesOf {κ : SwingType} {swings : List SwingPoint} {p : ℚ} :
    p ∈ pricesOf κ swings ↔ ∃ s ∈ swings, s.kind = κ ∧ s.price = p := by
  simp [pricesOf, and_assoc]

/-- The last bar knows every swing. -/
theorem confirmedBefore_end (bars : List Bar) (lookback : Int) (κ : SwingType) :
    confirmedBefore (findSwingPoints bars lookback) κ (bars.length - 1 + 1) =
      (findSwingPoints bars lookback).filter (·.kind = κ) := by
  refine List.filter_congr fun s hs => ?_
  obtain ⟨k, hk, rfl, hc⟩ := swing_confirmedAt hs
  have hright := ((mem_findSwingPoints hk).mp hs).right
  have hany : s.confirmedAt.any (· < bars.length - 1 + 1) = true := by
    rw [hc, Option.any_some, decide_eq_true_eq]
    omega
  rw [hany, Bool.true_and]

theorem mem_listed_iff : level ∈ (findEqualLevels bars lookback tol).of side ↔
    level ∈ cluster (pricesOf side.swings (findSwingPoints bars lookback)) tol := by
  cases side <;> rfl

/-- A pool is a listed level that has two members. -/
theorem Pooled.listed_iff : Pooled bars lookback tol side (bars.length - 1) level ↔
    level ∈ (findEqualLevels bars lookback tol).of side ∧
      2 ≤ (poolBefore bars lookback tol side (bars.length - 1 + 1) level).length := by
  have hlevels : levelsBefore bars lookback tol side (bars.length - 1 + 1) =
      cluster (pricesOf side.swings (findSwingPoints bars lookback)) tol := by
    rw [levelsBefore, confirmedBefore_end]
    rfl
  rw [mem_listed_iff, ← hlevels]
  exact ⟨fun h => ⟨h.clustered, h.pool⟩, fun ⟨h1, h2⟩ => ⟨h1, h2⟩⟩

theorem mem_poolBefore_end {s : SwingPoint} :
    s ∈ poolBefore bars lookback tol side (bars.length - 1 + 1) level ↔
      s ∈ findSwingPoints bars lookback ∧ s.kind = side.swings ∧
        levelDistance level s.price ≤ tol := by
  rw [poolBefore, confirmedBefore_end, List.filter_filter, List.mem_filter]
  simp [and_comm]

/-- A pool has two members when two swings are in it. -/
theorem two_le_pool_iff : 2 ≤ (poolBefore bars lookback tol side (bars.length - 1 + 1) level).length ↔
    ∃ s ∈ poolBefore bars lookback tol side (bars.length - 1 + 1) level,
      ∃ t ∈ poolBefore bars lookback tol side (bars.length - 1 + 1) level, t ≠ s := by
  have hnodup : (poolBefore bars lookback tol side (bars.length - 1 + 1) level).Nodup := by
    refine ((List.Pairwise.filter _ ?_).filter _ : List.Pairwise _ _)
    by_cases hlb : lookback < 1
    · rw [findSwingPoints_of_lt_one _ hlb]
      exact List.Pairwise.nil
    · obtain ⟨k, rfl⟩ := Int.eq_ofNat_of_zero_le (show 0 ≤ lookback by omega)
      refine (findSwingPoints_pairwise bars (by omega)).imp fun {s t} h heq => ?_
      exact absurd (h (congrArg _ heq)) (heq ▸ Nat.lt_irrefl _)
  constructor
  · intro h
    match hpool : poolBefore bars lookback tol side (bars.length - 1 + 1) level with
    | [] => simp [hpool] at h
    | [_] => simp [hpool] at h
    | s :: t :: rest =>
      rw [hpool, List.nodup_cons] at hnodup
      exact ⟨s, by simp, t, by simp, fun heq => hnodup.1 (heq ▸ List.mem_cons_self)⟩
  · rintro ⟨s, hs, t, ht, hne⟩
    have hpair : [s, t].Nodup := by simpa using hne.symm
    exact (hpair.subperm (by simp [hs, ht])).length_le

/-- A swing that is alone opens a level with no other member. -/
theorem SwingPoint.Alone.not_pooled {s : SwingPoint}
    (h : s.Alone (findSwingPoints bars lookback) tol) (hkind : s.kind = side.swings) :
    s.price ∈ (findEqualLevels bars lookback tol).of side ∧
      ¬ Pooled bars lookback tol side (bars.length - 1) s.price := by
  constructor
  · rw [mem_listed_iff, mem_cluster_iff, ← hkind]
    exact ⟨mem_pricesOf.mpr ⟨s, h.mem, rfl, rfl⟩, h.opens⟩
  · intro hpool
    obtain ⟨a, ha, b, hb, hne⟩ := two_le_pool_iff.mp (Pooled.listed_iff.mp hpool).2
    have hself : ∀ t ∈ poolBefore bars lookback tol side (bars.length - 1 + 1) s.price, t = s := by
      intro t ht
      obtain ⟨hmem, hκ, htol⟩ := mem_poolBefore_end.mp ht
      by_contra hts
      exact absurd htol (not_le.mpr (h.apart t hmem (hκ.trans hkind.symm) hts))
    exact hne ((hself b hb).trans (hself a ha).symm)

/-- A listed level that is not a pool is opened by a swing that is alone. -/
theorem exists_alone (hlevel : level ∈ (findEqualLevels bars lookback tol).of side)
    (hpool : ¬ Pooled bars lookback tol side (bars.length - 1) level) :
    ∃ s : SwingPoint, s.Alone (findSwingPoints bars lookback) tol := by
  have hfew : ¬ 2 ≤ (poolBefore bars lookback tol side (bars.length - 1 + 1) level).length :=
    fun h => hpool (Pooled.listed_iff.mpr ⟨hlevel, h⟩)
  rw [mem_listed_iff, mem_cluster_iff] at hlevel
  obtain ⟨hprice, hopens⟩ := hlevel
  obtain ⟨s, hs, hκ, rfl⟩ := mem_pricesOf.mp hprice
  refine ⟨s, hs, by rwa [hκ], fun t ht hkind hne => ?_⟩
  by_contra hnear
  rw [not_lt] at hnear
  -- The tolerance is not negative, so the swing is a member of its own level.
  have hself : levelDistance s.price s.price ≤ tol := by
    rw [levelDistance_self]
    exact le_trans (levelDistance_nonneg _ _) hnear
  exact hfew (two_le_pool_iff.mpr ⟨s, mem_poolBefore_end.mpr ⟨hs, hκ, hself⟩, t,
    mem_poolBefore_end.mpr ⟨ht, hkind.trans hκ, hnear⟩, hne⟩)

/-- **When the listed levels are pools.** -/
theorem findEqualLevels_arePools_iff (bars : List Bar) (lookback : Int) (tol : ℚ) :
    (findEqualLevels bars lookback tol).ArePools bars lookback tol ↔
      ∀ s : SwingPoint, ¬ s.Alone (findSwingPoints bars lookback) tol := by
  constructor
  · intro h s hs
    obtain ⟨side, hside⟩ : ∃ side : SweepSide, s.kind = side.swings := by
      cases hκ : s.kind with
      | high => exact ⟨.buySide, rfl⟩
      | low => exact ⟨.sellSide, rfl⟩
    obtain ⟨hlisted, hpool⟩ := hs.not_pooled hside
    exact hpool ((h side s.price).mp hlisted)
  · intro h side level
    refine ⟨fun hlisted => ?_, fun hpool => (Pooled.listed_iff.mp hpool).1⟩
    by_contra hpool
    obtain ⟨s, hs⟩ := exists_alone hlisted hpool
    exact h s hs

/-- Among prices that are not negative, a swing is alone when every other one is farther away: the
lower levels are measured more strictly than it is. -/
theorem SwingPoint.alone_iff_of_nonneg {swings : List SwingPoint} {s : SwingPoint}
    (hpos : ∀ t ∈ swings, 0 ≤ t.price) : s.Alone swings tol ↔
      s ∈ swings ∧ ∀ t ∈ swings, t.kind = s.kind → t ≠ s → tol < levelDistance s.price t.price := by
  refine ⟨fun h => ⟨h.mem, h.apart⟩, fun ⟨hmem, hapart⟩ => ⟨hmem, fun l hl => ?_, hapart⟩⟩
  rcases mem_foldl_cluster (List.mem_of_getLast? hl) with h | h
  · cases h
  · rw [List.mem_insertionSort, List.mem_filter, decide_eq_true_eq] at h
    obtain ⟨hprice, hlt⟩ := h
    obtain ⟨t, ht, hκ, rfl⟩ := mem_pricesOf.mp hprice
    have hl0 := hpos t ht
    refine lt_of_lt_of_le (hapart t ht hκ fun heq => absurd hlt (heq ▸ lt_irrefl _)) ?_
    have hmax : max |t.price| (1 / 10 ^ 12) ≤ max |s.price| (1 / 10 ^ 12) := by
      rw [abs_of_nonneg hl0, abs_of_nonneg (hl0.trans hlt.le)]
      exact max_le_max_right _ hlt.le
    unfold levelDistance
    rw [abs_sub_comm]
    gcongr

/-- Among prices that are not negative the listed levels are pools exactly when every swing has
another one of its kind within the tolerance. -/
theorem findEqualLevels_arePools_iff_near
    (hpos : ∀ s ∈ findSwingPoints bars lookback, 0 ≤ s.price) :
    (findEqualLevels bars lookback tol).ArePools bars lookback tol ↔
      ∀ s ∈ findSwingPoints bars lookback, ∃ t ∈ findSwingPoints bars lookback,
        t.kind = s.kind ∧ t ≠ s ∧ levelDistance s.price t.price ≤ tol := by
  simp only [findEqualLevels_arePools_iff, SwingPoint.alone_iff_of_nonneg hpos, not_and, not_forall,
    not_lt, exists_prop]

end

/-- **Equal levels and pools.** The levels that are listed for a tolerance, and those of the evidence
for the default one, are the pools of the sweep detector exactly when no swing is alone. -/
theorem equal_levels_pools_iff (bars : List Bar) (lookback : Int) (tol : ℚ) :
    ((findEqualLevels bars lookback tol).ArePools bars lookback tol ↔
      ∀ s : SwingPoint, ¬ s.Alone (findSwingPoints bars lookback) tol) ∧
    ∀ timeframe correlated currentPrice,
      ((evidenceJson (tfEvidence timeframe bars correlated lookback) currentPrice).equalLevels.ArePools
          bars lookback defaultTolerance ↔
        ∀ s : SwingPoint, ¬ s.Alone (findSwingPoints bars lookback) defaultTolerance) := by
  refine ⟨findEqualLevels_arePools_iff bars lookback tol, fun timeframe correlated currentPrice => ?_⟩
  rw [evidenceJson_equalLevels]
  exact findEqualLevels_arePools_iff bars lookback defaultTolerance

/-- One swing high at 20. -/
def loneHighBars : List Bar := [minuteBar 0 10 10 9 10, minuteBar 1 10 20 10 15, minuteBar 2 15 15 5 10]

/-- A single swing high is listed as an equal high, and the sweep detector has no pool there. -/
theorem lone_high_listed :
    OhlcValid loneHighBars ∧ (findEqualLevels loneHighBars 1 defaultTolerance).highs = [20] ∧
      ¬ (findEqualLevels loneHighBars 1 defaultTolerance).ArePools loneHighBars 1 defaultTolerance := by
  have hlisted : (findEqualLevels loneHighBars 1 defaultTolerance).highs = [20] := by decide +kernel
  refine ⟨by decide +kernel, hlisted, fun h => ?_⟩
  have hpool := (h .buySide 20).mp (by rw [EqualLevels.of, hlisted]; exact List.mem_singleton_self _)
  exact absurd hpool.pool (by decide +kernel)

end MarketKill3r
