import MarketKill3r.Engine.News
import MarketKill3r.Engine.Rescale

/-!
# Price units

Multiplying all prices by `c > 0` is another unit of account. Every detector reports the same
events, gaps, blocks and sweeps at the scaled prices; the clustering of levels, which has an
absolute floor of `1e-12`, does so for prices that the floor does not reach in either unit
(`Floored`).
-/

namespace MarketKill3r

/-! ## Scaled values -/

def Bar.scale (c : ℚ) (b : Bar) : Bar :=
  { b with open_ := c * b.open_, high := c * b.high, low := c * b.low, close := c * b.close }

def SwingPoint.scale (c : ℚ) (s : SwingPoint) : SwingPoint := { s with price := c * s.price }

def StructureEvent.scale (c : ℚ) (e : StructureEvent) : StructureEvent :=
  { e with price := c * e.price, brokenSwing := e.brokenSwing.scale c }

def FairValueGap.scale (c : ℚ) (g : FairValueGap) : FairValueGap :=
  { g with top := c * g.top, bottom := c * g.bottom }

def OrderBlock.scale (c : ℚ) (o : OrderBlock) : OrderBlock :=
  { o with top := c * o.top, bottom := c * o.bottom }

def LiquiditySweep.scale (c : ℚ) (s : LiquiditySweep) : LiquiditySweep :=
  { s with sweptLevel := c * s.sweptLevel }

def DealingRange.scale (c : ℚ) (dr : DealingRange) : DealingRange :=
  { dr with
    rangeHigh := c * dr.rangeHigh
    rangeLow := c * dr.rangeLow
    equilibrium := c * dr.equilibrium }

def SessionWindow.scale (c : ℚ) (w : SessionWindow) : SessionWindow :=
  { w with high := w.high.map (c * ·), low := w.low.map (c * ·) }

/-- The price is at least the floor of the level clustering, before and after the scaling. -/
def Floored (c p : ℚ) : Prop := 1 / 10 ^ 12 ≤ p ∧ 1 / 10 ^ 12 ≤ c * p

/-- Every price of the candle is. -/
def Bar.Floored (c : ℚ) (b : Bar) : Prop :=
  MarketKill3r.Floored c b.open_ ∧ MarketKill3r.Floored c b.high ∧ MarketKill3r.Floored c b.low ∧
    MarketKill3r.Floored c b.close

instance (c p : ℚ) : Decidable (Floored c p) := inferInstanceAs (Decidable (_ ∧ _))

instance (c : ℚ) (b : Bar) : Decidable (b.Floored c) := inferInstanceAs (Decidable (_ ∧ _))

section Unit

variable {c : ℚ} (hc : 0 < c)

include hc

theorem unit_bar : (Rescaling.unit c hc).bar = Bar.scale c := rfl

theorem unit_event : (Rescaling.unit c hc).event = StructureEvent.scale c := rfl

theorem unit_gap : (Rescaling.unit c hc).gap = FairValueGap.scale c := rfl

theorem unit_dir : (Rescaling.unit c hc).dir = id := rfl

theorem scale_lt (x y : ℚ) : c * x < c * y ↔ x < y := mul_lt_mul_iff_right₀ hc

theorem scale_le (x y : ℚ) : c * x ≤ c * y ↔ x ≤ y := mul_le_mul_iff_right₀ hc

theorem abs_scale_sub (x y : ℚ) : |c * x - c * y| = c * |x - y| := by
  rw [← mul_sub, abs_mul, abs_of_pos hc]

/-! ## Structure and zones -/

theorem detectStructureEvents_scale (bars : List Bar) (lookback : Int) :
    detectStructureEvents (bars.map (Bar.scale c)) lookback =
      ((detectStructureEvents bars lookback).1.map (StructureEvent.scale c),
        (detectStructureEvents bars lookback).2) := by
  have h := @Rescaling.detectStructureEvents_rescale (Rescaling.unit c hc) bars lookback
    fun h => by cases h
  rwa [unit_bar, unit_event, unit_dir, Option.map_id] at h

theorem isDisplacementCandle_scale (bars : List Bar) (index : Nat) :
    isDisplacementCandle (bars.map (Bar.scale c)) index = isDisplacementCandle bars index :=
  (Rescaling.unit c hc).isDisplacementCandle_rescale bars index

theorem detectFairValueGaps_scale (bars : List Bar) (req : Bool) :
    detectFairValueGaps (bars.map (Bar.scale c)) req 0 =
      (detectFairValueGaps bars req 0).map (FairValueGap.scale c) := by
  have h := @Rescaling.detectFairValueGaps_rescale (Rescaling.unit c hc) bars (fun h => by cases h)
    req 0
  rwa [mul_zero, unit_bar, unit_gap] at h

theorem detectOrderBlocks_scale (bars : List Bar) (lookback w : Int) :
    detectOrderBlocks (bars.map (Bar.scale c)) lookback w =
      (detectOrderBlocks bars lookback w).map (OrderBlock.scale c) :=
  (Rescaling.unit c hc).detectOrderBlocks_rescale (fun h => by cases h) w

/-! ## Swings -/

theorem swingsAt_scale (bars : List Bar) (k i : Nat) :
    swingsAt (bars.map (Bar.scale c)) k i = (swingsAt bars k i).map (SwingPoint.scale c) := by
  unfold swingsAt
  rw [List.getElem?_map]
  cases bars[i]? with
  | none => rfl
  | some b =>
    simp only [Option.map_some, ← List.map_drop, ← List.map_take, List.forall_mem_map, Bar.scale,
      scale_lt hc, List.map_append]
    congr 1 <;> split <;> rfl

theorem findSwingPoints_scale (bars : List Bar) (lookback : Int) :
    findSwingPoints (bars.map (Bar.scale c)) lookback =
      (findSwingPoints bars lookback).map (SwingPoint.scale c) := by
  by_cases hlb : lookback < 1
  · rw [findSwingPoints_of_lt_one _ hlb, findSwingPoints_of_lt_one _ hlb]
    rfl
  obtain ⟨k, rfl⟩ : ∃ k : Nat, lookback = k := ⟨lookback.toNat, by omega⟩
  have hk : 1 ≤ k := by omega
  rw [findSwingPoints_eq _ hk, findSwingPoints_eq _ hk, List.length_map, List.map_flatMap]
  exact List.flatMap_congr fun i _ => swingsAt_scale hc bars k i

omit hc in
theorem filter_kind_scale (swings : List SwingPoint) (κ : SwingType) :
    (swings.map (SwingPoint.scale c)).filter (·.kind = κ) =
      (swings.filter (·.kind = κ)).map (SwingPoint.scale c) := by
  rw [List.filter_map]
  rfl

/-- The label state at the scaled prices. -/
def LabelState.scale (c : ℚ) (st : LabelState) : LabelState :=
  { st with
    lastHigh := st.lastHigh.map (SwingPoint.scale c)
    lastLow := st.lastLow.map (SwingPoint.scale c) }

theorem labelStep_scale (st : LabelState) (s : SwingPoint) :
    labelStep (st.scale c) (s.scale c) = (labelStep st s).scale c := by
  have hkind : (s.scale c).kind = s.kind := rfl
  unfold labelStep
  rw [hkind]
  cases s.kind with
  | high => cases hp : st.lastHigh <;> simp [LabelState.scale, SwingPoint.scale, hp, scale_lt hc]
  | low => cases hp : st.lastLow <;> simp [LabelState.scale, SwingPoint.scale, hp, scale_lt hc]

/-- The labels compare prices only with each other. -/
theorem labelSwings_scale (swings : List SwingPoint) :
    labelSwings (swings.map (SwingPoint.scale c)) = labelSwings swings := by
  unfold labelSwings
  rw [← List.map_insertionSort (fun s t : SwingPoint => s.index ≤ t.index)
    (fun s t : SwingPoint => s.index ≤ t.index) (SwingPoint.scale c) swings fun _ _ _ _ => Iff.rfl]
  have hfold : ∀ (l : List SwingPoint) (st : LabelState),
      (l.map (SwingPoint.scale c)).foldl labelStep (st.scale c) = (l.foldl labelStep st).scale c := by
    intro l
    induction l with
    | nil => intro st; rfl
    | cons s l ih =>
      intro st
      rw [List.map_cons, List.foldl_cons, List.foldl_cons, labelStep_scale hc, ih]
  have h := congrArg LabelState.labels
    (hfold (swings.insertionSort fun s t => s.index ≤ t.index) ⟨fun _ => none, none, none⟩)
  exact h

/-! ## Levels and sweeps -/

/-- The distance of a price from a level is relative, unless the floor intervenes. -/
theorem levelDistance_scale {level : ℚ} (h : Floored c level) (p : ℚ) :
    levelDistance (c * level) (c * p) = levelDistance level p := by
  have hfloor : (0 : ℚ) < 1 / 10 ^ 12 := by positivity
  have hpos : 0 < level := lt_of_lt_of_le hfloor h.1
  have hpos' : 0 < c * level := lt_of_lt_of_le hfloor h.2
  unfold levelDistance
  rw [abs_of_pos hpos, abs_of_pos hpos', max_eq_left h.1, max_eq_left h.2, abs_scale_sub hc,
    mul_div_mul_left _ _ hc.ne']

omit hc in
/-- The levels of a cluster are prices. -/
theorem mem_of_mem_clusterStep {tol : ℚ} {levels : List ℚ} {p x : ℚ}
    (h : x ∈ clusterStep tol levels p) : x ∈ levels ∨ x = p := by
  unfold clusterStep at h
  split at h
  · simpa using h
  · split at h
    · simpa using h
    · exact Or.inl h

omit hc in
theorem mem_of_mem_foldl_clusterStep {tol : ℚ} {prices levels : List ℚ} {x : ℚ}
    (h : x ∈ prices.foldl (clusterStep tol) levels) : x ∈ levels ∨ x ∈ prices := by
  induction prices generalizing levels with
  | nil => exact Or.inl h
  | cons p ps ih =>
    rcases ih h with h | h
    · rcases mem_of_mem_clusterStep h with h | rfl
      · exact Or.inl h
      · exact Or.inr List.mem_cons_self
    · exact Or.inr (List.mem_cons_of_mem _ h)

omit hc in
theorem mem_of_mem_cluster {tol : ℚ} {prices : List ℚ} {x : ℚ} (h : x ∈ cluster prices tol) :
    x ∈ prices := by
  rcases mem_of_mem_foldl_clusterStep h with h | h
  · cases h
  · exact (List.mem_insertionSort _).mp h

theorem clusterStep_scale {tol : ℚ} {levels : List ℚ} (h : ∀ x ∈ levels, Floored c x) (p : ℚ) :
    clusterStep tol (levels.map (c * ·)) (c * p) = (clusterStep tol levels p).map (c * ·) := by
  unfold clusterStep
  rw [List.getLast?_map]
  cases hl : levels.getLast? with
  | none => simp
  | some level =>
    simp only [Option.map_some, levelDistance_scale hc (h level (List.mem_of_getLast? hl))]
    split <;> simp

theorem cluster_scale {tol : ℚ} {prices : List ℚ} (h : ∀ p ∈ prices, Floored c p) :
    cluster (prices.map (c * ·)) tol = (cluster prices tol).map (c * ·) := by
  have hfold : ∀ (ps levels : List ℚ), (∀ p ∈ ps, Floored c p) → (∀ x ∈ levels, Floored c x) →
      (ps.map (c * ·)).foldl (clusterStep tol) (levels.map (c * ·)) =
        (ps.foldl (clusterStep tol) levels).map (c * ·) := by
    intro ps
    induction ps with
    | nil => intro levels _ _; rfl
    | cons p ps ih =>
      intro levels hps hlevels
      rw [List.map_cons, List.foldl_cons, List.foldl_cons, clusterStep_scale hc hlevels]
      refine ih _ (fun q hq => hps q (List.mem_cons_of_mem _ hq)) fun x hx => ?_
      rcases mem_of_mem_clusterStep hx with hx | rfl
      · exact hlevels x hx
      · exact hps x List.mem_cons_self
  unfold cluster
  rw [← List.map_insertionSort (fun x y : ℚ => x ≤ y) (fun x y : ℚ => x ≤ y) (c * ·) prices
    fun x _ y _ => (scale_le hc x y).symm]
  exact hfold _ [] (fun p hp => h p ((List.mem_insertionSort _).mp hp)) fun x hx => by cases hx

theorem wicks_scale (side : SweepSide) (bar : Bar) (level : ℚ) :
    side.Wicks (bar.scale c) (c * level) ↔ side.Wicks bar level := by
  cases side <;> simp only [SweepSide.Wicks, Bar.scale, scale_lt hc]

theorem sweepOfLevel_scale (side : SweepSide) (confirmed : List SwingPoint) (tol : ℚ) (i : Nat)
    (bar : Bar) {level : ℚ} (h : Floored c level) :
    sweepOfLevel side (confirmed.map (SwingPoint.scale c)) tol i (bar.scale c) (c * level) =
      (sweepOfLevel side confirmed tol i bar level).map (LiquiditySweep.scale c) := by
  have hpool : poolMembers (confirmed.map (SwingPoint.scale c)) tol i (c * level) =
      (poolMembers confirmed tol i level).map (SwingPoint.scale c) := by
    unfold poolMembers
    rw [List.filter_map]
    refine congrArg _ (List.filter_congr fun s _ => ?_)
    simp only [Function.comp_apply, SwingPoint.scale, levelDistance_scale hc h]
  have hmin : ((poolMembers confirmed tol i level).map (SwingPoint.scale c)).argmin
        (fun s => |s.price - c * level|) =
      ((poolMembers confirmed tol i level).argmin fun s => |s.price - level|).map
        (SwingPoint.scale c) := by
    refine Scan.argmin_map fun s _ t _ => ?_
    simp only [SwingPoint.scale, abs_scale_sub hc, scale_lt hc]
  unfold sweepOfLevel
  simp only [hpool, hmin, List.length_map, wicks_scale hc]
  split
  · cases (poolMembers confirmed tol i level).argmin fun s => |s.price - level| <;> rfl
  · rfl

theorem sweepsOfSide_scale (side : SweepSide) {confirmed : List SwingPoint} (tol : ℚ) (i : Nat)
    (bar : Bar) (h : ∀ s ∈ confirmed, Floored c s.price) :
    sweepsOfSide side (confirmed.map (SwingPoint.scale c)) tol i (bar.scale c) =
      (sweepsOfSide side confirmed tol i bar).map (LiquiditySweep.scale c) := by
  have hprices : (confirmed.map (SwingPoint.scale c)).map (·.price) =
      (confirmed.map (·.price)).map (c * ·) := by
    rw [List.map_map, List.map_map]
    rfl
  have hfloor : ∀ p ∈ confirmed.map (·.price), Floored c p := List.forall_mem_map.mpr h
  unfold sweepsOfSide
  rw [hprices, cluster_scale hc hfloor, List.flatMap_map, List.map_flatMap]
  exact List.flatMap_congr fun level hl =>
    sweepOfLevel_scale hc side confirmed tol i bar (hfloor level (mem_of_mem_cluster hl))

omit hc in
/-- The swings of floored bars have floored prices. -/
theorem floored_swings {bars : List Bar} (h : ∀ b ∈ bars, b.Floored c) (lookback : Int) :
    ∀ s ∈ findSwingPoints bars lookback, Floored c s.price := by
  intro s hs
  by_cases hlb : lookback < 1
  · rw [findSwingPoints_of_lt_one _ hlb] at hs; cases hs
  obtain ⟨k, rfl⟩ : ∃ k : Nat, lookback = k := ⟨lookback.toNat, by omega⟩
  obtain ⟨b, hb, -, hp⟩ := ((mem_findSwingPoints (by omega)).mp hs).center
  obtain ⟨-, hhigh, hlow, -⟩ := h b (List.mem_of_getElem? hb)
  rw [hp]
  cases s.kind with
  | high => exact hhigh
  | low => exact hlow

def SweepState.scale (c : ℚ) (st : SweepState) : SweepState :=
  ⟨st.confirmedHighs.map (SwingPoint.scale c), st.confirmedLows.map (SwingPoint.scale c)⟩

/-- The collected swings have floored prices. -/
def SweepState.Floored (c : ℚ) (st : SweepState) : Prop :=
  (∀ s ∈ st.confirmedHighs, MarketKill3r.Floored c s.price) ∧
    ∀ s ∈ st.confirmedLows, MarketKill3r.Floored c s.price

omit hc in
theorem sweepStep_floored {swings : List SwingPoint} (h : ∀ s ∈ swings, Floored c s.price) (tol : ℚ)
    {st : SweepState} (hst : st.Floored c) (i : Nat) (bar : Bar) :
    (sweepStep swings tol st i bar).1.Floored c := by
  constructor
  · intro s hs
    rcases List.mem_append.mp hs with hs | hs
    · exact hst.1 s hs
    · exact h s (List.mem_of_mem_filter (List.mem_of_mem_filter hs))
  · intro s hs
    rcases List.mem_append.mp hs with hs | hs
    · exact hst.2 s hs
    · exact h s (List.mem_of_mem_filter (List.mem_of_mem_filter hs))

theorem sweepStep_scale {swings : List SwingPoint} (h : ∀ s ∈ swings, Floored c s.price) (tol : ℚ)
    {st : SweepState} (hst : st.Floored c) (i : Nat) (bar : Bar) :
    sweepStep (swings.map (SwingPoint.scale c)) tol (st.scale c) i (bar.scale c) =
      ((sweepStep swings tol st i bar).1.scale c,
        (sweepStep swings tol st i bar).2.map (LiquiditySweep.scale c)) := by
  have hconf : (swings.map (SwingPoint.scale c)).filter (fun s => s.confirmedAt = some i) =
      (swings.filter (fun s => s.confirmedAt = some i)).map (SwingPoint.scale c) := by
    rw [List.filter_map]
    rfl
  obtain ⟨hhighs, hlows⟩ := sweepStep_floored h tol hst i bar
  simp only [sweepStep] at hhighs hlows ⊢
  simp only [hconf, filter_kind_scale, SweepState.scale, ← List.map_append]
  rw [sweepsOfSide_scale hc .buySide tol i bar hhighs, sweepsOfSide_scale hc .sellSide tol i bar hlows]
  simp only [List.map_append]

theorem detectLiquiditySweeps_scale {bars : List Bar} (h : ∀ b ∈ bars, b.Floored c) (lookback : Int)
    (tol : ℚ) :
    detectLiquiditySweeps (bars.map (Bar.scale c)) lookback tol =
      (detectLiquiditySweeps bars lookback tol).map (LiquiditySweep.scale c) := by
  have hf := floored_swings h lookback
  have h0 : (⟨[], []⟩ : SweepState).Floored c :=
    ⟨List.forall_mem_nil _, List.forall_mem_nil _⟩
  unfold detectLiquiditySweeps
  rw [findSwingPoints_scale hc]
  exact (Machine.run_map (f := SweepState.scale c) (I := fun _ st => st.Floored c) h0
    (fun j bar st _ hst => sweepStep_floored hf tol hst (0 + j) bar)
    (fun j bar st _ hst => sweepStep_scale hc hf tol hst (0 + j) bar)).2

omit hc in
theorem pricesOf_scale (κ : SwingType) (swings : List SwingPoint) :
    pricesOf κ (swings.map (SwingPoint.scale c)) = (pricesOf κ swings).map (c * ·) := by
  unfold pricesOf
  rw [filter_kind_scale, List.map_map, List.map_map]
  rfl

/-! ## Dealing range, sessions and SMT -/

theorem computeDealingRange_scale (bars : List Bar) (lookback window : Int) :
    computeDealingRange (bars.map (Bar.scale c)) lookback window =
      (computeDealingRange bars lookback window).map (DealingRange.scale c) := by
  have hrecent : recentBars (bars.map (Bar.scale c)) window =
      (recentBars bars window).map (Bar.scale c) := by
    unfold recentBars sliceFrom
    rw [List.length_map, ← List.map_drop]
    split <;> rfl
  unfold computeDealingRange
  simp only [hrecent, findSwingPoints_scale hc, filter_kind_scale, List.getLast?_map]
  cases ((findSwingPoints (recentBars bars window) lookback).filter (·.kind = .high)).getLast? with
  | none => rfl
  | some h =>
    cases ((findSwingPoints (recentBars bars window) lookback).filter (·.kind = .low)).getLast? with
    | none => rfl
    | some l =>
      simp only [Option.map_some, SwingPoint.scale, DealingRange.scale, Option.some.injEq,
        DealingRange.mk.injEq, true_and, and_true]
      ring

theorem zoneFor_scale (dr : DealingRange) (p : ℚ) :
    (dr.scale c).zoneFor (c * p) = dr.zoneFor p := by
  simp only [DealingRange.zoneFor, DealingRange.scale, scale_lt hc]

theorem extend_scale (w : SessionWindow) (bar : Bar) :
    (w.scale c).extend (bar.scale c) = (w.extend bar).scale c := by
  cases hh : w.high <;> cases hl : w.low <;>
    simp [SessionWindow.extend, SessionWindow.scale, Bar.scale, hh, hl, mul_max_of_nonneg _ _ hc.le,
      mul_min_of_nonneg _ _ hc.le]

theorem computeSessionWindows_scale (bars : List Bar) :
    computeSessionWindows (bars.map (Bar.scale c)) =
      (computeSessionWindows bars).map (SessionWindow.scale c) := by
  have hinit : (sessionHoursUtc.map fun s => (⟨s.1, none, none, false⟩ : SessionWindow)) =
      (sessionHoursUtc.map fun s => (⟨s.1, none, none, false⟩ : SessionWindow)).map
        (SessionWindow.scale c) := rfl
  have hnames : ∀ (names : List String) (bar : Bar) (ws : List SessionWindow),
      names.foldl (fun ws name => ws.map fun w => if w.name = name then w.extend (bar.scale c) else w)
          (ws.map (SessionWindow.scale c)) =
        (names.foldl (fun ws name => ws.map fun w => if w.name = name then w.extend bar else w)
          ws).map (SessionWindow.scale c) := by
    intro names bar
    induction names with
    | nil => intro ws; rfl
    | cons name names ih =>
      intro ws
      rw [List.foldl_cons, List.foldl_cons, ← ih, List.map_map, List.map_map]
      congr 1
      refine List.map_congr_left fun w _ => ?_
      have hname : (w.scale c).name = w.name := rfl
      simp only [Function.comp_apply, hname]
      split
      · exact extend_scale hc w bar
      · rfl
  have hbars : ∀ (bs : List Bar) (ws : List SessionWindow),
      (bs.map (Bar.scale c)).foldl (fun windows bar => (sessionForHour bar.time.hour).foldl
          (fun ws name => ws.map fun w => if w.name = name then w.extend bar else w) windows)
          (ws.map (SessionWindow.scale c)) =
        (bs.foldl (fun windows bar => (sessionForHour bar.time.hour).foldl
          (fun ws name => ws.map fun w => if w.name = name then w.extend bar else w) windows)
          ws).map (SessionWindow.scale c) := by
    intro bs
    induction bs with
    | nil => intro ws; rfl
    | cons b bs ih =>
      intro ws
      rw [List.map_cons, List.foldl_cons, List.foldl_cons, ← ih, ← hnames]
      rfl
  unfold computeSessionWindows
  rw [← hbars, ← hinit]

omit hc in
theorem nearestByTime_scale (swings : List SwingPoint) (idx maxIndex : Nat) :
    nearestByTime (swings.map (SwingPoint.scale c)) idx maxIndex =
      (nearestByTime swings idx maxIndex).map (SwingPoint.scale c) := by
  unfold nearestByTime
  rw [List.filter_map]
  exact Scan.argmin_map fun s _ t _ => Iff.rfl

omit hc in
theorem lastTwo_scale (swings : List SwingPoint) :
    lastTwo (swings.map (SwingPoint.scale c)) =
      (lastTwo swings).map fun p => (p.1.scale c, p.2.scale c) := by
  unfold lastTwo
  rw [← List.map_reverse]
  cases swings.reverse with
  | nil => rfl
  | cons b l => cases l <;> rfl

end Unit

/-- SMT compares the prices of each market only with each other. -/
theorem smtCompare_scale {c c' : ℚ} (a b : SwingPoint) (correlated : List SwingPoint)
    (d : Direction) (fails : ℚ → ℚ → Bool) (hf : ∀ x y, fails (c' * x) (c' * y) = fails x y)
    (detail : String) :
    smtCompare (a.scale c) (b.scale c) (correlated.map (SwingPoint.scale c')) d fails detail =
      smtCompare a b correlated d fails detail := by
  have hia : (a.scale c).index = a.index := rfl
  have hib : (b.scale c).index = b.index := rfl
  unfold smtCompare
  rw [hia, hib, nearestByTime_scale, nearestByTime_scale]
  cases nearestByTime correlated a.index b.index with
  | none => rfl
  | some ca =>
    cases nearestByTime correlated b.index b.index with
    | none => rfl
    | some cb =>
      have hp : ∀ s : SwingPoint, (s.scale c').price = c' * s.price := fun _ => rfl
      simp only [Option.map_some, hp, hf]
      rfl

theorem detectSmtDivergence_scale {c c' : ℚ} (hc : 0 < c) (hc' : 0 < c')
    (primaryBars correlatedBars : List Bar) (lookback : Int) (inverse : Bool) :
    detectSmtDivergence (primaryBars.map (Bar.scale c)) (correlatedBars.map (Bar.scale c')) lookback
        inverse =
      detectSmtDivergence primaryBars correlatedBars lookback inverse := by
  have hle : ∀ x y : ℚ, decide (c' * x ≤ c' * y) = decide (x ≤ y) := fun x y => by
    simp only [scale_le hc']
  have hprice : ∀ s : SwingPoint, (s.scale c).price = c * s.price := fun _ => rfl
  unfold detectSmtDivergence
  simp only [findSwingPoints_scale hc, findSwingPoints_scale hc', List.length_map,
    filter_kind_scale, lastTwo_scale]
  split
  · rfl
  congr 1
  · cases lastTwo ((findSwingPoints primaryBars lookback).filter (·.kind = .low)) with
    | none => rfl
    | some p =>
      obtain ⟨a, b⟩ := p
      simp only [Option.map_some, hprice, scale_lt hc]
      split
      · cases inverse
        · exact smtCompare_scale a b _ _ (fun x y => decide (x ≤ y)) hle _
        · exact smtCompare_scale a b _ _ (fun x y => decide (y ≤ x)) (fun x y => hle y x) _
      · rfl
  · cases lastTwo ((findSwingPoints primaryBars lookback).filter (·.kind = .high)) with
    | none => rfl
    | some p =>
      obtain ⟨a, b⟩ := p
      simp only [Option.map_some, hprice, scale_lt hc]
      split
      · cases inverse
        · exact smtCompare_scale a b _ _ (fun x y => decide (y ≤ x)) (fun x y => hle y x) _
        · exact smtCompare_scale a b _ _ (fun x y => decide (x ≤ y)) hle _
      · rfl

end MarketKill3r
