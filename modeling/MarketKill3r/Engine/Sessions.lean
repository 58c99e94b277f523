import MarketKill3r.Engine.Ordering
import MarketKill3r.Market.Loading

/-!
# Session windows

`compute_session_windows` (`app/engine/sessions.py`) goes through the bars once and hands each one to
the windows of its hour; an hour can belong to several sessions.

* `dispatch_eq_map`: a loop that hands items to buckets, bucket by bucket.
* `Spans`: what the window of a session should hold.
* `session_windows_exact`: **it does**, in every analysis, and the session factor of the score, with
  hours of its own, asks for the same sessions.
-/

namespace MarketKill3r

/-! ## Buckets -/

section Buckets

variable {ω κ β : Type} [DecidableEq κ] (key : ω → κ) (put : ω → β → ω)

/-- The buckets of an item, one after another. -/
theorem buckets_eq_map (hkey : ∀ w b, key (put w b) = key w) (b : β) {ks : List κ} (hks : ks.Nodup)
    (ws : List ω) :
    ks.foldl (fun ws k => ws.map fun w => if key w = k then put w b else w) ws =
      ws.map fun w => if key w ∈ ks then put w b else w := by
  induction ks generalizing ws with
  | nil => simp
  | cons k ks ih =>
    obtain ⟨hk, hks⟩ := List.nodup_cons.mp hks
    rw [List.foldl_cons, ih hks, List.map_map]
    refine List.map_congr_left fun w _ => ?_
    by_cases hw : key w = k
    · have hother : key (put w b) ∉ ks := by rw [hkey, hw]; exact hk
      simp [hw, hk, hkey]
    · simp [hw]

/-- **A loop that hands each item to its buckets** fills each bucket with its items, in order. -/
theorem dispatch_eq_map (hkey : ∀ w b, key (put w b) = key w) (keysOf : β → List κ)
    (hkeys : ∀ b, (keysOf b).Nodup) (bs : List β) (ws : List ω) :
    bs.foldl (fun ws b => (keysOf b).foldl
        (fun ws k => ws.map fun w => if key w = k then put w b else w) ws) ws =
      ws.map fun w => (bs.filter fun b => key w ∈ keysOf b).foldl put w := by
  induction bs generalizing ws with
  | nil => simp
  | cons b bs ih =>
    rw [List.foldl_cons, buckets_eq_map key put hkey b (hkeys b), ih, List.map_map]
    refine List.map_congr_left fun w _ => ?_
    by_cases hw : key w ∈ keysOf b
    · rw [Function.comp_apply, if_pos hw, List.filter_cons_of_pos (by simpa using hw),
        List.foldl_cons]
      simp only [hkey]
    · rw [Function.comp_apply, if_neg hw, List.filter_cons_of_neg (by simpa using hw)]

end Buckets

/-! ## Windows -/

/-- The bar belongs to the session: its name, inclusive start and exclusive end. The hour is the one of
the bar's own clock, whatever its offset from UTC. -/
def InSession (s : String × Nat × Nat) (b : Bar) : Prop :=
  s.2.1 ≤ b.time.hour ∧ b.time.hour < s.2.2

instance (s : String × Nat × Nat) : DecidablePred (InSession s) := fun _ =>
  inferInstanceAs (Decidable (_ ∧ _))

/-- The window names the session and holds the highest high and the lowest low of its bars. -/
structure Spans (bars : List Bar) (s : String × Nat × Nat) (w : SessionWindow) : Prop where
  name : w.name = s.1
  high : ∀ h, w.high = some h ↔ IsGreatest {p | ∃ b ∈ bars, InSession s b ∧ b.high = p} h
  low : ∀ l, w.low = some l ↔ IsLeast {p | ∃ b ∈ bars, InSession s b ∧ b.low = p} l
  swept : w.swept = false

/-- One more number for the maximum of a list. -/
theorem max?_concat (xs : List ℚ) (x : ℚ) :
    (xs ++ [x]).max? = some (match xs.max? with | none => x | some m => max m x) := by
  cases xs with
  | nil => rfl
  | cons y ys => rw [List.cons_append, List.max?_cons', List.max?_cons', List.foldl_append]; rfl

theorem min?_concat (xs : List ℚ) (x : ℚ) :
    (xs ++ [x]).min? = some (match xs.min? with | none => x | some m => min m x) := by
  cases xs with
  | nil => rfl
  | cons y ys => rw [List.cons_append, List.min?_cons', List.min?_cons', List.foldl_append]; rfl

/-- The bars of a session leave their extremes in its window. -/
theorem foldl_extend (name : String) (bars : List Bar) :
    bars.foldl SessionWindow.extend ⟨name, none, none, false⟩ =
      ⟨name, (bars.map (·.high)).max?, (bars.map (·.low)).min?, false⟩ := by
  induction bars using List.reverseRecOn with
  | nil => rfl
  | append_singleton bars b ih =>
    rw [List.foldl_append, ih, List.map_append, List.map_append, List.map_singleton,
      List.map_singleton, max?_concat, min?_concat]
    rfl

theorem max?_eq_some_iff_isGreatest {xs : List ℚ} {m : ℚ} :
    xs.max? = some m ↔ IsGreatest {x | x ∈ xs} m := List.max?_eq_some_iff

theorem min?_eq_some_iff_isLeast {xs : List ℚ} {m : ℚ} :
    xs.min? = some m ↔ IsLeast {x | x ∈ xs} m := List.min?_eq_some_iff

/-- The window that the bars of a session leave. -/
theorem spans_foldl (bars : List Bar) (s : String × Nat × Nat) :
    Spans bars s ((bars.filter (InSession s)).foldl SessionWindow.extend ⟨s.1, none, none, false⟩) := by
  have hmem : ∀ (price : Bar → ℚ), {p | p ∈ (bars.filter (InSession s)).map price} =
      {p | ∃ b ∈ bars, InSession s b ∧ price b = p} := fun price => by
    ext p
    simp [and_assoc]
  rw [foldl_extend]
  exact {
    name := rfl
    high := fun h => by rw [max?_eq_some_iff_isGreatest, hmem]
    low := fun l => by rw [min?_eq_some_iff_isLeast, hmem]
    swept := rfl }

theorem sessionForHour_nodup (hour : Nat) : (sessionForHour hour).Nodup := by
  have hnames : (sessionHoursUtc.map (·.1)).Nodup := by decide
  exact hnames.sublist (List.filter_sublist.map _)

/-- The sessions have different names. -/
theorem mem_sessionForHour {s : String × Nat × Nat} (hs : s ∈ sessionHoursUtc) (b : Bar) :
    s.1 ∈ sessionForHour b.time.hour ↔ InSession s b := by
  have hnames : (sessionHoursUtc.map (·.1)).Nodup := by decide
  simp only [sessionForHour, List.mem_map, List.mem_filter, decide_eq_true_eq]
  constructor
  · rintro ⟨s', ⟨hs', hin⟩, hname⟩
    obtain rfl := List.inj_on_of_nodup_map hnames hs' hs hname
    exact hin
  · exact fun hin => ⟨s, ⟨hs, hin⟩, rfl⟩

/-- One pass over the bars fills the windows of all sessions. -/
theorem computeSessionWindows_spans (bars : List Bar) :
    List.Forall₂ (Spans bars) sessionHoursUtc (computeSessionWindows bars) := by
  rw [computeSessionWindows, dispatch_eq_map SessionWindow.name SessionWindow.extend (fun _ _ => rfl)
    (fun b : Bar => sessionForHour b.time.hour) (fun b => sessionForHour_nodup _), List.map_map,
    List.forall₂_map_right_iff, List.forall₂_same]
  intro s hs
  rw [Function.comp_apply]
  simp only [mem_sessionForHour hs]
  exact spans_foldl bars s

/-! ## Evidence -/

/-- The evidence lists the timeframes of the input, each with the sessions of its bars. -/
theorem evidenceTimeframes_sessions {inp : AnalysisInput} {js : List (String × EvidenceJson)}
    (h : evidenceTimeframes inp.timeframeBars inp.evidences = .ok js) {e : String × EvidenceJson}
    (he : e ∈ js) :
    ∃ bars, inp.timeframeBars.get? e.1 = some bars ∧ e.2.sessions = computeSessionWindows bars := by
  obtain ⟨ev, hev, last, -, rfl⟩ := exists_of_mem_forall₂ (evidenceTimeframes_eq_ok.mp h) he
  rw [AnalysisInput.evidences, List.mem_map] at hev
  obtain ⟨entry, hentry, rfl⟩ := hev
  exact ⟨entry.2, TfMap.get?_eq_some.mpr (List.mem_filter.mp hentry).1, rfl⟩

/-- The hours of the session factor are those of London and New York. -/
theorem session_factor_iff (b : Bar) :
    (7 ≤ b.time.hour ∧ b.time.hour < 21) ↔
      ∃ s ∈ sessionHoursUtc, s.1 ≠ "asian" ∧ InSession s b := by
  simp [sessionHoursUtc, InSession]
  omega

/-- **The session windows of an analysis.** Each timeframe of the evidence shows one window for each
session of the table, in its order, with the highest high and the lowest low of that timeframe's bars
in these hours, and without prices if it has none; an hour counts for each of its sessions. The
session factor of either direction is hit exactly when the last primary bar belongs to London or New
York. -/
theorem session_windows_exact {inp : AnalysisInput} {r : AnalysisResult}
    (h : analyzeMultiTimeframe inp = .ok r) {ev : Evidence} (hev : r.evidence = some ev) :
    (∀ e ∈ ev.timeframes, ∃ bars, inp.timeframeBars.get? e.1 = some bars ∧
      List.Forall₂ (Spans bars) sessionHoursUtc e.2.sessions) ∧
    ∃ bars lastBar, PrimaryAt inp bars lastBar ∧ ∀ d, ev.factors d .session = true ↔
      ∃ s ∈ sessionHoursUtc, s.1 ≠ "asian" ∧ InSession s lastBar := by
  obtain ⟨-, rfl⟩ | ⟨bars, hp, -, ⟨-, rfl⟩ | ⟨hlong, hc⟩⟩ := analyze_eq_ok.mp h
  · cases hev
  · cases hev
  · obtain ⟨lastBar, js, rs, hl, hjs, -, rfl⟩ := concludeAnalysis_eq_ok.mp hc
    obtain rfl := Option.some.inj hev
    refine ⟨fun e he => ?_, bars, lastBar, ⟨hp, hlong, hl⟩, fun d => ?_⟩
    · obtain ⟨tfBars, hget, hsessions⟩ := evidenceTimeframes_sessions hjs he
      refine ⟨tfBars, hget, ?_⟩
      rw [hsessions]
      exact computeSessionWindows_spans tfBars
    · rw [← session_factor_iff]
      exact decide_eq_true_iff

/-- The strongly bullish series lasts ten minutes after midnight: the Asian window alone has prices. -/
theorem strong_sessions : ∃ r ev, analyzeMultiTimeframe strongInput = .ok r ∧ r.evidence = some ev ∧
    ev.timeframes.map (fun e => e.2.sessions.map (·.high)) = [[some 25, none, none]] ∧
    (∀ e ∈ ev.timeframes, ∃ bars, strongInput.timeframeBars.get? e.1 = some bars ∧
      List.Forall₂ (Spans bars) sessionHoursUtc e.2.sessions) ∧
    ∃ bars lastBar, PrimaryAt strongInput bars lastBar ∧ ∀ d, ev.factors d .session = true ↔
      ∃ s ∈ sessionHoursUtc, s.1 ≠ "asian" ∧ InSession s lastBar := by
  have hshown : ((analyzeMultiTimeframe strongInput).toOption.bind (·.evidence)).map
      (fun ev => ev.timeframes.map fun e => e.2.sessions.map (·.high)) =
        some [[some 25, none, none]] := by decide +kernel
  rw [Option.map_eq_some_iff] at hshown
  obtain ⟨ev, hev, hhighs⟩ := hshown
  cases hr : analyzeMultiTimeframe strongInput with
  | error err =>
    rw [hr] at hev
    cases hev
  | ok r =>
    rw [hr] at hev
    exact ⟨r, ev, rfl, hev, hhighs, session_windows_exact hr hev⟩

end MarketKill3r
