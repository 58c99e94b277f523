import Mathlib.Data.Set.List
import MarketKill3r.Market.EconomicCalendar

/-!
# Malformed items of the calendar

The loop of `get_upcoming_events` skips an item whose date cannot be read. It expects every item to be
an object, and passes on whatever the other fields hold; `is_blackout_window` and the event filter of
`run_analysis` then take the currency for a text.

* `calendarContext`: the part of `run_analysis` that asks the calendar.
* `CalendarEnv.clean`: the payload without the malformed items.
* `calendar_robust_iff`: **malformed items do no harm exactly when every item is an object, and the
  only malformed ones among those with a date are in the past.**
-/

namespace MarketKill3r

/-! ## The calendar in `run_analysis` -/

/-- `event.currency.upper() in allowed_currencies` -/
def allowedCurrency (env : CalendarEnv) (currencies : List String) (event : EconomicEvent) :
    Except CalendarError Bool :=
  match event.currency with
  | .str currency =>
    .ok (decide (env.caseMap.upperStr currency ∈ currencies.map env.caseMap.upperStr))
  | _ => .error .attributeError

/-- `events` and `blackout` of `run_analysis`. The dictionary of an event has its fields. Both calls of
`get_upcoming_events` get the same answers of the providers, and the clock stands still between them. -/
def calendarContext (env : CalendarEnv) (checkCalendarBlackout : Bool) (currencies : List String)
    (now : Int) : Except CalendarError (List EconomicEvent × Bool) :=
  if checkCalendarBlackout && currencies ≠ [] then do
    let allEvents ← getUpcomingEvents env now 24
    let (blackout, _) ← isBlackoutWindow env ⟨currencies, 30, 30, now⟩
    let events ← allEvents.filterM (allowedCurrency env currencies)
    pure (events, blackout)
  else pure ([], false)

/-! ## Malformed items -/

/-- The items of a payload; anything but a list counts as none. -/
def JsonValue.items : JsonValue → List JsonValue
  | .list items => items
  | _ => []

/-- An object with a date that can be read, whose event is `fine`. -/
def CalendarEnv.wellFormed (env : CalendarEnv) (fine : EconomicEvent → Bool) : JsonValue → Bool
  | .dict item => (env.eventTime item).any fun t => fine (env.event item t)
  | _ => false

/-- A payload without the items that do not pass. -/
def JsonValue.keep (passes : JsonValue → Bool) : JsonValue → JsonValue
  | .list items => .list (items.filter passes)
  | value => value

/-- The providers answer without the malformed items. -/
def CalendarEnv.clean (env : CalendarEnv) (fine : EconomicEvent → Bool) : CalendarEnv :=
  { env with
    jblanked := env.jblanked.map (.keep (env.wellFormed fine))
    fmp := env.fmp.map (.keep (env.wellFormed fine)) }

/-- Nothing fails, and every result is the one without the malformed items. -/
structure Robust (env : CalendarEnv) (fine : EconomicEvent → Bool) (now : Int) : Prop where
  upcoming : ∀ hoursAhead, ∃ events, getUpcomingEvents env now hoursAhead = .ok events ∧
    getUpcomingEvents (env.clean fine) now hoursAhead = .ok events
  blackout : ∀ q : BlackoutQuery, q.now = now → ∃ answer, isBlackoutWindow env q = .ok answer ∧
    isBlackoutWindow (env.clean fine) q = .ok answer
  analysis : ∀ checkCalendarBlackout currencies, ∃ context,
    calendarContext env checkCalendarBlackout currencies now = .ok context ∧
      calendarContext (env.clean fine) checkCalendarBlackout currencies now = .ok context

/-- Every item is an object, and its event is fine unless it is in the past. -/
def Readable (env : CalendarEnv) (fine : EconomicEvent → Bool) (now : Int) : Prop :=
  ∀ x ∈ env.rawEvents.items, ∃ item, x = .dict item ∧
    ∀ t, env.eventTime item = some t → now ≤ t → fine (env.event item t) = true

section

variable {env : CalendarEnv} {fine : EconomicEvent → Bool} {now : Int}

theorem JsonValue.keep_getD {passes : JsonValue → Bool} (answer : Option JsonValue)
    {default : JsonValue} (hdefault : default.keep passes = default) :
    (answer.map (.keep passes)).getD default = (answer.getD default).keep passes := by
  cases answer with
  | none => exact hdefault.symm
  | some v => rfl

theorem rawEvents_clean :
    (env.clean fine).rawEvents = env.rawEvents.keep (env.wellFormed fine) := by
  have hsecond : ∀ c : Prop, [Decidable c] →
      (if c then ((env.clean fine).fmp).getD (.list []) else .null) =
        (if c then env.fmp.getD (.list []) else .null).keep (env.wellFormed fine) := by
    intro c _
    rw [apply_ite (JsonValue.keep _), ← JsonValue.keep_getD _ rfl]
    rfl
  unfold CalendarEnv.rawEvents
  by_cases hkey : env.calendarApiKey ≠ ""
  · have hfirst : (env.clean fine).jblanked.getD .null =
        (env.jblanked.getD .null).keep (env.wellFormed fine) := JsonValue.keep_getD _ rfl
    rw [if_pos hkey, if_pos (c := (env.clean fine).calendarApiKey ≠ "") hkey, hfirst, hsecond]
    cases env.jblanked.getD .null <;> rfl
  · rw [if_neg hkey, if_neg (c := (env.clean fine).calendarApiKey ≠ "") hkey]
    exact hsecond _

theorem items_clean :
    (env.clean fine).rawEvents.items = env.rawEvents.items.filter (env.wellFormed fine) := by
  rw [rawEvents_clean]
  cases env.rawEvents <;> rfl

theorem exists_dicts {xs : List JsonValue} (h : ∀ x ∈ xs, ∃ item, x = .dict item) :
    ∃ dicts : List JsonDict, xs = dicts.map .dict := by
  have hrange : xs ∈ Set.range (List.map JsonValue.dict) := by
    rw [Set.range_list_map]
    exact fun x hx => (h x hx).imp fun _ h => h.symm
  obtain ⟨dicts, hdicts⟩ := hrange
  exact ⟨dicts, hdicts.symm⟩

/-! ## `get_upcoming_events` -/

theorem getUpcomingEvents_of_items {dicts : List JsonDict}
    (h : env.rawEvents.items = dicts.map .dict) (hoursAhead : Int) :
    getUpcomingEvents env now hoursAhead =
      .ok (dicts.filterMap (env.upcoming now (now + calendarHours hoursAhead))) := by
  cases hraw : env.rawEvents with
  | list items =>
    rw [hraw] at h
    exact getUpcomingEvents_eq (hraw.trans (congrArg JsonValue.list h)) _ _
  | _ =>
    rw [hraw] at h
    obtain rfl := List.map_eq_nil_iff.mp h.symm
    simp [getUpcomingEvents, hraw, pure, Except.pure]

/-- Where it returns, every item is an object. -/
theorem dict_of_getUpcomingEvents {hoursAhead : Int} {events : List EconomicEvent}
    (h : getUpcomingEvents env now hoursAhead = .ok events) :
    ∀ x ∈ env.rawEvents.items, ∃ item, x = .dict item := by
  intro x hx
  cases hraw : env.rawEvents with
  | list items =>
    rw [hraw] at hx
    rw [getUpcomingEvents, hraw] at h
    cases hread : items.mapM (env.readItem now (now + calendarHours hoursAhead)) with
    | error => simp [hread, bind, Except.bind] at h
    | ok read =>
      obtain ⟨r, -, hr⟩ := exists_of_mem_forall₂ (forall₂_of_mapM_ok hread).flip hx
      cases x <;> simp_all [CalendarEnv.readItem]
  | _ => simp [hraw, JsonValue.items] at hx

/-- The events of the items that are objects: all of them, and those of the well-formed ones. -/
theorem mem_upcoming_iff {dicts : List JsonDict} {cutoff : Int} {e : EconomicEvent} :
    e ∈ dicts.filterMap (env.upcoming now cutoff) ↔
      ∃ item ∈ dicts, ∃ t, env.eventTime item = some t ∧ (now ≤ t ∧ t ≤ cutoff) ∧
        env.event item t = e := by
  simp only [List.mem_filterMap, upcoming_eq_some_iff]

theorem wellFormed_dict_iff {item : JsonDict} :
    env.wellFormed fine (.dict item) = true ↔
      ∃ t, env.eventTime item = some t ∧ fine (env.event item t) = true := by
  rw [CalendarEnv.wellFormed, Option.any_eq_true]

/-- An event of the cleaned payload is the event of a well-formed item. -/
theorem fine_of_mem_clean {hoursAhead : Int} {events : List EconomicEvent} {e : EconomicEvent}
    (h : getUpcomingEvents (env.clean fine) now hoursAhead = .ok events) (he : e ∈ events) :
    fine e = true := by
  obtain ⟨dicts, hdicts⟩ := exists_dicts (dict_of_getUpcomingEvents h)
  obtain rfl := Except.ok.inj (h.symm.trans (getUpcomingEvents_of_items hdicts _))
  obtain ⟨item, hitem, t, ht, -, rfl⟩ := mem_upcoming_iff.mp he
  have hkept : JsonValue.dict item ∈ env.rawEvents.items.filter (env.wellFormed fine) := by
    rw [← items_clean, hdicts]
    exact List.mem_map_of_mem hitem
  obtain ⟨t', ht', hfine⟩ := wellFormed_dict_iff.mp (List.mem_filter.mp hkept).2
  obtain rfl := Option.some.inj (ht.symm.trans ht')
  exact hfine

/-- What `Readable` gives: both payloads have the same events, and these are fine. -/
theorem Readable.upcoming (h : Readable env fine now) (hoursAhead : Int) :
    ∃ events, getUpcomingEvents env now hoursAhead = .ok events ∧
      getUpcomingEvents (env.clean fine) now hoursAhead = .ok events ∧
        ∀ e ∈ events, fine e = true := by
  obtain ⟨dicts, hdicts⟩ := exists_dicts fun x hx => (h x hx).imp fun _ h => h.1
  have hfine : ∀ item ∈ dicts, ∀ t, env.eventTime item = some t → now ≤ t →
      fine (env.event item t) = true := by
    intro item hitem
    obtain ⟨item', heq, hfine⟩ := h (.dict item) (hdicts ▸ List.mem_map_of_mem hitem)
    obtain rfl := JsonValue.dict.inj heq
    exact hfine
  have hclean : (env.clean fine).rawEvents.items =
      (dicts.filter fun item => env.wellFormed fine (.dict item)).map .dict := by
    rw [items_clean, hdicts, List.filter_map]
    rfl
  refine ⟨_, getUpcomingEvents_of_items hdicts hoursAhead, ?_, fun e he => ?_⟩
  · -- An item that is left out gives no event anyway.
    rw [getUpcomingEvents_of_items hclean, List.filterMap_filter]
    refine congrArg Except.ok (List.filterMap_congr fun item hitem => ?_)
    split_ifs with hwf
    · rfl
    · refine (Option.eq_none_iff_forall_not_mem.mpr fun e he => hwf ?_).symm
      obtain ⟨t, ht, ⟨hnow, -⟩, -⟩ := upcoming_eq_some_iff.mp he
      exact wellFormed_dict_iff.mpr ⟨t, ht, hfine item hitem t ht hnow⟩
  · obtain ⟨item, hitem, t, ht, ⟨hnow, -⟩, rfl⟩ := mem_upcoming_iff.mp he
    exact hfine item hitem t ht hnow

/-! ## `is_blackout_window` and `run_analysis` -/

theorem findM?_total {α ε : Type} {p : α → Except ε Bool} {xs : List α}
    (h : ∀ x ∈ xs, ∃ b, p x = .ok b) : ∃ r, xs.findM? p = .ok r := by
  induction xs with
  | nil => exact ⟨none, rfl⟩
  | cons x xs ih =>
    obtain ⟨b, hb⟩ := h x List.mem_cons_self
    obtain ⟨r, hr⟩ := ih fun y hy => h y (List.mem_cons_of_mem _ hy)
    cases b with
    | false => exact ⟨r, by rw [List.findM?, hb]; exact hr⟩
    | true => exact ⟨some x, by rw [List.findM?, hb]; rfl⟩

theorem filterAuxM_total {α ε : Type} {p : α → Except ε Bool} {xs : List α}
    (h : ∀ x ∈ xs, ∃ b, p x = .ok b) (acc : List α) : ∃ ys, xs.filterAuxM p acc = .ok ys := by
  induction xs generalizing acc with
  | nil => exact ⟨acc, rfl⟩
  | cons x xs ih =>
    obtain ⟨b, hb⟩ := h x List.mem_cons_self
    obtain ⟨ys, hys⟩ := ih (fun y hy => h y (List.mem_cons_of_mem _ hy)) (cond b (x :: acc) acc)
    exact ⟨ys, by rw [List.filterAuxM, hb]; exact hys⟩

theorem filterM_total {α ε : Type} {p : α → Except ε Bool} {xs : List α}
    (h : ∀ x ∈ xs, ∃ b, p x = .ok b) : ∃ ys, xs.filterM p = .ok ys := by
  obtain ⟨ys, hys⟩ := filterAuxM_total h []
  exact ⟨ys.reverse, by rw [List.filterM, hys]; rfl⟩

theorem triggers_total {q : BlackoutQuery} {e : EconomicEvent} (h : ∃ c, e.currency = .str c) :
    ∃ b, triggers env q e = .ok b := by
  obtain ⟨c, hc⟩ := h
  cases ht : triggers env q e with
  | ok b => exact ⟨b, rfl⟩
  | error => exact absurd hc ((triggers_error_iff.mp ht).2 c)

theorem allowedCurrency_total {currencies : List String} {e : EconomicEvent}
    (h : ∃ c, e.currency = .str c) : ∃ b, allowedCurrency env currencies e = .ok b := by
  obtain ⟨c, hc⟩ := h
  exact ⟨_, by rw [allowedCurrency, hc]⟩

theorem isBlackoutWindow_eq {q : BlackoutQuery} {events : List EconomicEvent}
    (h : getUpcomingEvents env q.now q.hoursAhead = .ok events) :
    isBlackoutWindow env q =
      (events.findM? (triggers env q)).map fun event => (event.isSome, event) := by
  rw [isBlackoutWindow, h]
  cases hfind : events.findM? (triggers env q) <;>
    simp [bind, Except.bind, hfind, Except.map, pure, Except.pure]

theorem Readable.blackout (hfine : ∀ e, fine e = true → ∃ c, e.currency = .str c)
    {q : BlackoutQuery} (h : Readable env fine q.now) :
    ∃ answer, isBlackoutWindow env q = .ok answer ∧
      isBlackoutWindow (env.clean fine) q = .ok answer := by
  obtain ⟨events, hevents, hclean, hall⟩ := h.upcoming q.hoursAhead
  obtain ⟨event, hevent⟩ := findM?_total fun e he =>
    @triggers_total env q e (hfine e (hall e he))
  refine ⟨(event.isSome, event), ?_, ?_⟩
  · rw [isBlackoutWindow_eq hevents, hevent]
    rfl
  · rw [isBlackoutWindow_eq hclean]
    exact congrArg (Except.map _) hevent

theorem Readable.analysis (hfine : ∀ e, fine e = true → ∃ c, e.currency = .str c)
    (h : Readable env fine now) (check : Bool) (currencies : List String) :
    ∃ context, calendarContext env check currencies now = .ok context ∧
      calendarContext (env.clean fine) check currencies now = .ok context := by
  unfold calendarContext
  split_ifs
  · obtain ⟨events, hevents, hclean, hall⟩ := h.upcoming 24
    obtain ⟨⟨blackout, event⟩, hanswer, hanswer'⟩ :=
      Readable.blackout (q := ⟨currencies, 30, 30, now⟩) hfine h
    obtain ⟨allowed, hallowed⟩ := filterM_total fun e he =>
      @allowedCurrency_total env currencies e (hfine e (hall e he))
    refine ⟨(allowed, blackout), ?_, ?_⟩
    · rw [hevents, hanswer]
      exact congrArg (Except.map (·, blackout)) hallowed
    · rw [hclean, hanswer']
      exact congrArg (Except.map (·, blackout)) hallowed
  · exact ⟨_, rfl, rfl⟩

/-- An event that is not in the past is among the events of a horizon that reaches it, and with them
among those of the cleaned payload. -/
theorem Robust.readable (h : Robust env fine now) : Readable env fine now := by
  intro x hx
  obtain ⟨events, hevents, -⟩ := h.upcoming 0
  obtain ⟨item, rfl⟩ := dict_of_getUpcomingEvents hevents x hx
  refine ⟨item, rfl, fun t ht hnow => ?_⟩
  obtain ⟨events, hevents, hclean⟩ := h.upcoming (t - now)
  obtain ⟨dicts, hdicts⟩ := exists_dicts (dict_of_getUpcomingEvents hevents)
  obtain rfl := Except.ok.inj (hevents.symm.trans (getUpcomingEvents_of_items hdicts _))
  have hitem : item ∈ dicts := by
    rw [hdicts] at hx
    obtain ⟨item', hitem', heq⟩ := List.mem_map.mp hx
    rwa [← JsonValue.dict.inj heq]
  have hcutoff : t ≤ now + calendarHours (t - now) := by
    simp only [calendarHours, calendarMinutes]
    omega
  exact fine_of_mem_clean hclean (mem_upcoming_iff.mpr ⟨item, hitem, t, ht, ⟨hnow, hcutoff⟩, rfl⟩)

/-- **Malformed items do no harm exactly when every item is an object, and the event of every item
that is not in the past is fine**; nothing is fine that has no text for its currency. -/
theorem calendar_robust_iff (hfine : ∀ e, fine e = true → ∃ c, e.currency = .str c) :
    Robust env fine now ↔ Readable env fine now := by
  constructor
  · exact Robust.readable
  · intro h
    refine ⟨fun hoursAhead => ?_, ?_, h.analysis hfine⟩
    · obtain ⟨events, hevents, hclean, -⟩ := h.upcoming hoursAhead
      exact ⟨events, hevents, hclean⟩
    · rintro q rfl
      exact h.blackout hfine

end

/-! ## Three payloads -/

/-- The events whose currency is a text. -/
def EconomicEvent.textCurrency (event : EconomicEvent) : Bool :=
  match event.currency with
  | .str _ => true
  | _ => false

/-- The event at noon beside another item. -/
def noonEnvWith (item : JsonValue) : CalendarEnv :=
  { noonEnv with jblanked := some (.list [item, .dict noonItem]) }

/-- Two hours before noon. -/
def tenOClock : Int := 1735732800000000 - calendarHours 2

theorem textCurrency_text (e : EconomicEvent) (h : e.textCurrency = true) :
    ∃ c, e.currency = .str c := by
  unfold EconomicEvent.textCurrency at h
  split at h
  · exact ⟨_, ‹_›⟩
  · cases h

/-- A date that is a number is skipped. -/
theorem dateless_robust :
    Robust (noonEnvWith (.dict [("date", .int 5), ("currency", .int 840)]))
      EconomicEvent.textCurrency tenOClock := by
  refine (calendar_robust_iff textCurrency_text).mpr ?_
  intro x hx
  rcases List.mem_pair.mp hx with rfl | rfl
  · exact ⟨_, rfl, fun t ht => by cases ht⟩
  · exact ⟨_, rfl, fun t _ _ => rfl⟩

/-- A text in the place of an item, and a currency that is a number: the one makes
`get_upcoming_events` fail, the other the filter of `run_analysis`. Without them both are well. -/
theorem malformed_item_fails :
    (getUpcomingEvents (noonEnvWith (.str "x")) tenOClock 24).map List.length =
        .error .attributeError ∧
      (getUpcomingEvents ((noonEnvWith (.str "x")).clean EconomicEvent.textCurrency)
        tenOClock 24).map List.length = .ok 1 ∧
      (calendarContext
        (noonEnvWith (.dict [("date", .str "2025-01-01T12:00:00Z"), ("currency", .int 840)]))
        true ["USD"] tenOClock).map (fun c => (c.1.length, c.2)) = .error .attributeError ∧
      (calendarContext
        ((noonEnvWith (.dict [("date", .str "2025-01-01T12:00:00Z"), ("currency", .int 840)])).clean
          EconomicEvent.textCurrency)
        true ["USD"] tenOClock).map (fun c => (c.1.length, c.2)) = .ok (1, false) := by
  decide +kernel

end MarketKill3r
