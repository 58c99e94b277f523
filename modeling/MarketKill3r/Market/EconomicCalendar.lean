import MarketKill3r.Market.Backfill
import MarketKill3r.Market.Loading

/-!
# The economic calendar (`app/services/economic_calendar.py`)

`is_blackout_window` asks `get_upcoming_events` for the events of the next hours and tests for each
whether now lies in the window around it. The first step drops the events of the past and those
beyond its horizon, so the second one never sees them.

* `isBlackoutWindow_iff`: what the answer says.
* `blackout_exact_iff`: when this is what the window around an event says.
-/

namespace MarketKill3r

/-- The exceptions that leave the two functions. -/
inductive CalendarError
  | attributeError
  deriving DecidableEq

/-- `x or y` -/
def JsonValue.or (x y : JsonValue) : JsonValue := if x.truthy then x else y

/-- `d.get(key, default)` -/
def JsonDict.getOr (d : JsonDict) (key : String) (default : JsonValue) : JsonValue :=
  (d.lookup key).getD default

/-- The environment of the calendar: the settings, what the two providers answer (nothing when the
request or the decoding fails) and the conversions of Python. -/
structure CalendarEnv where
  calendarApiKey : String
  fmpApiKey : String
  jblanked : Option JsonValue
  fmp : Option JsonValue
  fromisoformat : String → Option PyDatetime
  str : JsonValue → String
  lower : String → String
  caseMap : CaseMap

/-- `timedelta(minutes=m)` in microseconds. -/
def calendarMinutes (m : Int) : Int := m * 60000000

/-- `timedelta(hours=h)` in microseconds. -/
def calendarHours (h : Int) : Int := calendarMinutes (60 * h)

/-- `HIGH_IMPACT_LEVELS` -/
def highImpactLevels : List String := ["high", "red", "3"]

/-- `EconomicEvent`. The time is an instant in microseconds; the currency is what the provider
sent. -/
structure EconomicEvent where
  name : JsonValue
  currency : JsonValue
  impact : String
  eventTime : Int
  forecast : JsonValue
  previous : JsonValue
  actual : JsonValue

/-! ## `get_upcoming_events` -/

/-- `raw_events`: the fallback is asked when the first provider gave nothing. -/
def CalendarEnv.rawEvents (env : CalendarEnv) : JsonValue :=
  match if env.calendarApiKey ≠ "" then env.jblanked.getD .null else .null with
  | .null => if env.fmpApiKey ≠ "" then env.fmp.getD (.list []) else .null
  | raw => raw

/-- The instant of an item, without which it is skipped. -/
def CalendarEnv.eventTime (env : CalendarEnv) (item : JsonDict) : Option Int :=
  let rawDate := (item.get "date").or (item.get "eventDate")
  (env.fromisoformat (replaceZ (env.str rawDate))).map fun t => t.wall - t.offset.getD 0

/-- `item.get("currency") or item.get("country") or ""` -/
def JsonDict.currency (item : JsonDict) : JsonValue :=
  ((item.get "currency").or (item.get "country")).or (.str "")

/-- `str(item.get("strength", item.get("impact", item.get("importance", "")))).lower()` -/
def CalendarEnv.impact (env : CalendarEnv) (item : JsonDict) : String :=
  env.lower (env.str
    (item.getOr "strength" (item.getOr "impact" (item.getOr "importance" (.str "")))))

/-- The event of an item with the instant `t`. -/
def CalendarEnv.event (env : CalendarEnv) (item : JsonDict) (t : Int) : EconomicEvent where
  name := ((item.get "name").or (item.get "event")).or (.str "Unknown event")
  currency := item.currency
  impact := env.impact item
  eventTime := t
  forecast := item.get "forecast"
  previous := item.get "previous"
  actual := item.get "actual"

/-- The body of the loop of `get_upcoming_events`. -/
def CalendarEnv.upcoming (env : CalendarEnv) (now cutoff : Int) (item : JsonDict) :
    Option EconomicEvent :=
  match env.eventTime item with
  | none => none
  | some t => if now ≤ t ∧ t ≤ cutoff then some (env.event item t) else none

/-- An item of the response; one that is no object has no `get`. -/
def CalendarEnv.readItem (env : CalendarEnv) (now cutoff : Int) :
    JsonValue → Except CalendarError (Option EconomicEvent)
  | .dict item => .ok (env.upcoming now cutoff item)
  | _ => .error .attributeError

/-- `get_upcoming_events` -/
def getUpcomingEvents (env : CalendarEnv) (now hoursAhead : Int) :
    Except CalendarError (List EconomicEvent) :=
  match env.rawEvents with
  | .list items => do
    let events ← items.mapM (env.readItem now (now + calendarHours hoursAhead))
    pure (events.filterMap id)
  | _ => pure []

/-! ## `is_blackout_window` -/

/-- The arguments of `is_blackout_window` and the reading of the clock. -/
structure BlackoutQuery where
  currencies : List String
  minutesBefore : Int
  minutesAfter : Int
  now : Int

/-- `hours_ahead=max(1, minutes_after // 60 + 1)` -/
def BlackoutQuery.hoursAhead (q : BlackoutQuery) : Int := max 1 (q.minutesAfter / 60 + 1)

/-- `event.currency.upper() in {c.upper() for c in currencies}`, for a text. -/
def BlackoutQuery.lists (q : BlackoutQuery) (cm : CaseMap) (currency : String) : Prop :=
  cm.upperStr currency ∈ q.currencies.map cm.upperStr

instance (q : BlackoutQuery) (cm : CaseMap) (currency : String) : Decidable (q.lists cm currency) :=
  inferInstanceAs (Decidable (_ ∈ _))

/-- `window_start <= now <= window_end` for an event at the instant `t`. -/
def BlackoutQuery.inWindow (q : BlackoutQuery) (t : Int) : Prop :=
  t - calendarMinutes q.minutesBefore ≤ q.now ∧ q.now ≤ t + calendarMinutes q.minutesAfter

instance (q : BlackoutQuery) (t : Int) : Decidable (q.inWindow t) :=
  inferInstanceAs (Decidable (_ ∧ _))

/-- The body of the loop of `is_blackout_window`: does the event trigger the blackout? Only a text
has an `upper`. -/
def triggers (env : CalendarEnv) (q : BlackoutQuery) (event : EconomicEvent) :
    Except CalendarError Bool :=
  if event.impact ∉ highImpactLevels then .ok false
  else
    match event.currency with
    | .str currency => .ok (decide (q.lists env.caseMap currency ∧ q.inWindow event.eventTime))
    | _ => .error .attributeError

/-- `is_blackout_window` -/
def isBlackoutWindow (env : CalendarEnv) (q : BlackoutQuery) :
    Except CalendarError (Bool × Option EconomicEvent) := do
  let events ← getUpcomingEvents env q.now q.hoursAhead
  let event ← events.findM? (triggers env q)
  pure (event.isSome, event)

/-- The call returns `True`. -/
def Blackout (env : CalendarEnv) (q : BlackoutQuery) : Prop :=
  (isBlackoutWindow env q).map Prod.fst = .ok true

/-! ## What the answer says -/

/-- The item is a high-impact event of a listed currency, at the instant `t`. -/
structure RelevantAt (env : CalendarEnv) (q : BlackoutQuery) (item : JsonDict) (t : Int) : Prop where
  time : env.eventTime item = some t
  impact : env.impact item ∈ highImpactLevels
  currency : ∃ c, item.currency = .str c ∧ q.lists env.caseMap c

/-- The part of the window around an event that `is_blackout_window` looks at: the event is neither
past nor beyond the horizon of `get_upcoming_events`. -/
def BlackoutQuery.seen (q : BlackoutQuery) (t : Int) : Prop :=
  q.now ≤ t ∧ t ≤ q.now + calendarMinutes q.minutesBefore ∧ t ≤ q.now + calendarHours q.hoursAhead

/-- The rest of it. -/
def BlackoutQuery.missed (q : BlackoutQuery) (t : Int) : Prop :=
  (t < q.now ∧ q.now ≤ t + calendarMinutes q.minutesAfter) ∨
    (q.now + calendarHours q.hoursAhead < t ∧ t ≤ q.now + calendarMinutes q.minutesBefore)

/-- The item is relevant and lies in the part that is seen. -/
def Seen (env : CalendarEnv) (q : BlackoutQuery) (item : JsonDict) : Prop :=
  ∃ t, RelevantAt env q item t ∧ q.seen t

/-- The item is relevant and lies in the part that is missed. -/
def Missed (env : CalendarEnv) (q : BlackoutQuery) (item : JsonDict) : Prop :=
  ∃ t, RelevantAt env q item t ∧ q.missed t

/-- A high-impact event of the next hours whose currency is no text. -/
structure Unreadable (env : CalendarEnv) (q : BlackoutQuery) (item : JsonDict) : Prop where
  time : ∃ t, env.eventTime item = some t ∧ q.now ≤ t ∧ t ≤ q.now + calendarHours q.hoursAhead
  impact : env.impact item ∈ highImpactLevels
  currency : ∀ c, item.currency ≠ .str c

/-- The window around an event is the part that is seen and the part that is missed. -/
theorem BlackoutQuery.inWindow_iff {q : BlackoutQuery} (hafter : 0 ≤ q.minutesAfter)
    (hbefore : 0 ≤ q.minutesBefore) (t : Int) : q.inWindow t ↔ q.missed t ∨ q.seen t := by
  have h1 : 0 ≤ calendarHours q.hoursAhead := by
    unfold calendarHours calendarMinutes hoursAhead
    omega
  unfold inWindow missed seen calendarMinutes at *
  omega

/-- Some item triggers the blackout before any item makes the loop raise. -/
theorem findM?_triggers_iff {env : CalendarEnv} {q : BlackoutQuery} (f : JsonDict → Option EconomicEvent)
    (items : List JsonDict) :
    (∃ e, (items.filterMap f).findM? (triggers env q) = .ok (some e)) ↔
      ∃ past item later, items = past ++ item :: later ∧
        (∃ e, f item = some e ∧ triggers env q e = .ok true) ∧
        ∀ p ∈ past, ∀ e, f p = some e → triggers env q e ≠ .error .attributeError := by
  induction items with
  | nil => simp [List.findM?, pure, Except.pure]
  | cons x xs ih =>
    -- The first item alone decides, or it is passed over.
    have hpass : (∃ past item later, xs = past ++ item :: later ∧
        (∃ e, f item = some e ∧ triggers env q e = .ok true) ∧
        ∀ p ∈ x :: past, ∀ e, f p = some e → triggers env q e ≠ .error .attributeError) ↔
        (∀ e, f x = some e → triggers env q e ≠ .error .attributeError) ∧
          ∃ e, (xs.filterMap f).findM? (triggers env q) = .ok (some e) := by
      rw [ih]
      simp only [List.forall_mem_cons]
      grind
    rw [Scan.exists_split_cons, hpass]
    cases hfx : f x with
    | none => simp [hfx]
    | some e =>
      rw [List.filterMap_cons_some hfx, List.findM?]
      rcases ht : triggers env q e with ⟨⟨⟩⟩ | ⟨_ | _⟩ <;> simp [ht, bind, Except.bind, pure, Except.pure]

section Exact

variable {env : CalendarEnv} {q : BlackoutQuery} {items : List JsonDict}

theorem getUpcomingEvents_eq (h : env.rawEvents = .list (items.map .dict)) (now hoursAhead : Int) :
    getUpcomingEvents env now hoursAhead =
      .ok (items.filterMap (env.upcoming now (now + calendarHours hoursAhead))) := by
  have hmap : (items.map JsonValue.dict).mapM
      (env.readItem now (now + calendarHours hoursAhead)) =
      .ok (items.map (env.upcoming now (now + calendarHours hoursAhead))) := by
    rw [List.mapM_map]
    exact List.mapM_pure
  rw [getUpcomingEvents, h]
  simp only [hmap]
  simp [bind, Except.bind, pure, Except.pure, List.filterMap_map]

/-- The events of the horizon. -/
theorem upcoming_eq_some_iff {item : JsonDict} {now cutoff : Int} {e : EconomicEvent} :
    env.upcoming now cutoff item = some e ↔
      ∃ t, env.eventTime item = some t ∧ (now ≤ t ∧ t ≤ cutoff) ∧ env.event item t = e := by
  unfold CalendarEnv.upcoming
  cases env.eventTime item with
  | none => simp
  | some t => simp [Option.ite_none_right_eq_some]

theorem triggers_true_iff {e : EconomicEvent} :
    triggers env q e = .ok true ↔ e.impact ∈ highImpactLevels ∧
      (∃ c, e.currency = .str c ∧ q.lists env.caseMap c) ∧ q.inWindow e.eventTime := by
  unfold triggers
  by_cases himp : e.impact ∈ highImpactLevels
  · cases hc : e.currency <;> simp [himp]
  · simp [himp]

theorem triggers_error_iff {e : EconomicEvent} :
    triggers env q e = .error .attributeError ↔
      e.impact ∈ highImpactLevels ∧ ∀ c, e.currency ≠ .str c := by
  unfold triggers
  by_cases himp : e.impact ∈ highImpactLevels
  · cases hc : e.currency <;> simp [himp]
  · simp [himp]

/-- The items that trigger the blackout, as `is_blackout_window` asks for them. -/
theorem upcoming_triggers_iff (hafter : 0 ≤ q.minutesAfter) (item : JsonDict) :
    (∃ e, env.upcoming q.now (q.now + calendarHours q.hoursAhead) item = some e ∧
      triggers env q e = .ok true) ↔ Seen env q item := by
  simp only [upcoming_eq_some_iff, triggers_true_iff]
  constructor
  · rintro ⟨_, ⟨t, ht, hin, rfl⟩, himp, hcur, hwin⟩
    refine ⟨t, ⟨ht, himp, hcur⟩, hin.1, ?_, hin.2⟩
    have := hwin.1
    simp only [CalendarEnv.event] at this
    omega
  · rintro ⟨t, ⟨ht, himp, hcur⟩, h1, h2, h3⟩
    refine ⟨_, ⟨t, ht, ⟨h1, h3⟩, rfl⟩, himp, hcur, ?_⟩
    simp only [BlackoutQuery.inWindow, CalendarEnv.event, calendarMinutes] at h2 ⊢
    omega

/-- The items that let it go on. -/
theorem upcoming_passes_iff (item : JsonDict) :
    (∀ e, env.upcoming q.now (q.now + calendarHours q.hoursAhead) item = some e →
      triggers env q e ≠ .error .attributeError) ↔ ¬ Unreadable env q item := by
  simp only [upcoming_eq_some_iff, Ne, triggers_error_iff]
  constructor
  · rintro hno ⟨⟨t, ht, hin⟩, himp, hcur⟩
    exact hno _ ⟨t, ht, hin, rfl⟩ ⟨himp, hcur⟩
  · rintro hno _ ⟨t, ht, hin, rfl⟩ ⟨himp, hcur⟩
    exact hno ⟨⟨t, ht, hin⟩, himp, hcur⟩

/-- **What the answer says**: in the list of the provider, a relevant event of the part that is seen
stands before every event of the horizon that has no text for its currency. -/
theorem isBlackoutWindow_iff (h : env.rawEvents = .list (items.map .dict))
    (hafter : 0 ≤ q.minutesAfter) :
    Blackout env q ↔
      ∃ past item later, items = past ++ item :: later ∧
        Seen env q item ∧ ∀ p ∈ past, ¬ Unreadable env q p := by
  have hfind : Blackout env q ↔
      ∃ e, (items.filterMap (env.upcoming q.now (q.now + calendarHours q.hoursAhead))).findM?
        (triggers env q) = .ok (some e) := by
    unfold Blackout isBlackoutWindow
    rw [getUpcomingEvents_eq h]
    simp only [bind, Except.bind]
    cases List.findM? (triggers env q) _ with
    | error => simp [Except.map]
    | ok r => cases r <;> simp [Except.map, pure, Except.pure]
  simp only [hfind, findM?_triggers_iff, upcoming_triggers_iff hafter, upcoming_passes_iff]

/-- **When the answer is the one that the window around an event gives**: when no relevant event lies
in the part that is missed, unless another one lies in the part that is seen; and when no event that
makes the loop raise stands before all those that are seen. -/
theorem blackout_exact_iff (h : env.rawEvents = .list (items.map .dict))
    (hbefore : 0 ≤ q.minutesBefore) (hafter : 0 ≤ q.minutesAfter) :
    (Blackout env q ↔ ∃ item ∈ items, ∃ t, RelevantAt env q item t ∧ q.inWindow t) ↔
      ((∃ item ∈ items, Missed env q item) → ∃ item ∈ items, Seen env q item) ∧
      ∀ past item later, items = past ++ item :: later → Unreadable env q item →
        (∃ i ∈ later, Seen env q i) → ∃ i ∈ past, Seen env q i := by
  have hapart : ∀ i, Unreadable env q i → ¬ Seen env q i := by
    rintro i hu ⟨t, ht, -⟩
    obtain ⟨c, hc, -⟩ := ht.currency
    exact hu.currency c hc
  have hwindow : (∃ item ∈ items, ∃ t, RelevantAt env q item t ∧ q.inWindow t) ↔
      (∃ item ∈ items, Missed env q item) ∨ ∃ item ∈ items, Seen env q item := by
    simp only [BlackoutQuery.inWindow_iff hafter hbefore, and_or_left, exists_or]
    rfl
  rw [isBlackoutWindow_iff h hafter, hwindow, Scan.exists_before_iff hapart]
  constructor
  · intro hiff
    have hcode := hiff.mpr
    refine ⟨fun hm => (hcode (Or.inl hm)).1, fun past item later heq hu hlater => ?_⟩
    obtain ⟨i, hi, hs⟩ := hlater
    have hmem : i ∈ items := by rw [heq]; simp [hi]
    exact (hcode (Or.inr ⟨i, hmem, hs⟩)).2 past item later heq hu ⟨i, hi, hs⟩
  · rintro ⟨hmissed, hfirst⟩
    exact ⟨fun ⟨hs, _⟩ => Or.inr hs, fun hm => ⟨hm.elim hmissed id, hfirst⟩⟩

end Exact

/-! ## One event at noon -/

/-- A high-impact event in dollars. -/
def noonItem : JsonDict :=
  [("name", .str "CPI m/m"), ("currency", .str "USD"), ("impact", .str "High"),
    ("date", .str "2025-01-01T12:00:00Z")]

/-- The provider lists this event only. -/
def noonEnv : CalendarEnv where
  calendarApiKey := "key"
  fmpApiKey := ""
  jblanked := some (.list [.dict noonItem])
  fmp := none
  fromisoformat s :=
    if s = "2025-01-01T12:00:00+00:00" then some ⟨1735732800000000, some 0⟩ else none
  str value := match value with
    | .str s => s
    | _ => "None"
  lower s := s.toLower
  caseMap := .ascii

/-- The default window, asked `m` minutes after noon. -/
def noonQuery (m : Int) : BlackoutQuery :=
  ⟨["usd"], 30, 30, 1735732800000000 + calendarMinutes m⟩

theorem noonItem_relevant (m : Int) : RelevantAt noonEnv (noonQuery m) noonItem 1735732800000000 :=
  have hcur : noonEnv.caseMap.upperStr "USD" ∈ ["usd"].map noonEnv.caseMap.upperStr := by
    decide +kernel
  ⟨by decide +kernel, by decide +kernel, "USD", rfl, hcur⟩

/-- Ten minutes after the event the blackout is over, thirty minutes after it would be. -/
theorem past_event_missed :
    (isBlackoutWindow noonEnv (noonQuery 10)).map Prod.fst = .ok false ∧
      ∃ item ∈ [noonItem], ∃ t, RelevantAt noonEnv (noonQuery 10) item t ∧ (noonQuery 10).inWindow t :=
  ⟨by decide +kernel, noonItem, List.mem_singleton_self _, _, noonItem_relevant 10, by decide⟩

theorem coming_event_seen :
    Blackout noonEnv (noonQuery (-10)) ∧
      ∃ item ∈ [noonItem], ∃ t, RelevantAt noonEnv (noonQuery (-10)) item t ∧
        (noonQuery (-10)).inWindow t := by
  have hseen : Seen noonEnv (noonQuery (-10)) noonItem :=
    ⟨_, noonItem_relevant (-10), by decide, by decide, by decide⟩
  have hiff := (@blackout_exact_iff noonEnv (noonQuery (-10)) [noonItem] rfl (by decide)
    (by decide)).mpr ⟨fun _ => ⟨noonItem, by simp, hseen⟩, ?_⟩
  · have hspec : ∃ item ∈ [noonItem], ∃ t, RelevantAt noonEnv (noonQuery (-10)) item t ∧
        (noonQuery (-10)).inWindow t :=
      ⟨noonItem, List.mem_singleton_self _, _, noonItem_relevant (-10), by decide⟩
    exact ⟨hiff.mpr hspec, hspec⟩
  · intro past item later heq hu _
    have hitem : item ∈ [noonItem] := by rw [heq]; simp
    obtain rfl := List.mem_singleton.mp hitem
    exact absurd rfl (hu.currency "USD")

end MarketKill3r
