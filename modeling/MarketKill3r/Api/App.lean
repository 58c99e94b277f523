import MarketKill3r.Analysis.Service
import MarketKill3r.Api.RateLimit
import MarketKill3r.Auth.Runs
import MarketKill3r.Market.Quotes

/-!
# The application (`app/main.py`)

The rate limiter stands before every route. The routes of the dashboard first ask `get_current_user`
who is calling; those of the EA check a key of their own, and those of the login and the health check
need no user.

* `appStep`: the system of all requests; `appStep_cases`: what a request does.
* `app_auth`, `app_service`: on its own tables, each part of the application runs as if it were alone.
* `app_rate`: **what the limiter promises of the application.**
-/

namespace MarketKill3r

/-- The settings of all parts. `fromtimestamp` is `datetime.fromtimestamp` in UTC. -/
structure AppEnv where
  auth : AuthEnv
  settings : AppSettings
  appName : String
  appEnv : String
  fromtimestamp : PyFloat → Except TimestampError Int

/-- What a live quote needs of them. -/
def AppEnv.quotes (env : AppEnv) : QuoteEnv :=
  ⟨env.settings.toProviderEnv, env.settings.twelveDataApiKey, env.fromtimestamp⟩

structure AppState where
  limiter : RateLimitMiddleware
  auth : AuthState
  service : ServiceDb

/-- The limits of `create_app`. -/
def AppState.start : AppState := ⟨.init 100 60, .start, .empty⟩

/-! ## Requests -/

/-- The requests of the dashboard that read nothing of the service's tables. -/
inductive DashboardRequest
  | readCurrentUser
  | latestNews (around : Surroundings)
  | upcomingEvents (hoursAhead : Int) (around : Surroundings)
  | instruments
  | liveQuotes (answers : QuoteAnswers)
  | liveQuote (symbol : String) (answers : QuoteAnswers)

/-- `EconomicEventOut` -/
structure EconomicEventOut where
  name : String
  currency : String
  impact : String
  eventTime : String
  forecast : Option String
  previous : Option String
  actual : Option String

/-- A value for a field of type `str | None`. -/
def JsonValue.strOrNone : JsonValue → Option (Option String)
  | .null => some none
  | .str s => some (some s)
  | _ => none

/-- The item that `upcoming_events` makes of an event: pydantic refuses fields of other types. -/
def EconomicEvent.toOut (isoformat : Int → String) (event : EconomicEvent) :
    Option EconomicEventOut := do
  let name ← (← event.name.strOrNone)
  let currency ← (← event.currency.strOrNone)
  let forecast ← event.forecast.strOrNone
  let previous ← event.previous.strOrNone
  let actual ← event.actual.strOrNone
  return ⟨name, currency, event.impact, isoformat event.eventTime, forecast, previous, actual⟩

/-- Their responses. A quote that the provider does not have is `none`, and so are events of which one
is refused. -/
inductive DashboardResponse
  | user (user : UserRead)
  | news (articles : List NewsArticle) (aggregateSentiment : ℚ)
  | events (events : Option (List EconomicEventOut))
  | calendarError (e : CalendarError)
  | instruments (instruments : List InstrumentOut)
  | quotes (quotes : List MarketQuote)
  | quote (quote : Option MarketQuote)
  | quoteError (e : QuoteError)

/-- What a request asks for, with its bearer token and the time at which the token is read. A health
check finds the database reachable or not. -/
inductive AppAsk
  | auth (request : AuthRequest) (a : Ambient)
  | service (request : ServiceRequest) (bearer : Option String) (now : Int)
  | dashboard (request : DashboardRequest) (bearer : Option String) (now : Int)
  | healthCheck (reachable : Bool)

/-- A request, its peer, and the reading of the monotonic clock that it meets. -/
structure AppRequest where
  peer : Request
  clock : ℚ
  ask : AppAsk

/-- `HealthResponse` -/
structure HealthResponse where
  status : String
  appName : String
  version : String
  environment : String

/-- A response. A health check that does not reach the database is `none`. -/
inductive AppResponse
  | tooMany (statusCode : Nat) (detail : String)
  | auth (response : AuthResponse)
  | service (response : ServiceResponse)
  | dashboard (response : DashboardResponse)
  | health (response : Option HealthResponse)

/-- `credentials_exception` -/
def credentialsException : AppResponse := .auth (.httpError 401 "Could not validate credentials")

/-- The endpoint depends on `get_current_user`. -/
def ServiceRequest.needsUser : ServiceRequest → Bool
  | .ingest _ _ => false
  | .pendingSignals _ _ => false
  | .executionReport _ _ => false
  | _ => true

/-- `read_current_user`, `latest_news`, `upcoming_events`, `instruments`, `live_quotes` and
`live_quote`. -/
def DashboardRequest.answer (env : AppEnv) (user : User) : DashboardRequest → DashboardResponse
  | .readCurrentUser => .user user.read
  | .latestNews around =>
    let articles := fetchLatestNews (env.settings.feeds around) 10
    .news articles (aggregateSentiment articles)
  | .upcomingEvents hoursAhead around =>
    match getUpcomingEvents (env.settings.calendar around) around.calendarNow hoursAhead with
    | .ok events => .events (events.mapM (EconomicEvent.toOut env.settings.isoformat))
    | .error e => .calendarError e
  | .instruments => .instruments instrumentPayload
  | .liveQuotes answers =>
    match MarketKill3r.liveQuotes env.quotes answers with
    | .ok quotes => .quotes quotes
    | .error e => .quoteError e
  | .liveQuote symbol answers =>
    match MarketKill3r.liveQuote env.quotes answers symbol with
    | .ok quote => .quote quote
    | .error e => .quoteError e

/-- `health_check` -/
def healthCheck (env : AppEnv) (reachable : Bool) : Option HealthResponse :=
  if reachable then some ⟨"ok", env.appName, "2.0.0", env.appEnv⟩ else none

/-- The routes, behind the limiter. -/
def AppState.route (env : AppEnv) (s : AppState) : AppAsk → Option (AppState × AppResponse)
  | .auth request a =>
    let result := authHandle env.auth a s.auth.db request
    some ({ s with auth := ⟨result.db, s.auth.issued ++ result.response.issued⟩ }, .auth result.response)
  | .service request bearer now =>
    if request.needsUser ∧ getCurrentUser env.auth now bearer s.auth.db.toTables = none then
      some (s, credentialsException)
    else
      (serviceStep env.settings s.service request).map fun (service, response) =>
        ({ s with service := service }, .service response)
  | .dashboard request bearer now =>
    match getCurrentUser env.auth now bearer s.auth.db.toTables with
    | none => some (s, credentialsException)
    | some user => some (s, .dashboard (request.answer env user))
  | .healthCheck reachable => some (s, .health (MarketKill3r.healthCheck env reachable))

inductive AppLabel
  | request (r : AppRequest)
  | setActive (userId : String) (active : Bool)

/-- A request, or a switch of an account by an administrator. -/
def appStep (env : AppEnv) (s : AppState) : AppLabel → Option (AppState × Option AppResponse)
  | .request r =>
    match s.limiter.dispatch r.peer r.clock with
    | (limiter, .json statusCode detail) =>
      some ({ s with limiter := limiter }, some (.tooMany statusCode detail))
    | (limiter, .callNext) =>
      (AppState.route env { s with limiter := limiter } r.ask).map fun (s', response) =>
        (s', some response)
  | .setActive userId active =>
    (authStep env.auth s.auth (.setActive userId active)).map fun (auth, _) =>
      ({ s with auth := auth }, none)

abbrev AppTransition := Sys.Transition AppState AppLabel (Option AppResponse)

/-- The bearer of a request that needs a user, and the time at which it is read. -/
def AppAsk.credentials : AppAsk → Option (Option String × Int)
  | .auth (.logout bearer _) a => some (bearer, a.now)
  | .auth _ _ => none
  | .service request bearer now => if request.needsUser then some (bearer, now) else none
  | .dashboard _ bearer now => some (bearer, now)
  | .healthCheck _ => none

/-- The tokens that a request presents, and when they are read. -/
def AppAsk.presented : AppAsk → List (String × Int)
  | .auth request a => request.presented.map fun token => (token, a.now)
  | .service _ bearer now => bearer.toList.map fun token => (token, now)
  | .dashboard _ bearer now => bearer.toList.map fun token => (token, now)
  | .healthCheck _ => []

/-- A token that the request presents decodes only to claims that were handed out before. -/
def AppUnforged (env : AppEnv) (t : AppTransition) : Prop :=
  match t.label with
  | .request r => ∀ p ∈ r.ask.presented, ∀ claims ∈ env.auth.decodeToken p.2 p.1,
      claims ∈ t.pre.auth.issued
  | .setActive _ _ => True

instance (env : AppEnv) (t : AppTransition) : Decidable (AppUnforged env t) :=
  match t with
  | ⟨s, .request r, _, _⟩ => inferInstanceAs (Decidable (∀ p ∈ r.ask.presented,
      ∀ claims ∈ env.auth.decodeToken p.2 p.1, claims ∈ s.auth.issued))
  | ⟨_, .setActive _ _, _, _⟩ => isTrue trivial

/-! ## Steps -/

variable {env : AppEnv} {s s' : AppState}

/-- What a step does. -/
inductive AppStep (env : AppEnv) (s : AppState) :
    AppLabel → AppState → Option AppResponse → Prop
  | refused {r : AppRequest}
      (hfull : (s.limiter.dispatch r.peer r.clock).2 ≠ .callNext) :
      AppStep env s (.request r) { s with limiter := (s.limiter.dispatch r.peer r.clock).1 }
        (some (.tooMany 429 "Rate limit exceeded. Please try again shortly."))
  | denied {r : AppRequest} {bearer : Option String} {now : Int}
      (hfree : (s.limiter.dispatch r.peer r.clock).2 = .callNext)
      (hneeds : r.ask.credentials = some (bearer, now))
      (hnobody : getCurrentUser env.auth now bearer s.auth.db.toTables = none) :
      AppStep env s (.request r) { s with limiter := (s.limiter.dispatch r.peer r.clock).1 }
        (some credentialsException)
  | auth {peer : Request} {clock : ℚ} {request : AuthRequest} {a : Ambient} {auth : AuthState}
      {response : AuthResponse}
      (hfree : (s.limiter.dispatch peer clock).2 = .callNext)
      (hauth : authStep env.auth s.auth (.request request a) = some (auth, some response)) :
      AppStep env s (.request ⟨peer, clock, .auth request a⟩)
        { s with limiter := (s.limiter.dispatch peer clock).1, auth := auth } (some (.auth response))
  | service {peer : Request} {clock : ℚ} {request : ServiceRequest} {bearer : Option String} {now : Int}
      {service : ServiceDb} {response : ServiceResponse}
      (hfree : (s.limiter.dispatch peer clock).2 = .callNext)
      (huser : request.needsUser = true →
        ∃ user, getCurrentUser env.auth now bearer s.auth.db.toTables = some user)
      (hservice : serviceStep env.settings s.service request = some (service, response)) :
      AppStep env s (.request ⟨peer, clock, .service request bearer now⟩)
        { s with limiter := (s.limiter.dispatch peer clock).1, service := service }
        (some (.service response))
  | dashboard {peer : Request} {clock : ℚ} {request : DashboardRequest} {bearer : Option String}
      {now : Int} {user : User}
      (hfree : (s.limiter.dispatch peer clock).2 = .callNext)
      (huser : getCurrentUser env.auth now bearer s.auth.db.toTables = some user) :
      AppStep env s (.request ⟨peer, clock, .dashboard request bearer now⟩)
        { s with limiter := (s.limiter.dispatch peer clock).1 }
        (some (.dashboard (request.answer env user)))
  | health {peer : Request} {clock : ℚ} {reachable : Bool}
      (hfree : (s.limiter.dispatch peer clock).2 = .callNext) :
      AppStep env s (.request ⟨peer, clock, .healthCheck reachable⟩)
        { s with limiter := (s.limiter.dispatch peer clock).1 }
        (some (.health (healthCheck env reachable)))
  | switched {userId : String} {active : Bool} {auth : AuthState} {response : Option AuthResponse}
      (hauth : authStep env.auth s.auth (.setActive userId active) = some (auth, response)) :
      AppStep env s (.setActive userId active) { s with auth := auth } none

theorem appStep_cases {l : AppLabel} {o : Option AppResponse} (h : appStep env s l = some (s', o)) :
    AppStep env s l s' o := by
  cases l with
  | setActive userId active =>
    obtain ⟨⟨auth, response⟩, hauth, he⟩ := Option.map_eq_some_iff.mp h
    cases he
    exact .switched hauth
  | request r =>
    obtain ⟨peer, clock, ask⟩ := r
    rw [appStep] at h
    cases hdispatch : s.limiter.dispatch peer clock with
    | mk limiter answer =>
      have hlimiter : limiter = (s.limiter.dispatch peer clock).1 := by rw [hdispatch]
      cases answer with
      | json statusCode detail =>
        have hfull : (s.limiter.dispatch peer clock).2 ≠ .callNext := by
          rw [hdispatch]
          exact DispatchAnswer.noConfusion
        have hanswer := dispatch_refused hfull
        rw [hdispatch] at hanswer
        cases hanswer
        simp only [hdispatch] at h
        cases h
        rw [hlimiter]
        exact .refused (r := ⟨peer, clock, ask⟩) hfull
      | callNext =>
        have hfree : (s.limiter.dispatch peer clock).2 = .callNext := by rw [hdispatch]
        simp only [hdispatch] at h
        obtain ⟨⟨s₁, response⟩, hroute, he⟩ := Option.map_eq_some_iff.mp h
        cases he
        rw [hlimiter] at hroute
        cases ask with
        | auth request a =>
          cases hroute
          exact .auth hfree rfl
        | service request bearer now =>
          rw [AppState.route] at hroute
          split at hroute
          · rename_i hdenied
            cases hroute
            exact .denied (r := ⟨peer, clock, .service request bearer now⟩) hfree (if_pos hdenied.1)
              hdenied.2
          · rename_i hallowed
            obtain ⟨⟨service, answer⟩, hservice, he⟩ := Option.map_eq_some_iff.mp hroute
            cases he
            refine .service hfree (fun hneeds => ?_) hservice
            exact Option.ne_none_iff_exists'.mp fun hnone => hallowed ⟨hneeds, hnone⟩
        | dashboard request bearer now =>
          rw [AppState.route] at hroute
          split at hroute
          · cases hroute
            exact .denied (r := ⟨peer, clock, .dashboard request bearer now⟩) hfree rfl ‹_›
          · cases hroute
            exact .dashboard hfree ‹_›
        | healthCheck reachable =>
          cases hroute
          exact .health hfree

/-! ## The parts -/

/-- The step of the service in a transition. -/
def servicePart (t : AppTransition) : Option ServiceTransition :=
  match t.label, t.out with
  | .request ⟨_, _, .service request _ _⟩, some (.service response) =>
    some ⟨t.pre.service, request, response, t.post.service⟩
  | _, _ => none

/-- The call that the limiter answers in a transition. -/
def appCall (t : AppTransition) : Option Call :=
  match t.label with
  | .request r => some ⟨r.peer, r.clock⟩
  | .setActive _ _ => none

/-- The request was let through. -/
def Passed (t : AppTransition) : Prop :=
  match t.out with
  | some (.tooMany _ _) => False
  | _ => True

instance (t : AppTransition) : Decidable (Passed t) :=
  match t with
  | ⟨_, _, some (.tooMany _ _), _⟩ => isFalse id
  | ⟨_, _, some (.auth _), _⟩ | ⟨_, _, some (.service _), _⟩ | ⟨_, _, some (.dashboard _), _⟩
  | ⟨_, _, some (.health _), _⟩ | ⟨_, _, none, _⟩ => isTrue trivial

/-- What the log of the limiter says about a transition. -/
def appEntry (t : AppTransition) : Option (SlidingWindow.Entry String ℚ) :=
  (appCall t).map fun call => ⟨call.request.clientIp, call.now, decide (Passed t)⟩

variable {l : AppLabel} {o : Option AppResponse}

variable {s₀ : AppState} {ts : List AppTransition}

theorem AppStep.limiter (h : AppStep env s l s' o) :
    match appCall ⟨s, l, o, s'⟩ with
    | none => s'.limiter = s.limiter
    | some call => s'.limiter = (s.limiter.dispatch call.request call.now).1 ∧
        (Passed ⟨s, l, o, s'⟩ ↔ (s.limiter.dispatch call.request call.now).2 = .callNext) := by
  cases h with
  | refused hfull => exact ⟨rfl, iff_of_false id hfull⟩
  | denied hfree hneeds hnobody => exact ⟨rfl, iff_of_true trivial hfree⟩
  | auth hfree hauth => exact ⟨rfl, iff_of_true trivial hfree⟩
  | service hfree huser hservice => exact ⟨rfl, iff_of_true trivial hfree⟩
  | dashboard hfree huser => exact ⟨rfl, iff_of_true trivial hfree⟩
  | health hfree => exact ⟨rfl, iff_of_true trivial hfree⟩
  | switched hauth => rfl

/-- A refused request leaves everything but the limiter. -/
theorem AppStep.unpassed (h : AppStep env s l s' o) (hp : ¬ Passed ⟨s, l, o, s'⟩) :
    s' = { s with limiter := s'.limiter } := by
  cases h with
  | @refused r hfull => rfl
  | @denied r bearer now hfree hneeds hnobody => exact absurd trivial hp
  | auth hfree hauth => exact absurd trivial hp
  | service hfree huser hservice => exact absurd trivial hp
  | dashboard hfree huser => exact absurd trivial hp
  | health hfree => exact absurd trivial hp
  | switched hauth => exact absurd trivial hp

/-- The log of the limiter in a run. -/
structure Limited (ts : List AppTransition) (s : AppState) : Prop where
  served : ts.filterMap appEntry =
    SlidingWindow.serve 100 60 [] ((ts.filterMap appCall).map Call.key)
  state : LogOf 100 60 (ts.filterMap appEntry) s.limiter

/-- The log is in the order of the calls. -/
theorem Limited.ordered (h : Limited ts s)
    (hclock : (ts.filterMap appCall).Pairwise fun call next => call.now ≤ next.now) :
    (ts.filterMap appEntry).map (fun e => (e.client, e.time)) = (ts.filterMap appCall).map Call.key ∧
      (ts.filterMap appEntry).Pairwise fun e f => e.time ≤ f.time := by
  have hkeys : (ts.filterMap appEntry).map (fun e => (e.client, e.time)) =
      (ts.filterMap appCall).map Call.key := by
    rw [h.served, SlidingWindow.serve_requests, List.map_nil, List.nil_append]
  refine ⟨hkeys, ?_⟩
  have hpairs : ((ts.filterMap appEntry).map fun e => (e.client, e.time)).Pairwise
      fun p q => p.2 ≤ q.2 := by
    rw [hkeys]
    exact List.pairwise_map.mpr hclock
  exact (List.pairwise_map (R := fun p q : String × ℚ => p.2 ≤ q.2)).mp hpairs

theorem limited (h : Sys.Run (appStep env) .start ts s)
    (hclock : (ts.filterMap appCall).Pairwise fun call next => call.now ≤ next.now) : Limited ts s := by
  refine h.history (I := fun ts s => (ts.filterMap appCall).Pairwise
    (fun call next => call.now ≤ next.now) → Limited ts s) (fun _ => ⟨rfl, logOf_init⟩) ?_ hclock
  intro us s l o s' _ hstep _ ih hclock
  have hlimiter := (appStep_cases hstep).limiter
  cases hcall : appCall ⟨s, l, o, s'⟩ with
  | none =>
    have hentry : appEntry ⟨s, l, o, s'⟩ = none := by rw [appEntry, hcall]; rfl
    rw [hcall] at hlimiter
    rw [List.filterMap_append, List.filterMap_cons_none hcall, List.filterMap_nil,
      List.append_nil] at hclock
    constructor
    · rw [List.filterMap_append, List.filterMap_append, List.filterMap_cons_none hcall,
        List.filterMap_cons_none hentry, List.filterMap_nil, List.filterMap_nil, List.append_nil,
        List.append_nil]
      exact (ih hclock).served
    · rw [List.filterMap_append, List.filterMap_cons_none hentry, List.filterMap_nil,
        List.append_nil, hlimiter]
      exact (ih hclock).state
  | some call =>
    have hentry : appEntry ⟨s, l, o, s'⟩ =
        some ⟨call.request.clientIp, call.now, decide (Passed ⟨s, l, o, s'⟩)⟩ := by
      rw [appEntry, hcall]
      rfl
    rw [hcall] at hlimiter
    rw [List.filterMap_append, List.filterMap_cons_some hcall, List.filterMap_nil,
      List.pairwise_append] at hclock
    obtain ⟨hpast, -, hlast⟩ := hclock
    have hus := ih hpast
    obtain ⟨hkeys, hordered⟩ := hus.ordered hpast
    have hnow : ∀ e ∈ us.filterMap appEntry, e.time ≤ call.now := by
      intro e he
      have hmem := List.mem_map_of_mem (f := fun e => (e.client, e.time)) he
      rw [hkeys] at hmem
      obtain ⟨earlier, hearlier, hkey⟩ := List.mem_map.mp hmem
      have htime : earlier.now = e.time := congrArg Prod.snd hkey
      rw [← htime]
      exact hlast earlier hearlier call List.mem_cons_self
    obtain ⟨hanswer, hstate⟩ := hus.state.dispatch hordered hnow
    have hlog : List.filterMap appEntry (us ++ [⟨s, l, o, s'⟩]) = us.filterMap appEntry ++
        [SlidingWindow.answer 100 60 (us.filterMap appEntry) call.key] := by
      rw [List.filterMap_append, List.filterMap_cons_some hentry, List.filterMap_nil, ← hanswer]
      simp only [Call.entry, hlimiter.2]
    constructor
    · rw [hlog, List.filterMap_append, List.filterMap_cons_some hcall, List.filterMap_nil,
        List.map_append, List.map_singleton, SlidingWindow.serve_concat, ← hus.served]
    · rw [hlog, hlimiter.1]
      exact hstate

/-- The request of the client `c` was let through between `a` and `b`. -/
def Handled (c : String) (a b : ℚ) (t : AppTransition) : Prop :=
  match t.label with
  | .request r => r.peer.clientIp = c ∧ Passed t ∧ a ≤ r.clock ∧ r.clock ≤ b
  | .setActive _ _ => False

instance (c : String) (a b : ℚ) (t : AppTransition) : Decidable (Handled c a b t) :=
  match t with
  | ⟨s, .request r, o, s'⟩ => inferInstanceAs (Decidable
      (r.peer.clientIp = c ∧ Passed ⟨s, .request r, o, s'⟩ ∧ a ≤ r.clock ∧ r.clock ≤ b))
  | ⟨_, .setActive _ _, _, _⟩ => isFalse id

theorem length_handled (c : String) (a b : ℚ) (ts : List AppTransition) :
    (ts.filter fun t => Handled c a b t).length =
      (SlidingWindow.passedIn c a b (ts.filterMap appEntry)).length := by
  rw [SlidingWindow.passedIn, ← List.countP_eq_length_filter, ← List.countP_eq_length_filter,
    List.countP_filterMap]
  refine List.countP_congr fun t _ => ?_
  obtain ⟨pre, label, out, post⟩ := t
  cases label with
  | setActive userId active => exact iff_of_false Bool.false_ne_true Bool.false_ne_true
  | request r =>
    simp only [Handled, appEntry, appCall, Option.map_some, Option.getD_some, decide_eq_true_eq]
    exact decide_eq_true_iff

/-! ## A session -/

def demoAppEnv : AppEnv where
  auth := demoAuthEnv true
  settings := demoSettings
  appName := "THE MARKET KILL3R"
  appEnv := "development"
  fromtimestamp _ := .error .outOfRange

/-- A request of the second `i` from one address. -/
def demoRequest (i : Nat) (ask : AppAsk) : AppLabel := .request ⟨⟨some ⟨"10.0.0.1", 4000⟩⟩, i, ask⟩

/-- A request to the auth endpoints, second by second. -/
def demoAuthRequest : AuthLabel × Nat → AppLabel
  | (.request request a, i) => demoRequest i (.auth request a)
  | (.setActive userId active, _) => .setActive userId active

/-- A user registers, is approved and logs in; the EA sends bars, the user asks for an analysis, and
the EA fetches the signal. Without a token nobody is answered. -/
def demoApp : List AppLabel :=
  demoLogin.zipIdx.map demoAuthRequest ++
    [demoRequest 3 (.auth (.verifyLoginOtp "demo@example.com" "jklmnp") (demoAmbient "" "j1")),
      demoRequest 4 (.service (.ingest strongPayload none) none 0),
      demoRequest 5 (.service (.getAnalysis "gold" demoSurroundings) none 0),
      demoRequest 6 (.service (.getAnalysis "gold" demoSurroundings) (some "access.u1.") 0),
      demoRequest 7 (.service (.pendingSignals none none) none 0)]

/-- The analysis was answered for the user of a token. -/
def answeredUser (t : AppTransition) : Bool :=
  match t.label, t.out with
  | .request ⟨_, _, .service (.getAnalysis _ _) (some _) _⟩, some (.service (.signal _)) => true
  | _, _ => false

/-- What the session is used for. -/
structure DemoApp (ts : List AppTransition) : Prop where
  clock : (ts.filterMap appCall).Pairwise fun call next => call.now ≤ next.now
  unforged : ∀ t ∈ ts, AppUnforged demoAppEnv t
  handled : (ts.filter fun t => Handled "10.0.0.1" 0 60 t).length = 8
  answered : ∃ t ∈ ts, answeredUser t = true
  delivered : deliveredIds (ts.filterMap servicePart) = ["s1"]

instance (ts : List AppTransition) : Decidable (DemoApp ts) :=
  decidable_of_iff (((ts.filterMap appCall).Pairwise fun call next => call.now ≤ next.now) ∧
      (∀ t ∈ ts, AppUnforged demoAppEnv t) ∧
      (ts.filter fun t => Handled "10.0.0.1" 0 60 t).length = 8 ∧ (∃ t ∈ ts, answeredUser t = true) ∧
      deliveredIds (ts.filterMap servicePart) = ["s1"])
    ⟨fun ⟨h1, h2, h3, h4, h5⟩ => ⟨h1, h2, h3, h4, h5⟩,
      fun h => ⟨h.clock, h.unforged, h.handled, h.answered, h.delivered⟩⟩

theorem demoApp_run : ∃ ts s, Sys.Run (appStep demoAppEnv) .start ts s ∧ DemoApp ts :=
  Sys.exists_run (appStep demoAppEnv) .start demoApp (fun ts _ => DemoApp ts) (by decide +kernel)

/-! ## Rates -/

/-- **The rate of the whole application.** With calls in order, a request of any kind is refused exactly
when a hundred requests of its address were let through in the minute before it, and then it leaves
everything but the limiter; and in `k` minutes on end, no address has more than `100 k` requests (guesses
at a password or at a code, say) let through. -/
theorem app_rate (h : Sys.Run (appStep env) .start ts s)
    (hclock : (ts.filterMap appCall).Pairwise fun call next => call.now ≤ next.now) :
    (∀ before t after r, ts = before ++ t :: after → t.label = .request r →
      (¬ Passed t ↔ 100 ≤
        (before.filter fun t' => Handled r.peer.clientIp (r.clock - 60) r.clock t').length)) ∧
    (∀ t ∈ ts, ¬ Passed t → t.post = { t.pre with limiter := t.post.limiter }) ∧
    ∀ c a (k : Nat), (ts.filter fun t => Handled c a (a + (k + 1 : Nat) * 60) t).length ≤ 100 * (k + 1) := by
  have hlimited := limited h hclock
  have hwindowed : SlidingWindow.Windowed 100 60 (ts.filterMap appEntry) := by
    rw [hlimited.served]
    exact SlidingWindow.windowed_serve _
  refine ⟨?_, ?_, fun c a k => ?_⟩
  · rintro before ⟨pre, label, out, post⟩ after r rfl hlabel
    subst hlabel
    have hentry := hwindowed (before.filterMap appEntry) _ (after.filterMap appEntry)
      (by rw [List.filterMap_append, List.filterMap_cons_some (f := appEntry) rfl])
    rw [← length_handled] at hentry
    rw [← Int.ofNat_le]
    exact decide_eq_false_iff_not.symm.trans hentry
  · rintro ⟨pre, label, out, post⟩ ht hp
    obtain ⟨before, after, rfl⟩ := List.append_of_mem ht
    exact (appStep_cases h.cut.2).unpassed hp
  · have hbound := hwindowed.length_le_mul (hlimited.ordered hclock).2 c a k
    rw [nsmul_eq_mul, ← length_handled, show max (0 : Int) 100 = 100 from rfl] at hbound
    omega

theorem demo_app_rate : ∃ ts s, Sys.Run (appStep demoAppEnv) .start ts s ∧
    (ts.filter fun t => Handled "10.0.0.1" 0 60 t).length = 8 ∧
    ∀ c a (k : Nat), (ts.filter fun t => Handled c a (a + (k + 1 : Nat) * 60) t).length ≤
      100 * (k + 1) := by
  obtain ⟨ts, s, hrun, hdemo⟩ := demoApp_run
  exact ⟨ts, s, hrun, hdemo.handled, (app_rate hrun hdemo.clock).2.2⟩

end MarketKill3r
