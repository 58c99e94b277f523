import MarketKill3r.Lib.Machine
import MarketKill3r.Lib.SlidingWindow
import Mathlib.Algebra.Order.Ring.Rat
import Mathlib.Data.List.Basic
import Mathlib.Logic.Function.Basic

/-!
# The rate limiter (`app/api/middleware/rate_limit.py`)

The middleware keeps, for each client address, the clock readings of the requests that it let pass,
and drops the old ones from the front when the client calls again.

* `requestLog_eq_serve`: its answers are those of the limiter that looks at the whole log.
* `rateLimit_exact`: a request is refused exactly when the client used up its window; no window
  holds more, refusals leave no trace and clients do not see each other.

The clock is `time.monotonic()`: each call brings its reading.
-/

namespace MarketKill3r

open SlidingWindow

/-- The peer of a connection, `request.client`. -/
structure Address where
  host : String
  port : Nat

/-- What the middleware reads of a request. -/
structure Request where
  client : Option Address

/-- `request.client.host if request.client else "unknown"` -/
def Request.clientIp (request : Request) : String :=
  match request.client with
  | some client => client.host
  | none => "unknown"

/-- What `dispatch` answers: a JSON response of its own, or what `call_next` returns. -/
inductive DispatchAnswer where
  | json (statusCode : Nat) (detail : String)
  | callNext
  deriving DecidableEq

/-- The middleware with its parameters and `_hits`, a `defaultdict(deque)`. -/
structure RateLimitMiddleware where
  maxRequests : Int
  windowSeconds : ℚ
  hits : String → List ℚ

namespace RateLimitMiddleware

/-- `RateLimitMiddleware(max_requests, window_seconds)` -/
def init (maxRequests : Int) (windowSeconds : ℚ) : RateLimitMiddleware :=
  ⟨maxRequests, windowSeconds, fun _ => []⟩

/-- `dispatch`, at the clock reading `now`. -/
def dispatch (self : RateLimitMiddleware) (request : Request) (now : ℚ) :
    RateLimitMiddleware × DispatchAnswer :=
  let clientIp := request.clientIp
  -- while window and now - window[0] > self.window_seconds: window.popleft()
  let window := prune self.windowSeconds now (self.hits clientIp)
  if self.maxRequests ≤ window.length then
    ({ self with hits := Function.update self.hits clientIp window },
      .json 429 "Rate limit exceeded. Please try again shortly.")
  else
    ({ self with hits := Function.update self.hits clientIp (window ++ [now]) }, .callNext)

end RateLimitMiddleware

/-- A request and the clock reading that it meets. -/
structure Call where
  request : Request
  now : ℚ

/-- The client and the time of a call. -/
def Call.key (call : Call) : String × ℚ := (call.request.clientIp, call.now)

/-- The log entry of a call that `dispatch` answered. -/
def Call.entry (call : Call) (answer : DispatchAnswer) : Entry String ℚ :=
  ⟨call.request.clientIp, call.now, decide (answer = .callNext)⟩

/-- One call as a step of a machine that writes the log. -/
def dispatchStep (self : RateLimitMiddleware) (_ : Nat) (call : Call) :
    RateLimitMiddleware × List (Entry String ℚ) :=
  let (self', answer) := self.dispatch call.request call.now
  (self', [call.entry answer])

/-- The log of a run of the middleware. -/
def requestLog (maxRequests : Int) (windowSeconds : ℚ) (calls : List Call) :
    List (Entry String ℚ) :=
  Machine.outputsFrom dispatchStep (.init maxRequests windowSeconds) 0 calls

/-! ## One call -/

/-- What `dispatch` does, with the test as a flag: the window is pruned in any case, and a request
that passes adds its time. -/
theorem dispatch_eq (self : RateLimitMiddleware) (request : Request) (now : ℚ) {free : Bool}
    (hfree : free = decide (((prune self.windowSeconds now
      (self.hits request.clientIp)).length : Int) < self.maxRequests)) :
    self.dispatch request now =
      ({ self with
          hits := Function.update self.hits request.clientIp
            (prune self.windowSeconds now (self.hits request.clientIp) ++
              if free = true then [now] else []) },
        if free = true then .callNext
        else .json 429 "Rate limit exceeded. Please try again shortly.") := by
  subst hfree
  unfold RateLimitMiddleware.dispatch
  by_cases hfull : self.maxRequests ≤
      (prune self.windowSeconds now (self.hits request.clientIp)).length
  · simp [hfull, not_lt.mpr hfull]
  · simp [hfull, not_le.mp hfull]

/-- A request that does not pass gets the 429 answer. -/
theorem dispatch_refused {self : RateLimitMiddleware} {request : Request} {now : ℚ}
    (h : (self.dispatch request now).2 ≠ .callNext) :
    (self.dispatch request now).2 = .json 429 "Rate limit exceeded. Please try again shortly." := by
  rw [dispatch_eq self request now rfl] at h ⊢
  exact if_neg fun hfree => h (if_pos hfree)

@[simp] theorem entry_ite (call : Call) (free : Bool) {statusCode : Nat} {detail : String} :
    call.entry (if free = true then .callNext else .json statusCode detail) =
      ⟨call.request.clientIp, call.now, free⟩ := by
  cases free <;> rfl

/-- `self` is the middleware after the calls of `log`: its parameters, and for each client the times
of its window. -/
structure LogOf (maxRequests : Int) (windowSeconds : ℚ) (log : List (Entry String ℚ))
    (self : RateLimitMiddleware) : Prop where
  limit : self.maxRequests = maxRequests
  length : self.windowSeconds = windowSeconds
  kept : ∀ c, Kept windowSeconds log c (self.hits c)

variable {maxRequests : Int} {windowSeconds : ℚ} {log : List (Entry String ℚ)}
  {self : RateLimitMiddleware}

theorem logOf_init : LogOf maxRequests windowSeconds [] (.init maxRequests windowSeconds) :=
  ⟨rfl, rfl, fun c => kept_nil windowSeconds c⟩

/-- **One call is one step of the abstract limiter**, and the middleware stays the one after the
log. -/
theorem LogOf.dispatch (h : LogOf maxRequests windowSeconds log self)
    (hs : log.Pairwise fun e f => e.time ≤ f.time) {call : Call}
    (hnow : ∀ e ∈ log, e.time ≤ call.now) :
    call.entry (self.dispatch call.request call.now).2 =
        answer maxRequests windowSeconds log call.key ∧
      LogOf maxRequests windowSeconds (log ++ [answer maxRequests windowSeconds log call.key])
        (self.dispatch call.request call.now).1 := by
  obtain ⟨rfl, rfl, hkept⟩ := h
  have hfree : (answer self.maxRequests self.windowSeconds log call.key).passed =
      decide (((prune self.windowSeconds call.now
        (self.hits call.request.clientIp)).length : Int) < self.maxRequests) := by
    rw [(hkept call.request.clientIp).length_prune hs hnow]
    rfl
  rw [dispatch_eq self call.request call.now hfree]
  refine ⟨?_, rfl, rfl, fun c => ?_⟩
  · exact entry_ite call _
  · by_cases hc : call.request.clientIp = c
    · subst hc
      simp only [Function.update_self]
      exact (hkept call.request.clientIp).own (e := answer _ _ log call.key)
    · simpa [Function.update_of_ne (Ne.symm hc)] using (hkept c).other hc

/-! ## Runs -/

/-- The entries of further calls are what the abstract limiter adds to the log. -/
theorem LogOf.outputsFrom {calls : List Call} {i : Nat} (h : LogOf maxRequests windowSeconds log self)
    (hs : log.Pairwise fun e f => e.time ≤ f.time)
    (hcalls : calls.Pairwise fun call next => call.now ≤ next.now)
    (hnow : ∀ e ∈ log, ∀ call ∈ calls, e.time ≤ call.now) :
    log ++ Machine.outputsFrom dispatchStep self i calls =
      serve maxRequests windowSeconds log (calls.map Call.key) := by
  induction calls generalizing log self i with
  | nil => simp
  | cons call calls ih =>
    obtain ⟨hnext, hcalls⟩ := List.pairwise_cons.mp hcalls
    have hpast : ∀ e ∈ log, e.time ≤ call.now := fun e he => hnow e he call (by simp)
    obtain ⟨hentry, hlog⟩ := h.dispatch hs hpast
    rw [Machine.outputsFrom_cons, List.map_cons, serve_cons, ← ih hlog ?_ hcalls ?_,
      List.append_assoc, ← hentry]
    · rfl
    · refine List.pairwise_append.mpr ⟨hs, List.pairwise_singleton _ _, fun e he f hf => ?_⟩
      obtain rfl := List.mem_singleton.mp hf
      exact hpast e he
    · intro e he next hn
      rcases List.mem_append.mp he with he | he
      · exact hnow e he next (List.mem_cons_of_mem _ hn)
      · obtain rfl := List.mem_singleton.mp he
        exact hnext next hn

/-- **The middleware refines the limiter that looks at the whole log**, on calls in order. -/
theorem requestLog_eq_serve {calls : List Call}
    (h : calls.Pairwise fun call next => call.now ≤ next.now) :
    requestLog maxRequests windowSeconds calls =
      serve maxRequests windowSeconds [] (calls.map Call.key) :=
  logOf_init.outputsFrom List.Pairwise.nil h (by simp)

/-- The log has one entry for each call, with its client and its time. -/
theorem requestLog_keys {calls : List Call}
    (h : calls.Pairwise fun call next => call.now ≤ next.now) :
    (requestLog maxRequests windowSeconds calls).map (fun e => (e.client, e.time)) =
      calls.map Call.key := by
  rw [requestLog_eq_serve h, serve_requests, List.map_nil, List.nil_append]

theorem requestLog_ordered {calls : List Call}
    (h : calls.Pairwise fun call next => call.now ≤ next.now) :
    (requestLog maxRequests windowSeconds calls).Pairwise fun e f => e.time ≤ f.time := by
  have hkeys : ((requestLog maxRequests windowSeconds calls).map fun e => (e.client, e.time)).Pairwise
      fun k l => k.2 ≤ l.2 := by
    rw [requestLog_keys h]
    exact List.pairwise_map.mpr h
  exact (List.pairwise_map (R := fun k l : String × ℚ => k.2 ≤ l.2)).mp hkeys

/-- **The limiter is an exact sliding window for each client.** For calls in order: a request is
refused exactly when `maxRequests` earlier requests of its client passed in the closed window that
ends at it; so no closed interval of the window's length holds more requests of a client that passed;
a refused request can be left out of the run without changing another answer; and the answers to a
client are those of a run with its requests alone. -/
theorem rateLimit_exact (maxRequests : Int) (windowSeconds : ℚ) (calls : List Call)
    (h : calls.Pairwise fun call next => call.now ≤ next.now) :
    (requestLog maxRequests windowSeconds calls).map (fun e => (e.client, e.time)) =
      calls.map Call.key ∧
    (∀ past e later, requestLog maxRequests windowSeconds calls = past ++ e :: later →
      (e.passed = false ↔
        maxRequests ≤ (passedIn e.client (e.time - windowSeconds) e.time past).length)) ∧
    (∀ c a, ((passedIn c a (a + windowSeconds)
      (requestLog maxRequests windowSeconds calls)).length : Int) ≤ max 0 maxRequests) ∧
    (∀ past call later, calls = past ++ call :: later →
      ((requestLog maxRequests windowSeconds calls)[past.length]?).map Entry.passed = some false →
      requestLog maxRequests windowSeconds (past ++ later) =
        (requestLog maxRequests windowSeconds calls).eraseIdx past.length) ∧
    (∀ c, requestLog maxRequests windowSeconds (calls.filter fun call => call.request.clientIp = c) =
      (requestLog maxRequests windowSeconds calls).filter fun e => e.client = c) := by
  have hwindowed : Windowed maxRequests windowSeconds
      (requestLog maxRequests windowSeconds calls) := by
    rw [requestLog_eq_serve h]
    exact windowed_serve _
  refine ⟨requestLog_keys h, hwindowed, hwindowed.length_le (requestLog_ordered h), ?_, fun c => ?_⟩
  · rintro past call later rfl hrefused
    have hwithout : (past ++ later).Pairwise fun call next => call.now ≤ next.now :=
      h.sublist ((List.sublist_cons_self call later).append_left past)
    rw [requestLog_eq_serve h, List.map_append, List.map_cons, ← List.length_map Call.key]
      at hrefused ⊢
    rw [requestLog_eq_serve hwithout, List.map_append]
    exact serve_erase_refused hrefused
  · rw [requestLog_eq_serve h, requestLog_eq_serve (h.sublist List.filter_sublist),
      serve_filter_client, List.filter_nil, List.filter_map]
    rfl

/-- Four calls of two clients: the second call of the first client comes exactly a window after its
first one, the third one just later. -/
def demoCalls : List Call :=
  [⟨⟨some ⟨"10.0.0.1", 4000⟩⟩, 0⟩, ⟨⟨none⟩, 30⟩, ⟨⟨some ⟨"10.0.0.1", 4001⟩⟩, 60⟩,
    ⟨⟨some ⟨"10.0.0.1", 4001⟩⟩, 61⟩]

theorem demo_rateLimit :
    requestLog 1 60 demoCalls =
        [⟨"10.0.0.1", 0, true⟩, ⟨"unknown", 30, true⟩, ⟨"10.0.0.1", 60, false⟩,
          ⟨"10.0.0.1", 61, true⟩] ∧
      requestLog 1 60 (demoCalls.filter fun call => call.request.clientIp = "10.0.0.1") =
        [⟨"10.0.0.1", 0, true⟩, ⟨"10.0.0.1", 60, false⟩, ⟨"10.0.0.1", 61, true⟩] := by
  have hlog : requestLog 1 60 demoCalls =
      [⟨"10.0.0.1", 0, true⟩, ⟨"unknown", 30, true⟩, ⟨"10.0.0.1", 60, false⟩,
        ⟨"10.0.0.1", 61, true⟩] := by decide +kernel
  obtain ⟨-, -, -, -, hclient⟩ := rateLimit_exact 1 60 demoCalls (by decide +kernel)
  exact ⟨hlog, by rw [hclient, hlog]; decide +kernel⟩

end MarketKill3r
