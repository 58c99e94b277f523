import Mathlib.Data.Fintype.Basic
import Mathlib.Data.List.Sort
import MarketKill3r.Lib.Reservation
import MarketKill3r.Lib.Sys
import MarketKill3r.Market.Bars

/-!
# The signal queue of the EA

`pending_signals` (`app/api/routes/mt5.py`) selects the newest pending SETUP signals, marks them as
acknowledged and returns them. The mark is an update of the selected rows, without a condition on
their status.

* `poll_alone`: a poll that no other one interrupts is `pending_signals`.
* `abs_select`, `abs_commit`: the two steps of a poll are the steps of a reservation of signal ids.
* `signal_delivered_once`: if no poll selects a signal that another one has selected and not yet
  marked, no signal is delivered twice.
* `signal_delivered_twice`: two overlapping polls can deliver the same signal.
-/

namespace MarketKill3r

/-! ## The table -/

inductive SignalDirection
  | bullish
  | bearish
  | noTrade
  deriving DecidableEq

inductive SignalStatus
  | pending
  | acknowledged
  | executed
  | expired
  | rejected
  deriving DecidableEq

/-- A row of `signals`: the columns that the MT5 endpoints read or return. -/
structure Signal where
  id : String
  symbol : String
  direction : SignalDirection
  setupStatus : String
  status : SignalStatus
  entryPrice : Option ℚ
  stopLoss : Option ℚ
  takeProfit : Option ℚ
  createdAt : Int
  deriving DecidableEq

/-- The committed rows of `signals`. -/
abbrev SignalTable := UniqueTable Signal.id

/-! ## `pending_signals` -/

/-- The conditions of the query that do not depend on the request. -/
def Signal.eligible (s : Signal) : Bool :=
  s.status = .pending && s.setupStatus = "SETUP" &&
    (s.direction = .bullish || s.direction = .bearish)

/-- The symbol filter of a request; an empty symbol counts as none. -/
def symbolMatches (cm : CaseMap) (symbol : Option String) (s : Signal) : Bool :=
  match symbol with
  | none => true
  | some name => name = "" || s.symbol = canonicalSymbol cm name

/-- The query: newest first, at most twenty. Rows with equal `created_at` come in table order. -/
def pendingSelect (cm : CaseMap) (symbol : Option String) (signals : SignalTable) : List Signal :=
  ((signals.rows.filter fun s => s.eligible && symbolMatches cm symbol s).insertionSort
    fun s s' => s'.createdAt ≤ s.createdAt).take 20

/-- A selected row after `s.status = SignalStatus.ACKNOWLEDGED`. -/
def Signal.acknowledge (ids : List String) (s : Signal) : Signal :=
  if s.id ∈ ids then { s with status := .acknowledged } else s

theorem Signal.acknowledge_id (ids : List String) (s : Signal) : (s.acknowledge ids).id = s.id := by
  unfold Signal.acknowledge
  split <;> rfl

/-- The table after the commit of a poll. -/
def acknowledgeAll (picked : List Signal) (signals : SignalTable) : SignalTable :=
  signals.update (Signal.acknowledge (picked.map (·.id))) (Signal.acknowledge_id _)

structure PendingSignalOut where
  id : String
  symbol : String
  direction : SignalDirection
  entryPrice : Option ℚ
  stopLoss : Option ℚ
  takeProfit : Option ℚ
  deriving DecidableEq

def Signal.out (s : Signal) : PendingSignalOut :=
  ⟨s.id, s.symbol, s.direction, s.entryPrice, s.stopLoss, s.takeProfit⟩

/-- `pending_signals` as one atomic step. -/
def pendingSignals (env : MT5Env) (symbol xMt5ApiKey : Option String) (signals : SignalTable) :
    Except ApiError (SignalTable × List PendingSignalOut) :=
  if keyRejected env xMt5ApiKey then .error (.http 401 "Invalid MT5 API key")
  else
    let picked := pendingSelect env.caseMap symbol signals
    .ok (acknowledgeAll picked signals, picked.map Signal.out)

/-! ## Concurrent polls -/

/-- A poll, past the check of its API key: before its SELECT, between SELECT and commit, or
answered. -/
inductive Poll
  | idle
  | selected (picked : List Signal)
  | answered (response : List PendingSignalOut)
  deriving DecidableEq

/-- The signals that the poll has selected and not yet marked. -/
def Poll.heldIds : Poll → List String
  | .selected picked => picked.map (·.id)
  | _ => []

/-- The signals in the response of the poll. -/
def Poll.responseIds : Poll → List String
  | .answered response => response.map (·.id)
  | _ => []

structure PollState (ρ : Type) where
  signals : SignalTable
  polls : ρ → Poll

/-- The SELECT of a poll, or its commit. -/
inductive PollStep (ρ : Type)
  | select (r : ρ) (symbol : Option String)
  | commit (r : ρ)

variable {ρ : Type} [DecidableEq ρ]

def pollStep (cm : CaseMap) (s : PollState ρ) : PollStep ρ → Option (PollState ρ × Unit)
  | .select r symbol =>
    match s.polls r with
    | .idle =>
      let picked := pendingSelect cm symbol s.signals
      some ({ s with polls := Function.update s.polls r (.selected picked) }, ())
    | _ => none
  | .commit r =>
    match s.polls r with
    | .selected picked =>
      some (⟨acknowledgeAll picked s.signals,
        Function.update s.polls r (.answered (picked.map Signal.out))⟩, ())
    | _ => none

theorem pollStep_select {cm : CaseMap} {s s' : PollState ρ} {r : ρ} {symbol : Option String}
    (h : pollStep cm s (.select r symbol) = some (s', ())) :
    s.polls r = .idle ∧ s' = { s with
      polls := Function.update s.polls r (.selected (pendingSelect cm symbol s.signals)) } := by
  rw [pollStep] at h
  cases hp : s.polls r with
  | idle =>
    rw [hp] at h
    cases h
    exact ⟨rfl, rfl⟩
  | selected picked => rw [hp] at h; cases h
  | answered response => rw [hp] at h; cases h

theorem pollStep_commit {cm : CaseMap} {s s' : PollState ρ} {r : ρ}
    (h : pollStep cm s (.commit r) = some (s', ())) :
    ∃ picked, s.polls r = .selected picked ∧ s' = ⟨acknowledgeAll picked s.signals,
      Function.update s.polls r (.answered (picked.map Signal.out))⟩ := by
  rw [pollStep] at h
  cases hp : s.polls r with
  | idle => rw [hp] at h; cases h
  | selected picked =>
    rw [hp] at h
    cases h
    exact ⟨picked, rfl, rfl⟩
  | answered response => rw [hp] at h; cases h

/-- A poll that no other one interrupts is `pending_signals`. -/
theorem poll_alone {env : MT5Env} {symbol xMt5ApiKey : Option String} {signals signals' : SignalTable}
    {response : List PendingSignalOut}
    (h : pendingSignals env symbol xMt5ApiKey signals = .ok (signals', response)) (r : ρ) :
    ∃ ts, Sys.Run (pollStep env.caseMap) ⟨signals, fun _ => .idle⟩ ts
      ⟨signals', Function.update (fun _ => .idle) r (.answered response)⟩ := by
  unfold pendingSignals at h
  split at h
  · cases h
  · cases h
    refine ⟨_, .snoc (l := .commit r) (o := ()) (.snoc (l := .select r symbol) .nil rfl) ?_⟩
    simp only [pollStep, Function.update_self, Function.update_idem]

/-- The ids of the signals that wait for a poll. -/
def SignalTable.waiting (signals : SignalTable) : Set String :=
  {id | ∃ s ∈ signals.rows, s.id = id ∧ s.eligible = true}

/-- The reservation behind the polls: eligible ids are available, selected ones are held, delivered
ones are won. -/
def PollState.abs (s : PollState ρ) : Reservation.State ρ String where
  avail := s.signals.waiting
  held r := {id | id ∈ (s.polls r).heldIds}
  won r := {id | id ∈ (s.polls r).responseIds}

theorem pendingSelect_waiting {cm : CaseMap} {symbol : Option String} {signals : SignalTable}
    {s : Signal} (h : s ∈ pendingSelect cm symbol signals) : s.id ∈ signals.waiting := by
  have hm := List.mem_of_mem_take h
  rw [List.mem_insertionSort, List.mem_filter, Bool.and_eq_true] at hm
  exact ⟨s, hm.1, rfl, hm.2.1⟩

/-- A commit takes exactly the marked signals out of the queue. -/
theorem waiting_acknowledgeAll (picked : List Signal) (signals : SignalTable) :
    (acknowledgeAll picked signals).waiting =
      signals.waiting \ {id | id ∈ picked.map (·.id)} := by
  ext id
  constructor
  · rintro ⟨s', hs', rfl, he⟩
    obtain ⟨s, hs, rfl⟩ := List.mem_map.mp hs'
    rw [Signal.acknowledge_id]
    unfold Signal.acknowledge at he
    split at he
    · simp [Signal.eligible] at he
    · exact ⟨⟨s, hs, rfl, he⟩, ‹_›⟩
  · rintro ⟨⟨s, hs, rfl, he⟩, hn⟩
    have hn' : s.id ∉ picked.map (·.id) := hn
    have hsame : s.acknowledge (picked.map (·.id)) = s := if_neg hn'
    exact ⟨s, List.mem_map.mpr ⟨s, hs, hsame⟩, rfl, he⟩

/-- A SELECT of signals that no other poll is holding reserves them. -/
theorem abs_select {cm : CaseMap} {s s' : PollState ρ} {r : ρ} {symbol : Option String}
    (h : pollStep cm s (.select r symbol) = some (s', ()))
    (hfree : ∀ sig ∈ pendingSelect cm symbol s.signals, ∀ r', sig.id ∉ (s.polls r').heldIds) :
    Reservation.Step s.abs s'.abs := by
  obtain ⟨hidle, rfl⟩ := pollStep_select h
  refine .take_local _ (fun p : Poll => {id | id ∈ p.heldIds}) (fun p => {id | id ∈ p.responseIds})
    s.polls r _ (fun id hid => ?_) (fun r' => ?_) ?_
  · obtain ⟨sig, hsig, rfl⟩ := List.mem_map.mp hid
    exact pendingSelect_waiting hsig
  · refine Set.disjoint_left.mpr fun id hid => ?_
    obtain ⟨sig, hsig, rfl⟩ := List.mem_map.mp hid
    exact hfree sig hsig r'
  · rw [hidle]
    rfl

/-- A commit delivers what the poll holds. -/
theorem abs_commit {cm : CaseMap} {s s' : PollState ρ} {r : ρ}
    (h : pollStep cm s (.commit r) = some (s', ())) : Reservation.Step s.abs s'.abs := by
  obtain ⟨picked, hsel, rfl⟩ := pollStep_commit h
  have hheld : {id | id ∈ (s.polls r).heldIds} = {id | id ∈ picked.map (·.id)} := by
    rw [hsel, Poll.heldIds]
  rw [PollState.abs, PollState.abs, waiting_acknowledgeAll, ← hheld]
  refine .settle_local _ (fun p : Poll => {id | id ∈ p.heldIds}) (fun p => {id | id ∈ p.responseIds})
    s.polls r _ {id | id ∈ (s.polls r).heldIds} ?_ subset_rfl ?_
  · simp only [Poll.heldIds, List.not_mem_nil, Set.ofPred_false]
  · rw [hheld, hsel]
    simp only [Poll.responseIds, List.map_map, List.not_mem_nil, Set.ofPred_false, Set.empty_union]
    rfl

/-- The SELECT returns no signal that another poll has selected and not yet marked. -/
def Uncontested (cm : CaseMap) (t : Sys.Transition (PollState ρ) (PollStep ρ) Unit) : Prop :=
  match t.label with
  | .select _ symbol => ∀ sig ∈ pendingSelect cm symbol t.pre.signals, ∀ r',
      sig.id ∉ (t.pre.polls r').heldIds
  | .commit _ => True

instance [Fintype ρ] (cm : CaseMap) (t : Sys.Transition (PollState ρ) (PollStep ρ) Unit) :
    Decidable (Uncontested cm t) :=
  match t with
  | ⟨s, .select _ symbol, _, _⟩ =>
    inferInstanceAs (Decidable (∀ sig ∈ pendingSelect cm symbol s.signals, ∀ r',
      sig.id ∉ (s.polls r').heldIds))
  | ⟨_, .commit _, _, _⟩ => isTrue trivial

omit [DecidableEq ρ] in
/-- Before the first SELECT nothing is held or delivered. -/
theorem abs_init {s : PollState ρ} (h : ∀ r, s.polls r = .idle) :
    s.abs = ⟨s.signals.waiting, fun _ => ∅, fun _ => ∅⟩ := by
  simp only [PollState.abs, h, Poll.heldIds, Poll.responseIds, List.not_mem_nil, Set.ofPred_false]

/-- **At-most-once delivery.** In every run of polls whose SELECTs return no signal that another
poll has selected and not yet marked, no signal occurs in the responses of two polls. -/
theorem signal_delivered_once {cm : CaseMap} {s₀ s : PollState ρ}
    {ts : List (Sys.Transition (PollState ρ) (PollStep ρ) Unit)} (hidle : ∀ r, s₀.polls r = .idle)
    (hrun : Sys.Run (pollStep cm) s₀ ts s) (hunc : ∀ t ∈ ts, Uncontested cm t) :
    ∀ r r', r ≠ r' → ∀ id ∈ (s.polls r).responseIds, id ∉ (s.polls r').responseIds := by
  obtain ⟨-, hreach⟩ := hrun.refines Reservation.Step PollState.abs (fun _ => True) trivial
    fun s l _ s' ht hst _ => by
      refine ⟨trivial, .single ?_⟩
      cases l with
      | select r symbol => exact abs_select hst (hunc _ ht)
      | commit r => exact abs_commit hst
  have hinv := Reservation.reach_inv hreach (by rw [abs_init hidle]; exact .init _)
  intro r r' hne id hid hid'
  exact hne (hinv.won_inj hid hid')

/-- Two polls and one signal. -/
def demoPolls : PollState Bool where
  signals := ⟨[⟨"s1", "XAUUSD", .bullish, "SETUP", .pending, none, none, none, 0⟩], by decide⟩
  polls _ := .idle

theorem demo_delivered_once : ∃ ts s, Sys.Run (pollStep demoEnv.caseMap) demoPolls ts s ∧
    (s.polls false).responseIds = ["s1"] ∧
    ∀ r r', r ≠ r' → ∀ id ∈ (s.polls r).responseIds, id ∉ (s.polls r').responseIds := by
  obtain ⟨ts, s, hrun, hunc, hs⟩ := Sys.exists_run (pollStep demoEnv.caseMap) demoPolls
    [.select false none, .commit false, .select true none, .commit true]
    (fun ts s => (∀ t ∈ ts, Uncontested demoEnv.caseMap t) ∧ (s.polls false).responseIds = ["s1"])
    (by decide +kernel)
  exact ⟨ts, s, hrun, hs, signal_delivered_once (fun _ => rfl) hrun hunc⟩

/-- Two polls select before either commits. -/
theorem signal_delivered_twice : ∃ ts s, Sys.Run (pollStep demoEnv.caseMap) demoPolls ts s ∧
    "s1" ∈ (s.polls false).responseIds ∧ "s1" ∈ (s.polls true).responseIds := by
  obtain ⟨ts, s, hrun, hs⟩ := Sys.exists_run (pollStep demoEnv.caseMap) demoPolls
    [.select false none, .select true none, .commit false, .commit true]
    (fun _ s => "s1" ∈ (s.polls false).responseIds ∧ "s1" ∈ (s.polls true).responseIds)
    (by decide +kernel)
  exact ⟨ts, s, hrun, hs⟩

end MarketKill3r
