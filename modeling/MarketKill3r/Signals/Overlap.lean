import MarketKill3r.Lib.Newest
import MarketKill3r.Signals.Lifecycle

/-!
# Overlapping requests

A poll selects and commits in two steps, between which other polls, reports and analyses may come. Its
commit overwrites the status of what it has selected, whatever was written in between.

* `LiveState`, `liveStep`: polls in two steps, among requests that run in one.
* `LiveState.settled`: the tables once every poll has marked what it holds.
* `polls_linearizable`: **if no poll selects what another one holds, and no report is about a signal
  that still waits, the requests do what they would do one after the other**, each poll at its SELECT.
* `report_overwritten`: a report about a signal that a poll holds is lost.
-/

namespace MarketKill3r

/-! ## Marks -/

section Mark

open Classical

/-- `s.status = SignalStatus.ACKNOWLEDGED` for the signals with these ids. -/
noncomputable def Signal.mark (ids : Set String) (s : Signal) : Signal :=
  if s.id ∈ ids then { s with status := .acknowledged } else s

theorem Signal.mark_id (ids : Set String) (s : Signal) : (s.mark ids).id = s.id := by
  unfold Signal.mark
  split <;> rfl

theorem Signal.mark_mark (ids ids' : Set String) (s : Signal) :
    (s.mark ids).mark ids' = s.mark (ids ∪ ids') := by
  unfold Signal.mark
  by_cases h : s.id ∈ ids <;> by_cases h' : s.id ∈ ids' <;> simp [h, h']

noncomputable def SignalTable.mark (ids : Set String) (signals : SignalTable) : SignalTable :=
  signals.update (Signal.mark ids) (Signal.mark_id ids)

variable {ids : Set String} {signals : SignalTable}

theorem SignalTable.mark_rows : (signals.mark ids).rows = signals.rows.map (Signal.mark ids) := rfl

theorem SignalTable.mark_mark (ids' : Set String) :
    (signals.mark ids).mark ids' = signals.mark (ids ∪ ids') := by
  refine UniqueTable.ext_rows ?_
  simp only [SignalTable.mark_rows, List.map_map]
  exact List.map_congr_left fun s _ => s.mark_mark ids ids'

theorem SignalTable.mark_empty : signals.mark ∅ = signals := by
  refine UniqueTable.ext_rows ?_
  rw [SignalTable.mark_rows]
  refine (List.map_congr_left fun s _ => ?_).trans (List.map_id _)
  exact if_neg (Set.notMem_empty s.id)

theorem SignalTable.mark_has (id : String) : (signals.mark ids).Has id ↔ signals.Has id := by
  unfold UniqueTable.Has
  rw [SignalTable.mark_rows, List.map_map, show Signal.id ∘ Signal.mark ids = Signal.id from
    funext fun s => s.mark_id ids]

/-- The commit of a poll. -/
theorem acknowledgeAll_eq_mark (picked : List Signal) :
    acknowledgeAll picked signals = signals.mark {id | id ∈ picked.map (·.id)} := by
  refine UniqueTable.ext_rows ?_
  rw [SignalTable.mark_rows]
  refine List.map_congr_left fun s _ => ?_
  by_cases hs : s.id ∈ picked.map (·.id)
  · exact (if_pos hs).trans (if_pos hs).symm
  · exact (if_neg hs).trans (if_neg hs).symm

/-- A SELECT that finds nothing marked finds the same in the marked table. -/
theorem pendingSelect_mark {cm : CaseMap} {symbol : Option String}
    (h : ∀ s ∈ pendingSelect cm symbol signals, s.id ∉ ids) :
    pendingSelect cm symbol (signals.mark ids) = pendingSelect cm symbol signals := by
  have hwaits : ∀ s : Signal, ((s.mark ids).eligible && symbolMatches cm symbol (s.mark ids)) =
      (decide (s.id ∉ ids) && (s.eligible && symbolMatches cm symbol s)) := by
    intro s
    unfold Signal.mark
    by_cases hs : s.id ∈ ids
    · rw [if_pos hs, decide_eq_false (not_not.mpr hs)]
      rfl
    · rw [if_neg hs, decide_eq_true hs, Bool.true_and]
  -- Of the signals that the query can find, only the marked ones are gone.
  have hrows : (signals.mark ids).rows.filter (fun s => s.eligible && symbolMatches cm symbol s) =
      (signals.rows.filter fun s => s.eligible && symbolMatches cm symbol s).filter
        fun s => decide (s.id ∉ ids) := by
    rw [SignalTable.mark_rows, List.filter_map, List.filter_filter]
    simp only [Function.comp_def, hwaits]
    refine (List.map_congr_left fun s hs => ?_).trans (List.map_id _)
    have hnot := (List.mem_filter.mp hs).2
    simp only [Bool.and_eq_true, decide_eq_true_eq] at hnot
    exact if_neg hnot.1
  have : IsTrans Signal fun s s' => s'.createdAt ≤ s.createdAt := ⟨fun _ _ _ h h' => h'.trans h⟩
  have : Std.Total fun s s' : Signal => s'.createdAt ≤ s.createdAt := ⟨fun _ _ => le_total _ _⟩
  unfold pendingSelect at h ⊢
  rw [hrows, Newest.insertionSort_filter]
  exact Newest.take_filter fun s hs => decide_eq_true (h s hs)

/-- A report about another signal. -/
theorem setStatus_mark {id : String} {status : SignalStatus} (h : id ∉ ids) :
    SignalTable.mark ids (signals.update (Signal.setStatus id status) (Signal.setStatus_id _ _)) =
      (signals.mark ids).update (Signal.setStatus id status) (Signal.setStatus_id _ _) := by
  refine UniqueTable.ext_rows ?_
  simp only [SignalTable.mark_rows, UniqueTable.update, List.map_map]
  refine List.map_congr_left fun s _ => ?_
  simp only [Function.comp_apply, Signal.setStatus, Signal.mark]
  by_cases hs : s.id = id
  · simp [hs, h]
  · by_cases hm : s.id ∈ ids <;> simp [hs, hm]

/-- A new signal that is not marked. -/
theorem commit_mark {signal : Signal} (h : signal.id ∉ ids) :
    (signals.mark ids).commit [signal] = (signals.commit [signal]).map (SignalTable.mark ids) := by
  have hsame : [signal].map (Signal.mark ids) = [signal] := by
    rw [List.map_singleton, Signal.mark, if_neg h]
  have hcommit := signals.commit_update (Signal.mark ids) (Signal.mark_id ids) [signal]
  rw [hsame] at hcommit
  exact hcommit

end Mark

/-! ## The system -/

/-- The tables, and where each poll stands. -/
structure LiveState (ρ : Type) where
  db : SignalDb
  polls : ρ → Poll

/-- The SELECT of a poll, its commit, or a request that runs in one step. -/
inductive LiveLabel (ρ : Type)
  | select (r : ρ) (symbol xMt5ApiKey : Option String)
  | commit (r : ρ)
  | store (id : String) (createdAt : Int) (symbol : String) (result : AnalysisResult)
  | report (report : ExecutionReport) (xMt5ApiKey : Option String)

/-- The request that begins with the step. -/
def LiveLabel.request {ρ : Type} : LiveLabel ρ → Option SignalRequest
  | .select _ symbol xMt5ApiKey => some (.pendingSignals symbol xMt5ApiKey)
  | .commit _ => none
  | .store id createdAt symbol result => some (.persistAnalysis id createdAt symbol result)
  | .report body xMt5ApiKey => some (.executionReport body xMt5ApiKey)

/-- What the poll answers, or is going to answer. -/
def Poll.response : Poll → List PendingSignalOut
  | .idle => []
  | .selected picked => picked.map Signal.out
  | .answered response => response

variable {ρ : Type}

def LiveState.toPollState (s : LiveState ρ) : PollState ρ := ⟨s.db.signals, s.polls⟩

/-- A step, and the response that leaves with it. -/
def liveStep [DecidableEq ρ] (env : MT5Env) (s : LiveState ρ) :
    LiveLabel ρ → Option (LiveState ρ × Option (Except ApiError SignalResponse))
  | .select r symbol xMt5ApiKey =>
    if keyRejected env xMt5ApiKey then some (s, some (.error (.http 401 "Invalid MT5 API key")))
    else
      (pollStep env.caseMap s.toPollState (.select r symbol)).map fun (p, _) =>
        (⟨{ s.db with signals := p.signals }, p.polls⟩, none)
  | .commit r =>
    (pollStep env.caseMap s.toPollState (.commit r)).map fun (p, _) =>
      (⟨{ s.db with signals := p.signals }, p.polls⟩, some (.ok (.pending (p.polls r).response)))
  | .store id createdAt symbol result =>
    let (db, response) := signalHandle env s.db (.persistAnalysis id createdAt symbol result)
    some ({ s with db := db }, some response)
  | .report report xMt5ApiKey =>
    let (db, response) := signalHandle env s.db (.executionReport report xMt5ApiKey)
    some ({ s with db := db }, some response)

abbrev LiveTransition (ρ : Type) :=
  Sys.Transition (LiveState ρ) (LiveLabel ρ) (Option (Except ApiError SignalResponse))

/-- The signals that polls have selected and not yet marked. -/
def LiveState.held (s : LiveState ρ) : Set String := {id | ∃ r, id ∈ (s.polls r).heldIds}

/-- The tables once every poll has marked what it holds. -/
noncomputable def LiveState.settled (s : LiveState ρ) : SignalDb :=
  { s.db with signals := s.db.signals.mark s.held }

/-- A SELECT returns no signal that another poll holds, and a report is about a signal that does not
wait any more. -/
def Orderly (env : MT5Env) (t : LiveTransition ρ) : Prop :=
  match t.label with
  | .select _ symbol xMt5ApiKey => keyRejected env xMt5ApiKey = false →
      ∀ sig ∈ pendingSelect env.caseMap symbol t.pre.db.signals, ∀ r', sig.id ∉ (t.pre.polls r').heldIds
  | .report report _ => report.signalId ∉ t.pre.db.signals.waiting
  | _ => True

/-- The transition `u` of the atomic requests is what the request of `t` does. A poll answers what it
has selected. -/
inductive TakesEffect (s : LiveState ρ) (t : LiveTransition ρ) : SignalTransition → Prop
  | atomic {u : SignalTransition} (hlabel : t.label.request = some u.label)
      (hout : t.out = some u.out) : TakesEffect s t u
  | poll {u : SignalTransition} (r : ρ) (symbol xMt5ApiKey : Option String)
      (hlabel : t.label = .select r symbol xMt5ApiKey) (hout : t.out = none)
      (hselected : s.polls r ≠ .idle) (hrequest : u.label = .pendingSignals symbol xMt5ApiKey)
      (hresponse : u.out = .ok (.pending (s.polls r).response)) : TakesEffect s t u

/-! ## Steps -/

section Steps

variable [DecidableEq ρ] {env : MT5Env} {s s' : LiveState ρ}

/-- What a step does. -/
inductive LiveStep (env : MT5Env) (s : LiveState ρ) :
    LiveLabel ρ → LiveState ρ → Option (Except ApiError SignalResponse) → Prop
  | refused {r : ρ} {symbol key : Option String} (hkey : keyRejected env key = true) :
      LiveStep env s (.select r symbol key) s (some (.error (.http 401 "Invalid MT5 API key")))
  | selected {r : ρ} {symbol key : Option String} (hkey : keyRejected env key = false)
      (hidle : s.polls r = .idle) :
      LiveStep env s (.select r symbol key)
        ⟨s.db, Function.update s.polls r (.selected (pendingSelect env.caseMap symbol s.db.signals))⟩
        none
  | committed {r : ρ} {picked : List Signal} (hselected : s.polls r = .selected picked) :
      LiveStep env s (.commit r)
        ⟨{ s.db with signals := acknowledgeAll picked s.db.signals },
          Function.update s.polls r (.answered (picked.map Signal.out))⟩
        (some (.ok (.pending (picked.map Signal.out))))
  | stored {id : String} {createdAt : Int} {symbol : String} {result : AnalysisResult} :
      LiveStep env s (.store id createdAt symbol result)
        ⟨(signalHandle env s.db (.persistAnalysis id createdAt symbol result)).1, s.polls⟩
        (some (signalHandle env s.db (.persistAnalysis id createdAt symbol result)).2)
  | reported {report : ExecutionReport} {key : Option String} :
      LiveStep env s (.report report key)
        ⟨(signalHandle env s.db (.executionReport report key)).1, s.polls⟩
        (some (signalHandle env s.db (.executionReport report key)).2)

theorem liveStep_cases {l : LiveLabel ρ} {o : Option (Except ApiError SignalResponse)}
    (h : liveStep env s l = some (s', o)) : LiveStep env s l s' o := by
  cases l with
  | select r symbol key =>
    rw [liveStep] at h
    split at h
    · cases h
      exact .refused ‹_›
    · rename_i hkey
      obtain ⟨⟨p, _⟩, hstep, he⟩ := Option.map_eq_some_iff.mp h
      obtain ⟨hidle, rfl⟩ := pollStep_select hstep
      cases he
      exact .selected (by simpa using hkey) hidle
  | commit r =>
    obtain ⟨⟨p, _⟩, hstep, he⟩ := Option.map_eq_some_iff.mp h
    obtain ⟨picked, hselected, rfl⟩ := pollStep_commit hstep
    cases he
    simp only [Function.update_self, Poll.response]
    exact .committed hselected
  | store id createdAt symbol result =>
    cases h
    exact .stored
  | report report key =>
    cases h
    exact .reported

/-- A poll that has begun keeps its answer. -/
theorem LiveStep.polls_kept {l : LiveLabel ρ} {o : Option (Except ApiError SignalResponse)}
    (h : LiveStep env s l s' o) {r : ρ} (hr : s.polls r ≠ .idle) :
    s'.polls r ≠ .idle ∧ (s'.polls r).response = (s.polls r).response := by
  cases h with
  | @selected r' symbol key hkey hidle =>
    have hne : r ≠ r' := fun he => hr (he ▸ hidle)
    simp only [Function.update_of_ne hne]
    exact ⟨hr, trivial⟩
  | @committed r' picked hselected =>
    by_cases he : r = r'
    · subst he
      simp only [Function.update_self, hselected, Poll.response, ne_eq, reduceCtorEq,
        not_false_eq_true, and_self]
    · simp only [Function.update_of_ne he]
      exact ⟨hr, trivial⟩
  | refused hkey => exact ⟨hr, rfl⟩
  | stored => exact ⟨hr, rfl⟩
  | reported => exact ⟨hr, rfl⟩

omit [DecidableEq ρ] in
theorem TakesEffect.mono {t : LiveTransition ρ} {u : SignalTransition} (h : TakesEffect s t u)
    (hkept : ∀ r, s.polls r ≠ .idle →
      s'.polls r ≠ .idle ∧ (s'.polls r).response = (s.polls r).response) : TakesEffect s' t u := by
  cases h with
  | atomic hlabel hout => exact .atomic hlabel hout
  | poll r symbol key hlabel hout hselected hrequest hresponse =>
    obtain ⟨hne, hsame⟩ := hkept r hselected
    exact .poll r symbol key hlabel hout hne hrequest (hsame ▸ hresponse)

/-! ## What is held -/

/-- The signals that the polls other than `r` hold. -/
def LiveState.heldByOthers (s : LiveState ρ) (r : ρ) : Set String :=
  {id | ∃ r', r' ≠ r ∧ id ∈ (s.polls r').heldIds}

theorem held_update (db : SignalDb) (r : ρ) (p : Poll) :
    LiveState.held ⟨db, Function.update s.polls r p⟩ = {id | id ∈ p.heldIds} ∪ s.heldByOthers r := by
  ext id
  constructor
  · rintro ⟨r', hid⟩
    dsimp only at hid
    by_cases hr : r' = r
    · rw [hr, Function.update_self] at hid
      exact Or.inl hid
    · rw [Function.update_of_ne hr] at hid
      exact Or.inr ⟨r', hr, hid⟩
  · rintro (hid | ⟨r', hr, hid⟩)
    · refine ⟨r, ?_⟩
      dsimp only
      rwa [Function.update_self]
    · refine ⟨r', ?_⟩
      dsimp only
      rwa [Function.update_of_ne hr]

theorem held_eq (s : LiveState ρ) (r : ρ) :
    s.held = {id | id ∈ (s.polls r).heldIds} ∪ s.heldByOthers r := by
  have h := held_update (s := s) s.db r (s.polls r)
  rwa [Function.update_eq_self] at h

/-- The SELECT of a poll is a poll of the settled tables. -/
theorem settled_selected {r : ρ} {symbol key : Option String} (hkey : keyRejected env key = false)
    (hidle : s.polls r = .idle)
    (hfree : ∀ sig ∈ pendingSelect env.caseMap symbol s.db.signals, ∀ r', sig.id ∉ (s.polls r').heldIds) :
    signalStep env s.settled (.pendingSignals symbol key) = some
      (LiveState.settled ⟨s.db, Function.update s.polls r
          (.selected (pendingSelect env.caseMap symbol s.db.signals))⟩,
        .ok (.pending ((pendingSelect env.caseMap symbol s.db.signals).map Signal.out))) := by
  have hheld : s.held = s.heldByOthers r := by
    simp only [held_eq s r, hidle, Poll.heldIds, List.not_mem_nil, Set.ofPred_false, Set.empty_union]
  have hselect : pendingSelect env.caseMap symbol (s.db.signals.mark s.held) =
      pendingSelect env.caseMap symbol s.db.signals :=
    pendingSelect_mark fun sig hsig hheld => Exists.elim hheld (hfree sig hsig)
  rw [hheld] at hselect
  simp only [signalStep, signalHandle, pendingSignals, LiveState.settled, hkey, Bool.false_eq_true,
    if_false, hselect, acknowledgeAll_eq_mark, SignalTable.mark_mark, held_update, hheld,
    Poll.heldIds, Set.union_comm]

/-- The commit of a poll changes nothing that the others can tell. -/
theorem settled_committed {r : ρ} {picked : List Signal} (hselected : s.polls r = .selected picked) :
    LiveState.settled ⟨{ s.db with signals := acknowledgeAll picked s.db.signals },
      Function.update s.polls r (.answered (picked.map Signal.out))⟩ = s.settled := by
  simp only [LiveState.settled, acknowledgeAll_eq_mark, SignalTable.mark_mark, held_update, Poll.heldIds,
    held_eq s r, hselected]
  simp only [List.not_mem_nil, Set.ofPred_false, Set.empty_union]

omit [DecidableEq ρ] in
/-- A stored signal is not held. -/
theorem settled_stored (hknown : ∀ id ∈ s.held, s.db.signals.Has id) (id : String) (createdAt : Int)
    (symbol : String) (result : AnalysisResult) :
    signalStep env s.settled (.persistAnalysis id createdAt symbol result) = some
      (LiveState.settled
          ⟨(signalHandle env s.db (.persistAnalysis id createdAt symbol result)).1, s.polls⟩,
        (signalHandle env s.db (.persistAnalysis id createdAt symbol result)).2) := by
  simp only [signalStep, signalHandle, persistAnalysis]
  by_cases hheld : id ∈ s.held
  · -- An id that is taken fails, here and there.
    have hfails : ∀ signals : SignalTable, signals.Has id →
        signals.commit [signalOf id createdAt symbol result] = none := by
      intro signals hhas
      cases hc : signals.commit [signalOf id createdAt symbol result] with
      | none => rfl
      | some signals' =>
        have hnodup := signals'.nodup
        rw [UniqueTable.commit_eq_some.mp hc, List.map_append, List.nodup_append] at hnodup
        exact absurd rfl (hnodup.2.2 _ hhas _ List.mem_cons_self)
    have hhas := hknown id hheld
    rw [hfails _ hhas]
    simp only [LiveState.settled, hfails _ ((SignalTable.mark_has id).mpr hhas)]
  · have hcommit : (s.db.signals.mark s.held).commit [signalOf id createdAt symbol result] =
        (s.db.signals.commit [signalOf id createdAt symbol result]).map (SignalTable.mark s.held) :=
      commit_mark hheld
    simp only [LiveState.settled, hcommit]
    cases s.db.signals.commit [signalOf id createdAt symbol result] <;> rfl

omit [DecidableEq ρ] in
/-- A report about a signal that nobody holds. -/
theorem settled_reported {report : ExecutionReport} (hfree : report.signalId ∉ s.held)
    (key : Option String) :
    signalStep env s.settled (.executionReport report key) = some
      (LiveState.settled ⟨(signalHandle env s.db (.executionReport report key)).1, s.polls⟩,
        (signalHandle env s.db (.executionReport report key)).2) := by
  simp only [signalStep, signalHandle, executionReport]
  by_cases hkey : keyRejected env key = true
  · simp only [hkey, if_true]
  · simp only [hkey, Bool.false_eq_true, if_false]
    by_cases hhas : s.db.signals.Has report.signalId
    · simp only [LiveState.settled, SignalTable.mark_has, hhas, if_true, ← setStatus_mark hfree]
      rfl
    · simp only [LiveState.settled, SignalTable.mark_has, hhas, if_false]

/-! ## Who holds what -/

/-- The polls hold waiting signals, each its own, and what they have answered is known. -/
structure Reserved (s : LiveState ρ) : Prop where
  inv : Reservation.Inv s.toPollState.abs
  answered : ∀ r, ∀ id ∈ (s.polls r).responseIds, s.db.signals.Has id

theorem waiting_has {signals : SignalTable} {id : String} (h : id ∈ signals.waiting) :
    signals.Has id := by
  obtain ⟨sig, hsig, rfl, -⟩ := h
  exact List.mem_map_of_mem hsig

/-- A stored signal waits, if the EA is to trade it. -/
theorem waiting_append {signals signals' : SignalTable} {signal : Signal}
    (hrows : signals'.rows = signals.rows ++ [signal]) :
    signals'.waiting = signals.waiting ∪ {id | signal.id = id ∧ signal.eligible = true} := by
  ext id
  simp only [SignalTable.waiting, hrows, List.mem_append, List.mem_singleton, or_and_right, exists_or,
    exists_eq_left]
  rfl

/-- A report about a signal that does not wait leaves the queue alone. -/
theorem waiting_setStatus {signals : SignalTable} {id : String} {status : SignalStatus}
    (h : id ∉ signals.waiting) (hstatus : status ≠ .pending) :
    SignalTable.waiting (signals.update (Signal.setStatus id status) (Signal.setStatus_id _ _)) =
      signals.waiting := by
  have hsame : ∀ sig ∈ signals.rows, ((sig.setStatus id status).eligible = true ↔
      sig.eligible = true) := by
    intro sig hsig
    unfold Signal.setStatus
    split
    · rename_i hid
      refine iff_of_false (by simp [Signal.eligible, hstatus]) fun helig => h ⟨sig, hsig, hid, helig⟩
    · rfl
  ext id'
  constructor
  · rintro ⟨_, hmem, rfl, helig⟩
    obtain ⟨sig, hsig, rfl⟩ := List.mem_map.mp hmem
    exact ⟨sig, hsig, (Signal.setStatus_id _ _ sig).symm, (hsame sig hsig).mp helig⟩
  · rintro ⟨sig, hsig, rfl, helig⟩
    exact ⟨_, List.mem_map_of_mem hsig, Signal.setStatus_id _ _ sig, (hsame sig hsig).mpr helig⟩

omit [DecidableEq ρ] in
theorem Reserved.held_waiting (h : Reserved s) {id : String} (hid : id ∈ s.held) :
    id ∈ s.db.signals.waiting := by
  obtain ⟨r, hr⟩ := hid
  exact h.inv.held_avail r hr

omit [DecidableEq ρ] in
theorem Reserved.start (hidle : ∀ r, s.polls r = .idle) : Reserved s where
  inv := by
    rw [abs_init (s := s.toPollState) hidle]
    exact .init _
  answered r id hid := by
    rw [hidle r] at hid
    cases hid

/-- An orderly step keeps the reservation. -/
theorem Reserved.step {l : LiveLabel ρ} {o : Option (Except ApiError SignalResponse)}
    (h : Reserved s) (horderly : Orderly env ⟨s, l, o, s'⟩) (hstep : LiveStep env s l s' o) :
    Reserved s' := by
  cases hstep with
  | refused hkey => exact h
  | @selected r symbol key hkey hidle =>
    have hpoll : pollStep env.caseMap s.toPollState (.select r symbol) = some (⟨s.db.signals,
        Function.update s.polls r (.selected (pendingSelect env.caseMap symbol s.db.signals))⟩, ()) := by
      simp only [pollStep, LiveState.toPollState, hidle]
    refine ⟨(abs_select hpoll (horderly hkey)).inv h.inv, fun r' id hid => ?_⟩
    dsimp only at hid
    by_cases hr : r' = r
    · rw [hr, Function.update_self] at hid
      cases hid
    · rw [Function.update_of_ne hr] at hid
      exact h.answered r' id hid
  | @committed r picked hselected =>
    have hpoll : pollStep env.caseMap s.toPollState (.commit r) = some
        (⟨acknowledgeAll picked s.db.signals,
          Function.update s.polls r (.answered (picked.map Signal.out))⟩, ()) := by
      simp only [pollStep, LiveState.toPollState, hselected]
    refine ⟨(abs_commit hpoll).inv h.inv, fun r' id hid => ?_⟩
    rw [acknowledgeAll_eq_mark, SignalTable.mark_has]
    dsimp only at hid
    by_cases hr : r' = r
    · rw [hr, Function.update_self, Poll.responseIds, List.map_map] at hid
      exact waiting_has (h.held_waiting ⟨r, by rw [hselected]; exact hid⟩)
    · rw [Function.update_of_ne hr] at hid
      exact h.answered r' id hid
  | @stored id createdAt symbol result =>
    have heffect := signalHandle_effect env s.db (.persistAnalysis id createdAt symbol result)
    generalize (signalHandle env s.db (.persistAnalysis id createdAt symbol result)).1 = db at heffect ⊢
    cases heffect with
    | unchanged => exact h
    | persisted _ _ _ _ signals hrows =>
      have hfresh : ¬ s.db.signals.Has id := by
        have hnodup := signals.nodup
        rw [hrows, List.map_append, List.nodup_append] at hnodup
        exact fun hhas => absurd rfl (hnodup.2.2 _ hhas _ List.mem_cons_self)
      have hinv : Reservation.Inv (LiveState.toPollState ⟨{ s.db with signals := signals }, s.polls⟩).abs := by
        unfold PollState.abs LiveState.toPollState
        rw [waiting_append hrows]
        refine Reservation.Inv.offer h.inv fun r => Set.disjoint_left.mpr ?_
        rintro _ hid' ⟨rfl, -⟩
        exact hfresh (h.answered r id hid')
      exact ⟨hinv, fun r id' hid' => (h.answered r id' hid').append hrows⟩
  | @reported report key =>
    have heffect := signalHandle_effect env s.db (.executionReport report key)
    generalize (signalHandle env s.db (.executionReport report key)).1 = db at heffect ⊢
    cases heffect with
    | unchanged => exact h
    | reported _ _ hkey hhas =>
      have hstatus : report.signalStatus ≠ .pending := by
        unfold ExecutionReport.signalStatus
        split <;> simp
      refine ⟨?_, fun r id hid => ?_⟩
      · have hinv := h.inv
        unfold PollState.abs LiveState.toPollState at hinv ⊢
        rwa [waiting_setStatus horderly hstatus]
      · unfold UniqueTable.Has
        rw [UniqueTable.update, List.map_map, show Signal.id ∘ Signal.setStatus report.signalId
          report.signalStatus = Signal.id from funext fun sig => sig.setStatus_id _ _]
        exact h.answered r id hid

end Steps

/-! ## Runs -/

variable [DecidableEq ρ] {env : MT5Env}

/-- The steps of `past` so far take effect as `us`. -/
structure Linearized (env : MT5Env) (s₀ : LiveState ρ) (past : List (LiveTransition ρ))
    (s : LiveState ρ) : Prop where
  reserved : Reserved s
  run : ∃ us, List.Forall₂ (TakesEffect s) (past.filter fun t => t.label.request.isSome) us ∧
    Sys.Run (signalStep env) s₀.db us s.settled

/-- An orderly step takes effect, if it begins a request, and else nobody can tell it. -/
theorem Linearized.step {s₀ s s' : LiveState ρ} {past : List (LiveTransition ρ)} {l : LiveLabel ρ}
    {o : Option (Except ApiError SignalResponse)} (h : Linearized env s₀ past s)
    (horderly : Orderly env ⟨s, l, o, s'⟩) (hstep : LiveStep env s l s' o) :
    Linearized env s₀ (past ++ [⟨s, l, o, s'⟩]) s' := by
  refine ⟨h.reserved.step horderly hstep, ?_⟩
  obtain ⟨us, hpast, hrun⟩ := h.run
  have hkept := hpast.imp fun _ _ hu => hu.mono fun r => hstep.polls_kept (r := r)
  -- The request of the step is one more request of the atomic run.
  have hgrow : ∀ {request response}, l.request = some request →
      signalStep env s.settled request = some (s'.settled, response) →
      TakesEffect s' ⟨s, l, o, s'⟩ ⟨s.settled, request, response, s'.settled⟩ →
      ∃ us, List.Forall₂ (TakesEffect s')
        (List.filter (fun t => t.label.request.isSome) (past ++ [⟨s, l, o, s'⟩])) us ∧
        Sys.Run (signalStep env) s₀.db us s'.settled := by
    intro request response hrequest hatomic hu
    refine ⟨_, ?_, hrun.snoc hatomic⟩
    rw [List.filter_append, List.filter_cons_of_pos (by rw [hrequest]; rfl), List.filter_nil]
    exact List.rel_append hkept (.cons hu .nil)
  cases hstep with
  | @refused r symbol key hkey =>
    refine hgrow rfl ?_ (.atomic rfl rfl)
    simp only [signalStep, signalHandle, pendingSignals, hkey, if_true]
  | @selected r symbol key hkey hidle =>
    refine hgrow rfl (settled_selected hkey hidle (horderly hkey)) ?_
    refine .poll r symbol key rfl rfl ?_ rfl ?_ <;> simp only [Function.update_self]
    · exact Poll.noConfusion
    · rfl
  | @committed r picked hselected =>
    rw [List.filter_append, List.filter_cons_of_neg (by exact Bool.false_ne_true), List.filter_nil,
      List.append_nil, settled_committed hselected]
    exact ⟨us, hkept, hrun⟩
  | @stored id createdAt symbol result =>
    refine hgrow rfl (settled_stored (fun id hid => ?_) id createdAt symbol result) (.atomic rfl rfl)
    exact waiting_has (h.reserved.held_waiting hid)
  | @reported report key =>
    refine hgrow rfl (settled_reported (fun hid => ?_) key) (.atomic rfl rfl)
    exact horderly (h.reserved.held_waiting hid)

omit [DecidableEq ρ] in
/-- Nothing is left to mark once no poll is between its SELECT and its commit. -/
theorem settled_of_finished {s : LiveState ρ} (h : ∀ r picked, s.polls r ≠ .selected picked) :
    s.settled = s.db := by
  have hheld : s.held = ∅ := by
    refine Set.eq_empty_of_forall_notMem fun id ⟨r, hid⟩ => ?_
    cases hp : s.polls r with
    | selected picked => exact h r picked hp
    | idle => rw [hp] at hid; cases hid
    | answered response => rw [hp] at hid; cases hid
  rw [LiveState.settled, hheld, SignalTable.mark_empty]

/-- **Overlapping polls are linearizable.** In every run in which no poll selects what another one holds,
and no report is about a signal that still waits, the requests have the responses, and leave the tables,
of a run of the atomic requests, in which each poll stands at its SELECT. Once no poll is between its two
steps, the tables are those of that run; and no signal is in the responses of two polls. -/
theorem polls_linearizable {s₀ s : LiveState ρ} {ts : List (LiveTransition ρ)}
    (hidle : ∀ r, s₀.polls r = .idle) (hrun : Sys.Run (liveStep env) s₀ ts s)
    (horderly : ∀ t ∈ ts, Orderly env t) :
    (∃ us, List.Forall₂ (TakesEffect s) (ts.filter fun t => t.label.request.isSome) us ∧
      Sys.Run (signalStep env) s₀.db us s.settled) ∧
    ((∀ r picked, s.polls r ≠ .selected picked) → s.settled = s.db) ∧
    ∀ r r', r ≠ r' → ∀ id ∈ (s.polls r).responseIds, id ∉ (s.polls r').responseIds := by
  have hlinear : Linearized env s₀ ts s := by
    refine hrun.history (I := Linearized env s₀) ⟨.start hidle, [], .nil, ?_⟩
      fun us s l o s' _ hstep hsub h => h.step (horderly _ (hsub _ (by simp))) (liveStep_cases hstep)
    have hsettled : s₀.settled = s₀.db :=
      settled_of_finished fun r picked => by rw [hidle r]; exact Poll.noConfusion
    rw [hsettled]
    exact .nil
  refine ⟨hlinear.run, settled_of_finished, fun r r' hne id hid hid' => hne ?_⟩
  exact hlinear.reserved.inv.won_inj hid hid'

instance (signals : SignalTable) (id : String) : Decidable (id ∈ signals.waiting) :=
  inferInstanceAs (Decidable (∃ s ∈ signals.rows, s.id = id ∧ s.eligible = true))

instance [Fintype ρ] (env : MT5Env) (t : LiveTransition ρ) : Decidable (Orderly env t) :=
  match t with
  | ⟨s, .select _ symbol key, _, _⟩ => inferInstanceAs (Decidable (keyRejected env key = false →
      ∀ sig ∈ pendingSelect env.caseMap symbol s.db.signals, ∀ r', sig.id ∉ (s.polls r').heldIds))
  | ⟨s, .report report _, _, _⟩ =>
    inferInstanceAs (Decidable (report.signalId ∉ s.db.signals.waiting))
  | ⟨_, .commit _, _, _⟩ => isTrue trivial
  | ⟨_, .store _ _ _ _, _, _⟩ => isTrue trivial

/-- Two signals, and two polls that overlap. The EA reports about the first signal before the second
poll commits. -/
def demoLive : List (LiveLabel Bool) :=
  [.store "s1" 0 "XAUUSD" demoResult, .store "s2" 1 "EURUSD" demoResult, .select false (some "XAUUSD") none,
    .select true (some "EURUSD") none, .commit false,
    .report ⟨"s1", some 1, some (.num 10), some (.num 1), "filled", none⟩ none, .commit true]

theorem demo_linearizable : ∃ (ts : List (LiveTransition Bool)) (s : LiveState Bool)
    (us : List SignalTransition),
    Sys.Run (liveStep demoEnv) ⟨.empty, fun _ => .idle⟩ ts s ∧
    s.db.signals.rows.map (·.status) = [.executed, .acknowledged] ∧
    List.Forall₂ (TakesEffect s) (ts.filter fun t => t.label.request.isSome) us ∧
    Sys.Run (signalStep demoEnv) .empty us s.db := by
  obtain ⟨ts, s, hrun, horderly, hanswered, hst⟩ := Sys.exists_run (liveStep demoEnv)
    ⟨.empty, fun _ => .idle⟩ demoLive
    (fun ts s => (∀ t ∈ ts, Orderly demoEnv t) ∧ (∀ r, (s.polls r).responseIds.length = 1) ∧
      s.db.signals.rows.map (·.status) = [.executed, .acknowledged]) (by decide +kernel)
  obtain ⟨⟨us, heffect, hatomic⟩, hfinished, -⟩ := polls_linearizable (fun _ => rfl) hrun horderly
  rw [hfinished fun r picked hsel => by simpa [hsel, Poll.responseIds] using hanswered r] at hatomic
  exact ⟨ts, s, us, hrun, hst, heffect, hatomic⟩

/-- The EA knows a signal from an earlier poll. Its report comes between the two steps of another poll,
which overwrites it. -/
theorem report_overwritten : ∃ (ts : List (LiveTransition Bool)) (s : LiveState Bool),
    Sys.Run (liveStep demoEnv) ⟨.empty, fun _ => .idle⟩ ts s ∧
    ∃ sig ∈ s.db.signals.rows, sig.status = .acknowledged ∧ s.db.Filled sig.id :=
  Sys.exists_run (liveStep demoEnv) ⟨.empty, fun _ => .idle⟩
    [.store "s1" 0 "XAUUSD" demoResult, .select false none none, .select true none none, .commit false,
      .report ⟨"s1", some 1, some (.num 10), some (.num 1), "filled", none⟩ none, .commit true]
    (fun _ s => ∃ sig ∈ s.db.signals.rows, sig.status = .acknowledged ∧ s.db.Filled sig.id)
    (by decide +kernel)

end MarketKill3r
