import MarketKill3r.Lib.Newest
import MarketKill3r.Signals.Queue

/-!
# Draining the signal queue

A poll returns the first twenty of the waiting signals, newest first, and marks them. To the polls
that follow, the table is the queue without its first page.

* `queue_acknowledgeAll`: what a poll leaves of the queue.
* `pendingSignalsTimes_eq`: the responses of sequential polls are the pages of the queue, and the
  signals in them are the ones that are marked.
* `queue_drains`: **the first ⌈n / 20⌉ polls return the whole queue, and the later ones nothing.**
-/

namespace MarketKill3r

/-- The signals that a request with this filter can return. -/
def SignalTable.backlog (signals : SignalTable) (cm : CaseMap) (symbol : Option String) : List Signal :=
  signals.rows.filter fun s => s.eligible && symbolMatches cm symbol s

/-- The same signals, newest first. -/
def SignalTable.queue (signals : SignalTable) (cm : CaseMap) (symbol : Option String) : List Signal :=
  (signals.backlog cm symbol).insertionSort fun s s' => s'.createdAt ≤ s.createdAt

/-- `count` requests, one after the other, and their responses. -/
def pendingSignalsTimes (env : MT5Env) (symbol xMt5ApiKey : Option String) :
    Nat → SignalTable → Except ApiError (SignalTable × List (List PendingSignalOut))
  | 0, signals => .ok (signals, [])
  | count + 1, signals => do
    let (signals', response) ← pendingSignals env symbol xMt5ApiKey signals
    let (signals'', responses) ← pendingSignalsTimes env symbol xMt5ApiKey count signals'
    pure (signals'', response :: responses)

section

variable {cm : CaseMap} {symbol : Option String} {signals : SignalTable}

theorem pendingSelect_eq : pendingSelect cm symbol signals = (signals.queue cm symbol).take 20 := rfl

theorem queue_perm : (signals.queue cm symbol).Perm (signals.backlog cm symbol) :=
  List.perm_insertionSort _ _

/-- A filter leaves the times of the eligible signals distinct. -/
theorem backlog_nodup (h : ((signals.rows.filter Signal.eligible).map (·.createdAt)).Nodup) :
    ((signals.backlog cm symbol).map (·.createdAt)).Nodup := by
  refine h.sublist (List.Sublist.map _ ?_)
  rw [SignalTable.backlog, ← List.filter_filter]
  exact List.filter_sublist.filter _

/-- A marked signal is not waiting any more, the others wait as before. -/
theorem backlog_acknowledgeAll (picked : List Signal) :
    (acknowledgeAll picked signals).backlog cm symbol =
      (signals.backlog cm symbol).filter fun s => s.id ∉ picked.map (·.id) := by
  have hwaits : ∀ s : Signal, ((s.acknowledge (picked.map (·.id))).eligible &&
      symbolMatches cm symbol (s.acknowledge (picked.map (·.id)))) =
        (decide (s.id ∉ picked.map (·.id)) && (s.eligible && symbolMatches cm symbol s)) := by
    intro s
    unfold Signal.acknowledge
    by_cases hs : s.id ∈ picked.map (·.id)
    · rw [if_pos hs, decide_eq_false (not_not.mpr hs)]
      rfl
    · rw [if_neg hs, decide_eq_true hs, Bool.true_and]
  show (signals.rows.map (Signal.acknowledge (picked.map (·.id)))).filter _ =
    (signals.rows.filter _).filter _
  rw [List.filter_map, List.filter_filter]
  simp only [Function.comp_def, hwaits]
  refine (List.map_congr_left fun s hs => ?_).trans (List.map_id _)
  have hnot := (List.mem_filter.mp hs).2
  simp only [Bool.and_eq_true, decide_eq_true_eq] at hnot
  exact if_neg hnot.1

/-- **What a poll leaves of the queue**: all but the first page. -/
theorem queue_acknowledgeAll (h : ((signals.rows.filter Signal.eligible).map (·.createdAt)).Nodup) :
    (acknowledgeAll (pendingSelect cm symbol signals) signals).queue cm symbol =
      (signals.queue cm symbol).drop 20 := by
  have hids : ((signals.queue cm symbol).map (·.id)).Nodup :=
    ((queue_perm.map (·.id)).nodup_iff).mpr (signals.nodup.sublist (List.filter_sublist.map _))
  rw [SignalTable.queue, backlog_acknowledgeAll,
    @Newest.sort_filter _ _ _ (fun s : Signal => s.createdAt) _ (backlog_nodup h)]
  exact Newest.filter_not_taken hids 20

/-- The eligible signals of a later table are among the earlier ones. -/
theorem eligible_acknowledgeAll (cm : CaseMap) (picked : List Signal) :
    (((acknowledgeAll picked signals).rows.filter Signal.eligible).map (·.createdAt)).Sublist
      ((signals.rows.filter Signal.eligible).map (·.createdAt)) := by
  have heq := @backlog_acknowledgeAll cm none signals picked
  simp only [SignalTable.backlog, symbolMatches, Bool.and_true] at heq
  rw [heq]
  exact List.filter_sublist.map _

/-- Marks add up. -/
theorem acknowledge_append (ids ids' : List String) (s : Signal) :
    (s.acknowledge ids).acknowledge ids' = s.acknowledge (ids ++ ids') := by
  by_cases h : s.id ∈ ids <;> by_cases h' : s.id ∈ ids' <;> simp [Signal.acknowledge, h, h']

end

/-- **Sequential polls** return the pages of the queue, and mark the signals in them. -/
theorem pendingSignalsTimes_eq {env : MT5Env} {symbol key : Option String}
    (hkey : keyRejected env key = false) (count : Nat) {signals : SignalTable}
    (h : ((signals.rows.filter Signal.eligible).map (·.createdAt)).Nodup) :
    ∃ signals', pendingSignalsTimes env symbol key count signals =
        .ok (signals', (Newest.pages 20 count (signals.queue env.caseMap symbol)).map
          (·.map Signal.out)) ∧
      signals'.rows = signals.rows.map
        (Signal.acknowledge (((signals.queue env.caseMap symbol).take (20 * count)).map (·.id))) := by
  induction count generalizing signals with
  | zero =>
    refine ⟨signals, rfl, ((List.map_congr_left fun s _ => ?_).trans (List.map_id _)).symm⟩
    exact if_neg List.not_mem_nil
  | succ count ih =>
    obtain ⟨signals', hrest, hrows⟩ := ih
      (h.sublist (eligible_acknowledgeAll env.caseMap (pendingSelect env.caseMap symbol signals)))
    have hqueue := @queue_acknowledgeAll env.caseMap symbol signals h
    rw [hqueue] at hrest hrows
    refine ⟨signals', ?_, ?_⟩
    · rw [pendingSignalsTimes, pendingSignals, if_neg (by simp [hkey])]
      simp only [bind, Except.bind, hrest, Newest.pages_succ, List.map_cons]
      rfl
    · rw [hrows]
      show (signals.rows.map _).map _ = _
      rw [List.map_map]
      refine List.map_congr_left fun s _ => ?_
      rw [Function.comp_apply, acknowledge_append, pendingSelect_eq, ← List.map_append,
        ← List.take_add, Nat.mul_succ, Nat.add_comm]

/-- What `count` polls do with a queue of waiting signals. -/
structure Drained (signals signals' : SignalTable) (queue : List Signal) (count : Nat)
    (responses : List (List PendingSignalOut)) : Prop where
  /-- The first polls return all of it, in its order. -/
  complete : (queue.length + 19) / 20 ≤ count →
    (responses.take ((queue.length + 19) / 20)).flatten = queue.map Signal.out
  exhausted : ∀ response ∈ responses.drop ((queue.length + 19) / 20), response = []
  /-- Nothing else is returned, and nothing but what is returned is marked. -/
  returned : responses.flatten = (queue.take (20 * count)).map Signal.out
  marked : signals'.rows =
    signals.rows.map (Signal.acknowledge ((queue.take (20 * count)).map (·.id)))

/-- **The queue drains completely.** With distinct times, the signals that a request can return have
one order from the newest to the oldest, and sequential requests return them in it: ⌈n / 20⌉
requests return each of the `n` once, the later ones nothing. -/
theorem queue_drains (env : MT5Env) (symbol key : Option String) (hkey : keyRejected env key = false)
    (signals : SignalTable)
    (hdistinct : ((signals.rows.filter Signal.eligible).map (·.createdAt)).Nodup) :
    ∃ queue : List Signal,
      queue.Perm (signals.rows.filter fun s => s.eligible && symbolMatches env.caseMap symbol s) ∧
      queue.Pairwise (fun s s' => s'.createdAt < s.createdAt) ∧
      ∀ count, ∃ signals' responses,
        pendingSignalsTimes env symbol key count signals = .ok (signals', responses) ∧
          responses.length = count ∧ Drained signals signals' queue count responses := by
  refine ⟨signals.queue env.caseMap symbol, queue_perm,
    Newest.pairwise_sort (backlog_nodup hdistinct), fun count => ?_⟩
  obtain ⟨signals', hrun, hmarked⟩ :=
    @pendingSignalsTimes_eq env symbol key hkey count signals hdistinct
  refine ⟨signals', _, hrun, ?_, ?_⟩
  · rw [List.length_map, Newest.pages, List.length_map, List.length_range]
  · generalize signals.queue env.caseMap symbol = queue at hmarked ⊢
    have hfits : queue.length ≤ 20 * ((queue.length + 19) / 20) := by omega
    refine ⟨fun hc => ?_, fun response hr => ?_, ?_, hmarked⟩
    · rw [← List.map_take, Newest.take_pages hc, ← List.map_flatten, Newest.pages_flatten,
        List.take_of_length_le hfits]
    · rw [← List.map_drop, List.mem_map] at hr
      obtain ⟨page, hpage, rfl⟩ := hr
      rw [Newest.pages_end hfits page hpage, List.map_nil]
    · rw [← List.map_flatten, Newest.pages_flatten]

/-- Twenty-one pending signals, and one without a trade. -/
def demoBacklog : SignalTable where
  rows := ⟨"none", "XAUUSD", .noTrade, "SETUP", .pending, none, none, none, 0⟩ ::
    (List.range 21).map fun i =>
      ⟨toString i, "XAUUSD", .bullish, "SETUP", .pending, none, none, none, i⟩
  nodup := by decide +kernel

theorem demo_drains : ∃ queue : List Signal, queue.length = 21 ∧
    ∀ count, ∃ signals' responses,
      pendingSignalsTimes demoEnv none none count demoBacklog = .ok (signals', responses) ∧
        responses.length = count ∧ Drained demoBacklog signals' queue count responses := by
  obtain ⟨queue, hperm, -, hpolls⟩ :=
    queue_drains demoEnv none none (by decide +kernel) demoBacklog (by decide +kernel)
  exact ⟨queue, hperm.length_eq.trans (by decide +kernel), hpolls⟩

end MarketKill3r
