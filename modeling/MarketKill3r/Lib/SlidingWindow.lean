import Mathlib.Algebra.Order.Group.Defs
import Mathlib.Data.List.Induction
import Mathlib.Data.List.TakeWhile

/-!
# Sliding-window limiters

A limiter lets a request of a client pass while fewer than `limit` requests of the client passed in
the closed window of length `w` that ends at the request. The abstract limiter keeps the log of all
requests and looks at it (`Windowed`, `serve`); an implementation keeps the times of the window only
and drops the older ones from the front (`prune`).

* `windowed_serve`: the abstract limiter's log is the one log that answers its own requests.
* `Windowed.length_le`: no closed interval of length `w` holds more than `limit` passed requests of a
  client.
* `Windowed.length_le_mul`: the same for an interval of several windows.
* `serve_filter_client`: the answers to a client are those of its requests alone.
* `serve_erase_refused`: a refused request changes no other answer.
* `prune_eq_filter`: on times in order, dropping from the front drops every old time.

The times are those of an ordered commutative group.
-/

namespace SlidingWindow

/-- A request of a client at a time, with the answer to it. -/
structure Entry (κ T : Type) where
  client : κ
  time : T
  passed : Bool
  deriving DecidableEq

variable {κ T : Type} [DecidableEq κ]

section Intervals

variable [LinearOrder T]

/-- The requests of `c` in the closed interval from `a` to `b` that passed. -/
def passedIn (c : κ) (a b : T) (log : List (Entry κ T)) : List (Entry κ T) :=
  log.filter fun e => e.client = c ∧ e.passed = true ∧ a ≤ e.time ∧ e.time ≤ b

theorem passedIn_append (c : κ) (a b : T) (l m : List (Entry κ T)) :
    passedIn c a b (l ++ m) = passedIn c a b l ++ passedIn c a b m :=
  List.filter_append ..

/-- A window that lies, for the entries of the log, inside another one holds no more of them. -/
theorem length_passedIn_le {c : κ} {a b a' b' : T} {log : List (Entry κ T)}
    (h : ∀ e ∈ log, a ≤ e.time → e.time ≤ b → a' ≤ e.time ∧ e.time ≤ b') :
    (passedIn c a b log).length ≤ (passedIn c a' b' log).length := by
  simp only [passedIn, ← List.countP_eq_length_filter]
  refine List.countP_mono_left fun e he hab => ?_
  obtain ⟨hc, hp, ha, hb⟩ := of_decide_eq_true hab
  exact decide_eq_true ⟨hc, hp, h e he ha hb⟩

end Intervals

section Times

/-- The times at which requests of `c` passed. -/
def passedTimes (c : κ) (log : List (Entry κ T)) : List T :=
  (log.filter fun e => e.client = c ∧ e.passed = true).map Entry.time

theorem passedTimes_concat (c : κ) (log : List (Entry κ T)) (e : Entry κ T) :
    passedTimes c (log ++ [e]) =
      passedTimes c log ++ if e.client = c ∧ e.passed = true then [e.time] else [] := by
  rw [passedTimes, List.filter_append, List.map_append, passedTimes]
  split <;> rename_i h <;> simp [h]

end Times

variable [AddCommGroup T] [LinearOrder T]

/-- The answer to a request of `c` at `t` after the requests of `log`. -/
def answer (limit : Int) (w : T) (log : List (Entry κ T)) (r : κ × T) : Entry κ T :=
  ⟨r.1, r.2, decide (((passedIn r.1 (r.2 - w) r.2 log).length : Int) < limit)⟩

/-- The log after the requests `rs`. -/
def serve (limit : Int) (w : T) (log : List (Entry κ T)) (rs : List (κ × T)) : List (Entry κ T) :=
  rs.foldl (fun l r => l ++ [answer limit w l r]) log

/-- Each entry of the log was refused exactly when, among the entries before it, `limit` requests of
its client passed in the window that ends at it. -/
def Windowed (limit : Int) (w : T) (log : List (Entry κ T)) : Prop :=
  ∀ past e later, log = past ++ e :: later →
    (e.passed = false ↔ limit ≤ (passedIn e.client (e.time - w) e.time past).length)

variable {limit : Int} {w : T} {log : List (Entry κ T)}

@[simp] theorem serve_nil : serve limit w log [] = log := rfl

theorem serve_cons (r : κ × T) (rs : List (κ × T)) :
    serve limit w log (r :: rs) = serve limit w (log ++ [answer limit w log r]) rs := rfl

theorem serve_append (rs ss : List (κ × T)) :
    serve limit w log (rs ++ ss) = serve limit w (serve limit w log rs) ss :=
  List.foldl_append

theorem serve_concat (rs : List (κ × T)) (r : κ × T) :
    serve limit w log (rs ++ [r]) =
      serve limit w log rs ++ [answer limit w (serve limit w log rs) r] :=
  serve_append rs [r]

/-! ## What the log says -/

theorem answer_refused_iff {r : κ × T} :
    (answer limit w log r).passed = false ↔
      limit ≤ (passedIn r.1 (r.2 - w) r.2 log).length := by
  simp [answer]

/-- **The log answers its own requests.** -/
theorem windowed_serve (rs : List (κ × T)) : Windowed limit w (serve limit w [] rs) := by
  induction rs using List.reverseRecOn with
  | nil => intro past e later h; simp at h
  | append_singleton rs r ih =>
    intro past e later h
    rw [serve_concat] at h
    rcases List.eq_nil_or_concat later with rfl | ⟨later', e', rfl⟩
    · obtain ⟨rfl, he⟩ := List.append_inj' h rfl
      obtain rfl := List.cons.inj he |>.1
      exact answer_refused_iff
    · rw [List.concat_eq_append, ← List.cons_append, ← List.append_assoc] at h
      exact ih past e later' (List.append_inj' h rfl).1

/-- The client and the time of each entry are those of its request. -/
theorem serve_requests (limit : Int) (w : T) (log : List (Entry κ T)) (rs : List (κ × T)) :
    (serve limit w log rs).map (fun e => (e.client, e.time)) =
      log.map (fun e => (e.client, e.time)) ++ rs := by
  induction rs generalizing log with
  | nil => simp
  | cons r rs ih => simp [serve_cons, ih, answer]

/-- A log with an earlier entry removed answers the same, if this entry had no part in the window of
any request. -/
theorem serve_congr (limit : Int) (w : T) (log log' : List (Entry κ T)) (rs : List (κ × T))
    (h : ∀ c a b, passedIn c a b log = passedIn c a b log') :
    ∃ added, serve limit w log rs = log ++ added ∧ serve limit w log' rs = log' ++ added := by
  induction rs generalizing log log' with
  | nil => exact ⟨[], by simp⟩
  | cons r rs ih =>
    have hr : answer limit w log' r = answer limit w log r := by simp only [answer, h]
    obtain ⟨added, h₁, h₂⟩ := ih (log ++ [answer limit w log r]) (log' ++ [answer limit w log r])
      fun c a b => by rw [passedIn_append, passedIn_append, h]
    refine ⟨answer limit w log r :: added, ?_, ?_⟩
    · rw [serve_cons, h₁, List.append_assoc, List.singleton_append]
    · rw [serve_cons, hr, h₂, List.append_assoc, List.singleton_append]

theorem length_serve (rs : List (κ × T)) : (serve limit w [] rs).length = rs.length := by
  simpa using congrArg List.length (serve_requests limit w [] rs)

/-- **Refusals leave no trace.** Without a refused request the limiter gives the other requests the
same answers. -/
theorem serve_erase_refused {rs ss : List (κ × T)} {r : κ × T}
    (h : ((serve limit w [] (rs ++ r :: ss))[rs.length]?).map Entry.passed = some false) :
    serve limit w [] (rs ++ ss) = (serve limit w [] (rs ++ r :: ss)).eraseIdx rs.length := by
  have hat : (serve limit w [] rs).length = rs.length := length_serve rs
  rw [serve_append rs (r :: ss), serve_cons] at h ⊢
  rw [serve_append]
  generalize serve limit w [] rs = log at h hat ⊢
  rw [← hat] at h ⊢
  obtain ⟨added, hadded, -⟩ :=
    serve_congr limit w (log ++ [answer limit w log r]) _ ss fun _ _ _ => rfl
  have hr : (answer limit w log r).passed = false := by
    rw [hadded, List.append_assoc, List.getElem?_append_right (le_refl _)] at h
    simpa using h
  obtain ⟨added, h₁, h₂⟩ := 
    serve_congr limit w (log ++ [answer limit w log r]) log ss fun c a b => by
      rw [passedIn_append, List.append_right_eq_self]
      simp [passedIn, hr]
  rw [h₁, h₂, List.append_assoc, List.eraseIdx_append_of_length_le (le_refl _)]
  simp

/-- **Clients are independent.** The entries of a client are the log of its requests alone. -/
theorem serve_filter_client (c : κ) (rs : List (κ × T)) :
    (serve limit w log rs).filter (fun e => e.client = c) =
      serve limit w (log.filter fun e => e.client = c) (rs.filter fun r => r.1 = c) := by
  induction rs generalizing log with
  | nil => rfl
  | cons r rs ih =>
    rw [serve_cons, ih, List.filter_append, List.filter_cons (x := r)]
    by_cases hc : r.1 = c
    · subst hc
      have hsame : passedIn r.1 (r.2 - w) r.2 (log.filter fun e => e.client = r.1) =
          passedIn r.1 (r.2 - w) r.2 log := by
        rw [passedIn, passedIn, List.filter_filter]
        exact List.filter_congr fun e _ => by simp only [Bool.decide_and]; grind
      simp [serve_cons, answer, hsame]
    · simp [answer, hc]

/-! ## Keeping the times of the window only -/

/-- Drop the old times from the front. -/
def prune (w t : T) (times : List T) : List T :=
  times.dropWhile fun x => decide (w < t - x)

/-- `times` are the times at which requests of `c` passed, but for some that have left the window of
a request of the log. -/
def Kept (w : T) (log : List (Entry κ T)) (c : κ) (times : List T) : Prop :=
  ∃ old, passedTimes c log = old ++ times ∧ ∀ x ∈ old, ∃ e ∈ log, w < e.time - x

theorem kept_nil (w : T) (c : κ) : Kept w [] c [] := ⟨[], rfl, by simp⟩

/-- An entry of another client keeps the times as they are. -/
theorem Kept.other {c : κ} {times : List T} (h : Kept w log c times) {e : Entry κ T}
    (he : e.client ≠ c) : Kept w (log ++ [e]) c times := by
  obtain ⟨old, heq, hold⟩ := h
  refine ⟨old, by rw [passedTimes_concat, if_neg fun h => he h.1, List.append_nil, heq], ?_⟩
  intro x hx
  obtain ⟨f, hf, hlt⟩ := hold x hx
  exact ⟨f, List.mem_append_left _ hf, hlt⟩

/-- An entry of the client prunes the times; when it passed, its own time is new. -/
theorem Kept.own {times : List T} {e : Entry κ T} (h : Kept w log e.client times) :
    Kept w (log ++ [e]) e.client
      (prune w e.time times ++ if e.passed = true then [e.time] else []) := by
  obtain ⟨old, heq, hold⟩ := h
  refine ⟨old ++ times.takeWhile fun x => decide (w < e.time - x), ?_, fun x hx => ?_⟩
  · rw [passedTimes_concat, heq, prune, List.append_assoc, List.append_assoc,
      ← List.append_assoc (List.takeWhile _ _), List.takeWhile_append_dropWhile]
    simp
  · rcases List.mem_append.mp hx with hx | hx
    · obtain ⟨f, hf, hlt⟩ := hold x hx
      exact ⟨f, List.mem_append_left _ hf, hlt⟩
    · have hlt := List.mem_takeWhile_imp (p := fun x => decide (w < e.time - x)) hx
      exact ⟨e, by simp, of_decide_eq_true hlt⟩

theorem Windowed.past {later : List (Entry κ T)} (h : Windowed limit w (log ++ later)) :
    Windowed limit w log := fun past e later' he =>
  h past e (later' ++ later) (by rw [he, List.append_assoc, List.cons_append])

/-! ## In order -/

variable [IsOrderedAddMonoid T]

/-- On times in order this drops every old time. -/
theorem prune_eq_filter {t : T} {times : List T} (hs : times.Pairwise (· ≤ ·)) :
    prune w t times = times.filter fun x => t - w ≤ x := by
  induction times with
  | nil => rfl
  | cons x xs ih =>
    obtain ⟨hx, hxs⟩ := List.pairwise_cons.mp hs
    by_cases hold : w < t - x
    · have : ¬ t - w ≤ x := fun h => (sub_le_comm.mp h).not_gt hold
      rw [prune, List.dropWhile_cons_of_pos (by simpa using hold),
        List.filter_cons_of_neg (by simpa using this)]
      exact ih hxs
    · have hin : t - w ≤ x := sub_le_comm.mp (not_lt.mp hold)
      rw [prune, List.dropWhile_cons_of_neg (by simpa using hold)]
      refine (List.filter_eq_self.mpr fun y hy => decide_eq_true ?_).symm
      rcases List.mem_cons.mp hy with rfl | hy
      · exact hin
      · exact hin.trans (hx y hy)

/-- **After pruning, the times are those of the window.** -/
theorem Kept.length_prune {c : κ} {times : List T} {t : T} (h : Kept w log c times)
    (hs : log.Pairwise fun e f => e.time ≤ f.time) (ht : ∀ e ∈ log, e.time ≤ t) :
    (prune w t times).length = (passedIn c (t - w) t log).length := by
  obtain ⟨old, heq, hold⟩ := h
  have hsorted : (passedTimes c log).Pairwise (· ≤ ·) :=
    List.pairwise_map.mpr (hs.sublist List.filter_sublist)
  have hall : ((passedTimes c log).filter fun x => t - w ≤ x).length =
      (passedIn c (t - w) t log).length := by
    rw [passedTimes, List.filter_map, List.length_map, List.filter_filter, passedIn]
    congr 1
    refine List.filter_congr fun e he => ?_
    have := ht e he
    simp only [Function.comp_apply]
    grind
  have hgone : old.filter (fun x => t - w ≤ x) = [] := by
    refine List.filter_eq_nil_iff.mpr fun x hx hin => ?_
    obtain ⟨e, he, hlt⟩ := hold x hx
    have hage : t - x ≤ w := sub_le_comm.mp (of_decide_eq_true hin)
    exact (hlt.trans_le ((sub_le_sub_right (ht e he) x).trans hage)).false
  rw [← hall, heq, List.filter_append, hgone, List.nil_append, prune_eq_filter]
  rw [heq] at hsorted
  exact (List.pairwise_append.mp hsorted).2.1

/-- **The bound.** When the requests came in order, no closed interval of length `w` holds more than
`limit` requests of a client that passed. -/
theorem Windowed.length_le (h : Windowed limit w log)
    (hs : log.Pairwise fun e f => e.time ≤ f.time) (c : κ) (a : T) :
    ((passedIn c a (a + w) log).length : Int) ≤ max 0 limit := by
  induction log using List.reverseRecOn with
  | nil => simp [passedIn]
  | append_singleton past e ih =>
    obtain ⟨hpast, -, hle⟩ := List.pairwise_append.mp hs
    have ih := ih h.past hpast
    rw [passedIn_append]
    by_cases he : e.client = c ∧ e.passed = true ∧ a ≤ e.time ∧ e.time ≤ a + w
    · obtain ⟨hc, hp, ha, hb⟩ := he
      subst hc
      -- What passed in the interval before `e` also lies in the window that ends at `e`.
      have hwindow : (passedIn e.client a (a + w) past).length ≤
          (passedIn e.client (e.time - w) e.time past).length :=
        length_passedIn_le fun f hf hfa _ =>
          ⟨(sub_le_iff_le_add.mpr hb).trans hfa, hle f hf e (by simp)⟩
      have hfree : ¬ limit ≤ (passedIn e.client (e.time - w) e.time past).length := by
        rw [← h past e [] rfl, hp]
        exact Bool.noConfusion
      have hone : (passedIn e.client a (a + w) [e]).length = 1 := by
        simp [passedIn, hp, ha, hb]
      rw [List.length_append, hone]
      omega
    · have hnone : passedIn c a (a + w) [e] = [] := by
        simpa [passedIn] using he
      rwa [hnone, List.append_nil]

omit [AddCommGroup T] [IsOrderedAddMonoid T] in
/-- An interval holds no more than its two parts. -/
theorem length_passedIn_split (c : κ) (a b d : T) (log : List (Entry κ T)) :
    (passedIn c a d log).length ≤ (passedIn c a b log).length + (passedIn c b d log).length := by
  induction log with
  | nil => exact Nat.zero_le _
  | cons e log ih =>
    simp only [passedIn] at ih
    simp only [passedIn, List.filter_cons, decide_eq_true_eq]
    have hparts := le_total e.time b
    grind

/-- **The bound over several windows.** -/
theorem Windowed.length_le_mul (h : Windowed limit w log)
    (hs : log.Pairwise fun e f => e.time ≤ f.time) (c : κ) (a : T) (k : Nat) :
    ((passedIn c a (a + (k + 1) • w) log).length : Int) ≤ (k + 1) * max 0 limit := by
  induction k with
  | zero =>
    rw [Nat.zero_add, one_nsmul, show ((0 : Nat) : Int) + 1 = 1 from rfl, Int.one_mul]
    exact h.length_le hs c a
  | succ k ih =>
    have hsplit := length_passedIn_split c a (a + (k + 1) • w) (a + (k + 1 + 1) • w) log
    have hlast := h.length_le hs c (a + (k + 1) • w)
    rw [add_assoc, ← succ_nsmul] at hlast
    rw [Int.natCast_succ, Int.add_mul (k + 1), Int.one_mul]
    omega

end SlidingWindow
