import Mathlib.Data.Fintype.Basic
import Mathlib.Logic.Function.Basic
import MarketKill3r.Lib.Sys
import MarketKill3r.Market.Bars

/-!
# Concurrent bar feeds

Several writers, each an `ingest` or an `upsert_market_bars` request with a session of its own, take
their steps in any order: one SELECT per bar, then one commit. A SELECT sees what is committed at
that moment.

* `FeedInv`: as long as no writer checks a key that another one has pending, each running session
  is the one that its checks would give on the store as it is now.
* `feeds_serializable`: then every writer succeeds, and all writers together do what the requests
  do when they run one after another, in the order of their commits.
* `disputed_bar_fails`: without the condition, a writer can fail at its commit.
-/

namespace MarketKill3r

open UniqueTable (newRows)

/-! ## The system -/

/-- A writer request, past the check of its API key. -/
inductive WriterRequest
  | ingest (payload : MT5Payload)
  | upsert (symbol timeframe : String) (bars : List BarDict) (spread : PyFloat)

/-- The request as one atomic step. -/
def WriterRequest.run (env : MT5Env) : WriterRequest → BarStore →
    Except ApiError (BarStore × Nat × Nat)
  | .ingest payload, store =>
    (MarketKill3r.ingest env payload (some env.apiKey) store).map fun (s, r) => (s, r.counters)
  | .upsert symbol timeframe bars spread, store =>
    upsertMarketBars symbol timeframe bars spread store

/-- The loop body of the request for its bar number `i`, if there is one. -/
def WriterRequest.body (env : MT5Env) (store : BarStore) (st : BarSession) :
    WriterRequest → Nat → Option (Except ApiError BarSession)
  | .ingest payload, i => payload.bars[i]?.map (ingestBar env payload store st)
  | .upsert symbol timeframe bars spread, i =>
    bars[i]?.map fun bar => .ok (upsertBar symbol timeframe spread store st bar)

/-- The rows that a request over valid bars builds. -/
def WriterRequest.Builds (env : MT5Env) : WriterRequest → List MarketBar → Prop
  | .ingest payload, rows => payload.bars.mapM (ingestRow env payload) = .ok rows
  | .upsert symbol timeframe bars spread, rows =>
    bars.mapM (upsertRow symbol timeframe spread) = some rows

/-- A writer: its request, the number of bars it has checked, its session, and how it ended. -/
structure Writer where
  request : WriterRequest
  next : Nat
  session : BarSession
  outcome : Option (Except ApiError (Nat × Nat))

/-- The writer before its first step. -/
def Writer.start (request : WriterRequest) : Writer := ⟨request, 0, .init, none⟩

/-- The committed table and the writers. -/
structure FeedState (ι : Type) where
  store : BarStore
  writers : ι → Writer

/-- A writer checks its next bar, or commits. -/
inductive FeedStep (ι : Type)
  | check (i : ι)
  | commit (i : ι)

variable {ι : Type} [DecidableEq ι]

/-- The state with another writer `i`. -/
def FeedState.set (s : FeedState ι) (i : ι) (w : Writer) : FeedState ι :=
  { s with writers := Function.update s.writers i w }

/-- One step of one writer. A failing bar or commit ends the request and rolls its session back. -/
def feedStep (env : MT5Env) (s : FeedState ι) : FeedStep ι → Option (FeedState ι × Unit)
  | .check i =>
    let w := s.writers i
    if w.outcome.isSome then none
    else match w.request.body env s.store w.session w.next with
      | none => none
      | some (.error e) => some (s.set i { w with outcome := some (.error e) }, ())
      | some (.ok session) => some (s.set i { w with next := w.next + 1, session := session }, ())
  | .commit i =>
    let w := s.writers i
    if w.outcome.isSome then none
    else match w.request.body env s.store w.session w.next with
      | some _ => none
      | none =>
        match w.session.commit s.store with
        | .error e => some (s.set i { w with outcome := some (.error e) }, ())
        | .ok store' =>
          let counters := (w.session.stored, w.session.skipped)
          some ({ s with store := store' }.set i { w with outcome := some (.ok counters) }, ())

/-! ## Steps over valid bars -/

/-- Related items that two functions treat alike. -/
theorem getElem?_map_of_forall₂ {α β γ : Type} {R : α → β → Prop} {xs : List α} {ys : List β}
    (h : List.Forall₂ R xs ys) {f : α → γ} {g : β → γ} (hfg : ∀ x y, R x y → f x = g y) (n : Nat) :
    xs[n]?.map f = ys[n]?.map g := by
  induction h generalizing n with
  | nil => rfl
  | cons hx _ ih =>
    cases n with
    | zero => exact congrArg some (hfg _ _ hx)
    | succ n => exact ih n

/-- On valid bars, the loop body checks the row of the bar. -/
theorem WriterRequest.Builds.body {env : MT5Env} {request : WriterRequest} {rows : List MarketBar}
    (h : request.Builds env rows) (store : BarStore) (st : BarSession) (n : Nat) :
    request.body env store st n = rows[n]?.map fun row => .ok (st.check store row) := by
  cases request with
  | ingest payload =>
    exact getElem?_map_of_forall₂ (forall₂_of_mapM_ok h)
      (fun _ _ hrow => ingestBar_eq store st hrow) n
  | upsert symbol timeframe bars spread =>
    exact getElem?_map_of_forall₂ (forall₂_of_mapM_some h)
      (fun _ _ hrow => congrArg Except.ok (upsertBar_eq store st hrow)) n

/-- On valid bars, an atomic request stores the batch of its rows. -/
theorem WriterRequest.Builds.run {env : MT5Env} {request : WriterRequest} {rows : List MarketBar}
    (h : request.Builds env rows) (store : BarStore) :
    request.run env store = storeBatch rows store := by
  cases request with
  | ingest payload =>
    have hkey : keyRejected env (some env.apiKey) = false := by simp [keyRejected]
    rw [WriterRequest.run, ingest_eq hkey h]
    cases storeBatch rows store <;> rfl
  | upsert symbol timeframe bars spread => exact upsert_eq h store

/-- What a check does. -/
theorem feedStep_check {env : MT5Env} {s s' : FeedState ι} {i : ι} {rows : List MarketBar}
    (hb : (s.writers i).request.Builds env rows) (h : feedStep env s (.check i) = some (s', ())) :
    ∃ row, (s.writers i).outcome = none ∧ rows[(s.writers i).next]? = some row ∧
      s' = s.set i ⟨(s.writers i).request, (s.writers i).next + 1,
        (s.writers i).session.check s.store row, none⟩ := by
  simp only [feedStep, hb.body] at h
  cases ho : (s.writers i).outcome with
  | some o => rw [ho, Option.isSome_some, if_pos rfl] at h; cases h
  | none =>
    rw [ho, Option.isSome_none, if_neg Bool.false_ne_true] at h
    cases hrow : rows[(s.writers i).next]? with
    | none => rw [hrow] at h; cases h
    | some row =>
      rw [hrow] at h
      cases h
      exact ⟨row, rfl, rfl, rfl⟩

/-- What a commit does. -/
theorem feedStep_commit {env : MT5Env} {s s' : FeedState ι} {i : ι} {rows : List MarketBar}
    (hb : (s.writers i).request.Builds env rows) (h : feedStep env s (.commit i) = some (s', ())) :
    (s.writers i).outcome = none ∧ rows.length ≤ (s.writers i).next ∧
      ∀ store', s.store.commit (s.writers i).session.pending = some store' →
        s' = FeedState.set ⟨store', s.writers⟩ i ⟨(s.writers i).request, (s.writers i).next,
          (s.writers i).session,
          some (.ok ((s.writers i).session.stored, (s.writers i).session.skipped))⟩ := by
  simp only [feedStep, hb.body] at h
  cases ho : (s.writers i).outcome with
  | some o => rw [ho, Option.isSome_some, if_pos rfl] at h; cases h
  | none =>
    rw [ho, Option.isSome_none, if_neg Bool.false_ne_true] at h
    cases hrow : rows[(s.writers i).next]? with
    | some row => rw [hrow] at h; cases h
    | none =>
      refine ⟨rfl, List.getElem?_eq_none_iff.mp hrow, fun store' hc => ?_⟩
      simp only [hrow, Option.map_none, BarSession.commit, hc] at h
      cases h
      rfl

/-! ## Serial executions -/

/-- The requests of `log` as atomic steps, one after another. -/
def serialRun (env : MT5Env) (request : ι → WriterRequest) (log : List ι) (store : BarStore) :
    Except ApiError BarStore :=
  log.foldlM (fun st i => ((request i).run env st).map Prod.fst) store

/-- The session after the checks of the first `n` rows, if all of them see this store. -/
def checked (store : BarStore) (rows : List MarketBar) (n : Nat) : BarSession :=
  (rows.take n).foldl (BarSession.check store) .init

theorem checked_succ {store : BarStore} {rows : List MarketBar} {n : Nat} {row : MarketBar}
    (h : rows[n]? = some row) :
    checked store rows (n + 1) = (checked store rows n).check store row := by
  rw [checked, List.take_add_one, h, Option.toList_some, List.foldl_append]
  rfl

theorem checked_pending (store : BarStore) (rows : List MarketBar) (n : Nat) :
    (checked store rows n).pending = newRows MarketBar.key store.rows (rows.take n) := by
  rw [checked, foldl_check]
  rfl

/-- Rows that another session commits do not change what the checks find, if they share no key with
what is pending. -/
theorem checked_congr {store store' : BarStore} {rows added : List MarketBar} {n : Nat}
    (hrows : store'.rows = store.rows ++ added)
    (hdis : ∀ r ∈ (checked store rows n).pending, r.key ∉ added.map MarketBar.key) :
    checked store' rows n = checked store rows n := by
  have hnew : newRows MarketBar.key store'.rows (rows.take n) =
      newRows MarketBar.key store.rows (rows.take n) := by
    rw [hrows]
    rw [checked_pending] at hdis
    exact UniqueTable.newRows_append hdis
  rw [checked, checked, foldl_check, foldl_check, hnew]

/-- What a successful batch leaves. -/
theorem storeBatch_eq_ok {rows : List MarketBar} {store store' : BarStore}
    (h : store.commit (newRows MarketBar.key store.rows rows) = some store') :
    storeBatch rows store = .ok (store', (newRows MarketBar.key store.rows rows).length,
      rows.length - (newRows MarketBar.key store.rows rows).length) := by
  simp only [storeBatch, h]

/-- Writer `i` ended as its request does when it runs alone after those of `pre`: the bars that were
absent then are stored, the others skipped. -/
def SerialOutcome (env : MT5Env) (s₀ : FeedState ι) (rows : List MarketBar) (pre : List ι) (i : ι)
    (outcome : Option (Except ApiError (Nat × Nat))) : Prop :=
  ∃ before after,
    serialRun env (fun j => (s₀.writers j).request) pre s₀.store = .ok before ∧
    let new := newRows MarketBar.key before.rows rows
    (s₀.writers i).request.run env before = .ok (after, new.length, rows.length - new.length) ∧
    after.rows = before.rows ++ new ∧
    outcome = some (.ok (new.length, rows.length - new.length))

/-! ## The invariant -/

/-- The writers of `log` have committed in this order, as in a serial execution. The session of a
running writer is the one that its checks would give on the store as it is now, and no key is
pending twice. -/
structure FeedInv (env : MT5Env) (s₀ : FeedState ι) (rows : ι → List MarketBar) (log : List ι)
    (s : FeedState ι) : Prop where
  request : ∀ i, (s.writers i).request = (s₀.writers i).request
  nodup : log.Nodup
  finished : ∀ i, i ∈ log ↔ (s.writers i).outcome ≠ none
  serial : serialRun env (fun i => (s₀.writers i).request) log s₀.store = .ok s.store
  committed : ∀ pre i post, log = pre ++ i :: post →
    SerialOutcome env s₀ (rows i) pre i (s.writers i).outcome
  kept : ∀ i ∈ log, ∀ row ∈ rows i, s.store.Has row.key
  running : ∀ i, (s.writers i).outcome = none →
    (s.writers i).session = checked s.store (rows i) (s.writers i).next
  disjoint : ∀ i j, i ≠ j → (s.writers i).outcome = none → (s.writers j).outcome = none →
    ∀ r ∈ (s.writers i).session.pending, r.key ∉ (s.writers j).session.pending.map MarketBar.key

omit [DecidableEq ι] in
theorem FeedInv.init {env : MT5Env} {s₀ : FeedState ι} {rows : ι → List MarketBar}
    (h : ∀ i, s₀.writers i = .start (s₀.writers i).request) : FeedInv env s₀ rows [] s₀ where
  request _ := rfl
  nodup := List.nodup_nil
  finished i := by
    rw [h i]
    simp [Writer.start]
  serial := rfl
  committed pre i post he := by simp at he
  kept i hi := by cases hi
  running i _ := by
    rw [h i]
    rfl
  disjoint i j _ _ _ r hr := by
    rw [h i] at hr
    cases hr

@[simp] theorem FeedState.set_self (s : FeedState ι) (i : ι) (w : Writer) :
    (s.set i w).writers i = w :=
  Function.update_self ..

theorem FeedState.set_ne (s : FeedState ι) {i j : ι} (w : Writer) (h : j ≠ i) :
    (s.set i w).writers j = s.writers j :=
  Function.update_of_ne h ..

/-- What holds of the new writer and of all others. -/
theorem FeedState.forall_set {s : FeedState ι} {i : ι} {w : Writer} {p : ι → Writer → Prop}
    (hi : p i w) (hne : ∀ j, j ≠ i → p j (s.writers j)) : ∀ j, p j ((s.set i w).writers j) :=
  (Function.forall_update_iff s.writers p).mpr ⟨hi, hne⟩

/-- A check adds at most the row that it looked at. -/
theorem mem_pending_check {store : BarStore} {st : BarSession} {row r : MarketBar}
    (h : r ∈ (st.check store row).pending) : r ∈ st.pending ∨ r = row := by
  unfold BarSession.check at h
  split at h
  · exact Or.inl h
  · simpa using h

/-- A check of a key that no other running writer has pending. -/
theorem FeedInv.check {env : MT5Env} {s₀ s : FeedState ι} {rows : ι → List MarketBar} {log : List ι}
    (h : FeedInv env s₀ rows log s) {i : ι} {row : MarketBar} (ho : (s.writers i).outcome = none)
    (hrow : (rows i)[(s.writers i).next]? = some row)
    (hund : ∀ j, j ≠ i → (s.writers j).outcome = none →
      row.key ∉ (s.writers j).session.pending.map MarketBar.key) :
    FeedInv env s₀ rows log (s.set i ⟨(s.writers i).request, (s.writers i).next + 1,
      (s.writers i).session.check s.store row, none⟩) where
  request := FeedState.forall_set (p := fun j w => w.request = (s₀.writers j).request)
    (h.request i) fun j _ => h.request j
  nodup := h.nodup
  finished := FeedState.forall_set (p := fun j w => j ∈ log ↔ w.outcome ≠ none)
    (by rw [h.finished, ho]) fun j _ => h.finished j
  serial := h.serial
  committed pre j post he := by
    have hmem : (s.writers j).outcome ≠ none := (h.finished j).mp (by rw [he]; simp)
    have hj : j ≠ i := fun hji => hmem (hji ▸ ho)
    rw [FeedState.set_ne s _ hj]
    exact h.committed pre j post he
  kept := h.kept
  running := FeedState.forall_set
    (p := fun j w => w.outcome = none → w.session = checked s.store (rows j) w.next)
    (fun _ => by rw [h.running i ho, checked_succ hrow]) fun j _ => h.running j
  disjoint j k hjk hj hk r hr := by
    -- Only the rows of writer `i` have changed, by at most `row`.
    by_cases hji : j = i
    · subst hji
      have hki : k ≠ j := fun hkj => hjk hkj.symm
      rw [FeedState.set_ne s _ hki] at hk ⊢
      rw [FeedState.set_self] at hr
      obtain hr | rfl := mem_pending_check hr
      · exact h.disjoint j k hjk ho hk r hr
      · exact hund k hki hk
    · rw [FeedState.set_ne s _ hji] at hj hr
      by_cases hki : k = i
      · subst hki
        rw [FeedState.set_self]
        intro hmem
        obtain ⟨r', hr', hkey⟩ := List.mem_map.mp hmem
        obtain hr' | rfl := mem_pending_check hr'
        · exact h.disjoint j k hjk hj ho r hr (hkey ▸ List.mem_map_of_mem hr')
        · exact hund j hji hj (hkey ▸ List.mem_map_of_mem hr)
      · rw [FeedState.set_ne s _ hki] at hk ⊢
        exact h.disjoint j k hjk hj hk r hr

/-- A list that ends in `i`, cut at `j`. -/
theorem concat_eq_append_cons {α : Type} {xs pre post : List α} {i j : α}
    (h : xs ++ [i] = pre ++ j :: post) :
    (xs = pre ∧ j = i) ∨ ∃ post', xs = pre ++ j :: post' := by
  rcases List.eq_nil_or_concat post with rfl | ⟨post', k, rfl⟩
  · obtain ⟨rfl, hij⟩ := List.append_inj' h rfl
    exact Or.inl ⟨rfl, (List.cons.inj hij).1.symm⟩
  · rw [List.concat_eq_append, ← List.cons_append, ← List.append_assoc] at h
    exact Or.inr ⟨post', (List.append_inj' h rfl).1⟩

omit [DecidableEq ι] in
/-- The session of a running writer that has checked all its bars. -/
theorem FeedInv.session_eq {env : MT5Env} {s₀ s : FeedState ι} {rows : ι → List MarketBar}
    {log : List ι} (h : FeedInv env s₀ rows log s) {i : ι} (ho : (s.writers i).outcome = none)
    (hlen : (rows i).length ≤ (s.writers i).next) :
    (s.writers i).session = ⟨newRows MarketBar.key s.store.rows (rows i),
      (newRows MarketBar.key s.store.rows (rows i)).length,
      (rows i).length - (newRows MarketBar.key s.store.rows (rows i)).length⟩ := by
  have hall : (rows i).take (s.writers i).next = rows i := List.take_of_length_le hlen
  rw [h.running i ho, checked, foldl_check, hall]
  simp only [BarSession.init, List.nil_append, Nat.zero_add]

/-- A commit after the last check. The keys that were absent still are, so that it succeeds. -/
theorem FeedInv.commit {env : MT5Env} {s₀ s s' : FeedState ι} {rows : ι → List MarketBar}
    {log : List ι} (h : FeedInv env s₀ rows log s)
    (hb : ∀ i, (s₀.writers i).request.Builds env (rows i))
    (hd : ∀ i, ((rows i).map MarketBar.key).Nodup) {i : ι}
    (hstep : feedStep env s (.commit i) = some (s', ())) : FeedInv env s₀ rows (log ++ [i]) s' := by
  obtain ⟨ho, hlen, hs'⟩ := feedStep_commit (by rw [h.request i]; exact hb i) hstep
  have hsession := h.session_eq ho hlen
  have hdis : AbsentDistinct s.store (rows i) := (hd i).sublist (List.filter_sublist.map _)
  obtain ⟨store', hc⟩ := Option.isSome_iff_exists.mp ((commit_newRows_isSome _ _).mpr hdis)
  have hrows : store'.rows = s.store.rows ++ newRows MarketBar.key s.store.rows (rows i) :=
    UniqueTable.commit_eq_some.mp hc
  have hpend : (s.writers i).session.pending = newRows MarketBar.key s.store.rows (rows i) := by
    rw [hsession]
  obtain rfl := hs' store' (by rw [hpend]; exact hc)
  have hi : i ∉ log := fun hi => (h.finished i).mp hi ho
  have hrun : (s₀.writers i).request.run env s.store = .ok (store',
      (newRows MarketBar.key s.store.rows (rows i)).length,
      (rows i).length - (newRows MarketBar.key s.store.rows (rows i)).length) := by
    rw [(hb i).run, storeBatch_eq_ok hc]
  exact {
    request := FeedState.forall_set (p := fun j w => w.request = (s₀.writers j).request)
      (h.request i) fun j _ => h.request j
    nodup := List.nodup_append.mpr ⟨h.nodup, List.nodup_singleton i, by
      rintro a ha b hb rfl
      exact hi (List.mem_singleton.mp hb ▸ ha)⟩
    finished := FeedState.forall_set (p := fun j w => j ∈ log ++ [i] ↔ w.outcome ≠ none)
      (by simp) fun j hj => by
        rw [← h.finished, List.mem_append, List.mem_singleton, or_iff_left hj]
    serial := by
      have hser := h.serial
      unfold serialRun at hser ⊢
      rw [List.foldlM_append, hser]
      simp only [List.foldlM_cons, List.foldlM_nil, bind, Except.bind, hrun, Except.map]
      rfl
    committed := fun pre j post he => by
      obtain ⟨rfl, rfl⟩ | ⟨post', he⟩ := concat_eq_append_cons he
      · refine ⟨s.store, store', h.serial, hrun, hrows, ?_⟩
        rw [FeedState.set_self, hsession]
      · have hj : j ≠ i := fun hj => hi (by rw [he, hj]; simp)
        rw [FeedState.set_ne _ _ hj]
        exact h.committed pre j post' he
    kept := fun j hj row hrow => by
      show row.key ∈ store'.rows.map MarketBar.key
      rw [hrows, List.map_append, List.mem_append]
      rw [List.mem_append, List.mem_singleton] at hj
      obtain hj | rfl := hj
      · exact Or.inl (h.kept j hj row hrow)
      · by_cases hk : row.key ∈ s.store.rows.map MarketBar.key
        · exact Or.inl hk
        · exact Or.inr (List.mem_map_of_mem (UniqueTable.mem_newRows.mpr ⟨hrow, hk⟩))
    running := FeedState.forall_set
      (p := fun j w => w.outcome = none → w.session = checked store' (rows j) w.next)
      (fun hn => by cases hn) fun j hji hj => by
        have hdisj := h.disjoint j i hji hj ho
        rw [h.running j hj, hpend] at hdisj
        rw [h.running j hj, checked_congr hrows hdisj]
    disjoint := fun j k hjk hj hk => by
      have hji : j ≠ i := fun hji => by rw [hji, FeedState.set_self] at hj; cases hj
      have hki : k ≠ i := fun hki => by rw [hki, FeedState.set_self] at hk; cases hk
      rw [FeedState.set_ne _ _ hji] at hj ⊢
      rw [FeedState.set_ne _ _ hki] at hk ⊢
      exact h.disjoint j k hjk hj hk }

/-! ## Serializability -/

/-- No other running writer has the key pending that this step checks. -/
def Undisputed (rows : ι → List MarketBar) (t : Sys.Transition (FeedState ι) (FeedStep ι) Unit) :
    Prop :=
  match t.label with
  | .check i => ∀ row ∈ (rows i)[(t.pre.writers i).next]?,
      ∀ j, j ≠ i → (t.pre.writers j).outcome = none →
        row.key ∉ (t.pre.writers j).session.pending.map MarketBar.key
  | .commit _ => True

instance [Fintype ι] (rows : ι → List MarketBar)
    (t : Sys.Transition (FeedState ι) (FeedStep ι) Unit) : Decidable (Undisputed rows t) :=
  match t with
  | ⟨s, .check i, _, _⟩ =>
    inferInstanceAs (Decidable (∀ row ∈ (rows i)[(s.writers i).next]?,
      ∀ j, j ≠ i → (s.writers j).outcome = none →
        row.key ∉ (s.writers j).session.pending.map MarketBar.key))
  | ⟨_, .commit _, _, _⟩ => isTrue trivial

/-- **Serializability.** Writers over valid, duplicate-free bars start on a store and take their
steps in any order, except that none checks a key that another one has pending. Then every writer
that has ended has succeeded, with the counters and the rows of a serial execution in the order of
the commits: a bar is stored in the version of the first writer to commit it, and skipped by the
others. No bar of these writers is missing from the store. -/
theorem feeds_serializable {env : MT5Env} {s₀ s : FeedState ι} {rows : ι → List MarketBar}
    {ts : List (Sys.Transition (FeedState ι) (FeedStep ι) Unit)}
    (hstart : ∀ i, s₀.writers i = .start (s₀.writers i).request)
    (hb : ∀ i, (s₀.writers i).request.Builds env (rows i))
    (hd : ∀ i, ((rows i).map MarketBar.key).Nodup)
    (hrun : Sys.Run (feedStep env) s₀ ts s) (hund : ∀ t ∈ ts, Undisputed rows t) :
    ∃ log : List ι, log.Nodup ∧ (∀ i, i ∈ log ↔ (s.writers i).outcome ≠ none) ∧
      serialRun env (fun i => (s₀.writers i).request) log s₀.store = .ok s.store ∧
      (∀ pre i post, log = pre ++ i :: post →
        SerialOutcome env s₀ (rows i) pre i (s.writers i).outcome) ∧
      ∀ i ∈ log, ∀ row ∈ rows i, s.store.Has row.key := by
  have hinv : ∃ log, FeedInv env s₀ rows log s := by
    refine hrun.invariant (I := fun s => ∃ log, FeedInv env s₀ rows log s) ⟨[], .init hstart⟩ ?_
    rintro s l ⟨⟩ s' ht hst ⟨log, hinv⟩
    cases l with
    | check i =>
      obtain ⟨row, ho, hrow, rfl⟩ := feedStep_check (by rw [hinv.request i]; exact hb i) hst
      exact ⟨log, hinv.check ho hrow (hund _ ht row hrow)⟩
    | commit i => exact ⟨log ++ [i], hinv.commit hb hd hst⟩
  obtain ⟨log, h⟩ := hinv
  exact ⟨log, h.nodup, h.finished, h.serial, h.committed, h.kept⟩

/-! ## Fixtures -/

/-- The EA sends two bars while the provider backfill has its own version of the second one. -/
def demoFeeds : FeedState Bool where
  store := UniqueTable.empty
  writers i := .start (if i then .upsert "XAUUSD" "M1" [demoDict 1704067260000000 12] (.num 0)
    else .ingest demoPayload)

def demoFeedRows (i : Bool) : List MarketBar :=
  if i then [demoRow 1704067260000000 12]
  else [demoRow 1704067200000000 11, demoRow 1704067260000000 10]

theorem demoFeeds_builds : ∀ i, (demoFeeds.writers i).request.Builds demoEnv (demoFeedRows i)
  | false => show demoPayload.bars.mapM (ingestRow demoEnv demoPayload) = _ by decide +kernel
  | true => show [demoDict 1704067260000000 12].mapM (upsertRow "XAUUSD" "M1" (.num 0)) = _ by
      decide +kernel

theorem demoFeeds_distinct : ∀ i, ((demoFeedRows i).map MarketBar.key).Nodup := by decide +kernel

theorem demoFeeds_serializable : ∃ ts s, Sys.Run (feedStep demoEnv) demoFeeds ts s ∧
    (s.writers false).outcome = some (.ok (2, 0)) ∧ (s.writers true).outcome = some (.ok (0, 1)) ∧
    ∃ log : List Bool, log.Nodup ∧ (∀ i, i ∈ log ↔ (s.writers i).outcome ≠ none) ∧
      serialRun demoEnv (fun i => (demoFeeds.writers i).request) log demoFeeds.store = .ok s.store ∧
      (∀ pre i post, log = pre ++ i :: post →
        SerialOutcome demoEnv demoFeeds (demoFeedRows i) pre i (s.writers i).outcome) ∧
      ∀ i ∈ log, ∀ row ∈ demoFeedRows i, s.store.Has row.key := by
  obtain ⟨ts, s, hrun, hund, hea, hprovider⟩ := Sys.exists_run (feedStep demoEnv) demoFeeds
    [.check false, .check false, .commit false, .check true, .commit true]
    (fun ts s => (∀ t ∈ ts, Undisputed demoFeedRows t) ∧
      (s.writers false).outcome = some (.ok (2, 0)) ∧
      (s.writers true).outcome = some (.ok (0, 1))) (by decide +kernel)
  exact ⟨ts, s, hrun, hea, hprovider,
    feeds_serializable (fun _ => rfl) demoFeeds_builds demoFeeds_distinct hrun hund⟩

/-- The backfill checks the bar while the EA's version is pending: it fails at its commit. -/
theorem disputed_bar_fails :
    (∀ i, (demoFeeds.writers i).request.Builds demoEnv (demoFeedRows i)) ∧
    (∀ i, ((demoFeedRows i).map MarketBar.key).Nodup) ∧
    ∃ ts s, Sys.Run (feedStep demoEnv) demoFeeds ts s ∧
      (s.writers true).outcome = some (.error .integrityError) := by
  obtain ⟨ts, s, hrun, hs⟩ := Sys.exists_run (feedStep demoEnv) demoFeeds
    [.check false, .check false, .check true, .commit false, .commit true]
    (fun _ s => (s.writers true).outcome = some (.error .integrityError)) (by decide +kernel)
  exact ⟨demoFeeds_builds, demoFeeds_distinct, ts, s, hrun, hs⟩

end MarketKill3r
