import Mathlib.Data.List.Perm.Basic
import MarketKill3r.Auth.Issued
import MarketKill3r.Notifications.Dispatch

/-!
# The codes on their way

The response to a request does not wait for its notification: a background task sends it, at any later
time and in any order, on a network that answers what it likes. The tasks that wait are part of the
state.

* `mailStep`: the system of the requests and the background tasks.
* `codes_accounted`: no notification is lost, invented or worked on twice.
* `codes_delivered`: **what leaves the program was drawn by an earlier request, and the code opens the
  account that it was sent for, and no other one.**
-/

namespace MarketKill3r

open Sys (Happened)

/-! ## The system -/

structure MailState where
  auth : AuthState
  tasks : List Notification

def MailState.start : MailState := ⟨.start, []⟩

/-- A step of the auth endpoints, or the background task at this position. -/
inductive MailLabel
  | auth (l : AuthLabel)
  | deliver (i : Nat) (net : Network)

inductive MailOut
  | response (response : Option AuthResponse)
  | delivered (note : Notification) (out : List Outgoing) (ok : Bool)

/-- The notifications that a step of the endpoints hands over. -/
def notified (env : AuthEnv) (s : AuthState) : AuthLabel → List Notification
  | .request r a => (authHandle env a s.db r).notification.toList
  | .setActive _ _ => []

def mailStep (env : AuthEnv) (settings : NotificationSettings) (s : MailState) :
    MailLabel → Option (MailState × MailOut)
  | .auth l => do
    let (auth, response) ← authStep env s.auth l
    return (⟨auth, s.tasks ++ notified env s.auth l⟩, .response response)
  | .deliver i net => do
    let note ← s.tasks[i]?
    let (out, ok) := note.deliver settings net
    return (⟨s.auth, s.tasks.eraseIdx i⟩, .delivered note out ok)

abbrev MailTransition := Sys.Transition MailState MailLabel MailOut

variable {env : AuthEnv} {settings : NotificationSettings} {ts : List MailTransition} {s : MailState}

/-- What a step does. -/
inductive MailStep (env : AuthEnv) (settings : NotificationSettings) (s : MailState) :
    MailLabel → MailState → MailOut → Prop
  | auth {l : AuthLabel} {auth : AuthState} {response : Option AuthResponse}
      (hauth : authStep env s.auth l = some (auth, response)) :
      MailStep env settings s (.auth l) ⟨auth, s.tasks ++ notified env s.auth l⟩ (.response response)
  | deliver {i : Nat} {net : Network} {note : Notification} (htask : s.tasks[i]? = some note) :
      MailStep env settings s (.deliver i net) ⟨s.auth, s.tasks.eraseIdx i⟩
        (.delivered note (note.deliver settings net).1 (note.deliver settings net).2)

theorem mailStep_cases {s' : MailState} {l : MailLabel} {o : MailOut}
    (h : mailStep env settings s l = some (s', o)) : MailStep env settings s l s' o := by
  cases l with
  | auth l =>
    simp only [mailStep, bind, pure, Option.bind_eq_some_iff, Option.some.injEq, Prod.mk.injEq] at h
    obtain ⟨⟨auth, response⟩, hauth, rfl, rfl⟩ := h
    exact .auth hauth
  | deliver i net =>
    simp only [mailStep, bind, pure, Option.bind_eq_some_iff, Option.some.injEq, Prod.mk.injEq] at h
    obtain ⟨note, htask, rfl, rfl⟩ := h
    exact .deliver htask

/-! ## Accounts -/

/-- The notifications that were handed over. -/
def handedOver (env : AuthEnv) (ts : List MailTransition) : List Notification :=
  ts.flatMap fun t =>
    match t.label with
    | .auth l => notified env t.pre.auth l
    | .deliver _ _ => []

/-- The notification that a background task worked on. -/
def MailOut.worked : MailOut → List Notification
  | .response _ => []
  | .delivered note _ _ => [note]

/-- The notifications that the background tasks have worked on. -/
def workedOn (ts : List MailTransition) : List Notification := ts.flatMap fun t => t.out.worked

/-- **No notification is lost, invented or worked on twice**: those that were handed over are, in some
order, those that were worked on and those that wait. -/
theorem codes_accounted (h : Sys.Run (mailStep env settings) .start ts s) :
    (handedOver env ts).Perm (workedOn ts ++ s.tasks) := by
  refine h.history (I := fun ts s => (handedOver env ts).Perm (workedOn ts ++ s.tasks)) .rfl ?_
  intro us s l o s' _ hstep _ hI
  simp only [handedOver, workedOn, List.flatMap_append, List.flatMap_singleton]
  cases mailStep_cases hstep with
  | auth hauth =>
    simp only [MailOut.worked, List.append_nil, ← List.append_assoc]
    exact hI.append_right _
  | deliver htask =>
    obtain ⟨hi, rfl⟩ := List.getElem?_eq_some_iff.mp htask
    simp only [MailOut.worked, List.append_nil, List.append_assoc, List.singleton_append]
    exact hI.trans ((List.getElem_cons_eraseIdx_perm hi).symm.append_left _)

/-! ## Where the codes come from -/

/-- The transition is the request that has drawn the code of the notification. -/
def Draws (env : AuthEnv) (note : Notification) (t : MailTransition) : Prop :=
  ∃ r a, t.label = .auth (.request r a) ∧
    Issued env a t.pre.auth.db.toTables t.post.auth.db.toTables r note

/-- Notifications that wait were drawn, and those that were handed over have their row. -/
structure MailInv (env : AuthEnv) (ts : List MailTransition) (s : MailState) : Prop where
  waiting : ∀ note ∈ s.tasks, Happened (fun _ t => Draws env note t) ts
  sent : ∀ note ∈ handedOver env ts, Sent env s.auth.db.toTables note

theorem MailInv.start : MailInv env [] .start := ⟨List.forall_mem_nil _, List.forall_mem_nil _⟩

/-- A notification that a step hands over was drawn by it. -/
theorem issued_of_notified {s : AuthState} {l : AuthLabel} {s' : AuthState}
    {o : Option AuthResponse} (hstep : authStep env s l = some (s', o)) {note : Notification}
    (h : note ∈ notified env s l) :
    ∃ r a, l = .request r a ∧ Issued env a s.db.toTables s'.db.toTables r note := by
  cases l with
  | setActive userId active => cases h
  | request r a =>
    cases hstep
    exact ⟨r, a, rfl, issued_of_notification (Option.mem_toList.mp h)⟩

theorem MailInv.step {s' : MailState} {l : MailLabel} {o : MailOut} (h : MailInv env ts s)
    (hstep : mailStep env settings s l = some (s', o)) : MailInv env (ts ++ [⟨s, l, o, s'⟩]) s' := by
  cases mailStep_cases hstep with
  | @auth l auth response hauth =>
    constructor
    · intro note hnote
      rcases List.mem_append.mp hnote with hnote | hnote
      · exact (h.waiting note hnote).append _
      · obtain ⟨r, a, rfl, hissued⟩ := issued_of_notified hauth hnote
        exact Sys.Happened.last ⟨r, a, rfl, hissued⟩
    · intro note hnote
      rw [handedOver, List.flatMap_append, List.mem_append, List.flatMap_singleton] at hnote
      rcases hnote with hnote | hnote
      · exact (h.sent note hnote).step hauth
      · obtain ⟨r, a, -, hissued⟩ := issued_of_notified hauth hnote
        exact hissued.sent
  | deliver htask =>
    constructor
    · intro note hnote
      exact (h.waiting note (List.mem_of_mem_eraseIdx hnote)).append _
    · intro note hnote
      rw [handedOver, List.flatMap_append, List.flatMap_singleton, List.append_nil] at hnote
      exact h.sent note hnote

theorem MailInv.run (h : Sys.Run (mailStep env settings) .start ts s) : MailInv env ts s :=
  h.history (I := MailInv env) .start fun _ _ _ _ _ _ hstep _ hI => hI.step hstep

/-! ## A session -/

/-- Telegram is switched off. -/
def demoNotifications : NotificationSettings where
  telegramEnabled := false
  telegramBotToken := ""
  telegramChatId := ""
  telegramApiUrl := ""
  smtpHost := "mail"
  smtpPort := 587
  smtpUser := ""
  smtpPassword := ""
  smtpUseTls := true
  emailFrom := "noreply@example.com"
  adminEmail := "admin@example.com"

/-- Every command succeeds. -/
def demoNetwork : Network := ⟨fun _ => .timeout, fun _ => true, fun _ => .ok⟩

/-- A registration, whose code is sent after the login of another day. -/
def demoMailing : List MailLabel :=
  demoLogin.map .auth ++ [.deliver 1 demoNetwork, .deliver 0 demoNetwork]

/-- The recipients of the mails that were sent. -/
def recipients (ts : List MailTransition) : List String :=
  ts.flatMap fun t =>
    match t.out with
    | .delivered _ out _ => out.filterMap fun o =>
      match o with
      | .smtp (.sendMessage mail) => some mail.recipient
      | _ => none
    | .response _ => []

theorem demoMailing_run : ∃ ts s, Sys.Run (mailStep (demoAuthEnv true) demoNotifications) .start ts s ∧
    s.tasks = [] ∧ recipients ts = ["demo@example.com", "admin@example.com"] ∧
    handedOver (demoAuthEnv true) ts = [.registrationCode "demo@example.com" "ABCDEFGH" 60,
      .loginOtp "demo@example.com" "JKLMNP" 60] :=
  Sys.exists_run (mailStep (demoAuthEnv true) demoNotifications) .start demoMailing
    (fun ts s => s.tasks = [] ∧ recipients ts = ["demo@example.com", "admin@example.com"] ∧
      handedOver (demoAuthEnv true) ts = [.registrationCode "demo@example.com" "ABCDEFGH" 60,
        .loginOtp "demo@example.com" "JKLMNP" 60]) (by decide +kernel)

/-! ## The codes on their way -/

/-- **The codes on their way.** Whatever leaves the program, on any network, carries a notification that
an earlier request has drawn: for a new user, for one who waits for the approval, or for an approved and
active user who gave the password. No notification is lost, invented or worked on twice. And whenever
one was handed over, its code redeems: it opens the account that it was sent for, and no other one, as
long as its row is live. -/
theorem codes_delivered (h : Sys.Run (mailStep env settings) .start ts s) :
    (handedOver env ts).Perm (workedOn ts ++ s.tasks) ∧
    (∀ before t after, ts = before ++ t :: after → ∀ note out ok, t.out = .delivered note out ok →
      (∀ message ∈ out, message.Carries settings note) ∧
        Happened (fun _ t' => Draws env note t') before) ∧
    ∀ note ∈ handedOver env ts, Redeems env s.auth.db note := by
  refine ⟨codes_accounted h, ?_, fun note hnote => ((MailInv.run h).sent note hnote).redeems⟩
  rintro before t after rfl note out ok hout
  obtain ⟨hrun, hstep⟩ := h.cut
  obtain ⟨pre, label, out', post⟩ := t
  dsimp only at hout hrun hstep
  cases mailStep_cases hstep with
  | auth hauth => cases hout
  | @deliver i net note' htask =>
    cases hout
    exact ⟨fun message hmessage => carries_of_deliver settings net hmessage,
      (MailInv.run hrun).waiting note (List.mem_of_getElem? htask)⟩

theorem demo_codes_delivered : ∃ ts s,
    Sys.Run (mailStep (demoAuthEnv true) demoNotifications) .start ts s ∧
    recipients ts = ["demo@example.com", "admin@example.com"] ∧
    (handedOver (demoAuthEnv true) ts).Perm (workedOn ts ++ s.tasks) ∧
    Redeems (demoAuthEnv true) s.auth.db (.loginOtp "demo@example.com" "JKLMNP" 60) := by
  obtain ⟨ts, s, hrun, -, hrecipients, hover⟩ := demoMailing_run
  obtain ⟨hperm, -, hredeems⟩ := codes_delivered hrun
  refine ⟨ts, s, hrun, hrecipients, hperm, hredeems _ ?_⟩
  rw [hover]
  simp

end MarketKill3r
