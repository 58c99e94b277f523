import Mathlib.Data.List.DropRight
import MarketKill3r.Auth.Endpoints
import MarketKill3r.Market.Backfill

/-!
# Delivery of codes (`app/notifications/`)

A code goes to the Telegram chat of the administrator, and by email if Telegram does not confirm it. A
send is a function from the answers of the network to what leaves the program and the value it
returns.

* `sendText`, `sendMail`, `deliver`: the two channels and their order.
* `Delivery`, `notification_delivery`: **what leaves the program for a code, and when it counts as
  delivered**, whatever the network answers.
-/

namespace MarketKill3r

structure NotificationSettings where
  telegramEnabled : Bool
  telegramBotToken : String
  telegramChatId : String
  telegramApiUrl : String
  smtpHost : String
  smtpPort : Int
  smtpUser : String
  smtpPassword : String
  smtpUseTls : Bool
  emailFrom : String
  adminEmail : String

/-- A call of `sendMessage` of the Bot API. -/
structure TelegramPost where
  url : String
  chatId : String
  text : String
  deriving DecidableEq

structure Mail where
  subject : String
  sender : String
  recipient : String
  body : String
  deriving DecidableEq

/-- What is said to the mail server. -/
inductive SmtpCommand
  | connect (host : String) (port : Int)
  | starttls
  | login (user password : String)
  | sendMessage (mail : Mail)
  | quit
  deriving DecidableEq

/-- What leaves the program. -/
inductive Outgoing
  | post (post : TelegramPost)
  | smtp (command : SmtpCommand)
  deriving DecidableEq

/-- What `httpx.post` brings: an exception that is caught, another one, or a response. The JSON is
`none` if it cannot be read. -/
inductive HttpAnswer
  | timeout
  | requestError
  | otherError
  | response (statusCode : Int) (json : Option JsonValue)

/-- How the mail server takes a command. Once the connection is dropped, nothing more can be said. -/
inductive SmtpAnswer
  | ok
  | refused
  | dropped
  deriving DecidableEq

/-- The answers of the network, and whether `EmailMessage` accepts the headers and the body. -/
structure Network where
  post : TelegramPost → HttpAnswer
  composes : Mail → Bool
  smtp : SmtpCommand → SmtpAnswer

/-- What has left the program, and the value that is returned, unless an exception escapes. -/
abbrev Sending := List Outgoing × Option Bool

/-! ## Telegram -/

/-- `_is_configured` -/
def isConfigured (settings : NotificationSettings) : Bool :=
  settings.telegramEnabled && settings.telegramBotToken ≠ "" && settings.telegramChatId ≠ ""

/-- `_MAX_BODY_LENGTH` -/
def maxBodyLength : Nat := 4096

/-- The request of `_send_text`. -/
def telegramPost (settings : NotificationSettings) (body : String) : TelegramPost :=
  let host := String.ofList (settings.telegramApiUrl.toList.rdropWhile (· = '/'))
  let token := settings.telegramBotToken
  ⟨s!"{host}/bot{token}/sendMessage", settings.telegramChatId,
    String.ofList (body.toList.take maxBodyLength)⟩

/-- `response.json().get("ok") is True`; an exception counts as no. -/
def JsonValue.confirms : JsonValue → Bool
  | .dict items =>
    match JsonDict.get items "ok" with
    | .bool ok => ok
    | _ => false
  | _ => false

/-- The answer confirms the message. -/
def HttpAnswer.confirms : HttpAnswer → Bool
  | .response statusCode json =>
    decide (200 ≤ statusCode ∧ statusCode < 300) && json.any JsonValue.confirms
  | _ => false

/-- `_send_text` -/
def sendText (settings : NotificationSettings) (net : Network) (body : String) : Sending :=
  if !isConfigured settings then ([], some false)
  else
    let post := telegramPost settings body
    ([.post post],
      match net.post post with
      | .otherError => none
      | answer => some answer.confirms)

def registrationText (userEmail code : String) (expiresMinutes : Int) : String :=
  s!"MarketKill3r: New registration pending approval.\nUser: {userEmail}\nApproval code: {code}\n" ++
    s!"Expires in {expiresMinutes} minutes. Relay to the user out-of-band."

/-- `send_telegram_registration_code` -/
def sendTelegramRegistrationCode (settings : NotificationSettings) (net : Network)
    (userEmail code : String) (expiresMinutes : Int) : Sending :=
  sendText settings net (registrationText userEmail code expiresMinutes)

def loginOtpText (userEmail code : String) (expiresMinutes : Int) : String :=
  s!"MarketKill3r: Login verification code requested.\nUser: {userEmail}\nOTP: {code}\n" ++
    s!"Expires in {expiresMinutes} minutes. Relay to the user out-of-band."

/-- `send_telegram_login_otp` -/
def sendTelegramLoginOtp (settings : NotificationSettings) (net : Network)
    (userEmail code : String) (expiresMinutes : Int) : Sending :=
  sendText settings net (loginOtpText userEmail code expiresMinutes)

/-! ## Email -/

/-- What the body of the `with` block says to the server. -/
def mailCommands (settings : NotificationSettings) (mail : Mail) : List SmtpCommand :=
  (if settings.smtpUseTls then [.starttls] else []) ++
    (if settings.smtpUser ≠ "" then [.login settings.smtpUser settings.smtpPassword] else []) ++
    [.sendMessage mail]

/-- The commands up to the first one that fails, and its answer. -/
def runCommands (net : Network) : List SmtpCommand → List SmtpCommand × SmtpAnswer
  | [] => ([], .ok)
  | c :: cs =>
    match net.smtp c with
    | .ok => (c :: (runCommands net cs).1, (runCommands net cs).2)
    | answer => ([c], answer)

/-- The `with` block. `SMTP.__exit__` says `QUIT` if the connection still stands, and raises if the
server refuses that; a connection that is dropped on the `QUIT` is no failure. -/
def smtpSession (settings : NotificationSettings) (net : Network) (mail : Mail) :
    List SmtpCommand × Bool :=
  let connect := SmtpCommand.connect settings.smtpHost settings.smtpPort
  if net.smtp connect = .ok then
    let (said, answer) := runCommands net (mailCommands settings mail)
    if answer = .dropped then (connect :: said, false)
    else (connect :: said ++ [.quit], answer = .ok && net.smtp .quit ≠ .refused)
  else ([connect], false)

/-- `_send` -/
def sendMail (settings : NotificationSettings) (net : Network) (subject body toAddress : String) :
    Sending :=
  if settings.smtpHost = "" then ([], some false)
  else
    let mail := ⟨subject, settings.emailFrom, toAddress, body⟩
    if !net.composes mail then ([], none)
    else
      let (said, sent) := smtpSession settings net mail
      (said.map .smtp, some sent)

def registrationSubject (userEmail : String) : String :=
  s!"[MarketKill3r] Registration approval code for {userEmail}"

def registrationBody (userEmail code : String) (expiresMinutes : Int) : String :=
  s!"A new account registration is pending approval.\n\nUser email: {userEmail}\n" ++
    s!"Approval code: {code}\n" ++
    s!"This code expires in {expiresMinutes} minutes and can be used once.\n\n" ++
    "Relay this code to the user out-of-band to let them complete " ++
    "registration verification. Do not forward this email to the user."

/-- `send_registration_code_email` -/
def sendRegistrationCodeEmail (settings : NotificationSettings) (net : Network)
    (userEmail code : String) (expiresMinutes : Int) : Sending :=
  sendMail settings net (registrationSubject userEmail)
    (registrationBody userEmail code expiresMinutes) settings.adminEmail

def loginOtpSubject : String := "[MarketKill3r] Your login verification code"

def loginOtpBody (code : String) (expiresMinutes : Int) : String :=
  s!"Your MarketKill3r login verification code is: {code}\n\n" ++
    s!"This code expires in {expiresMinutes} minutes and can be used once.\n\n" ++
    "If you did not attempt to log in, you can ignore this email."

/-- `send_login_otp_email` -/
def sendLoginOtpEmail (settings : NotificationSettings) (net : Network)
    (userEmail code : String) (expiresMinutes : Int) : Sending :=
  sendMail settings net loginOtpSubject (loginOtpBody code expiresMinutes) userEmail

/-! ## Dispatch -/

/-- `_deliver`. An exception counts as a failure. -/
def deliver (settings : NotificationSettings) (net : Network)
    (telegramSend emailSend : NotificationSettings → Network → String → String → Int → Sending)
    (userEmail code : String) (expiresMinutes : Int) : List Outgoing × Bool :=
  let (posted, telegramOk) := telegramSend settings net userEmail code expiresMinutes
  if telegramOk.getD false then (posted, true)
  else
    let (mailed, emailOk) := emailSend settings net userEmail code expiresMinutes
    (posted ++ mailed, emailOk.getD false)

/-- `send_registration_code_notification` -/
def sendRegistrationCodeNotification (settings : NotificationSettings) (net : Network)
    (userEmail code : String) (expiresMinutes : Int) : List Outgoing × Bool :=
  deliver settings net sendTelegramRegistrationCode sendRegistrationCodeEmail userEmail code
    expiresMinutes

/-- `send_login_otp_notification` -/
def sendLoginOtpNotification (settings : NotificationSettings) (net : Network)
    (userEmail code : String) (expiresMinutes : Int) : List Outgoing × Bool :=
  deliver settings net sendTelegramLoginOtp sendLoginOtpEmail userEmail code expiresMinutes

/-- The background task of a notification. -/
def Notification.deliver (settings : NotificationSettings) (net : Network) :
    Notification → List Outgoing × Bool
  | .registrationCode email code expireMinutes =>
    sendRegistrationCodeNotification settings net email code expireMinutes
  | .loginOtp email code expireMinutes =>
    sendLoginOtpNotification settings net email code expireMinutes

/-! ## What is sent -/

/-- The text for Telegram. -/
def Notification.text : Notification → String
  | .registrationCode email code expireMinutes => registrationText email code expireMinutes
  | .loginOtp email code expireMinutes => loginOtpText email code expireMinutes

/-- The mail: a registration code goes to the administrator, a login code to its user. -/
def Notification.mail (settings : NotificationSettings) : Notification → Mail
  | .registrationCode email code expireMinutes => ⟨registrationSubject email, settings.emailFrom,
      settings.adminEmail, registrationBody email code expireMinutes⟩
  | .loginOtp email code expireMinutes =>
    ⟨loginOtpSubject, settings.emailFrom, email, loginOtpBody code expireMinutes⟩

/-- Telegram confirms the notification. -/
def Notification.Confirmed (settings : NotificationSettings) (net : Network) (n : Notification) :
    Prop :=
  isConfigured settings = true ∧ (net.post (telegramPost settings n.text)).confirms = true

instance (settings : NotificationSettings) (net : Network) (n : Notification) :
    Decidable (n.Confirmed settings net) := inferInstanceAs (Decidable (_ ∧ _))

/-- The mail of the notification is attempted. -/
def Notification.Falls (settings : NotificationSettings) (net : Network) (n : Notification) : Prop :=
  ¬ n.Confirmed settings net ∧ settings.smtpHost ≠ "" ∧ net.composes (n.mail settings) = true

instance (settings : NotificationSettings) (net : Network) (n : Notification) :
    Decidable (n.Falls settings net) := inferInstanceAs (Decidable (_ ∧ _))

/-- The mail server accepts every command of the session, and does not refuse to end it. -/
def Network.AcceptsMail (net : Network) (settings : NotificationSettings) (mail : Mail) : Prop :=
  net.smtp (.connect settings.smtpHost settings.smtpPort) = .ok ∧
    (∀ c ∈ mailCommands settings mail, net.smtp c = .ok) ∧ net.smtp .quit ≠ .refused

/-- The message is the one that the notification is for: the text for the chat of the administrator, or
the mail to its recipient. -/
def Outgoing.Carries (settings : NotificationSettings) (n : Notification) : Outgoing → Prop
  | .post request => request = telegramPost settings n.text
  | .smtp (.sendMessage mail) => mail = n.mail settings
  | .smtp _ => True

/-- A command that shows a secret to the server. -/
def SmtpCommand.Secret : SmtpCommand → Prop
  | .login _ _ => True
  | .sendMessage _ => True
  | _ => False

/-- What leaves the program for a notification, and whether it counts as delivered. -/
structure Delivery (settings : NotificationSettings) (net : Network) (n : Notification)
    (out : List Outgoing) (ok : Bool) : Prop where
  delivered : ok = true ↔ n.Confirmed settings net ∨
    (n.Falls settings net ∧ net.AcceptsMail settings (n.mail settings))
  posted : out.filter (fun o => o matches .post _) =
    if isConfigured settings then [.post (telegramPost settings n.text)] else []
  mailed : (∃ c, .smtp c ∈ out) ↔ n.Falls settings net
  mail : ∀ mail, .smtp (.sendMessage mail) ∈ out → mail = n.mail settings
  secured : settings.smtpUseTls = true → ∀ before c after, out = before ++ .smtp c :: after →
    c.Secret → .smtp .starttls ∈ before ∧ net.smtp .starttls = .ok

section Session

variable (settings : NotificationSettings) (net : Network)

theorem runCommands_isPrefix (cs : List SmtpCommand) : (runCommands net cs).1 <+: cs := by
  induction cs with
  | nil => exact List.nil_prefix
  | cons c cs ih =>
    unfold runCommands
    split
    · exact (List.prefix_cons_inj c).mpr ih
    · exact ⟨cs, rfl⟩

theorem runCommands_done (cs : List SmtpCommand) :
    (runCommands net cs).2 = .ok ↔ ∀ c ∈ cs, net.smtp c = .ok := by
  induction cs with
  | nil => simp [runCommands]
  | cons c cs ih =>
    rw [List.forall_mem_cons]
    unfold runCommands
    cases hc : net.smtp c with
    | ok => exact ih.trans (and_iff_right rfl).symm
    | refused => simp
    | dropped => simp

theorem smtpSession_done (mail : Mail) :
    (smtpSession settings net mail).2 = true ↔ net.AcceptsMail settings mail := by
  unfold smtpSession Network.AcceptsMail
  by_cases hc : net.smtp (.connect settings.smtpHost settings.smtpPort) = .ok
  · rw [if_pos hc, ← runCommands_done, and_iff_right hc]
    cases hdone : (runCommands net (mailCommands settings mail)).2 <;> simp [hdone]
  · simp [hc]

theorem sendText_out (body : String) : (sendText settings net body).1 =
    if isConfigured settings then [.post (telegramPost settings body)] else [] := by
  unfold sendText
  cases isConfigured settings <;> rfl

theorem sendText_ok (body : String) : (sendText settings net body).2.getD false = true ↔
    isConfigured settings = true ∧ (net.post (telegramPost settings body)).confirms = true := by
  unfold sendText
  cases isConfigured settings with
  | false => simp
  | true =>
    simp only [Bool.not_true, Bool.false_eq_true, if_false, true_and]
    cases net.post (telegramPost settings body) <;> simp [HttpAnswer.confirms]

theorem sendMail_out (subject body toAddress : String) :
    (sendMail settings net subject body toAddress).1 =
      if settings.smtpHost ≠ "" ∧ net.composes ⟨subject, settings.emailFrom, toAddress, body⟩ = true then
        (smtpSession settings net ⟨subject, settings.emailFrom, toAddress, body⟩).1.map .smtp
      else [] := by
  unfold sendMail
  by_cases hhost : settings.smtpHost = ""
  · simp [hhost]
  · cases hcomposes : net.composes ⟨subject, settings.emailFrom, toAddress, body⟩ <;>
      simp [hhost, hcomposes]

theorem sendMail_ok (subject body toAddress : String) :
    (sendMail settings net subject body toAddress).2.getD false = true ↔
      (settings.smtpHost ≠ "" ∧ net.composes ⟨subject, settings.emailFrom, toAddress, body⟩ = true) ∧
        net.AcceptsMail settings ⟨subject, settings.emailFrom, toAddress, body⟩ := by
  unfold sendMail
  by_cases hhost : settings.smtpHost = ""
  · simp [hhost]
  · cases hcomposes : net.composes ⟨subject, settings.emailFrom, toAddress, body⟩ <;>
      simp [hhost, hcomposes, smtpSession_done]

/-- What the mail server is told of a notification. -/
def mailOut (settings : NotificationSettings) (net : Network) (n : Notification) :
    List Outgoing :=
  if n.Falls settings net then (smtpSession settings net (n.mail settings)).1.map .smtp else []

/-- The two channels, one after the other. -/
theorem Notification.deliver_eq (n : Notification) : n.deliver settings net =
    if (sendText settings net n.text).2.getD false then ((sendText settings net n.text).1, true)
    else
      let mail := n.mail settings
      ((sendText settings net n.text).1 ++
          (sendMail settings net mail.subject mail.body mail.recipient).1,
        (sendMail settings net mail.subject mail.body mail.recipient).2.getD false) := by
  cases n <;> rfl

theorem Notification.mail_sender (n : Notification) :
    (⟨(n.mail settings).subject, settings.emailFrom, (n.mail settings).recipient,
      (n.mail settings).body⟩ : Mail) = n.mail settings := by
  cases n <;> rfl

theorem Notification.deliver_out (n : Notification) : (n.deliver settings net).1 =
    (if isConfigured settings then [.post (telegramPost settings n.text)] else []) ++
      mailOut settings net n := by
  have hok := sendText_ok settings net n.text
  rw [n.deliver_eq settings net, ← sendText_out settings net, mailOut]
  by_cases hc : n.Confirmed settings net
  · rw [if_pos (hok.mpr hc), if_neg fun h => h.1 hc, List.append_nil]
  · rw [if_neg (mt hok.mp hc)]
    dsimp only
    rw [sendMail_out, n.mail_sender settings]
    congr 1
    refine if_congr ?_ rfl rfl
    unfold Notification.Falls
    exact (and_iff_right hc).symm

theorem Notification.deliver_ok (n : Notification) : (n.deliver settings net).2 = true ↔
    n.Confirmed settings net ∨
      (n.Falls settings net ∧ net.AcceptsMail settings (n.mail settings)) := by
  have hok := sendText_ok settings net n.text
  rw [n.deliver_eq settings net]
  by_cases hc : n.Confirmed settings net
  · rw [if_pos (hok.mpr hc)]
    exact iff_of_true rfl (Or.inl hc)
  · rw [if_neg (mt hok.mp hc), sendMail_ok, n.mail_sender settings]
    unfold Notification.Falls
    tauto

/-- The session starts with the connection. Of what follows, the server is only told what the session
was given. -/
theorem smtpSession_said (mail : Mail) :
    (smtpSession settings net mail).1 = [.connect settings.smtpHost settings.smtpPort] ∨
      ∃ bye, (∀ c ∈ bye, c = .quit) ∧
        (smtpSession settings net mail).1 = .connect settings.smtpHost settings.smtpPort ::
          (runCommands net (mailCommands settings mail)).1 ++ bye := by
  unfold smtpSession
  by_cases hc : net.smtp (.connect settings.smtpHost settings.smtpPort) = .ok
  · rw [if_pos hc]
    dsimp only
    split
    · exact Or.inr ⟨[], List.forall_mem_nil _, (List.append_nil _).symm⟩
    · exact Or.inr ⟨[.quit], List.forall_mem_singleton.mpr rfl, rfl⟩
  · left
    simp only [if_neg hc]

theorem mem_smtpSession {mail : Mail} {c : SmtpCommand}
    (h : c ∈ (smtpSession settings net mail).1) (hsecret : c.Secret) :
    c ∈ (runCommands net (mailCommands settings mail)).1 := by
  obtain hs | ⟨bye, hbye, hs⟩ := smtpSession_said settings net mail
  · rw [hs, List.mem_singleton] at h
    rw [h] at hsecret
    exact hsecret.elim
  · rw [hs, List.cons_append, List.mem_cons, List.mem_append] at h
    obtain rfl | h | h := h
    · exact hsecret.elim
    · exact h
    · rw [hbye c h] at hsecret
      exact hsecret.elim

theorem mem_mailOut {n : Notification} {o : Outgoing} : o ∈ mailOut settings net n ↔
    n.Falls settings net ∧ ∃ c ∈ (smtpSession settings net (n.mail settings)).1, o = .smtp c := by
  unfold mailOut
  split
  · rename_i hfalls
    rw [List.mem_map]
    exact ⟨fun ⟨c, hc, he⟩ => ⟨hfalls, c, hc, he.symm⟩, fun ⟨_, c, hc, he⟩ => ⟨c, hc, he.symm⟩⟩
  · rename_i hfalls
    exact iff_of_false List.not_mem_nil fun h => hfalls h.1

theorem smtp_mem_out {n : Notification} {c : SmtpCommand} :
    .smtp c ∈ (n.deliver settings net).1 ↔
      n.Falls settings net ∧ c ∈ (smtpSession settings net (n.mail settings)).1 := by
  rw [n.deliver_out settings net, List.mem_append, mem_mailOut]
  constructor
  · rintro (h | ⟨hfalls, c', hc, he⟩)
    · split at h <;> simp at h
    · cases he
      exact ⟨hfalls, hc⟩
  · exact fun ⟨hfalls, hc⟩ => Or.inr ⟨hfalls, c, hc, rfl⟩

/-- Whatever leaves the program for a notification is its own message. -/
theorem carries_of_deliver {n : Notification} {o : Outgoing} (h : o ∈ (n.deliver settings net).1) :
    o.Carries settings n := by
  cases o with
  | post post =>
    rw [n.deliver_out settings net, List.mem_append] at h
    rcases h with h | h
    · split at h
      · exact (Outgoing.post.inj (List.mem_singleton.mp h))
      · cases h
    · obtain ⟨-, c, -, hc⟩ := (mem_mailOut settings net).mp h
      cases hc
  | smtp c =>
    cases c with
    | sendMessage mail =>
      have hsaid := mem_smtpSession settings net ((smtp_mem_out settings net).mp h).2 trivial
      have hmem := (runCommands_isPrefix net _).subset hsaid
      simp only [mailCommands, List.mem_append, List.mem_singleton,
        SmtpCommand.sendMessage.injEq] at hmem
      obtain (hmem | hmem) | hmem := hmem
      · split at hmem <;> simp at hmem
      · split at hmem <;> simp at hmem
      · exact hmem
    | _ => trivial

/-- What is not in a prefix of a list stands after it. -/
theorem prefix_of_cut {α : Type} {pre rest before after : List α} {x : α}
    (h : pre ++ rest = before ++ x :: after) (hx : x ∉ pre) : pre <+: before := by
  obtain ⟨as, rfl, -⟩ | ⟨bs, rfl, hrest⟩ := List.append_eq_append_iff.mp h
  · exact List.prefix_append _ _
  · cases bs with
    | nil => exact (List.append_nil before).symm ▸ List.prefix_rfl
    | cons y bs =>
      rw [List.cons_append, List.cons.injEq] at hrest
      rw [hrest.1] at hx
      exact absurd (List.mem_append_right _ List.mem_cons_self) hx

/-- With TLS, nothing secret is said before the connection is encrypted. -/
theorem tls_first (htls : settings.smtpUseTls = true) {n : Notification}
    {before after : List Outgoing} {c : SmtpCommand}
    (h : (n.deliver settings net).1 = before ++ .smtp c :: after) (hsecret : c.Secret) :
    .smtp .starttls ∈ before ∧ net.smtp .starttls = .ok := by
  have hmem : Outgoing.smtp c ∈ (n.deliver settings net).1 := by
    rw [h]
    exact List.mem_append_right _ List.mem_cons_self
  obtain ⟨hfalls, hsession⟩ := (smtp_mem_out settings net).mp hmem
  have hsaid := mem_smtpSession settings net hsession hsecret
  obtain ⟨cs, hcs⟩ : ∃ cs, mailCommands settings (n.mail settings) = .starttls :: cs := by
    unfold mailCommands
    rw [if_pos htls]
    exact ⟨_, rfl⟩
  rw [hcs, runCommands] at hsaid
  by_cases hok : net.smtp .starttls = .ok
  · refine ⟨?_, hok⟩
    rw [n.deliver_out settings net, mailOut, if_pos hfalls] at h
    obtain hs | ⟨bye, -, hs⟩ := smtpSession_said settings net (n.mail settings)
    · rw [hs, List.mem_singleton] at hsession
      rw [hsession] at hsecret
      exact hsecret.elim
    · -- The posts, the connection and the encryption come first.
      rw [hs, hcs, runCommands, hok] at h
      simp only [List.map_cons, List.cons_append, List.map_append] at h
      generalize hposts : (if isConfigured settings then
        [Outgoing.post (telegramPost settings n.text)] else []) = posts at h
      have hfirst : posts ++ [.smtp (.connect settings.smtpHost settings.smtpPort), .smtp .starttls] <+:
          before := by
        refine prefix_of_cut (by rw [List.append_assoc]; exact h) fun hin => ?_
        rcases List.mem_append.mp hin with hin | hin
        · rw [← hposts] at hin
          split at hin <;> simp at hin
        · simp only [List.mem_cons, Outgoing.smtp.injEq, List.not_mem_nil, or_false] at hin
          obtain rfl | rfl := hin <;> exact hsecret.elim
      exact hfirst.subset (by simp)
  · -- A command that fails is the last one.
    split at hsaid
    · exact absurd ‹_› hok
    · rw [List.mem_singleton] at hsaid
      rw [hsaid] at hsecret
      exact hsecret.elim

end Session

/-- **Delivery of a notification**, whatever the network answers: it counts as delivered exactly when
Telegram confirms it, or the mail server accepts every command and does not refuse the `QUIT`. Telegram
is told once, if it is configured, and the mail server only of what Telegram did not confirm. -/
theorem notification_delivery (settings : NotificationSettings) (net : Network) (n : Notification) :
    Delivery settings net n (n.deliver settings net).1 (n.deliver settings net).2 where
  delivered := n.deliver_ok settings net
  posted := by
    have hmails : (mailOut settings net n).filter (fun o => o matches .post _) = [] := by
      refine List.filter_eq_nil_iff.mpr fun o ho => ?_
      obtain ⟨-, c, -, rfl⟩ := (mem_mailOut settings net).mp ho
      exact Bool.false_ne_true
    rw [n.deliver_out settings net, List.filter_append, hmails, List.append_nil]
    split <;> rfl
  mailed := by
    simp only [smtp_mem_out, exists_and_left]
    refine and_iff_left ?_
    obtain hs | ⟨bye, -, hs⟩ := smtpSession_said settings net (n.mail settings) <;>
      exact ⟨.connect settings.smtpHost settings.smtpPort, by rw [hs]; simp⟩
  mail mail h := carries_of_deliver settings net h
  secured htls before c after h hsecret := tls_first settings net htls h hsecret

end MarketKill3r
