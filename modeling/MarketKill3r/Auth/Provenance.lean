import MarketKill3r.Auth.Changes

/-!
# Where sessions come from

In a run from the empty database, with login codes switched on, every refresh token leads back
through the rotations to a login verification, from there to a login with the user's password, and
from there to the approval of the user by a registration code.

* `Provenance`: the invariant, one statement for each table about the past of its rows.
* `auth_provenance`: the provenance of refresh tokens; each code is consumed at most once, and only
  by the endpoint of its own table.
-/

namespace MarketKill3r

open Sys (Happened)

variable {env : AuthEnv}

/-! ## Events -/

/-- The transition registers the user with this password. -/
def RegistersUser (userId password : String) (tr : AuthTransition) : Prop :=
  ∃ payload a, tr.label = .request (.register payload) a ∧ payload.password = password ∧
    (∀ u ∈ tr.pre.db.users, u.id ≠ userId) ∧ ∃ u ∈ tr.post.db.users, u.id = userId

/-- The transition approves the user by consuming an unused, unrevoked and unexpired registration
code that was issued for the user. -/
def ApprovesUser (env : AuthEnv) (userId : String) (tr : AuthTransition) : Prop :=
  ∃ email code a c, tr.label = .request (.verifyRegistration email code) a ∧
    c ∈ tr.pre.db.registrationCodes ∧ c.Matches env a.now userId code ∧
    { c with usedAt := some a.now } ∈ tr.post.db.registrationCodes

/-- The transition is a login with the password that the user was registered with, at a time when
the user had been approved. It creates the login code with this hash for the user. -/
def LogsIn (env : AuthEnv) (userId codeHash : String) (before : List AuthTransition)
    (tr : AuthTransition) : Prop :=
  ∃ email password a, tr.label = .request (.login email password) a ∧
    (∀ p ∈ tr.pre.db.loginOtps, p.codeHash ≠ codeHash) ∧
    (∃ p ∈ tr.post.db.loginOtps, p.codeHash = codeHash ∧ p.userId = userId) ∧
    (∃ u ∈ tr.pre.db.users, u.id = userId ∧ u.email = email ∧ u.isApproved = true) ∧
    Happened (fun _ => RegistersUser userId password) before ∧
    Happened (fun _ => ApprovesUser env userId) before

/-- The transition is a login verification that consumes a login code of the user, created by an
earlier login, and creates the refresh token with this `jti` for the user. -/
def VerifiesLogin (env : AuthEnv) (userId jti : String) (before : List AuthTransition)
    (tr : AuthTransition) : Prop :=
  ∃ email code a otp, tr.label = .request (.verifyLoginOtp email code) a ∧
    otp ∈ tr.pre.db.loginOtps ∧ otp.Matches env a.now userId code ∧
    { otp with usedAt := some a.now } ∈ tr.post.db.loginOtps ∧
    (∀ r ∈ tr.pre.db.refreshTokens, r.jti ≠ jti) ∧
    (∃ r ∈ tr.post.db.refreshTokens, r.jti = jti ∧ r.userId = userId) ∧
    Happened (LogsIn env userId otp.codeHash) before

/-! ## Rotation chains -/

/-- The row `j` was rotated into the row `j'` of the same user. -/
def Rotated (rows : List RefreshToken) (j j' : String) : Prop :=
  ∃ r ∈ rows, ∃ r' ∈ rows, r.jti = j ∧ r'.jti = j' ∧ r.replacedByJti = some j' ∧
    r'.userId = r.userId

/-- The row leads back through rotations to a row that a login verification created. -/
def Rooted (env : AuthEnv) (ts : List AuthTransition) (rows : List RefreshToken)
    (r : RefreshToken) : Prop :=
  ∃ root ∈ rows, root.userId = r.userId ∧
    Relation.ReflTransGen (Rotated rows) root.jti r.jti ∧
    Happened (VerifiesLogin env r.userId root.jti) ts

theorem Rotated.kept {rows rows' : List RefreshToken} (hk : RowsKept rows rows') {j j' : String}
    (h : Rotated rows j j') : Rotated rows' j j' := by
  obtain ⟨r, hr, r', hr', rfl, rfl, hrep, huser⟩ := h
  obtain ⟨x, hx, hxj, hxu, hxrep, -⟩ := hk r hr
  obtain ⟨x', hx', hxj', hxu', -, -⟩ := hk r' hr'
  exact ⟨x, hx, x', hx', hxj, hxj', hxrep _ hrep, by rw [hxu, hxu', huser]⟩

/-- Later transitions keep the roots. -/
theorem Rooted.kept {ts : List AuthTransition} {rows rows' : List RefreshToken}
    (hk : RowsKept rows rows') {r r' : RefreshToken} (hj : r'.jti = r.jti)
    (hu : r'.userId = r.userId) (h : Rooted env ts rows r) (us : List AuthTransition) :
    Rooted env (ts ++ us) rows' r' := by
  obtain ⟨root, hroot, huser, hchain, hpast⟩ := h
  obtain ⟨root', hroot', hrj, hru, -, -⟩ := hk root hroot
  refine ⟨root', hroot', by rw [hru, huser, hu], ?_, ?_⟩
  · rw [hrj, hj]
    exact Relation.ReflTransGen.mono (fun _ _ => Rotated.kept hk) _ _ hchain
  · rw [hrj, hu]
    exact hpast.append us

/-! ## The invariant -/

/-- The past of every row, and the tokens that were handed out. -/
structure Provenance (env : AuthEnv) (ts : List AuthTransition) (s : AuthState) : Prop where
  registered : ∀ u ∈ s.db.users, ∃ password salt,
    u.hashedPassword = env.hashPassword salt password ∧
      Happened (fun _ => RegistersUser u.id password) ts
  approved : ∀ u ∈ s.db.users, u.isApproved = true → Happened (fun _ => ApprovesUser env u.id) ts
  otps : ∀ p ∈ s.db.loginOtps, Happened (LogsIn env p.userId p.codeHash) ts
  tokens : ∀ r ∈ s.db.refreshTokens, Rooted env ts s.db.refreshTokens r
  unreplaced : ∀ r ∈ s.db.refreshTokens, r.revokedAt = none → r.replacedByJti = none
  issued : ∀ c ∈ s.issued, c.type = some "refresh" →
    ∃ r ∈ s.db.refreshTokens, c.jti = some r.jti ∧ c.sub = some r.userId

theorem Provenance.start : Provenance env [] .start where
  registered _ h := by cases h
  approved _ h := by cases h
  otps _ h := by cases h
  tokens _ h := by cases h
  unreplaced _ h := by cases h
  issued _ h := by cases h

theorem Provenance.sessions {ts : List AuthTransition} {s : AuthState} (h : Provenance env ts s) :
    Sessions s := ⟨h.unreplaced, h.issued⟩

/-- An administrator's switch changes nothing that the invariant speaks about. -/
theorem Provenance.switched {ts : List AuthTransition} {s s' : AuthState}
    (h : Provenance env ts s) (hsess : Sessions s') {userId : String} {active : Bool}
    (hdb : s'.db.toTables = { s.db.toTables with users := switchUser userId active s.db.users })
    (us : List AuthTransition) : Provenance env (ts ++ us) s' := by
  have hotps : s'.db.loginOtps = s.db.loginOtps := by rw [hdb]
  have hrows : s'.db.refreshTokens = s.db.refreshTokens := by rw [hdb]
  have husers : ∀ u' ∈ s'.db.users, ∃ u ∈ s.db.users, u'.id = u.id ∧
      u'.hashedPassword = u.hashedPassword ∧ u'.isApproved = u.isApproved := by
    intro u' hu'
    rw [hdb] at hu'
    obtain ⟨u, hu, rfl | rfl⟩ := mem_switchUser hu' <;> exact ⟨_, hu, rfl, rfl, rfl⟩
  exact {
    registered := fun u' hu' => by
      obtain ⟨u, hu, hid, hhash, -⟩ := husers u' hu'
      obtain ⟨password, salt, hp, hpast⟩ := h.registered u hu
      exact ⟨password, salt, hhash.trans hp, hid ▸ hpast.append us⟩
    approved := fun u' hu' happ => by
      obtain ⟨u, hu, hid, -, ha⟩ := husers u' hu'
      exact hid ▸ (h.approved u hu (ha ▸ happ)).append us
    otps := fun p hp => (h.otps p (hotps ▸ hp)).append us
    tokens := fun r hr => by
      rw [hrows] at hr ⊢
      obtain ⟨root, hroot, huser, hchain, hpast⟩ := h.tokens r hr
      exact ⟨root, hroot, huser, hchain, hpast.append us⟩
    unreplaced := hsess.unreplaced
    issued := hsess.issued }

section Request

variable {ts : List AuthTransition} {s s' : AuthState} {r : AuthRequest} {a : Ambient}
  {claims : List Claims} {o : Option AuthResponse}

theorem Provenance.registered_request (h : Provenance env ts s)
    (heff : AuthEffect env a s.db.toTables r s'.db.toTables claims) {u' : User}
    (hu' : u' ∈ s'.db.users) : ∃ password salt, u'.hashedPassword = env.hashPassword salt password ∧
      Happened (fun _ => RegistersUser u'.id password) (ts ++ [⟨s, .request r a, o, s'⟩]) := by
  obtain ⟨u, hu, hid, hhash, -, -⟩ | ⟨payload, rfl, rfl, husers⟩ := heff.user_cases hu'
  · obtain ⟨password, salt, hp, hpast⟩ := h.registered u hu
    exact ⟨password, salt, hhash.trans hp, hid ▸ hpast.append _⟩
  · have hids := s'.db.unique.ids
    rw [husers] at hids
    exact ⟨payload.password, a.salt, rfl,
      .last ⟨payload, a, rfl, rfl, ne_of_append_nodup hids, _, hu', rfl⟩⟩

theorem Provenance.approved_request (h : Provenance env ts s)
    (heff : AuthEffect env a s.db.toTables r s'.db.toTables claims) {u' : User}
    (hu' : u' ∈ s'.db.users) (happ : u'.isApproved = true) :
    Happened (fun _ => ApprovesUser env u'.id) (ts ++ [⟨s, .request r a, o, s'⟩]) := by
  obtain ⟨u, hu, hid, -, -, hcase⟩ | ⟨payload, -, rfl, -⟩ := heff.user_cases hu'
  · rw [hid]
    obtain hold | ⟨email, code, c, rfl, hc, hmatch, hmark⟩ := hcase happ
    · exact (h.approved u hu hold).append _
    · exact .last ⟨email, code, a, c, rfl, hc, hmatch, hmark⟩
  · cases happ

theorem Provenance.otps_request (h : Provenance env ts s)
    (heff : AuthEffect env a s.db.toTables r s'.db.toTables claims) {p' : LoginOTP}
    (hp' : p' ∈ s'.db.loginOtps) :
    Happened (LogsIn env p'.userId p'.codeHash) (ts ++ [⟨s, .request r a, o, s'⟩]) := by
  obtain ⟨p, hp, huser, hhash⟩ | ⟨email, password, user, i, rfl, huser, hpw, happ, -, rfl, hotps⟩ :=
    heff.loginOtp_cases hp'
  · rw [huser, hhash]
    exact (h.otps p hp).append _
  · have hhashes := s'.db.unique.otpHashes
    rw [hotps] at hhashes
    obtain ⟨hmem, hemail⟩ := userByEmail_spec huser
    -- The password that verifies is the one of the registration.
    obtain ⟨registered, salt, hhash, hpast⟩ := h.registered user hmem
    rw [hhash, env.verify_hash] at hpw
    subst hpw
    exact .last ⟨email, password, a, rfl, ne_of_append_nodup hhashes, ⟨_, hp', rfl, rfl⟩,
      ⟨user, hmem, rfl, hemail, happ⟩, hpast, h.approved user hmem happ⟩

theorem Provenance.tokens_request (h : Provenance env ts s) (hotp : env.loginOtpEnabled = true)
    (hunf : Unforged env ⟨s, .request r a, o, s'⟩)
    (heff : AuthEffect env a s.db.toTables r s'.db.toTables claims) {x' : RefreshToken}
    (hx' : x' ∈ s'.db.refreshTokens) :
    Rooted env (ts ++ [⟨s, .request r a, o, s'⟩]) s'.db.refreshTokens x' := by
  have hkept := heff.refreshTokens_kept s.db.unique h.unreplaced
  obtain ⟨x, hx, hj, hu, -⟩ | ⟨userId, rfl, hsource⟩ := heff.refreshToken_cases hx'
  · exact (h.tokens x hx).kept hkept hj hu _
  cases hsource with
  | login email password user huser happ hact hoff => rw [hotp] at hoff; cases hoff
  | otp email code user otp huser hmem hmatch hmark hrows =>
    have hjtis := s'.db.unique.jtis
    rw [hrows] at hjtis
    have hlogin := h.otps otp hmem
    rw [hmatch.user] at hlogin
    exact ⟨_, hx', rfl, .refl, .last ⟨email, code, a, otp, rfl, hmem, hmatch, hmark,
      ne_of_append_nodup hjtis, ⟨_, hx', rfl, rfl⟩, hlogin⟩⟩
  | rotation refreshToken record user hcheck hrotated =>
    have howner := h.sessions.refresh_owner hunf hcheck
    -- The new row has the root of the row that was rotated into it.
    obtain ⟨root, hroot, huser, hchain, hpast⟩ :=
      (h.tokens record hcheck.record_mem).kept hkept rfl rfl [⟨s, .request (.refresh refreshToken) a, o, s'⟩]
    refine ⟨root, hroot, huser.trans howner, hchain.tail ?_, ?_⟩
    · exact ⟨_, hrotated, _, hx', rfl, rfl, rfl, howner.symm⟩
    · rw [howner] at hpast
      exact hpast

end Request

/-- Every step keeps the invariant. -/
theorem Provenance.step {ts : List AuthTransition} {s s' : AuthState} {l : AuthLabel}
    {o : Option AuthResponse} (h : Provenance env ts s) (hotp : env.loginOtpEnabled = true)
    (hunf : Unforged env ⟨s, l, o, s'⟩) (hst : authStep env s l = some (s', o)) :
    Provenance env (ts ++ [⟨s, l, o, s'⟩]) s' := by
  have hsess := h.sessions.step hst
  obtain ⟨r, a, claims, rfl, heff, -, -⟩ | ⟨userId, active, rfl, -, -, hdb⟩ := authStep_cases hst
  · exact {
      registered := fun _ hu => h.registered_request heff hu
      approved := fun _ hu happ => h.approved_request heff hu happ
      otps := fun _ hp => h.otps_request heff hp
      tokens := fun _ hx => h.tokens_request hotp hunf heff hx
      unreplaced := hsess.unreplaced
      issued := hsess.issued }
  · exact h.switched hsess hdb _

/-! ## Consumed codes -/

/-- The transition changes `used_at` in the row of the table with this hash. -/
def Consumes (table : Tables → List CodeRow) (codeHash : String) (tr : AuthTransition) : Prop :=
  ∃ c ∈ table tr.pre.db.toTables, ∃ c' ∈ table tr.post.db.toTables,
    c.codeHash = codeHash ∧ c'.codeHash = codeHash ∧ c'.usedAt ≠ c.usedAt

/-- At most one transition consumes the row. -/
def ConsumedOnce (table : Tables → List CodeRow) (codeHash : String) (ts : List AuthTransition) :
    Prop :=
  ∀ before tr mid tr' after, ts = before ++ tr :: (mid ++ tr' :: after) →
    Consumes table codeHash tr → ¬ Consumes table codeHash tr'

/-- A table whose rows stay, and in which only requests to one endpoint mark rows, unused ones. -/
structure CodeTable (env : AuthEnv) (table : Tables → List CodeRow)
    (endpoint : AuthRequest → Prop) : Prop where
  nodup : ∀ db : AuthDb, ((table db.toTables).map (·.codeHash)).Nodup
  step : ∀ s l o s', authStep env s l = some (s', o) → ∀ c ∈ table s.db.toTables,
    ∃ c' ∈ table s'.db.toTables, c'.codeHash = c.codeHash ∧ (c'.usedAt = c.usedAt ∨
      (c.usedAt = none ∧ c'.usedAt ≠ none ∧ ∃ r a, l = .request r a ∧ endpoint r))

theorem registrationCodes_codeTable :
    CodeTable env Tables.registrationCodes fun r => ∃ email code, r = .verifyRegistration email code
    where
  nodup db := db.unique.registrationHashes
  step s l o s' hst c hc := by
    obtain ⟨r, a, claims, rfl, heff, -⟩ | ⟨userId, active, rfl, -, -, hdb⟩ := authStep_cases hst
    · obtain ⟨c', hc', hh, hused⟩ := heff.registrationCode_used s.db.unique hc
      exact ⟨c', hc', hh, hused.imp_right fun ⟨h1, h2, h3⟩ => ⟨h1, h2, r, a, rfl, h3⟩⟩
    · exact ⟨c, by rw [hdb]; exact hc, rfl, Or.inl rfl⟩

theorem loginOtps_codeTable :
    CodeTable env Tables.loginOtps fun r => ∃ email code, r = .verifyLoginOtp email code where
  nodup db := db.unique.otpHashes
  step s l o s' hst c hc := by
    obtain ⟨r, a, claims, rfl, heff, -⟩ | ⟨userId, active, rfl, -, -, hdb⟩ := authStep_cases hst
    · obtain ⟨c', hc', hh, hused⟩ := heff.loginOtp_used s.db.unique hc
      exact ⟨c', hc', hh, hused.imp_right fun ⟨h1, h2, h3⟩ => ⟨h1, h2, r, a, rfl, h3⟩⟩
    · exact ⟨c, by rw [hdb]; exact hc, rfl, Or.inl rfl⟩

namespace CodeTable

variable {table : Tables → List CodeRow} {endpoint : AuthRequest → Prop} {codeHash : String}

/-- A consumed row was unused, is used afterwards, and the request is one to the table's endpoint. -/
theorem consumes (h : CodeTable env table endpoint) {tr : AuthTransition}
    (hst : authStep env tr.pre tr.label = some (tr.post, tr.out)) (hc : Consumes table codeHash tr) :
    (∃ c ∈ table tr.pre.db.toTables, c.codeHash = codeHash ∧ c.usedAt = none) ∧
      (∃ c' ∈ table tr.post.db.toTables, c'.codeHash = codeHash ∧ c'.usedAt ≠ none) ∧
      ∃ r a, tr.label = .request r a ∧ endpoint r := by
  obtain ⟨c, hc, c', hc', rfl, hh, hne⟩ := hc
  obtain ⟨c'', hc'', hh', hcase⟩ := h.step _ _ _ _ hst c hc
  obtain rfl := List.inj_on_of_nodup_map (h.nodup _) hc' hc'' (hh.trans hh'.symm)
  obtain hsame | ⟨hnone, hsome, hlabel⟩ := hcase
  · exact absurd hsame hne
  · exact ⟨⟨c, hc, rfl, hnone⟩, ⟨c', hc', hh, hsome⟩, hlabel⟩

/-- A used row stays used. -/
theorem used_stays (h : CodeTable env table endpoint) {s s' : AuthState} {l : AuthLabel}
    {o : Option AuthResponse} (hst : authStep env s l = some (s', o))
    (hc : ∃ c ∈ table s.db.toTables, c.codeHash = codeHash ∧ c.usedAt ≠ none) :
    ∃ c ∈ table s'.db.toTables, c.codeHash = codeHash ∧ c.usedAt ≠ none := by
  obtain ⟨c, hc, rfl, hused⟩ := hc
  obtain ⟨c', hc', hh, hsame | ⟨hnone, -⟩⟩ := h.step _ _ _ _ hst c hc
  · exact ⟨c', hc', hh, by rw [hsame]; exact hused⟩
  · exact absurd hnone hused

/-- A row that was consumed in the past is used. -/
theorem used_of_past (h : CodeTable env table endpoint) {s₀ s : AuthState}
    {ts : List AuthTransition} (hrun : Sys.Run (authStep env) s₀ ts s) {tr : AuthTransition}
    (htr : tr ∈ ts) (hc : Consumes table codeHash tr) :
    ∃ c ∈ table s.db.toTables, c.codeHash = codeHash ∧ c.usedAt ≠ none := by
  refine hrun.history (I := fun us s => tr ∈ us →
    ∃ c ∈ table s.db.toTables, c.codeHash = codeHash ∧ c.usedAt ≠ none) (fun hnil => by cases hnil)
    (fun us s l o s' _ hst _ ih hmem => ?_) htr
  obtain hmem | hmem := List.mem_append.mp hmem
  · exact h.used_stays hst (ih hmem)
  · obtain rfl := List.mem_singleton.mp hmem
    exact (h.consumes hst hc).2.1

theorem consumedOnce (h : CodeTable env table endpoint) {s₀ s : AuthState}
    {ts : List AuthTransition} (hrun : Sys.Run (authStep env) s₀ ts s) :
    ConsumedOnce table codeHash ts := by
  rintro before tr mid tr' after rfl hc hc'
  rw [← List.cons_append, ← List.append_assoc] at hrun
  obtain ⟨hpast, hst⟩ := hrun.cut
  obtain ⟨c, hmem, hh, hused⟩ := h.used_of_past hpast (by simp) hc
  obtain ⟨⟨c', hmem', hh', hunused⟩, -⟩ := h.consumes hst hc'
  obtain rfl := List.inj_on_of_nodup_map (h.nodup _) hmem hmem' (hh.trans hh'.symm)
  exact hused hunused

end CodeTable

/-! ## Provenance of refresh tokens -/

/-- **Authentication provenance.** In a run from the empty database, with login codes switched on and
unforgeable tokens, every refresh token leads back to a login verification, a login with the user's
password and an approval, each for its own user. Each code is consumed at most once, and only by the
endpoint of its table. -/
theorem auth_provenance {s : AuthState} {ts : List AuthTransition}
    (hotp : env.loginOtpEnabled = true) (hrun : Sys.Run (authStep env) .start ts s)
    (hunf : ∀ tr ∈ ts, Unforged env tr) :
    (∀ r ∈ s.db.refreshTokens, Rooted env ts s.db.refreshTokens r) ∧
      (∀ codeHash, ConsumedOnce Tables.registrationCodes codeHash ts ∧
        ConsumedOnce Tables.loginOtps codeHash ts) ∧
      ∀ tr ∈ ts, ∀ codeHash,
        (Consumes Tables.registrationCodes codeHash tr →
          ∃ email code a, tr.label = .request (.verifyRegistration email code) a) ∧
        (Consumes Tables.loginOtps codeHash tr →
          ∃ email code a, tr.label = .request (.verifyLoginOtp email code) a) := by
  refine ⟨?_, fun codeHash => ⟨registrationCodes_codeTable.consumedOnce hrun,
    loginOtps_codeTable.consumedOnce hrun⟩, fun tr htr codeHash => ?_⟩
  · have hinv : Provenance env ts s := hrun.history (I := Provenance env) .start
      fun us s l o s' _ hst hsub h => h.step hotp (hunf _ (hsub _ (by simp))) hst
    exact hinv.tokens
  · obtain ⟨before, after, rfl⟩ := List.append_of_mem htr
    obtain ⟨-, hst⟩ := hrun.cut
    constructor
    · intro hc
      obtain ⟨-, -, r, a, hlabel, email, code, rfl⟩ := registrationCodes_codeTable.consumes hst hc
      exact ⟨email, code, a, hlabel⟩
    · intro hc
      obtain ⟨-, -, r, a, hlabel, email, code, rfl⟩ := loginOtps_codeTable.consumes hst hc
      exact ⟨email, code, a, hlabel⟩

theorem demo_provenance : ∃ ts s, Sys.Run (authStep (demoAuthEnv true)) .start ts s ∧
    s.db.refreshTokens.map (·.jti) = ["j1", "j2"] ∧
    (∀ r ∈ s.db.refreshTokens, Rooted (demoAuthEnv true) ts s.db.refreshTokens r) ∧
      (∀ codeHash, ConsumedOnce Tables.registrationCodes codeHash ts ∧
        ConsumedOnce Tables.loginOtps codeHash ts) ∧
      ∀ tr ∈ ts, ∀ codeHash,
        (Consumes Tables.registrationCodes codeHash tr →
          ∃ email code a, tr.label = .request (.verifyRegistration email code) a) ∧
        (Consumes Tables.loginOtps codeHash tr →
          ∃ email code a, tr.label = .request (.verifyLoginOtp email code) a) := by
  obtain ⟨ts, s, hrun, hunf, hs⟩ := Sys.exists_run (authStep (demoAuthEnv true)) .start
    (demoLogin ++ [.request (.verifyLoginOtp "demo@example.com" "jklmnp") (demoAmbient "" "j1"),
      .request (.refresh "refresh.u1.j1") (demoAmbient "" "j2")])
    (fun ts s => (∀ tr ∈ ts, Unforged (demoAuthEnv true) tr) ∧
      s.db.refreshTokens.map (·.jti) = ["j1", "j2"]) (by decide +kernel)
  exact ⟨ts, s, hrun, hs, auth_provenance rfl hrun hunf⟩

end MarketKill3r
