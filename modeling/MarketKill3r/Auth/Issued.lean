import MarketKill3r.Auth.Changes
import MarketKill3r.Lib.UniqueTable

/-!
# Codes that are sent

A request that draws a code stores its hash and hands the code to the notification service. What is
stored of a code never changes but for its use and its revocation, so that the code that was sent keeps
its meaning.

* `Issued`, `issued_of_notification`: for whom a request sends a code.
* `CodesKept`, `authStep_codesKept`: what every step keeps of the rows of the codes.
* `Redeems`, `Sent.redeems`: **what a code that was sent is good for**: it opens the account of its
  user, as long as it is live.
-/

namespace MarketKill3r

variable {env : AuthEnv} {a : Ambient} {r : AuthRequest} {t t' : Tables}

/-! ## Who gets a code -/

/-- The request sends the code of a row that it has stored: to a new user, to one who waits for the
approval, or to an approved and active user who gave the password. -/
inductive Issued (env : AuthEnv) (a : Ambient) (t t' : Tables) : AuthRequest → Notification → Prop
  | registered (payload : UserCreate) (i : Nat) (hnew : t.userByEmail payload.email = none)
      (huser : newUser env a payload ∈ t'.users)
      (hrow : codeRow env a a.userId env.registrationCodeExpireMinutes i ∈ t'.registrationCodes) :
      Issued env a t t' (.register payload)
        (.registrationCode payload.email (a.codes i) env.registrationCodeExpireMinutes)
  | resent (email : String) (user : User) (i : Nat) (huser : t.userByEmail email = some user)
      (hpending : user.isApproved = false) (hkept : user ∈ t'.users)
      (hrow : codeRow env a user.id env.registrationCodeExpireMinutes i ∈ t'.registrationCodes) :
      Issued env a t t' (.resendRegistrationNotice email)
        (.registrationCode user.email (a.codes i) env.registrationCodeExpireMinutes)
  | otpSent (email password : String) (user : User) (i : Nat)
      (huser : t.userByEmail email = some user)
      (hpw : env.verifyPassword password user.hashedPassword = true)
      (happ : user.isApproved = true) (hact : user.isActive = true) (hkept : user ∈ t'.users)
      (hrow : codeRow env a user.id env.loginOtpExpireMinutes i ∈ t'.loginOtps) :
      Issued env a t t' (.login email password)
        (.loginOtp user.email (a.codes i) env.loginOtpExpireMinutes)

theorem createAndSendRegistrationCode_notification {n : Nat} {user : User} {db : AuthDb}
    {success : AuthResponse} {note : Notification}
    (h : (createAndSendRegistrationCode env a n user db success).notification = some note) :
    ∃ i, note = .registrationCode user.email (a.codes i) env.registrationCodeExpireMinutes ∧
      codeRow env a user.id env.registrationCodeExpireMinutes i ∈
        (createAndSendRegistrationCode env a n user db success).db.registrationCodes ∧
      (createAndSendRegistrationCode env a n user db success).db.users = db.users := by
  simp only [createAndSendRegistrationCode] at h ⊢
  split at h
  · cases h
  · rename_i db' code hloop
    obtain ⟨j, base, hbase, rfl, hdb⟩ := codeLoop_spec
      (fun _ _ _ hc => (AuthDb.commit_eq_some.mp hc).2) hloop
    refine ⟨j, (Option.some.inj h).symm, ?_, ?_⟩
    · rw [hdb]
      exact List.mem_append_right _ (List.mem_singleton.mpr rfl)
    · rw [hdb]
      obtain rfl | rfl := hbase <;> rfl

theorem sendLoginOtp_notification {user : User} {db : AuthDb} {note : Notification}
    (h : (sendLoginOtp env a user db).notification = some note) :
    ∃ i, note = .loginOtp user.email (a.codes i) env.loginOtpExpireMinutes ∧
      codeRow env a user.id env.loginOtpExpireMinutes i ∈ (sendLoginOtp env a user db).db.loginOtps ∧
      (sendLoginOtp env a user db).db.users = db.users := by
  simp only [sendLoginOtp] at h ⊢
  split at h
  · cases h
  · rename_i db' code hloop
    obtain ⟨j, base, hbase, rfl, hdb⟩ := codeLoop_spec
      (fun _ _ _ hc => (AuthDb.commit_eq_some.mp hc).2) hloop
    refine ⟨j, (Option.some.inj h).symm, ?_, ?_⟩
    · rw [hdb]
      exact List.mem_append_right _ (List.mem_singleton.mpr rfl)
    · rw [hdb]
      obtain rfl | rfl := hbase <;> rfl

theorem issueTokens_notification (env : AuthEnv) (a : Ambient) (n : Nat) (user : User) (db : AuthDb) :
    (issueTokens env a n user db).notification = none := by
  simp only [issueTokens]
  split <;> rfl

/-- **For whom a request sends a code.** -/
theorem issued_of_notification {db : AuthDb} {note : Notification}
    (h : (authHandle env a db r).notification = some note) :
    Issued env a db.toTables (authHandle env a db r).db.toTables r note := by
  cases r with
  | register payload =>
    simp only [authHandle, register] at h ⊢
    cases hnew : db.userByEmail payload.email with
    | some u => simp only [hnew] at h; cases h
    | none =>
      cases hc : AuthDb.commit (a.commitFails 0)
          { db.toTables with users := db.users ++ [newUser env a payload] } with
      | none => simp only [hnew, hc] at h; cases h
      | some db' =>
        simp only [hnew, hc] at h ⊢
        obtain ⟨i, rfl, hrow, husers⟩ := createAndSendRegistrationCode_notification h
        refine .registered payload i hnew ?_ hrow
        rw [husers, (AuthDb.commit_eq_some.mp hc).2]
        exact List.mem_append_right _ (List.mem_singleton.mpr rfl)
  | resendRegistrationNotice email =>
    simp only [authHandle, resendRegistrationNotice] at h ⊢
    cases huser : db.userByEmail email with
    | none => simp only [huser] at h; cases h
    | some user =>
      cases happ : user.isApproved with
      | true => simp only [huser, happ] at h; cases h
      | false =>
        simp only [huser, happ, Bool.false_eq_true, if_false] at h ⊢
        obtain ⟨i, rfl, hrow, husers⟩ := createAndSendRegistrationCode_notification h
        exact .resent email user i huser happ (husers ▸ (userByEmail_spec huser).1) hrow
  | login email password =>
    simp only [authHandle, login] at h ⊢
    cases huser : db.userByEmail email with
    | none => simp only [huser] at h; cases h
    | some user =>
      cases hpw : env.verifyPassword password user.hashedPassword with
      | false => simp only [huser, hpw] at h; cases h
      | true =>
        cases happ : user.isApproved with
        | false => simp only [huser, hpw, happ] at h; cases h
        | true =>
          cases hact : user.isActive with
          | false => simp only [huser, hpw, happ, hact] at h; cases h
          | true =>
            cases hotp : env.loginOtpEnabled with
            | false =>
              simp only [huser, hpw, happ, hact, hotp, Bool.not_true, Bool.not_false,
                Bool.false_eq_true, if_false, if_true, issueTokens_notification] at h
              cases h
            | true =>
              simp only [huser, hpw, happ, hact, hotp, Bool.not_true, Bool.false_eq_true,
                if_false] at h ⊢
              obtain ⟨i, rfl, hrow, husers⟩ := sendLoginOtp_notification h
              exact .otpSent email password user i huser hpw happ hact
                (husers ▸ (userByEmail_spec huser).1) hrow
  | verifyRegistration email code =>
    simp only [authHandle, verifyRegistration] at h
    repeat' split at h
    all_goals cases h
  | verifyLoginOtp email code =>
    simp only [authHandle, verifyLoginOtp, writeLoginOtp] at h
    split at h
    · cases h
    · split at h
      · cases h
      · rw [issueTokens_notification] at h
        cases h
  | refresh refreshToken =>
    simp only [authHandle, refresh, writeRefresh] at h
    repeat' split at h
    all_goals cases h
  | logout bearer refreshToken =>
    simp only [authHandle, logout] at h
    repeat' split at h
    all_goals cases h

/-! ## What is kept -/

/-- Every row is still there, for the same user and until the same time. -/
def CodesKept (rows rows' : List CodeRow) : Prop :=
  ∀ c ∈ rows, ∃ c' ∈ rows', c'.codeHash = c.codeHash ∧ c'.userId = c.userId ∧
    c'.expiresAt = c.expiresAt

theorem CodesKept.refl (rows : List CodeRow) : CodesKept rows rows :=
  fun c hc => ⟨c, hc, rfl, rfl, rfl⟩

theorem CodesKept.append {rows rows' : List CodeRow} (h : CodesKept rows rows')
    (added : List CodeRow) : CodesKept rows (rows' ++ added) := by
  intro c hc
  obtain ⟨c', hc', hsame⟩ := h c hc
  exact ⟨c', List.mem_append_left _ hc', hsame⟩

theorem CodesKept.useCode (now : Int) (codeHash : String) (rows : List CodeRow) :
    CodesKept rows (useCode now codeHash rows) := by
  intro c hc
  refine ⟨_, List.mem_map_of_mem hc, ?_⟩
  split <;> exact ⟨rfl, rfl, rfl⟩

theorem CodesKept.revokeLiveCodes (userId : String) (t : Tables) :
    CodesKept t.registrationCodes (revokeLiveCodes userId t).registrationCodes := by
  intro c hc
  refine ⟨_, List.mem_map_of_mem hc, ?_⟩
  split <;> exact ⟨rfl, rfl, rfl⟩

theorem NewRegistrationCode.codesKept {userId : String} (h : NewRegistrationCode env a userId t t') :
    CodesKept t.registrationCodes t'.registrationCodes ∧ CodesKept t.loginOtps t'.loginOtps := by
  refine ⟨?_, h.frame.2.1 ▸ .refl _⟩
  obtain ⟨base, i, rfl | rfl, rfl⟩ := h
  · exact (CodesKept.refl _).append _
  · exact (CodesKept.revokeLiveCodes userId t).append _

theorem AuthEffect.codesKept {claims : List Claims} (h : AuthEffect env a t r t' claims) :
    CodesKept t.registrationCodes t'.registrationCodes ∧ CodesKept t.loginOtps t'.loginOtps := by
  cases h with
  | registeredWithCode payload _ hnew hcode => exact hcode.codesKept
  | resent email user _ huser hpending hcode => exact hcode.codesKept
  | approved email code user c huser hmem hc => exact ⟨.useCode _ _ _, .refl _⟩
  | otpSent email password user i huser hpw happ hact => exact ⟨.refl _, (CodesKept.refl _).append _⟩
  | otpSpent email code user otp huser hmem hotp => exact ⟨.refl _, .useCode _ _ _⟩
  | otpVerified email code user otp huser hmem hotp => exact ⟨.refl _, .useCode _ _ _⟩
  | _ => exact ⟨.refl _, .refl _⟩

/-- Users keep their address. -/
def EmailsKept (users users' : List User) : Prop :=
  ∀ u ∈ users, ∃ u' ∈ users', u'.id = u.id ∧ u'.email = u.email

theorem AuthEffect.emailsKept {claims : List Claims} (h : AuthEffect env a t r t' claims) :
    EmailsKept t.users t'.users := by
  intro u hu
  cases h with
  | registered payload hnew => exact ⟨u, List.mem_append_left _ hu, rfl, rfl⟩
  | registeredWithCode payload _ hnew hcode =>
    exact ⟨u, hcode.frame.1 ▸ List.mem_append_left _ hu, rfl, rfl⟩
  | approved email code user c huser hmem hc =>
    refine ⟨_, List.mem_map_of_mem hu, ?_⟩
    split <;> exact ⟨rfl, rfl⟩
  | resent email user _ huser hpending hcode => exact ⟨u, hcode.frame.1 ▸ hu, rfl, rfl⟩
  | _ => exact ⟨u, hu, rfl, rfl⟩

/-- **What a step keeps** of codes and addresses. -/
theorem authStep_codesKept {s s' : AuthState} {l : AuthLabel} {o : Option AuthResponse}
    (h : authStep env s l = some (s', o)) :
    CodesKept s.db.registrationCodes s'.db.registrationCodes ∧
      CodesKept s.db.loginOtps s'.db.loginOtps ∧ EmailsKept s.db.users s'.db.users := by
  obtain ⟨r, a, claims, rfl, heff, -⟩ | ⟨userId, active, rfl, -, -, hdb⟩ := authStep_cases h
  · exact ⟨heff.codesKept.1, heff.codesKept.2, heff.emailsKept⟩
  · rw [hdb]
    refine ⟨.refl _, .refl _, fun u hu => ⟨_, List.mem_map_of_mem hu, ?_⟩⟩
    split <;> exact ⟨rfl, rfl⟩

/-! ## Redeeming a code -/

/-- The row of a code that was sent to the owner of this address. -/
structure SentRow (env : AuthEnv) (users : List User) (rows : List CodeRow) (email code : String)
    (c : CodeRow) : Prop where
  mem : c ∈ rows
  hash : c.codeHash = env.hashCode code
  owner : ∃ u ∈ users, u.id = c.userId ∧ u.email = email

theorem SentRow.kept {users users' : List User} {rows rows' : List CodeRow} {email code : String}
    {c : CodeRow} (h : SentRow env users rows email code c) (hrows : CodesKept rows rows')
    (husers : EmailsKept users users') : ∃ c', SentRow env users' rows' email code c' := by
  obtain ⟨c', hc', hhash, huser, -⟩ := hrows c h.mem
  obtain ⟨u, hu, hid, hemail⟩ := h.owner
  obtain ⟨u', hu', hid', hemail'⟩ := husers u hu
  exact ⟨c', hc', hhash.trans h.hash, u', hu', (hid'.trans hid).trans huser.symm,
    hemail'.trans hemail⟩

/-- The lookups of a verification find the row exactly when its owner presents the code in time. -/
theorem SentRow.matchingCode_iff {db : AuthDb} {rows : List CodeRow} {email code : String}
    {c : CodeRow} (h : SentRow env db.users rows email code c)
    (hnodup : (rows.map (·.codeHash)).Nodup) (now : Int) {email' code' : String}
    (hcode : env.hashCode code' = env.hashCode code) :
    (∃ user m, db.userByEmail email' = some user ∧ matchingCode env now user code' rows = some m) ↔
      email' = email ∧ c.live = true ∧ now < c.expiresAt := by
  obtain ⟨u, hu, hid, hemail⟩ := h.owner
  constructor
  · rintro ⟨user, m, huser, hm⟩
    obtain ⟨hmem, hmatch⟩ := matchingCode_spec hm
    obtain ⟨humem, huemail⟩ := userByEmail_spec huser
    have hsame : m = c := List.inj_on_of_nodup_map hnodup hmem h.mem
      (hmatch.hash.trans (hcode.trans h.hash.symm))
    subst hsame
    have huu : user = u := List.inj_on_of_nodup_map db.unique.ids humem hu
      (hmatch.user.symm.trans hid.symm)
    refine ⟨by rw [← huemail, huu, hemail], ?_, hmatch.unexpired⟩
    simp [CodeRow.live, hmatch.unused, hmatch.unrevoked]
  · rintro ⟨rfl, hlive, hnow⟩
    have huser : db.userByEmail email' = some u :=
      (UniqueTable.find?_eq_some_iff ⟨db.users, db.unique.emails⟩).mpr ⟨hu, hemail⟩
    have hfound : (matchingCode env now u code' rows).isSome = true := by
      unfold matchingCode
      rw [List.find?_isSome]
      refine ⟨c, List.mem_filter.mpr ⟨h.mem, ?_⟩, ?_⟩
      · simp [hid, hlive, hnow]
      · simp only [AuthEnv.codesMatch, hcode, h.hash, decide_true]
    obtain ⟨m, hm⟩ := Option.isSome_iff_exists.mp hfound
    exact ⟨u, m, huser, hm⟩

theorem useCode_hashes (now : Int) (codeHash : String) (rows : List CodeRow) :
    (useCode now codeHash rows).map (·.codeHash) = rows.map (·.codeHash) := by
  rw [useCode, List.map_map]
  refine List.map_congr_left fun c _ => ?_
  simp only [Function.comp_apply]
  split <;> rfl

theorem approveUser_keys (userId : String) (users : List User) :
    (approveUser userId users).map (·.id) = users.map (·.id) ∧
      (approveUser userId users).map (·.email) = users.map (·.email) := by
  unfold approveUser
  rw [List.map_map, List.map_map]
  constructor <;> refine List.map_congr_left fun u _ => ?_ <;> simp only [Function.comp_apply] <;>
    split <;> rfl

/-- A commit of tables whose unique columns are in order. -/
theorem AuthDb.exists_commit {fails : Bool} {t : Tables} (hworks : fails = false) (ht : t.Unique) :
    ∃ db, AuthDb.commit fails t = some db := by
  unfold AuthDb.commit
  exact ⟨_, dif_pos ⟨hworks, ht⟩⟩

/-- The answer of a registration that is approved. -/
def approvedResponse : AuthResponse :=
  .status 200 "approved" (some "Account approved. You can now log in.")

/-- `verify_registration` on a working database. -/
theorem verifyRegistration_iff {db : AuthDb} (hworks : a.commitFails 0 = false) (email code : String) :
    (verifyRegistration env a email code db).response = approvedResponse ↔
      ∃ user m, db.userByEmail email = some user ∧
        matchingCode env a.now user code db.registrationCodes = some m := by
  unfold verifyRegistration
  cases huser : db.userByEmail email with
  | none => simp [AuthDb.answer, approvedResponse]
  | some user =>
    cases hm : matchingCode env a.now user code db.registrationCodes with
    | none => simp [hm, AuthDb.answer, approvedResponse]
    | some m =>
      obtain ⟨hids, hemails⟩ := approveUser_keys user.id db.users
      obtain ⟨db', hc⟩ := AuthDb.exists_commit (t := { db.toTables with
          registrationCodes := useCode a.now m.codeHash db.registrationCodes
          users := approveUser user.id db.users }) hworks
        ⟨hids ▸ db.unique.ids, hemails ▸ db.unique.emails,
          (useCode_hashes a.now m.codeHash db.registrationCodes) ▸ db.unique.registrationHashes,
          db.unique.otpHashes, db.unique.jtis⟩
      simp only [hm, hc]
      exact iff_of_true rfl ⟨user, m, rfl, hm⟩

/-- `verify_login_otp` on a working database, with a fresh `jti`. -/
theorem verifyLoginOtp_iff {db : AuthDb} (hworks : ∀ n, a.commitFails n = false)
    (hfresh : a.jti ∉ db.refreshTokens.map (·.jti)) (email code : String) :
    (∃ access refresh user, (verifyLoginOtp env a email code db).response =
        .tokens access refresh "bearer" user) ↔
      ∃ user m, db.userByEmail email = some user ∧
        matchingCode env a.now user code db.loginOtps = some m := by
  unfold verifyLoginOtp readLoginOtp
  cases huser : db.userByEmail email with
  | none => simp [AuthDb.answer, invalidOtp]
  | some user =>
    cases hm : matchingCode env a.now user code db.loginOtps with
    | none => simp [hm, AuthDb.answer, invalidOtp]
    | some m =>
      obtain ⟨db', hc⟩ := AuthDb.exists_commit (t := { db.toTables with
          loginOtps := useCode a.now m.codeHash db.loginOtps }) (hworks 0)
        ⟨db.unique.ids, db.unique.emails, db.unique.registrationHashes,
          (useCode_hashes a.now m.codeHash db.loginOtps) ▸ db.unique.otpHashes, db.unique.jtis⟩
      have hdb' := (AuthDb.commit_eq_some.mp hc).2
      have hjtis : (db'.refreshTokens ++ [refreshRow env a user.id]).map (·.jti) =
          db.refreshTokens.map (·.jti) ++ [a.jti] := by
        rw [hdb', List.map_append]
        rfl
      obtain ⟨db'', hc'⟩ := AuthDb.exists_commit (t := { db'.toTables with
          refreshTokens := db'.refreshTokens ++ [refreshRow env a user.id] }) (hworks 1)
        ⟨db'.unique.ids, db'.unique.emails, db'.unique.registrationHashes, db'.unique.otpHashes, by
          rw [hjtis, ← List.concat_eq_append, List.nodup_concat]
          exact ⟨hfresh, db.unique.jtis⟩⟩
      simp only [refreshRow] at hc'
      simp only [hm, Option.map_some, writeLoginOtp, hc, issueTokens, createRefreshToken, hc']
      exact iff_of_true ⟨_, _, _, rfl⟩ ⟨user, m, rfl, hm⟩

/-- **What a code that was sent is good for**: the verification of its endpoint succeeds, on a working
database, exactly for the address that it was sent for, while the row is live and not expired. -/
def Redeems (env : AuthEnv) (db : AuthDb) : Notification → Prop
  | .registrationCode email code _ => ∃ c, SentRow env db.users db.registrationCodes email code c ∧
      ∀ a email' code', a.commitFails 0 = false → env.hashCode code' = env.hashCode code →
        ((verifyRegistration env a email' code' db).response = approvedResponse ↔
          email' = email ∧ c.live = true ∧ a.now < c.expiresAt)
  | .loginOtp email code _ => ∃ c, SentRow env db.users db.loginOtps email code c ∧
      ∀ a email' code', (∀ n, a.commitFails n = false) → a.jti ∉ db.refreshTokens.map (·.jti) →
        env.hashCode code' = env.hashCode code →
        ((∃ access refresh user, (verifyLoginOtp env a email' code' db).response =
            .tokens access refresh "bearer" user) ↔
          email' = email ∧ c.live = true ∧ a.now < c.expiresAt)

/-- The table of the codes of the kind of a notification has a row for it. -/
def Sent (env : AuthEnv) (t : Tables) : Notification → Prop
  | .registrationCode email code _ => ∃ c, SentRow env t.users t.registrationCodes email code c
  | .loginOtp email code _ => ∃ c, SentRow env t.users t.loginOtps email code c

theorem Issued.sent {note : Notification} (h : Issued env a t t' r note) : Sent env t' note := by
  cases h with
  | registered payload i hnew huser hrow => exact ⟨_, hrow, rfl, _, huser, rfl, rfl⟩
  | resent email user i huser hpending hkept hrow => exact ⟨_, hrow, rfl, user, hkept, rfl, rfl⟩
  | otpSent email password user i huser hpw happ hact hkept hrow =>
    exact ⟨_, hrow, rfl, user, hkept, rfl, rfl⟩

theorem Sent.step {s s' : AuthState} {l : AuthLabel} {o : Option AuthResponse} {note : Notification}
    (h : Sent env s.db.toTables note) (hstep : authStep env s l = some (s', o)) :
    Sent env s'.db.toTables note := by
  obtain ⟨hcodes, hotps, husers⟩ := authStep_codesKept hstep
  cases note with
  | registrationCode email code mins =>
    obtain ⟨c, hc⟩ := h
    exact hc.kept hcodes husers
  | loginOtp email code mins =>
    obtain ⟨c, hc⟩ := h
    exact hc.kept hotps husers

theorem Sent.redeems {db : AuthDb} {note : Notification} (h : Sent env db.toTables note) :
    Redeems env db note := by
  cases note with
  | registrationCode email code mins =>
    obtain ⟨c, hc⟩ := h
    refine ⟨c, hc, fun a email' code' hworks hcode => ?_⟩
    rw [verifyRegistration_iff hworks]
    exact hc.matchingCode_iff db.unique.registrationHashes a.now hcode
  | loginOtp email code mins =>
    obtain ⟨c, hc⟩ := h
    refine ⟨c, hc, fun a email' code' hworks hfresh hcode => ?_⟩
    rw [verifyLoginOtp_iff hworks hfresh]
    exact hc.matchingCode_iff db.unique.otpHashes a.now hcode

end MarketKill3r
