import Mathlib.Data.Option.Basic
import MarketKill3r.Auth.Endpoints
import MarketKill3r.Lib.Sys

/-!
# Runs of the auth endpoints

Requests are atomic and come in any order, from anybody, with any contents; between them an
administrator may switch accounts on and off. The state also remembers the claims of all tokens that
were handed out, against which the tokens that a request presents are unforgeable.

* `AuthEffect`, `authHandle_effect`: everything that a request can do to the tables, and the tokens
  it hands out.
-/

namespace MarketKill3r

/-! ## The system -/

/-- The database, and the claims of the tokens handed out so far. -/
structure AuthState where
  db : AuthDb
  issued : List Claims

/-- The state before the first request. -/
def AuthState.start : AuthState := ⟨AuthDb.empty, []⟩

inductive AuthLabel
  | request (r : AuthRequest) (a : Ambient)
  | setActive (userId : String) (active : Bool)

/-- `is_active` of one account, as an administrator sets it. -/
def switchUser (userId : String) (active : Bool) (users : List User) : List User :=
  users.map fun u => if u.id = userId then { u with isActive := active } else u

def authStep (env : AuthEnv) (s : AuthState) : AuthLabel → Option (AuthState × Option AuthResponse)
  | .request r a =>
    let result := authHandle env a s.db r
    some (⟨result.db, s.issued ++ result.response.issued⟩, some result.response)
  | .setActive userId active =>
    (AuthDb.commit false { s.db.toTables with users := switchUser userId active s.db.users }).map
      fun db => (⟨db, s.issued⟩, none)

abbrev AuthTransition := Sys.Transition AuthState AuthLabel (Option AuthResponse)

/-- The tokens that a request presents. -/
def AuthRequest.presented : AuthRequest → List String
  | .refresh refreshToken => [refreshToken]
  | .logout bearer refreshToken => refreshToken :: bearer.toList
  | _ => []

/-- A token that the request presents decodes only to claims that were handed out before. -/
def Unforged (env : AuthEnv) (t : AuthTransition) : Prop :=
  match t.label with
  | .request r a => ∀ token ∈ r.presented, ∀ claims ∈ env.decodeToken a.now token,
      claims ∈ t.pre.issued
  | .setActive _ _ => True

instance (env : AuthEnv) (t : AuthTransition) : Decidable (Unforged env t) :=
  match t with
  | ⟨s, .request r a, _, _⟩ =>
    inferInstanceAs (Decidable (∀ token ∈ r.presented, ∀ claims ∈ env.decodeToken a.now token,
      claims ∈ s.issued))
  | ⟨_, .setActive _ _, _, _⟩ => isTrue trivial

/-! ## What the lookups find -/

theorem userByEmail_spec {t : Tables} {email : String} {user : User}
    (h : t.userByEmail email = some user) : user ∈ t.users ∧ user.email = email :=
  ⟨List.mem_of_find?_eq_some h, by simpa using List.find?_some h⟩

theorem userById_spec {t : Tables} {id : String} {user : User} (h : t.userById id = some user) :
    user ∈ t.users ∧ user.id = id :=
  ⟨List.mem_of_find?_eq_some h, by simpa using List.find?_some h⟩

/-- A row that a code of this user matches now. -/
structure CodeRow.Matches (env : AuthEnv) (now : Int) (userId code : String) (c : CodeRow) :
    Prop where
  user : c.userId = userId
  unused : c.usedAt = none
  unrevoked : c.revoked = false
  unexpired : now < c.expiresAt
  hash : c.codeHash = env.hashCode code

instance (env : AuthEnv) (now : Int) (userId code : String) (c : CodeRow) :
    Decidable (c.Matches env now userId code) :=
  decidable_of_iff (c.userId = userId ∧ c.usedAt = none ∧ c.revoked = false ∧ now < c.expiresAt ∧
      c.codeHash = env.hashCode code)
    ⟨fun ⟨h1, h2, h3, h4, h5⟩ => ⟨h1, h2, h3, h4, h5⟩,
      fun h => ⟨h.user, h.unused, h.unrevoked, h.unexpired, h.hash⟩⟩

theorem matchingCode_spec {env : AuthEnv} {now : Int} {user : User} {code : String}
    {rows : List CodeRow} {c : CodeRow} (h : matchingCode env now user code rows = some c) :
    c ∈ rows ∧ c.Matches env now user.id code := by
  have hmem := List.mem_of_find?_eq_some h
  have hmatch := List.find?_some h
  rw [List.mem_filter] at hmem
  simp only [Bool.and_eq_true, decide_eq_true_eq, CodeRow.live, Option.isNone_iff_eq_none,
    Bool.not_eq_true'] at hmem
  simp only [AuthEnv.codesMatch, decide_eq_true_eq] at hmatch
  exact ⟨hmem.1, hmem.2.1.1, hmem.2.1.2.1, hmem.2.1.2.2, hmem.2.2, hmatch.symm⟩

theorem readLoginOtp_spec {env : AuthEnv} {now : Int} {email code : String} {t : Tables}
    {user : User} {otp : LoginOTP} (h : readLoginOtp env now email code t = some (user, otp)) :
    t.userByEmail email = some user ∧ otp ∈ t.loginOtps ∧ otp.Matches env now user.id code := by
  unfold readLoginOtp at h
  cases hu : t.userByEmail email with
  | none => rw [hu] at h; cases h
  | some u =>
    rw [hu] at h
    obtain ⟨c, hc, he⟩ := Option.map_eq_some_iff.mp h
    cases he
    exact ⟨rfl, matchingCode_spec hc⟩

theorem truthy_eq_some {claim : Option String} {v : String} (h : truthy claim = some v) :
    claim = some v :=
  (Option.filter_eq_some_iff.mp h).1

/-- What `refresh` has checked when it rotates a row. -/
structure RefreshChecked (env : AuthEnv) (now : Int) (refreshToken : String) (t : Tables)
    (record : RefreshToken) (user : User) : Prop where
  claims : ∃ c, env.decodeToken now refreshToken = some c ∧ c.type = some "refresh" ∧
    c.jti = some record.jti ∧ c.sub = some user.id
  record_mem : record ∈ t.refreshTokens
  unrevoked : record.revokedAt = none
  unexpired : now < record.expiresAt
  user_mem : user ∈ t.users
  active : user.isActive = true
  approved : user.isApproved = true

theorem readRefresh_spec {env : AuthEnv} {now : Int} {refreshToken : String} {t : Tables}
    {record : RefreshToken} {user : User}
    (h : readRefresh env now refreshToken t = some (record, user)) :
    RefreshChecked env now refreshToken t record user := by
  simp only [readRefresh, bind, Option.bind_eq_some_iff, Option.guard_eq_some', pure,
    Option.some.injEq, Prod.mk.injEq] at h
  obtain ⟨c, hc, -, htype, jti, hjti, id, hid, record', hrec, -, hunrev, -, hexp, user', huser, -,
    ⟨hact, happ⟩, rfl, rfl⟩ := h
  obtain ⟨hmem, rfl⟩ := userById_spec huser
  have hj : record'.jti = jti := by simpa using List.find?_some hrec
  exact ⟨⟨c, hc, htype, by rw [hj]; exact truthy_eq_some hjti, truthy_eq_some hid⟩,
    List.mem_of_find?_eq_some hrec, hunrev, hexp, hmem, hact, happ⟩

/-- What `logout` has checked when it revokes a row. -/
theorem logoutTarget_spec {env : AuthEnv} {now : Int} {user : User} {refreshToken : String}
    {t : Tables} {record : RefreshToken}
    (h : logoutTarget env now user refreshToken t = some record) :
    record ∈ t.refreshTokens ∧ record.userId = user.id ∧ record.revokedAt = none := by
  simp only [logoutTarget, bind, Option.bind_eq_some_iff, Option.guard_eq_some', pure,
    Option.some.injEq] at h
  obtain ⟨c, -, -, -, jti, -, record', hrec, -, hunrev, rfl⟩ := h
  have hmatch := List.find?_some hrec
  rw [Bool.and_eq_true, decide_eq_true_eq, decide_eq_true_eq] at hmatch
  exact ⟨List.mem_of_find?_eq_some hrec, hmatch.2, hunrev⟩

/-! ## What a request does -/

/-- The row of a token pair issued to a user. -/
def refreshRow (env : AuthEnv) (a : Ambient) (userId : String) : RefreshToken :=
  ⟨userId, a.jti, a.now + minutes env.refreshTokenExpireMinutes, none, none⟩

/-- The claims of a token pair issued to a user. -/
def pairClaims (env : AuthEnv) (a : Ambient) (userId : String) : List Claims :=
  [(createAccessToken env a userId).claims, (createRefreshToken env a userId).1.claims]

/-- The row of a code drawn for a user. -/
def codeRow (env : AuthEnv) (a : Ambient) (userId : String) (lifetime : Int) (i : Nat) : CodeRow :=
  ⟨userId, env.hashCode (a.codes i), a.now + minutes lifetime, none, false⟩

/-- A new registration code, with or without the revocation of the earlier ones. -/
def NewRegistrationCode (env : AuthEnv) (a : Ambient) (userId : String) (t t' : Tables) : Prop :=
  ∃ base i, (base = t ∨ base = revokeLiveCodes userId t) ∧
    t' = { base with registrationCodes := base.registrationCodes ++
      [codeRow env a userId env.registrationCodeExpireMinutes i] }

/-- Everything that a request can do to the tables `t`, and the claims it hands out. -/
inductive AuthEffect (env : AuthEnv) (a : Ambient) (t : Tables) :
    AuthRequest → Tables → List Claims → Prop
  | unchanged (r : AuthRequest) : AuthEffect env a t r t []
  | registered (payload : UserCreate) (hnew : t.userByEmail payload.email = none) :
      AuthEffect env a t (.register payload)
        { t with users := t.users ++ [newUser env a payload] } []
  | registeredWithCode (payload : UserCreate) (t' : Tables)
      (hnew : t.userByEmail payload.email = none)
      (hcode : NewRegistrationCode env a a.userId
        { t with users := t.users ++ [newUser env a payload] } t') :
      AuthEffect env a t (.register payload) t' []
  | approved (email code : String) (user : User) (c : CodeRow)
      (huser : t.userByEmail email = some user) (hmem : c ∈ t.registrationCodes)
      (hc : c.Matches env a.now user.id code) :
      AuthEffect env a t (.verifyRegistration email code) { t with
        registrationCodes := useCode a.now c.codeHash t.registrationCodes
        users := approveUser user.id t.users } []
  | resent (email : String) (user : User) (t' : Tables) (huser : t.userByEmail email = some user)
      (hpending : user.isApproved = false) (hcode : NewRegistrationCode env a user.id t t') :
      AuthEffect env a t (.resendRegistrationNotice email) t' []
  | loggedIn (email password : String) (user : User) (huser : t.userByEmail email = some user)
      (hpw : env.verifyPassword password user.hashedPassword = true)
      (happ : user.isApproved = true) (hact : user.isActive = true)
      (hotp : env.loginOtpEnabled = false) :
      AuthEffect env a t (.login email password)
        { t with refreshTokens := t.refreshTokens ++ [refreshRow env a user.id] }
        (pairClaims env a user.id)
  | otpSent (email password : String) (user : User) (i : Nat)
      (huser : t.userByEmail email = some user)
      (hpw : env.verifyPassword password user.hashedPassword = true)
      (happ : user.isApproved = true) (hact : user.isActive = true) :
      AuthEffect env a t (.login email password) { t with
        loginOtps := t.loginOtps ++ [codeRow env a user.id env.loginOtpExpireMinutes i] } []
  | otpSpent (email code : String) (user : User) (otp : LoginOTP)
      (huser : t.userByEmail email = some user) (hmem : otp ∈ t.loginOtps)
      (hotp : otp.Matches env a.now user.id code) :
      AuthEffect env a t (.verifyLoginOtp email code)
        { t with loginOtps := useCode a.now otp.codeHash t.loginOtps } []
  | otpVerified (email code : String) (user : User) (otp : LoginOTP)
      (huser : t.userByEmail email = some user) (hmem : otp ∈ t.loginOtps)
      (hotp : otp.Matches env a.now user.id code) :
      AuthEffect env a t (.verifyLoginOtp email code) { t with
        loginOtps := useCode a.now otp.codeHash t.loginOtps
        refreshTokens := t.refreshTokens ++ [refreshRow env a user.id] } (pairClaims env a user.id)
  | rotated (refreshToken : String) (record : RefreshToken) (user : User)
      (hcheck : RefreshChecked env a.now refreshToken t record user) :
      AuthEffect env a t (.refresh refreshToken) { t with
        refreshTokens := rotateToken a.now record.jti a.jti t.refreshTokens ++
          [refreshRow env a user.id] } (pairClaims env a user.id)
  | loggedOut (bearer : Option String) (refreshToken : String) (user : User)
      (record : RefreshToken) (hcurrent : getCurrentUser env a.now bearer t = some user)
      (hmem : record ∈ t.refreshTokens) (howner : record.userId = user.id)
      (hlive : record.revokedAt = none) :
      AuthEffect env a t (.logout bearer refreshToken)
        { t with refreshTokens := revokeToken a.now record.jti t.refreshTokens } []

/-- What a code loop leaves: the database as it was, or the first working copy, or the database
itself, with a new code. -/
theorem codeLoop_spec {commit : Nat → Tables → Option AuthDb} {db db' : AuthDb}
    {add : String → Tables → Tables} {codes : Nat → String} {fuel i : Nat} {working : Tables}
    {code : String} (hcommit : ∀ i t db', commit i t = some db' → db'.toTables = t)
    (h : codeLoop commit db add codes fuel i working = some (db', code)) :
    ∃ j base, (base = working ∨ base = db.toTables) ∧ code = codes j ∧
      db'.toTables = add (codes j) base := by
  induction fuel generalizing i working with
  | zero => cases h
  | succ fuel ih =>
    rw [codeLoop] at h
    cases hc : commit i (add (codes i) working) with
    | some db'' =>
      rw [hc] at h
      cases h
      exact ⟨i, working, Or.inl rfl, rfl, hcommit _ _ _ hc⟩
    | none =>
      rw [hc] at h
      obtain ⟨j, base, hbase, hcode⟩ := ih h
      exact ⟨j, base, Or.inr (hbase.elim id id), hcode⟩

theorem createAndSendRegistrationCode_effect {env : AuthEnv} {a : Ambient} {n : Nat} {user : User}
    {db : AuthDb} {success : AuthResponse} :
    let result := createAndSendRegistrationCode env a n user db success
    result.db = db ∨ NewRegistrationCode env a user.id db.toTables result.db.toTables := by
  simp only [createAndSendRegistrationCode]
  split
  · exact Or.inl rfl
  · rename_i db' code hloop
    obtain ⟨j, base, hbase, -, hdb⟩ := codeLoop_spec
      (fun _ _ _ hc => (AuthDb.commit_eq_some.mp hc).2) hloop
    exact Or.inr ⟨base, j, hbase.symm, hdb⟩

theorem createAndSendRegistrationCode_issued {env : AuthEnv} {a : Ambient} {n : Nat} {user : User}
    {db : AuthDb} {success : AuthResponse} (h : success.issued = []) :
    (createAndSendRegistrationCode env a n user db success).response.issued = [] := by
  simp only [createAndSendRegistrationCode]
  split
  · rfl
  · exact h

/-- What `_issue_tokens` does, if its commit succeeds. -/
theorem issueTokens_cases (env : AuthEnv) (a : Ambient) (n : Nat) (user : User) (db : AuthDb) :
    issueTokens env a n user db = db.answer .serverError ∨
      ((issueTokens env a n user db).db.toTables = { db.toTables with
          refreshTokens := db.refreshTokens ++ [refreshRow env a user.id] } ∧
        (issueTokens env a n user db).response.issued = pairClaims env a user.id) := by
  simp only [issueTokens, createRefreshToken]
  split
  · exact Or.inl rfl
  · rename_i db' hc
    exact Or.inr ⟨(AuthDb.commit_eq_some.mp hc).2, rfl⟩

/-- The result of a request is one of the effects. -/
abbrev Conforms (env : AuthEnv) (a : Ambient) (db : AuthDb) (r : AuthRequest)
    (result : AuthResult) : Prop :=
  AuthEffect env a db.toTables r result.db.toTables result.response.issued

theorem register_effect (env : AuthEnv) (a : Ambient) (payload : UserCreate) (db : AuthDb) :
    Conforms env a db (.register payload) (register env a payload db) := by
  unfold register
  split
  · exact .unchanged _
  · rename_i hnew
    dsimp only
    split
    · exact .unchanged _
    · rename_i db' hc
      have hdb := (AuthDb.commit_eq_some.mp hc).2
      rw [Conforms, createAndSendRegistrationCode_issued rfl]
      obtain hsame | hcode := createAndSendRegistrationCode_effect
      · rw [hsame, hdb]
        exact .registered payload hnew
      · rw [hdb] at hcode
        exact .registeredWithCode payload _ hnew hcode

theorem verifyRegistration_effect (env : AuthEnv) (a : Ambient) (email code : String)
    (db : AuthDb) :
    Conforms env a db (.verifyRegistration email code) (verifyRegistration env a email code db) := by
  unfold verifyRegistration
  split
  · exact .unchanged _
  · rename_i user huser
    split
    · exact .unchanged _
    · rename_i c hc
      split
      · exact .unchanged _
      · rename_i db' hcommit
        obtain ⟨hmem, hmatch⟩ := matchingCode_spec hc
        rw [Conforms, AuthDb.answer, (AuthDb.commit_eq_some.mp hcommit).2]
        exact .approved email code user c huser hmem hmatch

theorem resend_effect (env : AuthEnv) (a : Ambient) (email : String) (db : AuthDb) :
    Conforms env a db (.resendRegistrationNotice email)
      (resendRegistrationNotice env a email db) := by
  unfold resendRegistrationNotice
  split
  · exact .unchanged _
  · rename_i user huser
    split
    · exact .unchanged _
    · rename_i hpending
      rw [Conforms, createAndSendRegistrationCode_issued rfl]
      obtain hsame | hcode := createAndSendRegistrationCode_effect
      · rw [hsame]
        exact .unchanged _
      · exact .resent email user _ huser (by simpa using hpending) hcode

theorem login_effect (env : AuthEnv) (a : Ambient) (email password : String) (db : AuthDb) :
    Conforms env a db (.login email password) (login env a email password db) := by
  unfold login
  split
  · exact .unchanged _
  · rename_i user huser
    split
    · exact .unchanged _
    rename_i hpw
    split
    · exact .unchanged _
    rename_i happ
    split
    · exact .unchanged _
    rename_i hact
    simp only [Bool.not_eq_true', Bool.not_eq_false] at hpw happ hact
    split
    · rename_i hotp
      rw [Bool.not_eq_true'] at hotp
      obtain hfail | ⟨hdb, hissued⟩ := issueTokens_cases env a 0 user db
      · rw [hfail]
        exact .unchanged _
      · rw [Conforms, hdb, hissued]
        exact .loggedIn email password user huser hpw happ hact hotp
    · simp only [sendLoginOtp]
      split
      · exact .unchanged _
      · rename_i db' code hloop
        obtain ⟨j, base, hbase, -, hdb⟩ := codeLoop_spec
          (fun _ _ _ hc => (AuthDb.commit_eq_some.mp hc).2) hloop
        obtain rfl : base = db.toTables := hbase.elim id id
        rw [Conforms, hdb]
        exact .otpSent email password user j huser hpw happ hact

/-- The part of `verify_login_otp` that writes, on a row that the user's code matches. -/
theorem verifyLoginOtp_effect (env : AuthEnv) (a : Ambient) (email code : String) (db : AuthDb) :
    Conforms env a db (.verifyLoginOtp email code) (verifyLoginOtp env a email code db) := by
  unfold verifyLoginOtp
  split
  · exact .unchanged _
  · rename_i user otp hread
    obtain ⟨huser, hmem, hmatch⟩ := readLoginOtp_spec hread
    unfold writeLoginOtp
    split
    · exact .unchanged _
    · rename_i db' hc
      have hdb := (AuthDb.commit_eq_some.mp hc).2
      obtain hfail | ⟨htokens, hissued⟩ := issueTokens_cases env a 1 user db'
      · rw [hfail, Conforms, AuthDb.answer, hdb]
        exact .otpSpent email code user otp huser hmem hmatch
      · rw [Conforms, htokens, hissued, hdb]
        exact .otpVerified email code user otp huser hmem hmatch

theorem refresh_effect (env : AuthEnv) (a : Ambient) (refreshToken : String) (db : AuthDb) :
    Conforms env a db (.refresh refreshToken) (refresh env a refreshToken db) := by
  unfold refresh
  split
  · exact .unchanged _
  · rename_i record user hread
    simp only [writeRefresh, createRefreshToken]
    split
    · exact .unchanged _
    · rename_i db' hc
      rw [Conforms, AuthDb.answer, (AuthDb.commit_eq_some.mp hc).2]
      exact .rotated refreshToken record user (readRefresh_spec hread)

theorem logout_effect (env : AuthEnv) (a : Ambient) (bearer : Option String)
    (refreshToken : String) (db : AuthDb) :
    Conforms env a db (.logout bearer refreshToken) (logout env a bearer refreshToken db) := by
  unfold logout
  split
  · exact .unchanged _
  · rename_i user hcurrent
    split
    · exact .unchanged _
    · rename_i record htarget
      split
      · exact .unchanged _
      · rename_i db' hc
        obtain ⟨hmem, howner, hlive⟩ := logoutTarget_spec htarget
        rw [Conforms, AuthDb.answer, (AuthDb.commit_eq_some.mp hc).2]
        exact .loggedOut bearer refreshToken user record hcurrent hmem howner hlive

/-- **What a request can do.** -/
theorem authHandle_effect (env : AuthEnv) (a : Ambient) (db : AuthDb) (r : AuthRequest) :
    Conforms env a db r (authHandle env a db r) := by
  cases r with
  | register payload => exact register_effect env a payload db
  | verifyRegistration email code => exact verifyRegistration_effect env a email code db
  | resendRegistrationNotice email => exact resend_effect env a email db
  | login email password => exact login_effect env a email password db
  | verifyLoginOtp email code => exact verifyLoginOtp_effect env a email code db
  | refresh refreshToken => exact refresh_effect env a refreshToken db
  | logout bearer refreshToken => exact logout_effect env a bearer refreshToken db

/-- **What a step can do**: a request with one of the effects, or an administrator's switch. -/
theorem authStep_cases {env : AuthEnv} {s s' : AuthState} {l : AuthLabel} {o : Option AuthResponse}
    (h : authStep env s l = some (s', o)) :
    (∃ r a claims, l = .request r a ∧ AuthEffect env a s.db.toTables r s'.db.toTables claims ∧
      s'.issued = s.issued ++ claims ∧ o.elim [] AuthResponse.issued = claims) ∨
    (∃ userId active, l = .setActive userId active ∧ o = none ∧ s'.issued = s.issued ∧
      s'.db.toTables = { s.db.toTables with users := switchUser userId active s.db.users }) := by
  cases l with
  | request r a =>
    cases h
    exact Or.inl ⟨r, a, _, rfl, authHandle_effect env a s.db r, rfl, rfl⟩
  | setActive userId active =>
    obtain ⟨db, hc, he⟩ := Option.map_eq_some_iff.mp h
    cases he
    exact Or.inr ⟨userId, active, rfl, rfl, rfl, (AuthDb.commit_eq_some.mp hc).2⟩

/-! ## Fixtures -/

/-- The text of a demo token. -/
def demoEncode (c : Claims) : String :=
  (c.type.getD "") ++ "." ++ (c.sub.getD "") ++ "." ++ (c.jti.getD "")

/-- Transparent hashes and tokens, an hour for each kind of token and code. Tokens decode for the
user `u1` and the sessions `j1` and `j2`. -/
def demoAuthEnv (loginOtpEnabled : Bool) : AuthEnv where
  caseMap := .ascii
  digest code := String.ofList code
  hashPassword _ password := password
  verifyPassword password hash := password = hash
  verify_hash _ _ _ := decide_eq_true_iff
  encodeToken := demoEncode
  decodeToken _ token := [⟨some "u1", some "access", none, 3600000000⟩,
    ⟨some "u1", some "refresh", some "j1", 3600000000⟩,
    ⟨some "u1", some "refresh", some "j2", 3600000000⟩].find? fun c => demoEncode c = token
  loginOtpEnabled := loginOtpEnabled
  accessTokenExpireMinutes := 60
  refreshTokenExpireMinutes := 60
  registrationCodeExpireMinutes := 60
  loginOtpExpireMinutes := 60

/-- A request at time zero that draws this code and this `jti`, with a working database. -/
def demoAmbient (code jti : String) : Ambient where
  now := 0
  codes _ := code
  userId := "u1"
  salt := ""
  jti := jti
  commitFails _ := false

/-- A registration, its approval and a login. -/
def demoLogin : List AuthLabel :=
  [.request (.register ⟨"Demo", "demo@example.com", "password1", by decide, by decide⟩)
      (demoAmbient "ABCDEFGH" ""),
    .request (.verifyRegistration "demo@example.com" "abcdefgh") (demoAmbient "" ""),
    .request (.login "demo@example.com" "password1") (demoAmbient "JKLMNP" "")]

end MarketKill3r
