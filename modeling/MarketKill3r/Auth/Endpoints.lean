import MarketKill3r.Auth.Tables

/-!
# The auth endpoints

`app/api/routes/auth.py` with the helpers of `app/auth/security.py` and `app/auth/dependencies.py`.
A request is a function from the database to the database it leaves, its response and the message it
hands to the notification service.

Everything that a request draws from its surroundings is an argument: one reading of the clock (all
times are microseconds since the epoch), the codes that `generate_code` returns, fresh uuids, the
salt of a new password hash, and which of its commits the database fails.

`verify_login_otp` and `refresh` are each composed of a part that reads and a part that writes.
-/

namespace MarketKill3r

/-! ## Security helpers -/

/-- The claims of a JWT that the endpoints read. -/
structure Claims where
  sub : Option String
  type : Option String
  jti : Option String
  exp : Int
  deriving DecidableEq

/-- Settings, password hashing, code hashing and JWTs. A password verifies against a hash exactly
when the hash was made from it: the model leaves aside that bcrypt reads its first 72 bytes only. -/
structure AuthEnv where
  caseMap : CaseMap
  digest : List Char → String
  hashPassword : String → String → String
  verifyPassword : String → String → Bool
  verify_hash : ∀ salt p q, verifyPassword p (hashPassword salt q) = true ↔ p = q
  encodeToken : Claims → String
  decodeToken : Int → String → Option Claims
  loginOtpEnabled : Bool
  accessTokenExpireMinutes : Int
  refreshTokenExpireMinutes : Int
  registrationCodeExpireMinutes : Int
  loginOtpExpireMinutes : Int

/-- `timedelta(minutes=m)` -/
def minutes (m : Int) : Int := m * 60000000

/-- `hash_code`: the digest of the normalised code under the secret key. -/
def AuthEnv.hashCode (env : AuthEnv) (code : String) : String :=
  env.digest (env.caseMap.str (pyStrip code.toList))

/-- `codes_match` -/
def AuthEnv.codesMatch (env : AuthEnv) (candidate codeHash : String) : Bool :=
  env.hashCode candidate = codeHash

/-- What a request draws from its surroundings. `codes i` is the result of its call number `i` of
`generate_code`, and `commitFails i` tells whether the database fails its commit number `i`. -/
structure Ambient where
  now : Int
  codes : Nat → String
  userId : String
  salt : String
  jti : String
  commitFails : Nat → Bool

/-- A signed token: its text and the claims in it. -/
structure Token where
  text : String
  claims : Claims
  deriving DecidableEq

/-- `create_access_token` -/
def createAccessToken (env : AuthEnv) (a : Ambient) (subject : String) : Token :=
  let claims : Claims :=
    ⟨some subject, some "access", none, a.now + minutes env.accessTokenExpireMinutes⟩
  ⟨env.encodeToken claims, claims⟩

/-- `create_refresh_token`: the token, its `jti` and its expiry. -/
def createRefreshToken (env : AuthEnv) (a : Ambient) (subject : String) : Token × String × Int :=
  let expiresAt := a.now + minutes env.refreshTokenExpireMinutes
  let claims : Claims := ⟨some subject, some "refresh", some a.jti, expiresAt⟩
  (⟨env.encodeToken claims, claims⟩, a.jti, expiresAt)

/-! ## Requests and responses -/

/-- The validated body of a registration. -/
structure UserCreate where
  name : String
  email : String
  password : String
  password_min_length : 8 ≤ password.length
  name_not_blank : name ≠ ""

inductive AuthRequest
  | register (payload : UserCreate)
  | verifyRegistration (email code : String)
  | resendRegistrationNotice (email : String)
  | login (email password : String)
  | verifyLoginOtp (email code : String)
  | refresh (refreshToken : String)
  | logout (bearer : Option String) (refreshToken : String)

structure UserRead where
  id : String
  email : String
  fullName : String
  role : UserRole
  isActive : Bool
  isApproved : Bool
  isEmailVerified : Bool
  notificationsEnabled : Bool
  createdAt : Int
  deriving DecidableEq

def User.read (u : User) : UserRead :=
  ⟨u.id, u.email, u.fullName, u.role, u.isActive, u.isApproved, u.isEmailVerified,
    u.notificationsEnabled, u.createdAt⟩

/-- An `HTTPException`, an exception that nobody catches, a status body, or tokens. -/
inductive AuthResponse
  | httpError (statusCode : Nat) (detail : String)
  | serverError
  | status (statusCode : Nat) (status : String) (message : Option String)
  | tokens (access refresh : Token) (tokenType : String) (user : UserRead)
  | refreshed (access refresh : Token)
  deriving DecidableEq

/-- The claims of the tokens in a response. -/
def AuthResponse.issued : AuthResponse → List Claims
  | .tokens access refresh _ _ => [access.claims, refresh.claims]
  | .refreshed access refresh => [access.claims, refresh.claims]
  | _ => []

/-- A message for the notification service: the address, the code and its lifetime. -/
inductive Notification
  | registrationCode (email code : String) (expireMinutes : Int)
  | loginOtp (email code : String) (expireMinutes : Int)
  deriving DecidableEq

/-- What a request leaves and returns. -/
structure AuthResult where
  db : AuthDb
  response : AuthResponse
  notification : Option Notification

/-- The request ends without having changed anything. -/
def AuthDb.answer (db : AuthDb) (response : AuthResponse) : AuthResult := ⟨db, response, none⟩

/-! ## Shared parts -/

/-- `db.query(User).filter(User.email == email).first()` -/
def Tables.userByEmail (t : Tables) (email : String) : Option User :=
  t.users.find? fun u => u.email = email

/-- `db.query(User).filter(User.id == user_id).first()` -/
def Tables.userById (t : Tables) (id : String) : Option User :=
  t.users.find? fun u => u.id = id

/-- Neither used nor revoked. -/
def CodeRow.live (c : CodeRow) : Bool := c.usedAt.isNone && !c.revoked

/-- The row that a code matches: the first of the user's live, unexpired rows with its hash. -/
def matchingCode (env : AuthEnv) (now : Int) (user : User) (code : String) (rows : List CodeRow) :
    Option CodeRow :=
  (rows.filter fun c => c.userId = user.id && c.live && now < c.expiresAt).find? fun c =>
    env.codesMatch code c.codeHash

/-- `match.used_at = _utcnow()` -/
def useCode (now : Int) (codeHash : String) (rows : List CodeRow) : List CodeRow :=
  rows.map fun c => if c.codeHash = codeHash then { c with usedAt := some now } else c

/-- The loop `for _ in range(5)` around the commit of a new code, with `fuel` attempts left. After a
failed commit the session is rolled back to `db` and the next code is drawn. -/
def codeLoop (commit : Nat → Tables → Option AuthDb) (db : AuthDb) (add : String → Tables → Tables)
    (codes : Nat → String) : Nat → Nat → Tables → Option (AuthDb × String)
  | 0, _, _ => none
  | fuel + 1, i, working =>
    match commit i (add (codes i) working) with
    | some db' => some (db', codes i)
    | none => codeLoop commit db add codes fuel (i + 1) db.toTables

/-- `_issue_tokens`, whose commit is number `n` of the request. -/
def issueTokens (env : AuthEnv) (a : Ambient) (n : Nat) (user : User) (db : AuthDb) : AuthResult :=
  let access := createAccessToken env a user.id
  let (refresh, jti, expiresAt) := createRefreshToken env a user.id
  match AuthDb.commit (a.commitFails n) { db.toTables with
    refreshTokens := db.refreshTokens ++ [⟨user.id, jti, expiresAt, none, none⟩] } with
  | none => db.answer .serverError
  | some db' => ⟨db', .tokens access refresh "bearer" user.read, none⟩

/-! ## Registration -/

/-- The bulk update at the start of `_create_and_send_registration_code`. -/
def revokeLiveCodes (userId : String) (t : Tables) : Tables :=
  { t with registrationCodes := t.registrationCodes.map fun c =>
      if c.userId = userId && c.live then { c with revoked := true } else c }

/-- `_create_and_send_registration_code`, whose first commit is number `n` of the request. Only the
first attempt commits the revocation of the earlier codes. -/
def createAndSendRegistrationCode (env : AuthEnv) (a : Ambient) (n : Nat) (user : User) (db : AuthDb)
    (success : AuthResponse) : AuthResult :=
  let expiresAt := a.now + minutes env.registrationCodeExpireMinutes
  let add (code : String) (t : Tables) : Tables := { t with
    registrationCodes := t.registrationCodes ++ [⟨user.id, env.hashCode code, expiresAt, none, false⟩] }
  match codeLoop (fun i => AuthDb.commit (a.commitFails (n + i))) db add a.codes 5 0
    (revokeLiveCodes user.id db.toTables) with
  | none =>
    db.answer (.httpError 500 "Could not generate a registration code. Please try again.")
  | some (db', code) =>
    ⟨db', success,
      some (.registrationCode user.email code env.registrationCodeExpireMinutes)⟩

/-- The row that `register` adds. -/
def newUser (env : AuthEnv) (a : Ambient) (payload : UserCreate) : User where
  id := a.userId
  email := payload.email
  hashedPassword := env.hashPassword a.salt payload.password
  fullName := payload.name
  role := .user
  isActive := true
  isEmailVerified := false
  isApproved := false
  notificationsEnabled := true
  createdAt := a.now

/-- `register` -/
def register (env : AuthEnv) (a : Ambient) (payload : UserCreate) (db : AuthDb) : AuthResult :=
  match db.userByEmail payload.email with
  | some _ => db.answer (.httpError 409 "An account with this email already exists")
  | none =>
    let user := newUser env a payload
    match AuthDb.commit (a.commitFails 0) { db.toTables with users := db.users ++ [user] } with
    | none => db.answer .serverError
    | some db' =>
      createAndSendRegistrationCode env a 1 user db' (.status 201 "pending_approval"
        (some "Registration received. An admin must approve your account before you can log in."))

/-- `user.is_approved = True` -/
def approveUser (userId : String) (users : List User) : List User :=
  users.map fun u => if u.id = userId then { u with isApproved := true } else u

/-- `verify_registration` -/
def verifyRegistration (env : AuthEnv) (a : Ambient) (email code : String) (db : AuthDb) :
    AuthResult :=
  let invalid := db.answer (.httpError 400 "Invalid, expired, or already-used registration code.")
  match db.userByEmail email with
  | none => invalid
  | some user =>
    match matchingCode env a.now user code db.registrationCodes with
    | none => invalid
    | some c =>
      match AuthDb.commit (a.commitFails 0) { db.toTables with
        registrationCodes := useCode a.now c.codeHash db.registrationCodes
        users := approveUser user.id db.users } with
      | none => db.answer .serverError
      | some db' =>
        db'.answer (.status 200 "approved" (some "Account approved. You can now log in."))

/-- `resend_registration_notice` -/
def resendRegistrationNotice (env : AuthEnv) (a : Ambient) (email : String) (db : AuthDb) :
    AuthResult :=
  match db.userByEmail email with
  | none => db.answer (.httpError 404 "No pending registration for this email.")
  | some user =>
    if user.isApproved then db.answer (.httpError 400 "This account is already approved.")
    else createAndSendRegistrationCode env a 0 user db
      (.status 200 "pending_approval" (some "Admin has been re-notified."))

/-! ## Login -/

/-- The code of a login, past its checks. -/
def sendLoginOtp (env : AuthEnv) (a : Ambient) (user : User) (db : AuthDb) : AuthResult :=
  let expiresAt := a.now + minutes env.loginOtpExpireMinutes
  let add (code : String) (t : Tables) : Tables :=
    { t with loginOtps := t.loginOtps ++ [⟨user.id, env.hashCode code, expiresAt, none, false⟩] }
  match codeLoop (fun i => AuthDb.commit (a.commitFails i)) db add a.codes 5 0 db.toTables with
  | none => db.answer (.httpError 500 "Could not generate a login code. Please try again.")
  | some (db', code) =>
    ⟨db', .status 200 "otp_required" none,
      some (.loginOtp user.email code env.loginOtpExpireMinutes)⟩

/-- `login` -/
def login (env : AuthEnv) (a : Ambient) (email password : String) (db : AuthDb) : AuthResult :=
  let incorrect := db.answer (.httpError 401 "Incorrect email or password")
  match db.userByEmail email with
  | none => incorrect
  | some user =>
    if !env.verifyPassword password user.hashedPassword then incorrect
    else if !user.isApproved then db.answer (.status 403 "pending_approval" none)
    else if !user.isActive then db.answer (.httpError 403 "Account disabled")
    else if !env.loginOtpEnabled then issueTokens env a 0 user db
    else sendLoginOtp env a user db

def invalidOtp : AuthResponse := .httpError 401 "Invalid or expired code."

/-- The part of `verify_login_otp` that reads: the user and the matching row. -/
def readLoginOtp (env : AuthEnv) (now : Int) (email code : String) (t : Tables) :
    Option (User × LoginOTP) :=
  match t.userByEmail email with
  | none => none
  | some user => (matchingCode env now user code t.loginOtps).map fun otp => (user, otp)

/-- The part of `verify_login_otp` that writes: the row is marked, then the tokens are issued. -/
def writeLoginOtp (env : AuthEnv) (a : Ambient) (user : User) (otp : LoginOTP) (db : AuthDb) :
    AuthResult :=
  match AuthDb.commit (a.commitFails 0)
    { db.toTables with loginOtps := useCode a.now otp.codeHash db.loginOtps } with
  | none => db.answer .serverError
  | some db' => issueTokens env a 1 user db'

/-- `verify_login_otp` -/
def verifyLoginOtp (env : AuthEnv) (a : Ambient) (email code : String) (db : AuthDb) : AuthResult :=
  match readLoginOtp env a.now email code db.toTables with
  | none => db.answer invalidOtp
  | some (user, otp) => writeLoginOtp env a user otp db

/-! ## Refresh and logout -/

def invalidRefresh : AuthResponse := .httpError 401 "Invalid or expired refresh token."

/-- A claim that is present and not empty. -/
def truthy (claim : Option String) : Option String := claim.filter (· ≠ "")

/-- The part of `refresh` that reads: the row of the token and the user. -/
def readRefresh (env : AuthEnv) (now : Int) (refreshToken : String) (t : Tables) :
    Option (RefreshToken × User) := do
  let decoded ← env.decodeToken now refreshToken
  guard (decoded.type = some "refresh")
  let jti ← truthy decoded.jti
  let userId ← truthy decoded.sub
  let record ← t.refreshTokens.find? fun r => r.jti = jti
  guard (record.revokedAt = none)
  guard (now < record.expiresAt)
  let user ← t.userById userId
  guard (user.isActive ∧ user.isApproved)
  return (record, user)

/-- `record.revoked_at = _utcnow()` and `record.replaced_by_jti = new_jti` -/
def rotateToken (now : Int) (jti newJti : String) (rows : List RefreshToken) : List RefreshToken :=
  rows.map fun r =>
    if r.jti = jti then { r with revokedAt := some now, replacedByJti := some newJti } else r

/-- The part of `refresh` that writes: the row is rotated into a new one. -/
def writeRefresh (env : AuthEnv) (a : Ambient) (record : RefreshToken) (user : User) (db : AuthDb) :
    AuthResult :=
  let access := createAccessToken env a user.id
  let (refresh, jti, expiresAt) := createRefreshToken env a user.id
  match AuthDb.commit (a.commitFails 0) { db.toTables with
    refreshTokens := rotateToken a.now record.jti jti db.refreshTokens ++
      [⟨user.id, jti, expiresAt, none, none⟩] } with
  | none => db.answer .serverError
  | some db' => db'.answer (.refreshed access refresh)

/-- `refresh` -/
def refresh (env : AuthEnv) (a : Ambient) (refreshToken : String) (db : AuthDb) : AuthResult :=
  match readRefresh env a.now refreshToken db.toTables with
  | none => db.answer invalidRefresh
  | some (record, user) => writeRefresh env a record user db

/-- `get_current_user` -/
def getCurrentUser (env : AuthEnv) (now : Int) (bearer : Option String) (t : Tables) :
    Option User := do
  let token ← bearer
  let payload ← env.decodeToken now token
  guard (payload.type = some "access")
  let userId ← payload.sub
  let user ← t.userById userId
  guard user.isActive
  return user

/-- `record.revoked_at = _utcnow()` -/
def revokeToken (now : Int) (jti : String) (rows : List RefreshToken) : List RefreshToken :=
  rows.map fun r => if r.jti = jti then { r with revokedAt := some now } else r

/-- The row that a logout of `user` revokes, if there is one. -/
def logoutTarget (env : AuthEnv) (now : Int) (user : User) (refreshToken : String) (t : Tables) :
    Option RefreshToken := do
  let decoded ← env.decodeToken now refreshToken
  guard (decoded.type = some "refresh")
  let jti ← truthy decoded.jti
  let record ← t.refreshTokens.find? fun r => r.jti = jti && r.userId = user.id
  guard (record.revokedAt = none)
  return record

/-- `logout` -/
def logout (env : AuthEnv) (a : Ambient) (bearer : Option String) (refreshToken : String)
    (db : AuthDb) : AuthResult :=
  match getCurrentUser env a.now bearer db.toTables with
  | none => db.answer (.httpError 401 "Could not validate credentials")
  | some user =>
    match logoutTarget env a.now user refreshToken db.toTables with
    | none => db.answer (.status 200 "ok" none)
    | some record =>
      match AuthDb.commit (a.commitFails 0)
        { db.toTables with refreshTokens := revokeToken a.now record.jti db.refreshTokens } with
      | none => db.answer .serverError
      | some db' => db'.answer (.status 200 "ok" none)

/-! ## The router -/

def authHandle (env : AuthEnv) (a : Ambient) (db : AuthDb) : AuthRequest → AuthResult
  | .register payload => register env a payload db
  | .verifyRegistration email code => verifyRegistration env a email code db
  | .resendRegistrationNotice email => resendRegistrationNotice env a email db
  | .login email password => login env a email password db
  | .verifyLoginOtp email code => verifyLoginOtp env a email code db
  | .refresh refreshToken => refresh env a refreshToken db
  | .logout bearer refreshToken => logout env a bearer refreshToken db

end MarketKill3r
