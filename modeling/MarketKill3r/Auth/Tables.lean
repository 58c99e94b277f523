import Mathlib.Data.List.Nodup
import MarketKill3r.Market.Instruments

/-!
# The tables of the auth flow

`app/models/user.py` and `app/models/auth_tokens.py`: users, registration codes, login codes and
refresh tokens. A session works on a copy of the tables; a commit publishes it, unless a unique
column would hold a value twice or the database fails. A rollback returns to the published tables.

* `AuthDb.commit_eq_some`: what a commit does.
-/

namespace MarketKill3r

inductive UserRole
  | admin
  | user
  deriving DecidableEq

/-- A row of `users`. -/
structure User where
  id : String
  email : String
  hashedPassword : String
  fullName : String
  role : UserRole
  isActive : Bool
  isEmailVerified : Bool
  isApproved : Bool
  notificationsEnabled : Bool
  createdAt : Int
  deriving DecidableEq

/-- A row of `registration_codes` or `login_otps`, which have the same columns. Rows are identified
by their unique column `code_hash`. -/
structure CodeRow where
  userId : String
  codeHash : String
  expiresAt : Int
  usedAt : Option Int
  revoked : Bool
  deriving DecidableEq

/-- A row of `registration_codes`. -/
abbrev RegistrationCode := CodeRow

/-- A row of `login_otps`. -/
abbrev LoginOTP := CodeRow

/-- A row of `refresh_tokens`, identified by its unique column `jti`. -/
structure RefreshToken where
  userId : String
  jti : String
  expiresAt : Int
  revokedAt : Option Int
  replacedByJti : Option String
  deriving DecidableEq

structure Tables where
  users : List User
  registrationCodes : List RegistrationCode
  loginOtps : List LoginOTP
  refreshTokens : List RefreshToken
  deriving DecidableEq

/-- The unique columns. -/
structure Tables.Unique (t : Tables) : Prop where
  ids : (t.users.map (·.id)).Nodup
  emails : (t.users.map (·.email)).Nodup
  registrationHashes : (t.registrationCodes.map (·.codeHash)).Nodup
  otpHashes : (t.loginOtps.map (·.codeHash)).Nodup
  jtis : (t.refreshTokens.map (·.jti)).Nodup

/-- A unique column admits a row whose value is not in it. -/
theorem nodup_map_concat {α β : Type} {f : α → β} {rows : List α} {row : α} :
    ((rows ++ [row]).map f).Nodup ↔ f row ∉ rows.map f ∧ (rows.map f).Nodup := by
  rw [List.map_append, List.map_singleton, ← List.concat_eq_append, List.nodup_concat]

instance (t : Tables) : Decidable t.Unique :=
  decidable_of_iff ((t.users.map (·.id)).Nodup ∧ (t.users.map (·.email)).Nodup ∧
      (t.registrationCodes.map (·.codeHash)).Nodup ∧ (t.loginOtps.map (·.codeHash)).Nodup ∧
      (t.refreshTokens.map (·.jti)).Nodup)
    ⟨fun ⟨h1, h2, h3, h4, h5⟩ => ⟨h1, h2, h3, h4, h5⟩,
      fun h => ⟨h.ids, h.emails, h.registrationHashes, h.otpHashes, h.jtis⟩⟩

/-- The published tables. -/
structure AuthDb extends Tables where
  unique : toTables.Unique

/-- The database before the first request. -/
def AuthDb.empty : AuthDb where
  users := []
  registrationCodes := []
  loginOtps := []
  refreshTokens := []
  unique := by decide

/-- `db.commit()` of a session whose working copy is `t`; `fails` is a failure of the database
itself. -/
def AuthDb.commit (fails : Bool) (t : Tables) : Option AuthDb :=
  if h : fails = false ∧ t.Unique then some { t with unique := h.2 } else none

theorem AuthDb.commit_eq_some {fails : Bool} {t : Tables} {db : AuthDb} :
    AuthDb.commit fails t = some db ↔ fails = false ∧ db.toTables = t := by
  unfold AuthDb.commit
  split
  case isTrue h =>
    constructor
    · intro he
      cases he
      exact ⟨h.1, rfl⟩
    · rintro ⟨-, rfl⟩
      rfl
  case isFalse h =>
    constructor
    · intro he
      cases he
    · rintro ⟨hf, rfl⟩
      exact absurd ⟨hf, db.unique⟩ h

end MarketKill3r
