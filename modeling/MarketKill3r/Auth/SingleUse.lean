import Mathlib.Data.Fintype.Basic
import MarketKill3r.Auth.Changes
import MarketKill3r.Lib.Reservation
import MarketKill3r.Lib.UniqueTable

/-!
# Single use under concurrency

`verify_login_otp` and `refresh` read a credential (a login code or a refresh token) and later mark
it as used. The mark is an update of the row by its key, without a condition on its state. Here
several requests take these two steps in any order.

* `flight_alone`: a request that no other one interrupts is the request of the router.
* `FlightState.abs_read`, `FlightState.abs_commit`: the steps are those of a reservation of
  credentials.
* `credential_single_use`: if no request reads a credential that another one has read and not yet
  committed, no credential is used by two requests.
* `credential_double_use`: two overlapping requests can both use it, with either endpoint.
-/

namespace MarketKill3r

variable {env : AuthEnv}

/-! ## The system -/

/-- A single-use credential: a login code by its hash, or a refresh token by its `jti`. -/
inductive Credential
  | otp (codeHash : String)
  | refresh (jti : String)
  deriving DecidableEq

/-- A request that presents a credential. -/
inductive CredentialRequest
  | verifyLoginOtp (email code : String)
  | refresh (refreshToken : String)

/-- A request in progress: before its read, between read and commit, or answered. An answer
remembers the credential that the request has read, if there was one. -/
inductive Flight
  | idle
  | otpRead (user : User) (otp : LoginOTP)
  | refreshRead (record : RefreshToken) (user : User)
  | answered (credential : Option Credential) (response : AuthResponse)

/-- The credential that the request has read and not yet committed. -/
def Flight.held : Flight → Option Credential
  | .otpRead _ otp => some (.otp otp.codeHash)
  | .refreshRead record _ => some (.refresh record.jti)
  | _ => none

/-- The credential for which the request was given tokens. -/
def Flight.won : Flight → Option Credential
  | .answered credential response => if response.issued = [] then none else credential
  | _ => none

structure FlightState (ρ : Type) where
  db : AuthDb
  flights : ρ → Flight

/-- The read of a request, with its clock, or its commit. -/
inductive FlightStep (ρ : Type)
  | read (r : ρ) (request : CredentialRequest) (now : Int)
  | commit (r : ρ) (a : Ambient)

/-- What a request holds after its read. -/
def readCredential (env : AuthEnv) (now : Int) (t : Tables) : CredentialRequest → Flight
  | .verifyLoginOtp email code =>
    match readLoginOtp env now email code t with
    | none => .answered none invalidOtp
    | some (user, otp) => .otpRead user otp
  | .refresh refreshToken =>
    match readRefresh env now refreshToken t with
    | none => .answered none invalidRefresh
    | some (record, user) => .refreshRead record user

variable {ρ : Type} [DecidableEq ρ]

def flightStep (env : AuthEnv) (s : FlightState ρ) : FlightStep ρ → Option (FlightState ρ × Unit)
  | .read r request now =>
    match s.flights r with
    | .idle => some ({ s with
        flights := Function.update s.flights r (readCredential env now s.db.toTables request) }, ())
    | _ => none
  | .commit r a =>
    match s.flights r with
    | .otpRead user otp =>
      let result := writeLoginOtp env a user otp s.db
      some (⟨result.db, Function.update s.flights r
        (.answered (some (.otp otp.codeHash)) result.response)⟩, ())
    | .refreshRead record user =>
      let result := writeRefresh env a record user s.db
      some (⟨result.db, Function.update s.flights r
        (.answered (some (.refresh record.jti)) result.response)⟩, ())
    | _ => none

/-- The request of the router. -/
def CredentialRequest.toAuthRequest : CredentialRequest → AuthRequest
  | .verifyLoginOtp email code => .verifyLoginOtp email code
  | .refresh refreshToken => .refresh refreshToken

/-- A request that no other one interrupts is the request of the router. -/
theorem flight_alone (env : AuthEnv) (a : Ambient) (request : CredentialRequest) (db : AuthDb)
    (r : ρ) :
    let result := authHandle env a db request.toAuthRequest
    ∃ ts credential, Sys.Run (flightStep env) ⟨db, fun _ => .idle⟩ ts
      ⟨result.db, Function.update (fun _ => .idle) r (.answered credential result.response)⟩ := by
  have hread : flightStep env ⟨db, fun _ : ρ => .idle⟩ (.read r request a.now) =
      some (⟨db, Function.update (fun _ => .idle) r (readCredential env a.now db.toTables request)⟩,
        ()) := rfl
  cases request with
  | verifyLoginOtp email code =>
    simp only [CredentialRequest.toAuthRequest, authHandle, verifyLoginOtp]
    cases hfound : readLoginOtp env a.now email code db.toTables with
    | none =>
      rw [readCredential, hfound] at hread
      exact ⟨_, _, .snoc .nil hread⟩
    | some found =>
      obtain ⟨user, otp⟩ := found
      rw [readCredential, hfound] at hread
      refine ⟨_, some (.otp otp.codeHash), .snoc (l := .commit r a) (o := ()) (.snoc .nil hread) ?_⟩
      simp only [flightStep, Function.update_self, Function.update_idem]
  | refresh refreshToken =>
    simp only [CredentialRequest.toAuthRequest, authHandle, refresh]
    cases hfound : readRefresh env a.now refreshToken db.toTables with
    | none =>
      rw [readCredential, hfound] at hread
      exact ⟨_, _, .snoc .nil hread⟩
    | some found =>
      obtain ⟨record, user⟩ := found
      rw [readCredential, hfound] at hread
      refine ⟨_, some (.refresh record.jti), .snoc (l := .commit r a) (o := ()) (.snoc .nil hread) ?_⟩
      simp only [flightStep, Function.update_self, Function.update_idem]

/-! ## What the steps do -/

/-- The credential that a request presents. -/
def CredentialRequest.presented (env : AuthEnv) (now : Int) : CredentialRequest → Option Credential
  | .verifyLoginOtp _ code => some (.otp (env.hashCode code))
  | .refresh refreshToken => do return .refresh (← (← env.decodeToken now refreshToken).jti)

/-- The credentials that a request could still use. -/
def Tables.usable (t : Tables) : Set Credential
  | .otp codeHash => ∃ c ∈ t.loginOtps, c.codeHash = codeHash ∧ c.usedAt = none
  | .refresh jti => ∃ x ∈ t.refreshTokens, x.jti = jti ∧ x.revokedAt = none

/-- The credentials that have a row. -/
def Tables.known (t : Tables) : Set Credential
  | .otp codeHash => ∃ c ∈ t.loginOtps, c.codeHash = codeHash
  | .refresh jti => ∃ x ∈ t.refreshTokens, x.jti = jti

/-- A credential that a request has read was usable, and it is the one that it presented. -/
theorem readCredential_held {now : Int} {t : Tables} {request : CredentialRequest} {x : Credential}
    (h : (readCredential env now t request).held = some x) :
    x ∈ t.usable ∧ request.presented env now = some x := by
  cases request with
  | verifyLoginOtp email code =>
    rw [readCredential] at h
    cases hread : readLoginOtp env now email code t with
    | none => rw [hread] at h; cases h
    | some found =>
      obtain ⟨user, otp⟩ := found
      obtain ⟨-, hmem, hotp⟩ := readLoginOtp_spec hread
      rw [hread] at h
      cases h
      exact ⟨⟨otp, hmem, rfl, hotp.unused⟩, by rw [hotp.hash]; rfl⟩
  | refresh refreshToken =>
    rw [readCredential] at h
    cases hread : readRefresh env now refreshToken t with
    | none => rw [hread] at h; cases h
    | some found =>
      obtain ⟨record, user⟩ := found
      have hcheck := readRefresh_spec hread
      obtain ⟨c, hc, -, hjti, -⟩ := hcheck.claims
      rw [hread] at h
      cases h
      refine ⟨⟨record, hcheck.record_mem, rfl, hcheck.unrevoked⟩, ?_⟩
      simp only [CredentialRequest.presented, hc, hjti, bind, Option.bind_some, pure]

theorem Tables.usable_known (t : Tables) : t.usable ⊆ t.known := by
  rintro (codeHash | jti) ⟨x, hx, hkey, -⟩ <;> exact ⟨x, hx, hkey⟩

/-- A request that has just read was not given tokens. -/
theorem readCredential_won (now : Int) (t : Tables) (request : CredentialRequest) :
    (readCredential env now t request).won = none := by
  cases request <;> rw [readCredential] <;> split <;> rfl

/-- Everything that the commit of a request that has read `x` can do to the tables `t`, and the
claims it hands out. -/
inductive Committed (x : Credential) (t t' : Tables) (claims : List Claims) : Prop
  | failed (hclaims : claims = []) (husable : t'.usable = t.usable) (hknown : t'.known = t.known)
  | spent (hclaims : claims = []) (husable : t'.usable = t.usable \ {x})
      (hknown : t'.known = t.known)
  | exchanged (jti : String) (hclaims : claims ≠ [])
      (husable : t'.usable = t.usable \ {x} ∪ {.refresh jti})
      (hknown : t'.known = t.known ∪ {.refresh jti}) (hnew : .refresh jti ∉ t.known)

theorem usable_useCode (now : Int) (codeHash : String) (t : Tables) :
    { t with loginOtps := useCode now codeHash t.loginOtps }.usable =
      t.usable \ {.otp codeHash} := by
  ext x
  cases x with
  | otp codeHash' =>
    refine (UniqueTable.exists_key_map_and CodeRow.codeHash (fun c h => ?_) _ _).trans
      (and_congr_right fun _ => not_congr (by rw [Set.mem_singleton_iff, Credential.otp.injEq]))
    cases h
  | refresh jti => exact ⟨fun h => ⟨h, fun he => by cases he⟩, fun h => h.1⟩

theorem known_useCode (now : Int) (codeHash : String) (t : Tables) :
    { t with loginOtps := useCode now codeHash t.loginOtps }.known = t.known := by
  ext x
  cases x with
  | otp codeHash' =>
    refine UniqueTable.exists_key_map CodeRow.codeHash (fun c => ?_) _ _
    rfl
  | refresh jti => exact Iff.rfl

theorem usable_rotateToken (now : Int) (jti newJti : String) (t : Tables) :
    { t with refreshTokens := rotateToken now jti newJti t.refreshTokens }.usable =
      t.usable \ {.refresh jti} := by
  ext x
  cases x with
  | otp codeHash => exact ⟨fun h => ⟨h, fun he => by cases he⟩, fun h => h.1⟩
  | refresh jti' =>
    refine (UniqueTable.exists_key_map_and RefreshToken.jti (fun c h => ?_) _ _).trans
      (and_congr_right fun _ => not_congr (by rw [Set.mem_singleton_iff, Credential.refresh.injEq]))
    cases h

theorem known_rotateToken (now : Int) (jti newJti : String) (t : Tables) :
    { t with refreshTokens := rotateToken now jti newJti t.refreshTokens }.known = t.known := by
  ext x
  cases x with
  | otp codeHash => exact Iff.rfl
  | refresh jti' =>
    refine UniqueTable.exists_key_map RefreshToken.jti (fun y => ?_) _ _
    rfl

/-- A new row of a refresh token is usable. -/
theorem usable_append (t : Tables) (row : RefreshToken) (hlive : row.revokedAt = none) :
    { t with refreshTokens := t.refreshTokens ++ [row] }.usable = t.usable ∪ {.refresh row.jti} := by
  ext x
  cases x with
  | otp codeHash => exact ⟨Or.inl, fun h => h.elim id fun he => by cases he⟩
  | refresh jti =>
    constructor
    · rintro ⟨y, hy, rfl, hy'⟩
      obtain hy | hy := List.mem_append.mp hy
      · exact Or.inl ⟨y, hy, rfl, hy'⟩
      · rw [List.mem_singleton.mp hy]
        exact Or.inr rfl
    · rintro (⟨y, hy, rfl, hy'⟩ | he)
      · exact ⟨y, List.mem_append_left _ hy, rfl, hy'⟩
      · cases he
        exact ⟨row, List.mem_append_right _ (List.mem_singleton_self _), rfl, hlive⟩

theorem known_append (t : Tables) (row : RefreshToken) :
    { t with refreshTokens := t.refreshTokens ++ [row] }.known = t.known ∪ {.refresh row.jti} := by
  ext x
  cases x with
  | otp codeHash => exact ⟨Or.inl, fun h => h.elim id fun he => by cases he⟩
  | refresh jti =>
    constructor
    · rintro ⟨y, hy, rfl⟩
      obtain hy | hy := List.mem_append.mp hy
      · exact Or.inl ⟨y, hy, rfl⟩
      · rw [List.mem_singleton.mp hy]
        exact Or.inr rfl
    · rintro (⟨y, hy, rfl⟩ | he)
      · exact ⟨y, List.mem_append_left _ hy, rfl⟩
      · cases he
        exact ⟨row, List.mem_append_right _ (List.mem_singleton_self _), rfl⟩

/-- A refresh token that a commit has added had no row before. -/
theorem not_known_of_unique (t : Tables) (row : RefreshToken)
    (h : { t with refreshTokens := t.refreshTokens ++ [row] }.Unique) :
    .refresh row.jti ∉ t.known := by
  rintro ⟨y, hy, hjti⟩
  exact ne_of_append_nodup h.jtis y hy hjti

theorem writeLoginOtp_committed (a : Ambient) (user : User) (otp : LoginOTP) (db : AuthDb) :
    let result := writeLoginOtp env a user otp db
    Committed (.otp otp.codeHash) db.toTables result.db.toTables result.response.issued := by
  simp only [writeLoginOtp]
  split
  · exact .failed rfl rfl rfl
  · rename_i db' hc
    have hdb := (AuthDb.commit_eq_some.mp hc).2
    have husable : db'.usable = db.usable \ {.otp otp.codeHash} := by rw [hdb, usable_useCode]
    have hknown : db'.known = db.known := by rw [hdb, known_useCode]
    obtain hfail | ⟨hdb'', hissued⟩ := issueTokens_cases env a 1 user db'
    · rw [hfail]
      exact .spent rfl husable hknown
    · have hunique := (issueTokens env a 1 user db').db.unique
      rw [hdb''] at hunique
      rw [hdb'', hissued]
      refine .exchanged a.jti (by simp [pairClaims]) ?_ ?_ ?_
      · rw [usable_append _ _ rfl, husable]
        rfl
      · rw [known_append, hknown]
        rfl
      · rw [← hknown]
        exact not_known_of_unique _ _ hunique

theorem writeRefresh_committed (a : Ambient) (record : RefreshToken) (user : User) (db : AuthDb) :
    let result := writeRefresh env a record user db
    Committed (.refresh record.jti) db.toTables result.db.toTables result.response.issued := by
  simp only [writeRefresh]
  split
  · exact .failed rfl rfl rfl
  · rename_i db' hc
    have hdb := (AuthDb.commit_eq_some.mp hc).2
    have hunique := db'.unique
    rw [hdb] at hunique
    -- The rows of the rotation, before the new one is added.
    let rotated : Tables :=
      { db.toTables with refreshTokens := rotateToken a.now record.jti a.jti db.refreshTokens }
    have husable : rotated.usable = db.usable \ {.refresh record.jti} := usable_rotateToken ..
    have hknown : rotated.known = db.known := known_rotateToken ..
    refine .exchanged a.jti (by simp [AuthDb.answer, AuthResponse.issued]) ?_ ?_ ?_
    · rw [AuthDb.answer, hdb, ← husable]
      exact usable_append rotated (refreshRow env a user.id) rfl
    · rw [AuthDb.answer, hdb, ← hknown]
      exact known_append rotated (refreshRow env a user.id)
    · rw [← hknown]
      exact not_known_of_unique rotated (refreshRow env a user.id) hunique

/-- What a step does: a read by a request that has not read before, or a commit of what it has
read. -/
theorem flightStep_cases {s s' : FlightState ρ} {l : FlightStep ρ} {o : Unit}
    (h : flightStep env s l = some (s', o)) :
    (∃ r request now, l = .read r request now ∧ s.flights r = .idle ∧ s' = { s with
      flights := Function.update s.flights r (readCredential env now s.db.toTables request) }) ∨
    ∃ r a x db response, l = .commit r a ∧ (s.flights r).held = some x ∧
      (s.flights r).won = none ∧ Committed x s.db.toTables db.toTables response.issued ∧
      s' = ⟨db, Function.update s.flights r (.answered (some x) response)⟩ := by
  cases l with
  | read r request now =>
    rw [flightStep] at h
    cases hf : s.flights r with
    | idle =>
      rw [hf] at h
      cases h
      exact Or.inl ⟨r, request, now, rfl, hf, rfl⟩
    | otpRead user otp => rw [hf] at h; cases h
    | refreshRead record user => rw [hf] at h; cases h
    | answered credential response => rw [hf] at h; cases h
  | commit r a =>
    rw [flightStep] at h
    cases hf : s.flights r with
    | idle => rw [hf] at h; cases h
    | otpRead user otp =>
      rw [hf] at h
      cases h
      exact Or.inr ⟨r, a, _, _, _, rfl, by rw [hf]; rfl, by rw [hf]; rfl,
        writeLoginOtp_committed a user otp s.db, rfl⟩
    | refreshRead record user =>
      rw [hf] at h
      cases h
      exact Or.inr ⟨r, a, _, _, _, rfl, by rw [hf]; rfl, by rw [hf]; rfl,
        writeRefresh_committed a record user s.db, rfl⟩
    | answered credential response => rw [hf] at h; cases h

/-! ## The reservation behind the requests -/

/-- The credentials as resources that the requests reserve. -/
def FlightState.abs (s : FlightState ρ) : Reservation.State ρ Credential where
  avail := s.db.usable
  held r := {x | (s.flights r).held = some x}
  won r := {x | (s.flights r).won = some x}

/-- Every credential that a request has read or used has a row. -/
def FlightState.Known (s : FlightState ρ) : Prop :=
  ∀ r x, (s.flights r).held = some x ∨ (s.flights r).won = some x → x ∈ s.db.known

theorem FlightState.Known.update {s : FlightState ρ} (hk : s.Known) {db : AuthDb} (r : ρ)
    {f : Flight} (hdb : s.db.known ⊆ db.known)
    (hf : ∀ x, f.held = some x ∨ f.won = some x → x ∈ db.known) :
    FlightState.Known ⟨db, Function.update s.flights r f⟩ :=
  (Function.forall_update_iff s.flights
    fun _ f => ∀ x, f.held = some x ∨ f.won = some x → x ∈ db.known).mpr
    ⟨hf, fun r' _ x hx => hdb (hk r' x hx)⟩

/-- If the step is a read, no request has read the presented credential and not yet committed. -/
def UncontestedRead (env : AuthEnv) (tr : Sys.Transition (FlightState ρ) (FlightStep ρ) Unit) : Prop :=
  match tr.label with
  | .read _ request now => ∀ x ∈ request.presented env now, ∀ r, (tr.pre.flights r).held ≠ some x
  | .commit _ _ => True

instance [Fintype ρ] (env : AuthEnv) (tr : Sys.Transition (FlightState ρ) (FlightStep ρ) Unit) :
    Decidable (UncontestedRead env tr) :=
  match tr with
  | ⟨s, .read _ request now, _, _⟩ => inferInstanceAs (Decidable
      (∀ x ∈ request.presented env now, ∀ r, (s.flights r).held ≠ some x))
  | ⟨_, .commit _ _, _, _⟩ => isTrue trivial

/-- A read takes a usable credential that nobody else holds, or nothing. -/
theorem FlightState.abs_read {s : FlightState ρ} {r : ρ} {request : CredentialRequest} {now : Int}
    (hidle : s.flights r = .idle)
    (hfree : ∀ x ∈ request.presented env now, ∀ r', (s.flights r').held ≠ some x) :
    Reservation.Step s.abs (FlightState.abs { s with
      flights := Function.update s.flights r (readCredential env now s.db.toTables request) }) := by
  refine .take_local _ (fun f : Flight => {x | f.held = some x}) (fun f => {x | f.won = some x})
    s.flights r _ (fun x hx => (readCredential_held hx).1) (fun r' => ?_) ?_
  · refine Set.disjoint_left.mpr fun x hx hx' => ?_
    exact hfree x (readCredential_held hx).2 r' hx'
  · rw [readCredential_won, hidle]
    rfl

/-- A commit gives up, or uses up what the request holds; then it may offer a new refresh token. -/
theorem FlightState.abs_commit {s : FlightState ρ} (hk : s.Known) {r : ρ} {x : Credential}
    {db : AuthDb} {response : AuthResponse} (hheld : (s.flights r).held = some x)
    (hwon : (s.flights r).won = none)
    (hc : Committed x s.db.toTables db.toTables response.issued) :
    Relation.ReflTransGen Reservation.Step s.abs
      (FlightState.abs ⟨db, Function.update s.flights r (.answered (some x) response)⟩) := by
  let held (f : Flight) : Set Credential := {y | f.held = some y}
  let won (f : Flight) : Set Credential := {y | f.won = some y}
  have hheld' : held (s.flights r) = {x} := by
    ext y
    rw [Set.mem_ofPred_eq, hheld, Option.some.injEq, Set.mem_singleton_iff, eq_comm]
  have hwon' : won (s.flights r) = ∅ := by
    simp only [won, hwon, reduceCtorEq, Set.ofPred_false]
  have hdone : held (.answered (some x) response) = ∅ := by
    simp only [held, Flight.held, reduceCtorEq, Set.ofPred_false]
  have hgain : won (.answered (some x) response) =
      won (s.flights r) ∪ if response.issued = [] then ∅ else held (s.flights r) := by
    rw [hwon', Set.empty_union, hheld']
    simp only [won, Flight.won]
    split
    · simp only [reduceCtorEq, Set.ofPred_false]
    · ext y
      rw [Set.mem_ofPred_eq, Option.some.injEq, Set.mem_singleton_iff, eq_comm]
  cases hc with
  | failed hclaims husable hknown =>
    rw [if_pos hclaims, Set.union_empty] at hgain
    rw [FlightState.abs, FlightState.abs, husable]
    exact .single (.take_local _ held won s.flights r _ (by rw [hdone]; exact Set.empty_subset _)
      (fun r' => by rw [hdone]; exact Set.empty_disjoint _) hgain)
  | spent hclaims husable hknown =>
    rw [if_pos hclaims] at hgain
    rw [FlightState.abs, FlightState.abs, husable, ← hheld']
    exact .single (.settle_local _ held won s.flights r _ ∅ hdone (Set.empty_subset _) hgain)
  | exchanged jti hclaims husable hknown hnew =>
    rw [if_neg hclaims] at hgain
    rw [FlightState.abs, FlightState.abs, husable, ← hheld']
    refine .head (.settle_local _ held won s.flights r _ _ hdone subset_rfl hgain)
      (.single (.offer _ _ ?_))
    -- The new token has no row yet, so nobody has used it.
    refine (Function.forall_update_iff s.flights
      fun _ f => Disjoint (won f) {.refresh jti}).mpr ⟨?_, fun r' _ => ?_⟩
    · rw [hgain, hwon', Set.empty_union, hheld', Set.disjoint_singleton]
      exact fun he => hnew (he ▸ hk r x (Or.inl hheld))
    · exact Set.disjoint_singleton_right.mpr fun hx => hnew (hk r' _ (Or.inr hx))

theorem Committed.known_subset {x : Credential} {t t' : Tables} {claims : List Claims}
    (h : Committed x t t' claims) : t.known ⊆ t'.known := by
  cases h with
  | failed _ _ hknown => exact hknown.ge
  | spent _ _ hknown => exact hknown.ge
  | exchanged _ _ _ hknown => exact hknown.symm ▸ Set.subset_union_left

/-- A step of the requests is a step of the reservation, if reads are uncontested. -/
theorem FlightState.abs_step {s s' : FlightState ρ} {l : FlightStep ρ} {o : Unit}
    (h : flightStep env s l = some (s', o)) (hfree : UncontestedRead env ⟨s, l, o, s'⟩)
    (hk : s.Known) : s'.Known ∧ Relation.ReflTransGen Reservation.Step s.abs s'.abs := by
  obtain ⟨r, request, now, rfl, hidle, rfl⟩ | ⟨r, a, x, db, response, rfl, hheld, hwon, hc, rfl⟩ :=
    flightStep_cases h
  · refine ⟨hk.update r subset_rfl fun x hx => ?_, .single (FlightState.abs_read hidle hfree)⟩
    rw [readCredential_won] at hx
    obtain hx | hx := hx
    · exact Tables.usable_known _ (readCredential_held hx).1
    · cases hx
  · refine ⟨hk.update r hc.known_subset fun y hy => ?_,
      FlightState.abs_commit hk hheld hwon hc⟩
    have hxy : x = y := by
      obtain hy | hy := hy
      · cases hy
      · rw [Flight.won] at hy
        split at hy
        · cases hy
        · exact Option.some.inj hy
    exact hc.known_subset (hxy ▸ hk r x (Or.inl hheld))

/-- **Single use**: from any database, if no read is contested, no credential gives tokens to two
requests. -/
theorem credential_single_use (db : AuthDb) {s : FlightState ρ}
    {ts : List (Sys.Transition (FlightState ρ) (FlightStep ρ) Unit)}
    (hrun : Sys.Run (flightStep env) ⟨db, fun _ => .idle⟩ ts s)
    (hfree : ∀ tr ∈ ts, UncontestedRead env tr) :
    ∀ r r' x, (s.flights r).won = some x → (s.flights r').won = some x → r = r' := by
  have hk : FlightState.Known (⟨db, fun _ => .idle⟩ : FlightState ρ) := by
    rintro r x (h | h) <;> cases h
  have hsteps := (hrun.refines Reservation.Step FlightState.abs FlightState.Known hk
    fun s l o s' htr hst hk => FlightState.abs_step hst (hfree _ htr) hk).2
  have hinit : FlightState.abs (⟨db, fun _ => .idle⟩ : FlightState ρ) =
      ⟨db.usable, fun _ => ∅, fun _ => ∅⟩ := by
    simp only [FlightState.abs, Flight.held, Flight.won, reduceCtorEq, Set.ofPred_false]
  rw [hinit] at hsteps
  exact fun r r' x hx hx' => (Reservation.reach_inv hsteps (.init _)).won_inj hx hx'

/-- A schedule of requests, in a state that the auth endpoints can reach. -/
theorem exists_flights (env : AuthEnv) (us : List AuthLabel) (ls : List (FlightStep Bool))
    (p : List (Sys.Transition (FlightState Bool) (FlightStep Bool) Unit) → FlightState Bool → Prop)
    [∀ ts s, Decidable (p ts s)]
    (h : (Sys.exec (authStep env) .start us).any (fun u =>
      (Sys.exec (flightStep env) ⟨u.2.db, fun _ => .idle⟩ ls).any fun r => decide (p r.1 r.2)) = true) :
    ∃ us s₀ ts s, Sys.Run (authStep env) .start us s₀ ∧
      Sys.Run (flightStep env) ⟨s₀.db, fun _ => .idle⟩ ts s ∧ p ts s := by
  obtain ⟨⟨us', s₀⟩, hus, hls⟩ := (Option.any_eq_true _ _).mp h
  obtain ⟨ts, s, hrun, hp⟩ := Sys.exists_run _ _ ls p hls
  exact ⟨us', s₀, ts, s, Sys.exec_run hus, hrun, hp⟩

/-- Two requests with the login code of a demo account, one after the other. -/
theorem demo_single_use : ∃ us s₀ ts s, Sys.Run (authStep (demoAuthEnv true)) .start us s₀ ∧
    Sys.Run (flightStep (demoAuthEnv true)) ⟨s₀.db, fun _ : Bool => .idle⟩ ts s ∧
    (s.flights false).won = some (.otp "JKLMNP") ∧
    ∀ r r' x, (s.flights r).won = some x → (s.flights r').won = some x → r = r' := by
  obtain ⟨us, s₀, ts, s, hus, hrun, hfree, hwon⟩ := exists_flights (demoAuthEnv true) demoLogin
    [.read false (.verifyLoginOtp "demo@example.com" "jklmnp") 0,
      .commit false (demoAmbient "" "j1"),
      .read true (.verifyLoginOtp "demo@example.com" "jklmnp") 0]
    (fun ts s => (∀ tr ∈ ts, UncontestedRead (demoAuthEnv true) tr) ∧
      (s.flights false).won = some (.otp "JKLMNP")) (by decide +kernel)
  exact ⟨us, s₀, ts, s, hus, hrun, hwon, credential_single_use s₀.db hrun hfree⟩

/-- Two requests that both read the credential before one of them commits. -/
def demoOverlap (request : CredentialRequest) : List (FlightStep Bool) :=
  [.read false request 0, .read true request 0, .commit false (demoAmbient "" "j2"),
    .commit true (demoAmbient "" "j3")]

/-- Both get tokens, for a login code and for a refresh token. -/
theorem credential_double_use :
    (∃ us s₀ ts s, Sys.Run (authStep (demoAuthEnv true)) .start us s₀ ∧
      Sys.Run (flightStep (demoAuthEnv true)) ⟨s₀.db, fun _ : Bool => .idle⟩ ts s ∧
      ∀ r, (s.flights r).won = some (.otp "JKLMNP")) ∧
    ∃ us s₀ ts s, Sys.Run (authStep (demoAuthEnv true)) .start us s₀ ∧
      Sys.Run (flightStep (demoAuthEnv true)) ⟨s₀.db, fun _ : Bool => .idle⟩ ts s ∧
      ∀ r, (s.flights r).won = some (.refresh "j1") :=
  ⟨exists_flights (demoAuthEnv true) demoLogin
      (demoOverlap (.verifyLoginOtp "demo@example.com" "jklmnp")) _ (by decide +kernel),
    exists_flights (demoAuthEnv true)
      (demoLogin ++ [.request (.verifyLoginOtp "demo@example.com" "jklmnp") (demoAmbient "" "j1")])
      (demoOverlap (.refresh "refresh.u1.j1")) _ (by decide +kernel)⟩

end MarketKill3r
