import MarketKill3r.Auth.Runs

/-!
# What a step changes in each table

The effects of a request, read table by table.

* `AuthEffect.user_cases`: where a user row comes from, and who approves it.
* `AuthEffect.loginOtp_cases`, `AuthEffect.refreshToken_cases`: where the rows of these tables come
  from; `AuthEffect.claims_cases`: why tokens are issued (`TokenSource`).
* `AuthEffect.registrationCode_used`, `AuthEffect.loginOtp_used`: only an unused row is ever marked
  as used, and only by the endpoint of its own table.
-/

namespace MarketKill3r

variable {env : AuthEnv} {a : Ambient} {t t' : Tables} {r : AuthRequest} {claims : List Claims}

/-! ## Users -/

theorem mem_approveUser {userId : String} {users : List User} {u' : User}
    (h : u' ∈ approveUser userId users) :
    ∃ u ∈ users, u' = u ∨ (u.id = userId ∧ u' = { u with isApproved := true }) := by
  obtain ⟨u, hu, rfl⟩ := List.mem_map.mp h
  refine ⟨u, hu, ?_⟩
  split
  · exact Or.inr ⟨‹_›, rfl⟩
  · exact Or.inl rfl

theorem mem_switchUser {userId : String} {active : Bool} {users : List User} {u' : User}
    (h : u' ∈ switchUser userId active users) :
    ∃ u ∈ users, u' = u ∨ u' = { u with isActive := active } := by
  obtain ⟨u, hu, rfl⟩ := List.mem_map.mp h
  refine ⟨u, hu, ?_⟩
  split
  · exact Or.inr rfl
  · exact Or.inl rfl

/-- The row of a code is consumed by a registration. -/
def ApprovesBy (env : AuthEnv) (a : Ambient) (t t' : Tables) (r : AuthRequest) (userId : String) :
    Prop :=
  ∃ email code c, r = .verifyRegistration email code ∧ c ∈ t.registrationCodes ∧
    c.Matches env a.now userId code ∧ { c with usedAt := some a.now } ∈ t'.registrationCodes

/-- A matching row is marked. -/
theorem mem_useCode_self {now : Int} {rows : List CodeRow} {c : CodeRow} (h : c ∈ rows) :
    { c with usedAt := some now } ∈ useCode now c.codeHash rows :=
  List.mem_map.mpr ⟨c, h, if_pos rfl⟩

/-- A new registration code leaves the other tables alone. -/
theorem NewRegistrationCode.frame {userId : String} (h : NewRegistrationCode env a userId t t') :
    t'.users = t.users ∧ t'.loginOtps = t.loginOtps ∧ t'.refreshTokens = t.refreshTokens := by
  obtain ⟨base, i, rfl | rfl, rfl⟩ := h <;> exact ⟨rfl, rfl, rfl⟩

/-- A user row after a request: it was there before, with the same credentials and the same switch,
and approved unless this request approves it; or the request registers it. -/
theorem AuthEffect.user_cases (h : AuthEffect env a t r t' claims) {u' : User}
    (hu' : u' ∈ t'.users) :
    (∃ u ∈ t.users, u'.id = u.id ∧ u'.hashedPassword = u.hashedPassword ∧
      u'.isActive = u.isActive ∧
      (u'.isApproved = true → u.isApproved = true ∨ ApprovesBy env a t t' r u.id)) ∨
    (∃ payload, r = .register payload ∧ u' = newUser env a payload ∧
      t'.users = t.users ++ [u']) := by
  have hold : u' ∈ t.users → ∃ u ∈ t.users, u'.id = u.id ∧ u'.hashedPassword = u.hashedPassword ∧
      u'.isActive = u.isActive ∧
      (u'.isApproved = true → u.isApproved = true ∨ ApprovesBy env a t t' r u.id) :=
    fun hu => ⟨u', hu, rfl, rfl, rfl, Or.inl⟩
  have hadded : ∀ payload, t'.users = t.users ++ [newUser env a payload] →
      u' ∈ t.users ∨ u' = newUser env a payload := by
    intro payload husers
    rw [husers] at hu'
    exact (List.mem_append.mp hu').imp_right List.mem_singleton.mp
  cases h with
  | registered payload hnew =>
    exact (hadded payload rfl).imp hold fun hu => ⟨payload, rfl, hu, hu ▸ rfl⟩
  | registeredWithCode payload _ hnew hcode =>
    have husers : t'.users = t.users ++ [newUser env a payload] := hcode.frame.1
    exact (hadded payload husers).imp hold fun hu => ⟨payload, rfl, hu, hu ▸ husers⟩
  | approved email code user c huser hmem hc =>
    obtain ⟨u, hu, rfl | ⟨hid, rfl⟩⟩ := mem_approveUser hu'
    · exact Or.inl (hold hu)
    · refine Or.inl ⟨u, hu, rfl, rfl, rfl, fun _ => Or.inr ?_⟩
      exact ⟨email, code, c, rfl, hmem, hid ▸ hc, mem_useCode_self hmem⟩
  | resent email user _ huser hpending hcode =>
    exact Or.inl (hold (hcode.frame.1 ▸ hu'))
  | _ => exact Or.inl (hold hu')

/-- Users stay, and stay approved. -/
theorem AuthEffect.users_kept (h : AuthEffect env a t r t' claims) {u : User} (hu : u ∈ t.users) :
    ∃ u' ∈ t'.users, u'.id = u.id ∧ (u.isApproved = true → u'.isApproved = true) := by
  cases h with
  | registered payload hnew => exact ⟨u, List.mem_append_left _ hu, rfl, id⟩
  | registeredWithCode payload _ hnew hcode =>
    exact ⟨u, hcode.frame.1 ▸ List.mem_append_left _ hu, rfl, id⟩
  | approved email code user c huser hmem hc =>
    refine ⟨_, List.mem_map_of_mem hu, ?_⟩
    split
    · exact ⟨rfl, fun _ => rfl⟩
    · exact ⟨rfl, id⟩
  | resent email user _ huser hpending hcode => exact ⟨u, hcode.frame.1 ▸ hu, rfl, id⟩
  | _ => exact ⟨u, hu, rfl, id⟩

/-- No step removes a user or takes an approval back. -/
theorem users_kept {s s' : AuthState} {l : AuthLabel} {o : Option AuthResponse}
    (h : authStep env s l = some (s', o)) {u : User} (hu : u ∈ s.db.users) :
    ∃ u' ∈ s'.db.users, u'.id = u.id ∧ (u.isApproved = true → u'.isApproved = true) := by
  obtain ⟨r, a, claims, rfl, heff, -⟩ | ⟨userId, active, rfl, -, -, hdb⟩ := authStep_cases h
  · exact heff.users_kept hu
  · rw [hdb]
    refine ⟨_, List.mem_map_of_mem hu, ?_⟩
    split <;> exact ⟨rfl, id⟩

/-! ## Code tables -/

/-- A new registration code marks no row as used. -/
theorem NewRegistrationCode.kept {userId : String} (h : NewRegistrationCode env a userId t t')
    {c : CodeRow} (hc : c ∈ t.registrationCodes) :
    ∃ c' ∈ t'.registrationCodes, c'.codeHash = c.codeHash ∧ c'.usedAt = c.usedAt := by
  obtain ⟨base, i, rfl | rfl, rfl⟩ := h
  · exact ⟨c, List.mem_append_left _ hc, rfl, rfl⟩
  · refine ⟨_, List.mem_append_left _ (List.mem_map_of_mem hc), ?_, ?_⟩ <;> split <;> rfl

/-- The rows of a table in which an unused row is marked. -/
theorem useCode_kept {now : Int} {rows : List CodeRow} (hu : (rows.map (·.codeHash)).Nodup)
    {m : CodeRow} (hm : m ∈ rows) (hunused : m.usedAt = none) {c : CodeRow} (hc : c ∈ rows) :
    ∃ c' ∈ useCode now m.codeHash rows, c'.codeHash = c.codeHash ∧
      (c'.usedAt = c.usedAt ∨ (c.usedAt = none ∧ c'.usedAt ≠ none)) := by
  by_cases he : c.codeHash = m.codeHash
  · obtain rfl := List.inj_on_of_nodup_map hu hc hm he
    exact ⟨_, mem_useCode_self hm, rfl, Or.inr ⟨hunused, Option.some_ne_none _⟩⟩
  · exact ⟨c, List.mem_map.mpr ⟨c, hc, if_neg he⟩, rfl, Or.inl rfl⟩

/-- Registration codes stay, and only a registration marks one as used, an unused one. -/
theorem AuthEffect.registrationCode_used (h : AuthEffect env a t r t' claims) (hu : t.Unique)
    {c : CodeRow} (hc : c ∈ t.registrationCodes) :
    ∃ c' ∈ t'.registrationCodes, c'.codeHash = c.codeHash ∧ (c'.usedAt = c.usedAt ∨
      (c.usedAt = none ∧ c'.usedAt ≠ none ∧ ∃ email code, r = .verifyRegistration email code)) := by
  cases h with
  | registeredWithCode payload _ hnew hcode =>
    obtain ⟨c', hc', hh, hused⟩ := hcode.kept hc
    exact ⟨c', hc', hh, Or.inl hused⟩
  | approved email code user m huser hmem hm =>
    obtain ⟨c', hc', hh, hused⟩ := useCode_kept hu.registrationHashes hmem hm.unused hc
    exact ⟨c', hc', hh, hused.imp_right fun ⟨h1, h2⟩ => ⟨h1, h2, email, code, rfl⟩⟩
  | resent email user _ huser hpending hcode =>
    obtain ⟨c', hc', hh, hused⟩ := hcode.kept hc
    exact ⟨c', hc', hh, Or.inl hused⟩
  | _ => exact ⟨c, hc, rfl, Or.inl rfl⟩

/-- Login codes stay, and only a login verification marks one as used, an unused one. -/
theorem AuthEffect.loginOtp_used (h : AuthEffect env a t r t' claims) (hu : t.Unique)
    {c : CodeRow} (hc : c ∈ t.loginOtps) :
    ∃ c' ∈ t'.loginOtps, c'.codeHash = c.codeHash ∧ (c'.usedAt = c.usedAt ∨
      (c.usedAt = none ∧ c'.usedAt ≠ none ∧ ∃ email code, r = .verifyLoginOtp email code)) := by
  cases h with
  | registeredWithCode payload _ hnew hcode => exact ⟨c, hcode.frame.2.1 ▸ hc, rfl, Or.inl rfl⟩
  | resent email user _ huser hpending hcode => exact ⟨c, hcode.frame.2.1 ▸ hc, rfl, Or.inl rfl⟩
  | otpSent email password user i huser hpw happ hact =>
    exact ⟨c, List.mem_append_left _ hc, rfl, Or.inl rfl⟩
  | otpSpent email code user m huser hmem hm =>
    obtain ⟨c', hc', hh, hused⟩ := useCode_kept hu.otpHashes hmem hm.unused hc
    exact ⟨c', hc', hh, hused.imp_right fun ⟨h1, h2⟩ => ⟨h1, h2, email, code, rfl⟩⟩
  | otpVerified email code user m huser hmem hm =>
    obtain ⟨c', hc', hh, hused⟩ := useCode_kept hu.otpHashes hmem hm.unused hc
    exact ⟨c', hc', hh, hused.imp_right fun ⟨h1, h2⟩ => ⟨h1, h2, email, code, rfl⟩⟩
  | _ => exact ⟨c, hc, rfl, Or.inl rfl⟩

theorem mem_useCode {now : Int} {codeHash : String} {rows : List CodeRow} {c' : CodeRow}
    (h : c' ∈ useCode now codeHash rows) :
    ∃ c ∈ rows, c'.userId = c.userId ∧ c'.codeHash = c.codeHash := by
  obtain ⟨c, hc, rfl⟩ := List.mem_map.mp h
  refine ⟨c, hc, ?_⟩
  split <;> exact ⟨rfl, rfl⟩

/-- A login code after a request was there before, or a login of its approved and active user has
just drawn it. -/
theorem AuthEffect.loginOtp_cases (h : AuthEffect env a t r t' claims) {p' : LoginOTP}
    (hp' : p' ∈ t'.loginOtps) :
    (∃ p ∈ t.loginOtps, p'.userId = p.userId ∧ p'.codeHash = p.codeHash) ∨
    (∃ email password user i, r = .login email password ∧ t.userByEmail email = some user ∧
      env.verifyPassword password user.hashedPassword = true ∧ user.isApproved = true ∧
      user.isActive = true ∧ p' = codeRow env a user.id env.loginOtpExpireMinutes i ∧
      t'.loginOtps = t.loginOtps ++ [p']) := by
  cases h with
  | registeredWithCode payload _ hnew hcode =>
    exact Or.inl ⟨p', hcode.frame.2.1 ▸ hp', rfl, rfl⟩
  | resent email user _ huser hpending hcode =>
    exact Or.inl ⟨p', hcode.frame.2.1 ▸ hp', rfl, rfl⟩
  | otpSent email password user i huser hpw happ hact =>
    obtain hp | hp := List.mem_append.mp hp'
    · exact Or.inl ⟨p', hp, rfl, rfl⟩
    · obtain rfl := List.mem_singleton.mp hp
      exact Or.inr ⟨email, password, user, i, rfl, huser, hpw, happ, hact, rfl, rfl⟩
  | otpSpent email code user m huser hmem hm => exact Or.inl (mem_useCode hp')
  | otpVerified email code user m huser hmem hm => exact Or.inl (mem_useCode hp')
  | _ => exact Or.inl ⟨p', hp', rfl, rfl⟩

/-! ## Refresh tokens -/

/-- Every row is still there, for the same user. Its replacement and its revocation stay. -/
def RowsKept (rows rows' : List RefreshToken) : Prop :=
  ∀ r ∈ rows, ∃ r' ∈ rows', r'.jti = r.jti ∧ r'.userId = r.userId ∧
    (∀ j, r.replacedByJti = some j → r'.replacedByJti = some j) ∧
    (r.revokedAt ≠ none → r'.revokedAt ≠ none)

theorem RowsKept.append (rows : List RefreshToken) (new : RefreshToken) :
    RowsKept rows (rows ++ [new]) :=
  fun r hr => ⟨r, List.mem_append_left _ hr, rfl, rfl, fun _ h => h, id⟩

theorem RowsKept.revoke (now : Int) (jti : String) (rows : List RefreshToken) :
    RowsKept rows (revokeToken now jti rows) := by
  intro r hr
  refine ⟨_, List.mem_map_of_mem hr, ?_⟩
  split
  · exact ⟨rfl, rfl, fun _ h => h, fun _ => Option.some_ne_none _⟩
  · exact ⟨rfl, rfl, fun _ h => h, id⟩

/-- A rotation keeps the rows, if the rotated row had no replacement yet. -/
theorem RowsKept.rotate {now : Int} {rows : List RefreshToken} {record new : RefreshToken}
    {newJti : String} (hu : (rows.map (·.jti)).Nodup) (hrecord : record ∈ rows)
    (hfree : record.replacedByJti = none) :
    RowsKept rows (rotateToken now record.jti newJti rows ++ [new]) := by
  intro r hr
  refine ⟨_, List.mem_append_left _ (List.mem_map_of_mem hr), ?_⟩
  split
  · rename_i hj
    obtain rfl := List.inj_on_of_nodup_map hu hr hrecord hj
    refine ⟨rfl, rfl, fun j h => ?_, fun _ => Option.some_ne_none _⟩
    rw [hfree] at h
    cases h
  · exact ⟨rfl, rfl, fun _ h => h, id⟩

theorem mem_rotateToken {now : Int} {rows : List RefreshToken} {record : RefreshToken}
    {newJti : String} (h : record ∈ rows) :
    { record with revokedAt := some now, replacedByJti := some newJti } ∈
      rotateToken now record.jti newJti rows :=
  List.mem_map.mpr ⟨record, h, if_pos rfl⟩

/-- Why a request issues tokens to the user with this id. -/
inductive TokenSource (env : AuthEnv) (a : Ambient) (t t' : Tables) : AuthRequest → String → Prop
  | login (email password : String) (user : User) (huser : t.userByEmail email = some user)
      (happ : user.isApproved = true) (hact : user.isActive = true)
      (hotp : env.loginOtpEnabled = false) :
      TokenSource env a t t' (.login email password) user.id
  | otp (email code : String) (user : User) (otp : LoginOTP)
      (huser : t.userByEmail email = some user) (hmem : otp ∈ t.loginOtps)
      (hotp : otp.Matches env a.now user.id code)
      (hmark : { otp with usedAt := some a.now } ∈ t'.loginOtps)
      (hrows : t'.refreshTokens = t.refreshTokens ++ [refreshRow env a user.id]) :
      TokenSource env a t t' (.verifyLoginOtp email code) user.id
  | rotation (refreshToken : String) (record : RefreshToken) (user : User)
      (hcheck : RefreshChecked env a.now refreshToken t record user)
      (hrotated : { record with revokedAt := some a.now, replacedByJti := some a.jti } ∈
        t'.refreshTokens) :
      TokenSource env a t t' (.refresh refreshToken) user.id

/-- The tokens that a request hands out: none, or a pair for a user whose new row is in the table. -/
theorem AuthEffect.claims_cases (h : AuthEffect env a t r t' claims) :
    claims = [] ∨ ∃ userId, claims = pairClaims env a userId ∧
      refreshRow env a userId ∈ t'.refreshTokens ∧ TokenSource env a t t' r userId := by
  cases h with
  | loggedIn email password user huser hpw happ hact hotp =>
    exact Or.inr ⟨user.id, rfl, by simp, .login email password user huser happ hact hotp⟩
  | otpVerified email code user otp huser hmem hotp =>
    exact Or.inr ⟨user.id, rfl, by simp,
      .otp email code user otp huser hmem hotp (mem_useCode_self hmem) rfl⟩
  | rotated refreshToken record user hcheck =>
    exact Or.inr ⟨user.id, rfl, by simp, .rotation refreshToken record user hcheck
      (List.mem_append_left _ (mem_rotateToken hcheck.record_mem))⟩
  | _ => exact Or.inl rfl

/-- Where the rows of the table come from: they were there before, for the same user, or a token
pair was issued with them. -/
theorem AuthEffect.refreshToken_cases (h : AuthEffect env a t r t' claims) {x' : RefreshToken}
    (hx' : x' ∈ t'.refreshTokens) :
    (∃ x ∈ t.refreshTokens, x'.jti = x.jti ∧ x'.userId = x.userId ∧
      (x'.revokedAt = none → x.revokedAt = none ∧ x'.replacedByJti = x.replacedByJti)) ∨
    ∃ userId, x' = refreshRow env a userId ∧ TokenSource env a t t' r userId := by
  have hold : x' ∈ t.refreshTokens → ∃ x ∈ t.refreshTokens, x'.jti = x.jti ∧ x'.userId = x.userId ∧
      (x'.revokedAt = none → x.revokedAt = none ∧ x'.replacedByJti = x.replacedByJti) :=
    fun hx => ⟨x', hx, rfl, rfl, fun hn => ⟨hn, rfl⟩⟩
  cases h with
  | registeredWithCode payload _ hnew hcode => exact Or.inl (hold (hcode.frame.2.2 ▸ hx'))
  | resent email user _ huser hpending hcode => exact Or.inl (hold (hcode.frame.2.2 ▸ hx'))
  | loggedIn email password user huser hpw happ hact hotp =>
    obtain hx | hx := List.mem_append.mp hx'
    · exact Or.inl (hold hx)
    · exact Or.inr ⟨user.id, List.mem_singleton.mp hx,
        .login email password user huser happ hact hotp⟩
  | otpVerified email code user otp huser hmem hotp =>
    obtain hx | hx := List.mem_append.mp hx'
    · exact Or.inl (hold hx)
    · exact Or.inr ⟨user.id, List.mem_singleton.mp hx,
        .otp email code user otp huser hmem hotp (mem_useCode_self hmem) rfl⟩
  | rotated refreshToken record user hcheck =>
    obtain hx | hx := List.mem_append.mp hx'
    · obtain ⟨x, hmem, rfl⟩ := List.mem_map.mp hx
      refine Or.inl ⟨x, hmem, ?_⟩
      split
      · exact ⟨rfl, rfl, fun hn => by cases hn⟩
      · exact ⟨rfl, rfl, fun hn => ⟨hn, rfl⟩⟩
    · exact Or.inr ⟨user.id, List.mem_singleton.mp hx, .rotation refreshToken record user hcheck
        (List.mem_append_left _ (mem_rotateToken hcheck.record_mem))⟩
  | loggedOut bearer refreshToken user record hcurrent hmem howner hlive =>
    obtain ⟨x, hmem, rfl⟩ := List.mem_map.mp hx'
    refine Or.inl ⟨x, hmem, ?_⟩
    split
    · exact ⟨rfl, rfl, fun hn => by cases hn⟩
    · exact ⟨rfl, rfl, fun hn => ⟨hn, rfl⟩⟩
  | _ => exact Or.inl (hold hx')

/-- The refresh tokens after a request: as they were, or with a row for a new token pair, or with a
live row rotated into a new one, or with a live row revoked. -/
theorem AuthEffect.refreshTokens_eq (h : AuthEffect env a t r t' claims) :
    t'.refreshTokens = t.refreshTokens ∨
    (∃ userId, t'.refreshTokens = t.refreshTokens ++ [refreshRow env a userId]) ∨
    (∃ refreshToken record user, r = .refresh refreshToken ∧
      RefreshChecked env a.now refreshToken t record user ∧
      t'.refreshTokens = rotateToken a.now record.jti a.jti t.refreshTokens ++
        [refreshRow env a user.id]) ∨
    ∃ record ∈ t.refreshTokens, record.revokedAt = none ∧
      t'.refreshTokens = revokeToken a.now record.jti t.refreshTokens := by
  cases h with
  | registeredWithCode payload _ hnew hcode => exact Or.inl hcode.frame.2.2
  | resent email user _ huser hpending hcode => exact Or.inl hcode.frame.2.2
  | loggedIn email password user huser hpw happ hact hotp => exact Or.inr (Or.inl ⟨user.id, rfl⟩)
  | otpVerified email code user otp huser hmem hotp => exact Or.inr (Or.inl ⟨user.id, rfl⟩)
  | rotated refreshToken record user hcheck =>
    exact Or.inr (Or.inr (Or.inl ⟨refreshToken, record, user, rfl, hcheck, rfl⟩))
  | loggedOut bearer refreshToken user record hcurrent hmem howner hlive =>
    exact Or.inr (Or.inr (Or.inr ⟨record, hmem, hlive, rfl⟩))
  | _ => exact Or.inl rfl

/-- Refresh-token rows stay, if no live row has a replacement. -/
theorem AuthEffect.refreshTokens_kept (h : AuthEffect env a t r t' claims) (hu : t.Unique)
    (hfree : ∀ x ∈ t.refreshTokens, x.revokedAt = none → x.replacedByJti = none) :
    RowsKept t.refreshTokens t'.refreshTokens := by
  obtain he | ⟨userId, he⟩ | ⟨token, record, user, -, hcheck, he⟩ | ⟨record, -, -, he⟩ :=
    h.refreshTokens_eq <;> rw [he]
  · exact fun x hx => ⟨x, hx, rfl, rfl, fun _ h => h, id⟩
  · exact .append _ _
  · exact .rotate hu.jtis hcheck.record_mem (hfree record hcheck.record_mem hcheck.unrevoked)
  · exact .revoke _ _ _

/-- In a unique column, a value that is appended was not there. -/
theorem ne_of_append_nodup {α β : Type} {f : α → β} {xs : List α} {x : α}
    (h : ((xs ++ [x]).map f).Nodup) : ∀ y ∈ xs, f y ≠ f x := by
  intro y hy he
  exact (nodup_map_concat.mp h).1 (he ▸ List.mem_map_of_mem hy)

/-! ## Sessions -/

/-- Live rows have no replacement, and every refresh token that was handed out has a row, which
belongs to the user in its claims. -/
structure Sessions (s : AuthState) : Prop where
  unreplaced : ∀ r ∈ s.db.refreshTokens, r.revokedAt = none → r.replacedByJti = none
  issued : ∀ c ∈ s.issued, c.type = some "refresh" →
    ∃ r ∈ s.db.refreshTokens, c.jti = some r.jti ∧ c.sub = some r.userId

namespace Sessions

variable {s s' : AuthState} {l : AuthLabel} {o : Option AuthResponse}

theorem start : Sessions .start := ⟨List.forall_mem_nil _, List.forall_mem_nil _⟩

/-- Every step keeps it. -/
theorem step (h : Sessions s) (hst : authStep env s l = some (s', o)) : Sessions s' := by
  obtain ⟨r, a, claims, rfl, heff, hissued, -⟩ | ⟨userId, active, rfl, -, hissued, hdb⟩ :=
    authStep_cases hst
  · refine ⟨fun x' hx' hlive => ?_, fun c hc htype => ?_⟩
    · obtain ⟨x, hx, -, -, hsame⟩ | ⟨userId, rfl, -⟩ := heff.refreshToken_cases hx'
      · obtain ⟨h1, h2⟩ := hsame hlive
        rw [h2]
        exact h.unreplaced x hx h1
      · rfl
    · rw [hissued, List.mem_append] at hc
      obtain hc | hc := hc
      · obtain ⟨x, hx, hj, hu⟩ := h.issued c hc htype
        obtain ⟨x', hx', hxj, hxu, -⟩ := heff.refreshTokens_kept s.db.unique h.unreplaced x hx
        exact ⟨x', hx', by rw [hj, hxj], by rw [hu, hxu]⟩
      · obtain rfl | ⟨userId, rfl, hrow, -⟩ := heff.claims_cases
        · cases hc
        · refine ⟨_, hrow, ?_⟩
          obtain rfl | rfl : c = (createAccessToken env a userId).claims ∨
              c = (createRefreshToken env a userId).1.claims := by simpa [pairClaims] using hc
          · simp [createAccessToken] at htype
          · exact ⟨rfl, rfl⟩
  · have hrows : s'.db.refreshTokens = s.db.refreshTokens := by rw [hdb]
    exact ⟨by rw [hrows]; exact h.unreplaced, by rw [hrows, hissued]; exact h.issued⟩

/-- A token that a refresh has decoded belongs to the user of its row. -/
theorem refresh_owner (h : Sessions s) {refreshToken : String} {record : RefreshToken} {user : User}
    (hunf : Unforged env ⟨s, .request (.refresh refreshToken) a, o, s'⟩)
    (hcheck : RefreshChecked env a.now refreshToken s.db.toTables record user) :
    record.userId = user.id := by
  obtain ⟨c, hdec, htype, hjti, hsub⟩ := hcheck.claims
  have hissued : c ∈ s.issued := hunf refreshToken (by simp [AuthRequest.presented]) c hdec
  obtain ⟨x, hx, hxj, hxu⟩ := h.issued c hissued htype
  have hj : x.jti = record.jti := Option.some.inj (hxj.symm.trans hjti)
  obtain rfl := List.inj_on_of_nodup_map s.db.unique.jtis hx hcheck.record_mem hj
  exact Option.some.inj (hxu.symm.trans hsub)

end Sessions

end MarketKill3r
