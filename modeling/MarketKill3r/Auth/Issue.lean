import MarketKill3r.Auth.Changes

/-!
# Who gets tokens

Tokens are issued by `login` (with login codes switched off), `verify_login_otp` and `refresh`. The
first and the last check that the account is approved and active; `verify_login_otp` relies on the
checks of the login that created the code, and an administrator may have switched the account off
since.

* `OtpOfApproved`: every login code belongs to an approved user.
* `tokens_to_active_users`: tokens go to approved and active users, as long as no login code of an
  inactive account is verified.
* `tokens_to_inactive_user`: a run in which an inactive account gets tokens.
-/

namespace MarketKill3r

variable {env : AuthEnv}

/-- Every login code belongs to an approved user. -/
def OtpOfApproved (s : AuthState) : Prop :=
  ∀ p ∈ s.db.loginOtps, ∃ u ∈ s.db.users, u.id = p.userId ∧ u.isApproved = true

/-- Where a login code comes from: an earlier one, or a login of an approved user. -/
theorem loginOtps_step {s s' : AuthState} {l : AuthLabel} {o : Option AuthResponse}
    (h : authStep env s l = some (s', o)) {p' : LoginOTP} (hp' : p' ∈ s'.db.loginOtps) :
    (∃ p ∈ s.db.loginOtps, p'.userId = p.userId) ∨
      ∃ u ∈ s.db.users, u.id = p'.userId ∧ u.isApproved = true := by
  obtain ⟨r, a, claims, rfl, heff, -⟩ | ⟨userId, active, rfl, -, -, hdb⟩ := authStep_cases h
  · obtain ⟨p, hp, huser, -⟩ | ⟨email, password, user, i, -, huser, -, happ, -, rfl, -⟩ :=
      heff.loginOtp_cases hp'
    · exact Or.inl ⟨p, hp, huser⟩
    · exact Or.inr ⟨user, (userByEmail_spec huser).1, rfl, happ⟩
  · rw [hdb] at hp'
    exact Or.inl ⟨p', hp', rfl⟩

theorem OtpOfApproved.step {s s' : AuthState} {l : AuthLabel} {o : Option AuthResponse}
    (hinv : OtpOfApproved s) (h : authStep env s l = some (s', o)) : OtpOfApproved s' := by
  intro p' hp'
  have hold : ∃ u ∈ s.db.users, u.id = p'.userId ∧ u.isApproved = true := by
    obtain ⟨p, hp, huser⟩ | hnew := loginOtps_step h hp'
    · rw [huser]
      exact hinv p hp
    · exact hnew
  obtain ⟨u, hu, hid, happ⟩ := hold
  obtain ⟨u', hu', hid', happ'⟩ := users_kept h hu
  exact ⟨u', hu', hid'.trans hid, happ' happ⟩

/-- The claims of the tokens that the transition hands out. -/
def tokensOf (tr : AuthTransition) : List Claims := tr.out.elim [] AuthResponse.issued

/-- If the transition is a login verification with a code that matches a live, unexpired login code
of the account, the account is active. -/
def VerifiesActive (env : AuthEnv) (tr : AuthTransition) : Prop :=
  match tr.label with
  | .request (.verifyLoginOtp email code) a => ∀ u ∈ tr.pre.db.users, u.email = email →
      (∃ otp ∈ tr.pre.db.loginOtps, otp.Matches env a.now u.id code) → u.isActive = true
  | _ => True

instance (env : AuthEnv) (tr : AuthTransition) : Decidable (VerifiesActive env tr) :=
  match tr with
  | ⟨s, .request (.verifyLoginOtp email code) a, _, _⟩ =>
    inferInstanceAs (Decidable (∀ u ∈ s.db.users, u.email = email →
      (∃ otp ∈ s.db.loginOtps, otp.Matches env a.now u.id code) → u.isActive = true))
  | ⟨_, .request (.register _) _, _, _⟩ => isTrue trivial
  | ⟨_, .request (.verifyRegistration _ _) _, _, _⟩ => isTrue trivial
  | ⟨_, .request (.resendRegistrationNotice _) _, _, _⟩ => isTrue trivial
  | ⟨_, .request (.login _ _) _, _, _⟩ => isTrue trivial
  | ⟨_, .request (.refresh _) _, _, _⟩ => isTrue trivial
  | ⟨_, .request (.logout _ _) _, _, _⟩ => isTrue trivial
  | ⟨_, .setActive _ _, _, _⟩ => isTrue trivial

/-- The tokens of one step, in a state where login codes belong to approved users. -/
theorem OtpOfApproved.tokens {tr : AuthTransition} (hinv : OtpOfApproved tr.pre)
    (hst : authStep env tr.pre tr.label = some (tr.post, tr.out)) (hact : VerifiesActive env tr)
    {c : Claims} (hc : c ∈ tokensOf tr) :
    ∃ u ∈ tr.pre.db.users, c.sub = some u.id ∧ u.isApproved = true ∧ u.isActive = true := by
  obtain ⟨r, a, claims, hl, heff, -, hout⟩ | ⟨userId, active, -, hout, -⟩ := authStep_cases hst
  · rw [tokensOf, hout] at hc
    obtain rfl | ⟨userId, rfl, -, hsource⟩ := heff.claims_cases
    · cases hc
    have hsub : c.sub = some userId := by
      simp only [pairClaims, List.mem_cons, List.not_mem_nil, or_false] at hc
      obtain rfl | rfl := hc <;> rfl
    rw [hsub]
    cases hsource with
    | login email password user huser happ hactive hoff =>
      exact ⟨user, (userByEmail_spec huser).1, rfl, happ, hactive⟩
    | otp email code user otp huser hmem hmatch hmark hrows =>
      obtain ⟨hu, hemail⟩ := userByEmail_spec huser
      obtain ⟨u, hu', hid, happ⟩ := hinv otp hmem
      obtain rfl := List.inj_on_of_nodup_map tr.pre.db.unique.ids hu' hu
        (hid.trans hmatch.user)
      simp only [VerifiesActive, hl] at hact
      exact ⟨u, hu, rfl, happ, hact u hu hemail ⟨otp, hmem, hmatch⟩⟩
    | rotation refreshToken record user hcheck hrotated =>
      exact ⟨user, hcheck.user_mem, rfl, hcheck.approved, hcheck.active⟩
  · rw [tokensOf, hout] at hc
    cases hc

/-- **Tokens go to approved and active users**, in every run from the empty database in which no
login code of an inactive account is verified. -/
theorem tokens_to_active_users {s : AuthState} {ts : List AuthTransition}
    (hrun : Sys.Run (authStep env) .start ts s) (hact : ∀ tr ∈ ts, VerifiesActive env tr) :
    ∀ tr ∈ ts, ∀ c ∈ tokensOf tr,
      ∃ u ∈ tr.pre.db.users, c.sub = some u.id ∧ u.isApproved = true ∧ u.isActive = true := by
  intro tr htr c hc
  obtain ⟨before, after, rfl⟩ := List.append_of_mem htr
  obtain ⟨hpast, hst⟩ := hrun.cut
  have hinv : OtpOfApproved tr.pre := hpast.invariant (fun _ h => by cases h)
    fun _ _ _ _ _ h hinv => hinv.step h
  exact hinv.tokens hst (hact tr htr) hc

theorem demo_tokens_to_active : ∃ ts s, Sys.Run (authStep (demoAuthEnv true)) .start ts s ∧
    s.issued ≠ [] ∧ ∀ tr ∈ ts, ∀ c ∈ tokensOf tr,
      ∃ u ∈ tr.pre.db.users, c.sub = some u.id ∧ u.isApproved = true ∧ u.isActive = true := by
  obtain ⟨ts, s, hrun, hact, hs⟩ := Sys.exists_run (authStep (demoAuthEnv true)) .start
    (demoLogin ++ [.request (.verifyLoginOtp "demo@example.com" "jklmnp") (demoAmbient "" "j1"),
      .setActive "u1" false])
    (fun ts s => (∀ tr ∈ ts, VerifiesActive (demoAuthEnv true) tr) ∧ s.issued ≠ [])
    (by decide +kernel)
  exact ⟨ts, s, hrun, hs, tokens_to_active_users hrun hact⟩

/-- The administrator switches the account off between the login and its verification. -/
theorem tokens_to_inactive_user : ∃ ts s, Sys.Run (authStep (demoAuthEnv true)) .start ts s ∧
    ∃ tr ∈ ts, ∃ c ∈ tokensOf tr, ∀ u ∈ tr.pre.db.users, c.sub = some u.id → u.isActive = false :=
  Sys.exists_run (authStep (demoAuthEnv true)) .start
    (demoLogin ++ [.setActive "u1" false,
      .request (.verifyLoginOtp "demo@example.com" "jklmnp") (demoAmbient "" "j1")])
    (fun ts _ => ∃ tr ∈ ts, ∃ c ∈ tokensOf tr, ∀ u ∈ tr.pre.db.users, c.sub = some u.id →
      u.isActive = false) (by decide +kernel)

end MarketKill3r
