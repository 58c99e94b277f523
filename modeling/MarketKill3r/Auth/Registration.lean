import MarketKill3r.Auth.Changes

/-!
# Live registration codes

`_create_and_send_registration_code` revokes the live codes of the user and adds a new one in the
same transaction. When this commit fails, the rollback takes the revocation back, and the next
attempt adds its code alone.

* `NewCode`: the rows that the call leaves, by the first attempt that commits.
* `OneLiveCode`: every user has at most one live code; `OneLiveCode.step`: what keeps it;
  `ResendsCleanly.of_oneLiveCode`: nothing else does.
* `one_live_code_iff`: it holds all along a run exactly when no resend for a user with a live code
  gets through at a later attempt than the first.
-/

namespace MarketKill3r

variable {env : AuthEnv} {a : Ambient}

/-! ## The attempts -/

/-- Attempt `i` of the loop, whose commit is number `n + i` of the request, does not commit: the
hash of its code is in the table, or the database fails. -/
def AttemptFails (env : AuthEnv) (a : Ambient) (n : Nat) (t : Tables) (i : Nat) : Prop :=
  a.commitFails (n + i) = true ∨ env.hashCode (a.codes i) ∈ t.registrationCodes.map (·.codeHash)

instance (env : AuthEnv) (a : Ambient) (n : Nat) (t : Tables) (i : Nat) :
    Decidable (AttemptFails env a n t i) := inferInstanceAs (Decidable (_ ∨ _))

/-- The tables with the code of attempt `i`. -/
def addCode (env : AuthEnv) (a : Ambient) (userId : String) (t : Tables) (i : Nat) : Tables :=
  { t with registrationCodes := t.registrationCodes ++
      [codeRow env a userId env.registrationCodeExpireMinutes i] }

/-- The call changes nothing, or commits at the first attempt, or at a later one. -/
inductive NewCode (env : AuthEnv) (a : Ambient) (n : Nat) (userId : String) (t : Tables) :
    Tables → Prop
  | none (h : ∀ i < 5, AttemptFails env a n t i) : NewCode env a n userId t t
  | first (h : ¬ AttemptFails env a n t 0) :
      NewCode env a n userId t (addCode env a userId (revokeLiveCodes userId t) 0)
  | later (i : Nat) (h0 : AttemptFails env a n t 0) (hi : 0 < i ∧ i < 5)
      (h : ¬ AttemptFails env a n t i) : NewCode env a n userId t (addCode env a userId t i)

theorem revokeLiveCodes_hashes (userId : String) (t : Tables) :
    (revokeLiveCodes userId t).registrationCodes.map (·.codeHash) =
      t.registrationCodes.map (·.codeHash) := by
  rw [revokeLiveCodes, List.map_map]
  refine List.map_congr_left fun c _ => ?_
  simp only [Function.comp_apply]
  split <;> rfl

/-- A commit of a new code, on tables that differ from the published ones in other columns only. -/
theorem commit_addCode {n i : Nat} {userId : String} {db : AuthDb} {base : Tables}
    (husers : base.users = db.users) (hotps : base.loginOtps = db.loginOtps)
    (htokens : base.refreshTokens = db.refreshTokens)
    (hhashes : base.registrationCodes.map (·.codeHash) = db.registrationCodes.map (·.codeHash)) :
    (AuthDb.commit (a.commitFails (n + i)) (addCode env a userId base i) = none ↔
      AttemptFails env a n db.toTables i) := by
  have hunique : (addCode env a userId base i).Unique ↔
      env.hashCode (a.codes i) ∉ db.registrationCodes.map (·.codeHash) := by
    have hnodup := @nodup_map_concat _ _ (·.codeHash) base.registrationCodes
      (codeRow env a userId env.registrationCodeExpireMinutes i)
    rw [hhashes] at hnodup
    constructor
    · exact fun h => (hnodup.mp h.registrationHashes).1
    · exact fun h => ⟨husers ▸ db.unique.ids, husers ▸ db.unique.emails,
        hnodup.mpr ⟨h, db.unique.registrationHashes⟩, hotps ▸ db.unique.otpHashes,
        htokens ▸ db.unique.jtis⟩
  unfold AuthDb.commit AttemptFails
  rw [dite_eq_right_iff]
  constructor
  · intro h
    by_cases hf : a.commitFails (n + i) = true
    · exact Or.inl hf
    · refine Or.inr (not_not.mp fun hmem => ?_)
      have hok : a.commitFails (n + i) = false ∧ (addCode env a userId base i).Unique :=
        ⟨by simpa using hf, hunique.mpr hmem⟩
      cases h hok
  · rintro (hf | hmem) ⟨hok, hu⟩
    · rw [hf] at hok; cases hok
    · exact absurd hmem (hunique.mp hu)

/-- A code loop whose working copy is the published tables: every attempt fails, or one of them
commits. -/
theorem codeLoop_retry (commit : Nat → Tables → Option AuthDb) (db : AuthDb)
    (add : String → Tables → Tables) (codes : Nat → String) (fuel i : Nat) :
    (codeLoop commit db add codes fuel i db.toTables = none ∧
      ∀ j, i ≤ j → j < i + fuel → commit j (add (codes j) db.toTables) = none) ∨
    ∃ j db', i ≤ j ∧ j < i + fuel ∧ commit j (add (codes j) db.toTables) = some db' ∧
      codeLoop commit db add codes fuel i db.toTables = some (db', codes j) := by
  induction fuel generalizing i with
  | zero => exact Or.inl ⟨rfl, fun j h1 h2 => absurd h2 (by omega)⟩
  | succ fuel ih =>
    rw [codeLoop]
    cases hc : commit i (add (codes i) db.toTables) with
    | some db' => exact Or.inr ⟨i, db', Nat.le_refl i, by omega, hc, rfl⟩
    | none =>
      obtain ⟨hnone, hall⟩ | ⟨j, db', h1, h2, hj, hloop⟩ := ih (i + 1)
      · refine Or.inl ⟨hnone, fun j h1 h2 => ?_⟩
        obtain rfl | hlt := Nat.eq_or_lt_of_le h1
        · exact hc
        · exact hall j hlt (by omega)
      · exact Or.inr ⟨j, db', by omega, by omega, hj, hloop⟩

/-- What `_create_and_send_registration_code` can do: every attempt fails and the database is left as
it was, or an attempt commits and the call succeeds. -/
theorem createAndSendRegistrationCode_cases (env : AuthEnv) (a : Ambient) (n : Nat) (user : User)
    (db : AuthDb) (success : AuthResponse) :
    let result := createAndSendRegistrationCode env a n user db success
    ((∀ i < 5, AttemptFails env a n db.toTables i) ∧ result.db = db ∧
      result.response =
        .httpError 500 "Could not generate a registration code. Please try again.") ∨
    (¬ AttemptFails env a n db.toTables 0 ∧ result.response = success ∧
      result.db.toTables = addCode env a user.id (revokeLiveCodes user.id db.toTables) 0) ∨
    ∃ i, AttemptFails env a n db.toTables 0 ∧ (0 < i ∧ i < 5) ∧
      ¬ AttemptFails env a n db.toTables i ∧ result.response = success ∧
      result.db.toTables = addCode env a user.id db.toTables i := by
  have hfirst := @commit_addCode env a n 0 user.id db (revokeLiveCodes user.id db.toTables) rfl rfl
    rfl (revokeLiveCodes_hashes user.id db.toTables)
  have hlater := fun i => @commit_addCode env a n i user.id db db.toTables rfl rfl rfl rfl
  unfold createAndSendRegistrationCode
  dsimp only
  rw [codeLoop]
  cases hc : AuthDb.commit (a.commitFails (n + 0))
      (addCode env a user.id (revokeLiveCodes user.id db.toTables) 0) with
  | some db' =>
    have hdb := (AuthDb.commit_eq_some.mp hc).2
    have hok : ¬ AttemptFails env a n db.toTables 0 := fun hf => by
      rw [hfirst.mpr hf] at hc
      cases hc
    simp only [addCode, codeRow] at hc
    simp only [hc]
    exact Or.inr (Or.inl ⟨hok, trivial, hdb⟩)
  | none =>
    have h0 := hfirst.mp hc
    simp only [addCode, codeRow] at hc
    simp only [hc]
    obtain ⟨hnone, hall⟩ | ⟨j, db', h1, h2, hj, hloop⟩ := codeLoop_retry
      (fun i => AuthDb.commit (a.commitFails (n + i))) db
      (fun code t => { t with registrationCodes := t.registrationCodes ++
        [⟨user.id, env.hashCode code, a.now + minutes env.registrationCodeExpireMinutes, none,
          false⟩] }) a.codes 4 1
    · rw [hnone]
      refine Or.inl ⟨fun i hi => ?_, rfl, rfl⟩
      obtain rfl | hpos := Nat.eq_zero_or_pos i
      · exact h0
      · exact (hlater i).mp (hall i hpos (by omega))
    · rw [hloop]
      replace hj : AuthDb.commit (a.commitFails (n + j)) (addCode env a user.id db.toTables j) =
          some db' := hj
      have hdb := (AuthDb.commit_eq_some.mp hj).2
      have hok : ¬ AttemptFails env a n db.toTables j := fun hf => by
        rw [(hlater j).mpr hf] at hj
        cases hj
      exact Or.inr (Or.inr ⟨j, h0, ⟨h1, by omega⟩, hok, rfl, hdb⟩)

/-- **What `_create_and_send_registration_code` leaves.** -/
theorem createAndSendRegistrationCode_newCode (env : AuthEnv) (a : Ambient) (n : Nat) (user : User)
    (db : AuthDb) (success : AuthResponse) :
    NewCode env a n user.id db.toTables
      (createAndSendRegistrationCode env a n user db success).db.toTables := by
  obtain ⟨hall, hdb, -⟩ | ⟨hok, -, hdb⟩ | ⟨i, h0, hi, hok, -, hdb⟩ :=
    createAndSendRegistrationCode_cases env a n user db success
  · rw [hdb]
    exact .none hall
  · rw [hdb]
    exact .first hok
  · rw [hdb]
    exact .later i h0 hi hok

/-! ## The invariant -/

/-- Every user has at most one registration code that is neither used nor revoked. -/
def OneLiveCode (s : AuthState) : Prop :=
  ∀ c ∈ s.db.registrationCodes, ∀ c' ∈ s.db.registrationCodes, c.live = true → c'.live = true →
    c.userId = c'.userId → c = c'

instance (s : AuthState) : Decidable (OneLiveCode s) := by unfold OneLiveCode; infer_instance

/-- Every registration code belongs to a registered user. -/
def CodesOwned (s : AuthState) : Prop :=
  ∀ c ∈ s.db.registrationCodes, ∃ u ∈ s.db.users, u.id = c.userId

/-- A row of `t` with the same hash and user, which was live if this one is. -/
def ComesFrom (t : Tables) (c' : CodeRow) : Prop :=
  ∃ c ∈ t.registrationCodes, c'.codeHash = c.codeHash ∧ c'.userId = c.userId ∧
    (c'.live = true → c.live = true)

/-- What a step does to the registration codes: each of them was there, or is the new one; and
no other code of the new one's user is live. -/
def CodesStep (t t' : Tables) : Prop :=
  (∀ c' ∈ t'.registrationCodes, ComesFrom t c') ∨
  ∃ new, (∀ c' ∈ t'.registrationCodes, ComesFrom t c' ∨ c' = new) ∧
    ∀ c' ∈ t'.registrationCodes, c'.live = true → c'.userId = new.userId → c' = new

/-- Such a step keeps the invariant. -/
theorem OneLiveCode.of_codesStep {s s' : AuthState} (h : OneLiveCode s)
    (hst : CodesStep s.db.toTables s'.db.toTables) : OneLiveCode s' := by
  have hold : ∀ c ∈ s'.db.registrationCodes, ∀ c' ∈ s'.db.registrationCodes,
      ComesFrom s.db.toTables c → ComesFrom s.db.toTables c' → c.live = true → c'.live = true →
      c.userId = c'.userId → c = c' := by
    rintro c hc c' hc' ⟨d, hd, hh, hu, hlive⟩ ⟨d', hd', hh', hu', hlive'⟩ hl hl' huser
    have he := h d hd d' hd' (hlive hl) (hlive' hl') (by rw [← hu, huser, hu'])
    refine List.inj_on_of_nodup_map s'.db.unique.registrationHashes hc hc' ?_
    rw [hh, he, hh']
  intro c hc c' hc' hl hl' huser
  obtain hall | ⟨new, hall, hnew⟩ := hst
  · exact hold c hc c' hc' (hall c hc) (hall c' hc') hl hl' huser
  · obtain hf | rfl := hall c hc
    · obtain hf' | rfl := hall c' hc'
      · exact hold c hc c' hc' hf hf' hl hl' huser
      · exact hnew c hc hl huser
    · exact (hnew c' hc' hl' huser.symm).symm

/-- If the transition is a resend for a pending user with a live code, its first attempt commits, or
no attempt does. -/
def ResendsCleanly (env : AuthEnv) (tr : AuthTransition) : Prop :=
  match tr.label with
  | .request (.resendRegistrationNotice email) a => ∀ u ∈ tr.pre.db.users, u.email = email →
      u.isApproved = false → (∃ c ∈ tr.pre.db.registrationCodes, c.userId = u.id ∧ c.live = true) →
      ¬ AttemptFails env a 0 tr.pre.db.toTables 0 ∨
        ∀ i < 5, AttemptFails env a 0 tr.pre.db.toTables i
  | _ => True

instance (env : AuthEnv) (tr : AuthTransition) : Decidable (ResendsCleanly env tr) :=
  match tr with
  | ⟨s, .request (.resendRegistrationNotice email) a, _, _⟩ =>
    inferInstanceAs (Decidable (∀ u ∈ s.db.users, u.email = email → u.isApproved = false →
      (∃ c ∈ s.db.registrationCodes, c.userId = u.id ∧ c.live = true) →
      ¬ AttemptFails env a 0 s.db.toTables 0 ∨ ∀ i < 5, AttemptFails env a 0 s.db.toTables i))
  | ⟨_, .request (.register _) _, _, _⟩ => isTrue trivial
  | ⟨_, .request (.verifyRegistration _ _) _, _, _⟩ => isTrue trivial
  | ⟨_, .request (.login _ _) _, _, _⟩ => isTrue trivial
  | ⟨_, .request (.verifyLoginOtp _ _) _, _, _⟩ => isTrue trivial
  | ⟨_, .request (.refresh _) _, _, _⟩ => isTrue trivial
  | ⟨_, .request (.logout _ _) _, _, _⟩ => isTrue trivial
  | ⟨_, .setActive _ _, _, _⟩ => isTrue trivial

theorem ComesFrom.refl {t : Tables} {c : CodeRow} (h : c ∈ t.registrationCodes) : ComesFrom t c :=
  ⟨c, h, rfl, rfl, id⟩

/-- A row after the revocation is not live any more, if it belongs to the user. -/
theorem mem_revokeLiveCodes {userId : String} {t : Tables} {c' : CodeRow}
    (h : c' ∈ (revokeLiveCodes userId t).registrationCodes) :
    ComesFrom t c' ∧ (c'.userId = userId → c'.live = false) := by
  obtain ⟨c, hc, rfl⟩ := List.mem_map.mp h
  by_cases hlive : (c.userId = userId && c.live) = true
  · rw [if_pos hlive]
    refine ⟨⟨c, hc, rfl, rfl, fun hl => ?_⟩, fun _ => ?_⟩
    · simp [CodeRow.live] at hl
    · simp [CodeRow.live]
  · rw [if_neg hlive]
    refine ⟨.refl hc, fun hu => ?_⟩
    simpa [hu] using hlive

/-! ## Steps -/

/-- A new code next to rows that are not live, as far as they belong to its user. -/
theorem codesStep_addCode {t base : Tables} {userId : String} (i : Nat)
    (hbase : ∀ c' ∈ base.registrationCodes, ComesFrom t c' ∧ (c'.userId = userId → c'.live = false)) :
    CodesStep t (addCode env a userId base i) := by
  refine Or.inr ⟨codeRow env a userId env.registrationCodeExpireMinutes i, fun c' hc' => ?_,
    fun c' hc' hlive huser => ?_⟩
  · obtain hc' | hc' := List.mem_append.mp hc'
    · exact Or.inl (hbase c' hc').1
    · exact Or.inr (List.mem_singleton.mp hc')
  · obtain hc' | hc' := List.mem_append.mp hc'
    · rw [(hbase c' hc').2 huser] at hlive
      cases hlive
    · exact List.mem_singleton.mp hc'

/-- With a later attempt, the earlier codes stay live. -/
theorem NewCode.codesStep {n : Nat} {userId : String} {t t' : Tables}
    (h : NewCode env a n userId t t')
    (hclean : (∃ c ∈ t.registrationCodes, c.userId = userId ∧ c.live = true) →
      ¬ AttemptFails env a n t 0 ∨ ∀ i < 5, AttemptFails env a n t i) : CodesStep t t' := by
  cases h with
  | none h => exact Or.inl fun _ hc => .refl hc
  | first h => exact codesStep_addCode 0 fun _ hc => mem_revokeLiveCodes hc
  | later i h0 hi h =>
    refine codesStep_addCode i fun c hc => ⟨.refl hc, fun huser => ?_⟩
    by_contra hlive
    obtain h0' | hall := hclean ⟨c, hc, huser, by simpa using hlive⟩
    · exact h0' h0
    · exact h (hall i hi.2)

theorem NewRegistrationCode.codesStep {userId : String} {t t' : Tables}
    (h : NewRegistrationCode env a userId t t')
    (hnone : ∀ c ∈ t.registrationCodes, c.userId ≠ userId) : CodesStep t t' := by
  obtain ⟨base, i, rfl | rfl, rfl⟩ := h
  · exact codesStep_addCode i fun c hc => ⟨.refl hc, fun he => absurd he (hnone c hc)⟩
  · exact codesStep_addCode i fun _ hc => mem_revokeLiveCodes hc

theorem comesFrom_useCode {now : Int} {codeHash : String} {t : Tables} {c' : CodeRow}
    (h : c' ∈ useCode now codeHash t.registrationCodes) : ComesFrom t c' := by
  obtain ⟨c, hc, rfl⟩ := List.mem_map.mp h
  split
  · exact ⟨c, hc, rfl, rfl, fun hl => by simp [CodeRow.live] at hl⟩
  · exact .refl hc

/-- The codes after any request but a resend. A registered user had no code before. -/
theorem AuthEffect.codesStep {t t' : Tables} {r : AuthRequest} {claims : List Claims}
    (h : AuthEffect env a t r t' claims) (hu : t'.Unique)
    (howned : ∀ c ∈ t.registrationCodes, ∃ u ∈ t.users, u.id = c.userId)
    (hr : ∀ email, r ≠ .resendRegistrationNotice email) : CodesStep t t' := by
  have hsame : CodesStep t t := Or.inl fun _ hc => .refl hc
  cases h with
  | registeredWithCode payload _ hnew hcode =>
    have hids := hu.ids
    rw [hcode.frame.1] at hids
    refine hcode.codesStep (t := { t with users := t.users ++ [newUser env a payload] })
      fun c hc he => ?_
    obtain ⟨u, hmem, hid⟩ := howned c hc
    exact ne_of_append_nodup hids u hmem (hid.trans he)
  | approved email code user c huser hmem hc => exact Or.inl fun _ hc => comesFrom_useCode hc
  | resent email user _ huser hpending hcode => exact absurd rfl (hr email)
  | _ => exact hsame

/-- The codes after a resend. -/
theorem resend_codesStep {s s' : AuthState} {email : String} {o : Option AuthResponse}
    (hclean : ResendsCleanly env ⟨s, .request (.resendRegistrationNotice email) a, o, s'⟩)
    (hst : authStep env s (.request (.resendRegistrationNotice email) a) = some (s', o)) :
    CodesStep s.db.toTables s'.db.toTables := by
  cases hst
  have hsame : CodesStep s.db.toTables s.db.toTables := Or.inl fun _ hc => .refl hc
  simp only [authHandle, resendRegistrationNotice]
  split
  · exact hsame
  · rename_i user huser
    obtain ⟨hmem, hemail⟩ := userByEmail_spec huser
    split
    · exact hsame
    · rename_i hpending
      exact (createAndSendRegistrationCode_newCode env a 0 user s.db _).codesStep
        (hclean user hmem hemail (by simpa using hpending))

/-- The codes after a step. -/
theorem codesStep_of_authStep {s s' : AuthState} {l : AuthLabel} {o : Option AuthResponse}
    (howned : CodesOwned s) (hclean : ResendsCleanly env ⟨s, l, o, s'⟩)
    (hst : authStep env s l = some (s', o)) : CodesStep s.db.toTables s'.db.toTables := by
  obtain ⟨r, a, claims, rfl, heff, -⟩ | ⟨userId, active, rfl, -, -, hdb⟩ := authStep_cases hst
  · by_cases hr : ∃ email, r = .resendRegistrationNotice email
    · obtain ⟨email, rfl⟩ := hr
      exact resend_codesStep hclean hst
    · exact heff.codesStep s'.db.unique howned fun email he => hr ⟨email, he⟩
  · rw [hdb]
    exact Or.inl fun _ hc => .refl hc

/-- A new code belongs to its user. -/
theorem NewRegistrationCode.owner {userId : String} {t t' : Tables}
    (h : NewRegistrationCode env a userId t t') {c' : CodeRow} (hc' : c' ∈ t'.registrationCodes) :
    ComesFrom t c' ∨ c'.userId = userId := by
  obtain ⟨base, i, hbase, rfl⟩ := h
  obtain hc' | hc' := List.mem_append.mp hc'
  · rcases hbase with rfl | rfl
    · exact Or.inl (.refl hc')
    · exact Or.inl (mem_revokeLiveCodes hc').1
  · rw [List.mem_singleton.mp hc']
    exact Or.inr rfl

theorem AuthEffect.code_owner {t t' : Tables} {r : AuthRequest} {claims : List Claims}
    (h : AuthEffect env a t r t' claims) {c' : CodeRow} (hc' : c' ∈ t'.registrationCodes) :
    ComesFrom t c' ∨ ∃ u ∈ t'.users, u.id = c'.userId := by
  cases h with
  | registeredWithCode payload _ hnew hcode =>
    refine (hcode.owner hc').imp_right fun he => ⟨newUser env a payload, ?_, he.symm⟩
    rw [hcode.frame.1]
    exact List.mem_append_right _ List.mem_cons_self
  | approved email code user c huser hmem hc => exact Or.inl (comesFrom_useCode hc')
  | resent email user _ huser hpending hcode =>
    refine (hcode.owner hc').imp_right fun he => ⟨user, ?_, he.symm⟩
    rw [hcode.frame.1]
    exact (userByEmail_spec huser).1
  | _ => exact Or.inl (.refl hc')

theorem CodesOwned.step {s s' : AuthState} {l : AuthLabel} {o : Option AuthResponse}
    (h : CodesOwned s) (hst : authStep env s l = some (s', o)) : CodesOwned s' := by
  intro c' hc'
  have hcase : ComesFrom s.db.toTables c' ∨ ∃ u ∈ s'.db.users, u.id = c'.userId := by
    obtain ⟨r, a, claims, rfl, heff, -⟩ | ⟨userId, active, rfl, -, -, hdb⟩ := authStep_cases hst
    · exact heff.code_owner hc'
    · rw [hdb] at hc'
      exact Or.inl (.refl hc')
  obtain ⟨c, hc, -, huser, -⟩ | hnew := hcase
  · obtain ⟨u, hu, hid⟩ := h c hc
    obtain ⟨u', hu', hid', -⟩ := users_kept hst hu
    exact ⟨u', hu', by rw [hid', hid, huser]⟩
  · exact hnew

/-- One step. -/
theorem OneLiveCode.step {s s' : AuthState} {l : AuthLabel} {o : Option AuthResponse}
    (h : OneLiveCode s) (howned : CodesOwned s) (hclean : ResendsCleanly env ⟨s, l, o, s'⟩)
    (hst : authStep env s l = some (s', o)) : OneLiveCode s' :=
  h.of_codesStep (codesStep_of_authStep howned hclean hst)

/-- A call that gets through at a later attempt leaves a user with a live code with another one. -/
theorem NewCode.two_live {n : Nat} {userId : String} {t t' : Tables}
    (h : NewCode env a n userId t t') (hfirst : AttemptFails env a n t 0)
    (hsome : ¬ ∀ i < 5, AttemptFails env a n t i) {c : CodeRow} (hc : c ∈ t.registrationCodes)
    (huser : c.userId = userId) (hlive : c.live = true) :
    ∃ c ∈ t'.registrationCodes, ∃ c' ∈ t'.registrationCodes, c.live = true ∧ c'.live = true ∧
      c.userId = c'.userId ∧ c ≠ c' := by
  cases h with
  | none hall => exact absurd hall hsome
  | first h0 => exact absurd hfirst h0
  | later i _ hi h =>
    refine ⟨c, List.mem_append_left _ hc, codeRow env a userId env.registrationCodeExpireMinutes i,
      List.mem_append_right _ List.mem_cons_self, hlive, rfl, huser, ?_⟩
    rintro rfl
    exact h (Or.inr (List.mem_map_of_mem hc))

/-- A resend that keeps the invariant was clean. -/
theorem ResendsCleanly.of_oneLiveCode {s s' : AuthState} {l : AuthLabel} {o : Option AuthResponse}
    (hst : authStep env s l = some (s', o)) (h : OneLiveCode s') :
    ResendsCleanly env ⟨s, l, o, s'⟩ := by
  unfold ResendsCleanly
  split
  case h_2 => trivial
  case h_1 email a hl =>
    subst hl
    rintro u hu hemail hpending ⟨c, hc, huser, hlive⟩
    by_contra hdirty
    rw [not_or, not_not] at hdirty
    have hlookup : s.db.userByEmail email = some u := by
      cases hf : s.db.userByEmail email with
      | none => exact absurd hemail (by simpa using List.find?_eq_none.mp hf u hu)
      | some u' =>
        obtain ⟨hu', he'⟩ := userByEmail_spec hf
        rw [List.inj_on_of_nodup_map s.db.unique.emails hu' hu (he'.trans hemail.symm)]
    cases hst
    simp only [authHandle, resendRegistrationNotice, hlookup, hpending, Bool.false_eq_true,
      ↓reduceIte, OneLiveCode] at h
    obtain ⟨c, hc, c', hc', hl, hl', hsame, hne⟩ :=
      (createAndSendRegistrationCode_newCode env a 0 u s.db _).two_live hdirty.1 hdirty.2 hc huser
        hlive
    exact hne (h c hc c' hc' hl hl' hsame)

/-- **Only the newest registration code is live.** In a run from the empty database, every user has
at most one live code in every state that is reached, exactly when each resend for a user with a
live code commits at its first attempt, or not at all. -/
theorem one_live_code_iff {s : AuthState} {ts : List AuthTransition}
    (hrun : Sys.Run (authStep env) .start ts s) :
    (∀ tr ∈ ts, OneLiveCode tr.post) ↔ ∀ tr ∈ ts, ResendsCleanly env tr := by
  refine hrun.forall_iff (I := fun s => CodesOwned s ∧ OneLiveCode s)
    ⟨List.forall_mem_nil _, List.forall_mem_nil _⟩ fun s l o s' hst ⟨howned, hlive⟩ => ?_
  exact ⟨⟨ResendsCleanly.of_oneLiveCode hst, fun hclean => hlive.step howned hclean hst⟩,
    fun hclean => ⟨howned.step hst, hlive.step howned hclean hst⟩⟩

/-! ## Fixtures -/

/-- The registration of `demoLogin`, and a resend that draws these codes. -/
def demoResend (codes : Nat → String) : List AuthLabel :=
  demoLogin.take 1 ++ [.request (.resendRegistrationNotice "demo@example.com")
    { demoAmbient "" "" with codes := codes }]

theorem demo_one_live : ∃ ts s, Sys.Run (authStep (demoAuthEnv true)) .start ts s ∧
    s.db.registrationCodes.map (·.live) = [false, true] ∧ ∀ tr ∈ ts, OneLiveCode tr.post := by
  obtain ⟨ts, s, hrun, hclean, hs⟩ := Sys.exists_run (authStep (demoAuthEnv true)) .start
    (demoResend fun _ => "JKLMNPQR")
    (fun ts s => (∀ tr ∈ ts, ResendsCleanly (demoAuthEnv true) tr) ∧
      s.db.registrationCodes.map (·.live) = [false, true]) (by decide +kernel)
  exact ⟨ts, s, hrun, hs, (one_live_code_iff hrun).mpr hclean⟩

/-- The resend first draws the code that the registration has drawn. Its second attempt commits
without the revocation. -/
theorem two_live_codes : ∃ ts s, Sys.Run (authStep (demoAuthEnv true)) .start ts s ∧
    s.db.registrationCodes.map (fun c => (c.userId, c.live)) = [("u1", true), ("u1", true)] ∧
    ¬ ∀ tr ∈ ts, OneLiveCode tr.post :=
  Sys.exists_run (authStep (demoAuthEnv true)) .start
    (demoResend fun i => if i = 0 then "ABCDEFGH" else "JKLMNPQR")
    (fun ts s => s.db.registrationCodes.map (fun c => (c.userId, c.live)) =
      [("u1", true), ("u1", true)] ∧ ¬ ∀ tr ∈ ts, OneLiveCode tr.post) (by decide +kernel)

end MarketKill3r
