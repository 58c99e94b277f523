import MarketKill3r.Auth.Families

/-!
# Ended sessions

A logout revokes one row, that of the presented refresh token. Rotations have revoked the others of its
family before, and only a live row can be rotated into a new one: the whole family is dead from then on.

* `Ended`: a set of `jti` values whose rows are revoked and lead to no other row.
* `Ended.step`: **what has ended stays so**; `Ended.logout`: a logout ends the family of its token.
* `logout_ends_session`: **no token of the family is ever refreshed again.**
-/

namespace MarketKill3r

variable {env : AuthEnv} {a : Ambient} {S : String → Prop}

/-! ## Sets of ended tokens -/

/-- The tokens of the set have rows, all of them revoked, and rotations stay within the set. -/
structure Ended (S : String → Prop) (rows : List RefreshToken) : Prop where
  stored : ∀ j, S j → ∃ r ∈ rows, r.jti = j
  revoked : ∀ r ∈ rows, S r.jti → r.revokedAt ≠ none
  closed : ∀ r ∈ rows, ∀ j, r.replacedByJti = some j → (S r.jti ↔ S j)

namespace Ended

variable {rows : List RefreshToken}

/-- The `jti` of a new row is not in the set. -/
theorem not_new (h : Ended S rows) {new : RefreshToken} (hnew : ∀ r ∈ rows, r.jti ≠ new.jti) :
    ¬ S new.jti := by
  intro hS
  obtain ⟨r, hr, hj⟩ := h.stored _ hS
  exact hnew r hr hj

/-- A new row without a replacement. -/
theorem append (h : Ended S rows) {new : RefreshToken} (hnew : ∀ r ∈ rows, r.jti ≠ new.jti)
    (hfree : new.replacedByJti = none) : Ended S (rows ++ [new]) where
  stored j hj := by
    obtain ⟨r, hr, hrj⟩ := h.stored j hj
    exact ⟨r, List.mem_append_left _ hr, hrj⟩
  revoked r hr hS := by
    obtain hr | hr := List.mem_append.mp hr
    · exact h.revoked r hr hS
    · rw [List.mem_singleton.mp hr] at hS
      exact absurd hS (h.not_new hnew)
  closed r hr j hj := by
    obtain hr | hr := List.mem_append.mp hr
    · exact h.closed r hr j hj
    · rw [List.mem_singleton.mp hr, hfree] at hj
      cases hj

/-- The revocation of a row. -/
theorem revoke (h : Ended S rows) (now : Int) (jti : String) : Ended S (revokeToken now jti rows) where
  stored j hj := by
    obtain ⟨r, hr, hrj⟩ := h.stored j hj
    refine ⟨_, List.mem_map_of_mem hr, ?_⟩
    split <;> exact hrj
  revoked r' hr' hS := by
    obtain ⟨r, hr, rfl⟩ := List.mem_map.mp hr'
    by_cases hj : r.jti = jti
    · rw [if_pos hj]
      exact Option.some_ne_none _
    · rw [if_neg hj] at hS ⊢
      exact h.revoked r hr hS
  closed r' hr' j hj := by
    obtain ⟨r, hr, rfl⟩ := List.mem_map.mp hr'
    by_cases hjti : r.jti = jti
    · rw [if_pos hjti] at hj ⊢
      exact h.closed r hr j hj
    · rw [if_neg hjti] at hj ⊢
      exact h.closed r hr j hj

/-- The rotation of a live row. -/
theorem rotate (h : Ended S rows) (hu : (rows.map (·.jti)).Nodup) {record : RefreshToken}
    (hrecord : record ∈ rows) (hlive : record.revokedAt = none) (new : RefreshToken)
    (hnew : ∀ r ∈ rows, r.jti ≠ new.jti) (hfree : new.replacedByJti = none) (now : Int) :
    Ended S (rotateToken now record.jti new.jti rows ++ [new]) := by
  have hother : ¬ S record.jti := fun hS => h.revoked record hrecord hS hlive
  have hrows : ∀ r' ∈ rotateToken now record.jti new.jti rows, r' ∈ rows ∧ r'.jti ≠ record.jti ∨
      r' = { record with revokedAt := some now, replacedByJti := some new.jti } :=
    fun r' hr' => UniqueTable.mem_key_map hu hrecord hr'
  refine append ⟨fun j hj => ?_, fun r' hr' hS => ?_, fun r' hr' j hj => ?_⟩ ?_ hfree
  · obtain ⟨r, hr, hrj⟩ := h.stored j hj
    refine ⟨_, List.mem_map_of_mem hr, ?_⟩
    split <;> exact hrj
  · obtain ⟨hr, -⟩ | rfl := hrows r' hr'
    · exact h.revoked r' hr hS
    · exact Option.some_ne_none _
  · obtain ⟨hr, -⟩ | rfl := hrows r' hr'
    · exact h.closed r' hr j hj
    · -- The rotation leads from a live row to a new one, both outside.
      cases hj
      exact ⟨fun hS => absurd hS hother, fun hS => absurd hS (h.not_new hnew)⟩
  · intro r' hr'
    obtain ⟨hr, -⟩ | rfl := hrows r' hr'
    · exact hnew r' hr
    · exact hnew record hrecord

/-- **What has ended stays so.** -/
theorem step {s s' : AuthState} {l : AuthLabel} {o : Option AuthResponse}
    (h : Ended S s.db.refreshTokens) (hst : authStep env s l = some (s', o)) :
    Ended S s'.db.refreshTokens := by
  obtain ⟨r, a, claims, rfl, heff, -⟩ | ⟨userId, active, rfl, -, -, hdb⟩ := authStep_cases hst
  · have hjtis := s'.db.unique.jtis
    obtain he | ⟨userId, he⟩ | ⟨token, record, user, rfl, hcheck, he⟩ | ⟨record, -, -, he⟩ :=
      heff.refreshTokens_eq
    · rw [he]
      exact h
    · rw [he] at hjtis ⊢
      exact h.append (ne_of_append_nodup hjtis) rfl
    · rw [he] at hjtis ⊢
      refine h.rotate s.db.unique.jtis hcheck.record_mem hcheck.unrevoked (refreshRow env a user.id) ?_
        rfl a.now
      intro r hr hj
      obtain ⟨r', hr', hj', -⟩ := exists_updatedToken record
        (fun r => { r with revokedAt := some a.now, replacedByJti := some a.jti })
        (fun _ => ⟨rfl, rfl⟩) ⟨r, hr, rfl, rfl⟩
      exact ne_of_append_nodup hjtis r' hr' (hj'.trans hj)
    · rw [he]
      exact h.revoke a.now record.jti
  · rw [hdb]
    exact h

end Ended

/-! ## Families -/

/-- The tokens have rows of the same family. -/
def SameSession (rows : List RefreshToken) (j j' : String) : Prop :=
  ∃ r ∈ rows, ∃ r' ∈ rows, r.jti = j ∧ r'.jti = j' ∧ Relation.EqvGen (ReplacedBy rows) r r'

/-- With one token of a family, an ended set has them all. -/
theorem Ended.of_sameSession {rows : List RefreshToken} (h : Ended S rows) {j j' : String}
    (hsame : SameSession rows j j') (hS : S j) : S j' := by
  obtain ⟨r, -, r', -, rfl, rfl, hfam⟩ := hsame
  have hiff : S r.jti ↔ S r'.jti := by
    clear hS
    induction hfam with
    | rel r r' hrep => exact h.closed r hrep.1 _ hrep.2.2
    | refl r => exact Iff.rfl
    | symm r r' _ ih => exact ih.symm
    | trans r r' r'' _ _ ih ih' => exact ih.trans ih'
  exact hiff.mp hS

/-- **The family of a live row ends with its revocation.** -/
theorem Families.ended_revoke {s : AuthState} (h : Families s) {record : RefreshToken}
    (hrecord : record ∈ s.db.refreshTokens) (hlive : record.revokedAt = none) (now : Int) :
    Ended (SameSession s.db.refreshTokens record.jti)
      (revokeToken now record.jti s.db.refreshTokens) where
  stored j hj := by
    obtain ⟨-, -, r, hr, -, hrj, -⟩ := hj
    refine ⟨_, List.mem_map_of_mem hr, ?_⟩
    split <;> exact hrj
  revoked r' hr' hsame := by
    obtain ⟨r, hr, rfl⟩ := List.mem_map.mp hr'
    by_cases hj : r.jti = record.jti
    · rw [if_pos hj]
      exact Option.some_ne_none _
    · rw [if_neg hj] at hsame ⊢
      obtain ⟨r₁, hr₁, r₂, hr₂, hj₁, hj₂, hfam⟩ := hsame
      obtain rfl := List.inj_on_of_nodup_map s.db.unique.jtis hr₁ hrecord hj₁
      obtain rfl := List.inj_on_of_nodup_map s.db.unique.jtis hr₂ hr hj₂
      intro hlive'
      exact hj (congrArg RefreshToken.jti (h.shape.one_unrevoked _ hr₁ _ hr₂ hfam hlive hlive')).symm
  closed r' hr' j hj := by
    obtain ⟨r, hr, rfl⟩ := List.mem_map.mp hr'
    have hkept : ∀ x : RefreshToken, (if x.jti = record.jti then { x with revokedAt := some now }
        else x).jti = x.jti ∧ (if x.jti = record.jti then { x with revokedAt := some now }
        else x).replacedByJti = x.replacedByJti := by
      intro x
      split <;> exact ⟨rfl, rfl⟩
    rw [(hkept r).2] at hj
    rw [(hkept r).1]
    obtain ⟨next, hnext, rfl, -⟩ := h.linked.replacement r hr j hj
    have hrep : ReplacedBy s.db.refreshTokens r next := ⟨hr, hnext, hj⟩
    constructor
    · rintro ⟨r₁, hr₁, r₂, hr₂, hj₁, hj₂, hfam⟩
      obtain rfl := List.inj_on_of_nodup_map s.db.unique.jtis hr₂ hr hj₂
      exact ⟨r₁, hr₁, next, hnext, hj₁, rfl, hfam.trans _ _ _ (.rel _ _ hrep)⟩
    · rintro ⟨r₁, hr₁, r₂, hr₂, hj₁, hj₂, hfam⟩
      obtain rfl := List.inj_on_of_nodup_map s.db.unique.jtis hr₂ hnext hj₂
      exact ⟨r₁, hr₁, r, hr, hj₁, rfl, hfam.trans _ _ _ (.symm _ _ (.rel _ _ hrep))⟩

/-! ## Logout -/

/-- A logout that finds a live row and can commit revokes it. -/
theorem logout_revokes {s s' : AuthState} {bearer : Option String} {token : String} {user : User}
    {record : RefreshToken} (hst : authStep env s (.request (.logout bearer token) a) =
      some (s', some (.status 200 "ok" none)))
    (huser : getCurrentUser env a.now bearer s.db.toTables = some user)
    (htarget : logoutTarget env a.now user token s.db.toTables = some record) :
    s'.db.refreshTokens = revokeToken a.now record.jti s.db.refreshTokens := by
  simp only [authStep, Option.some.injEq, Prod.mk.injEq, authHandle, logout, huser, htarget] at hst
  obtain ⟨rfl, hout⟩ := hst
  cases hc : AuthDb.commit (a.commitFails 0) { s.db.toTables with
      refreshTokens := revokeToken a.now record.jti s.db.refreshTokens } with
  | none => simp [hc, AuthDb.answer] at hout
  | some db' =>
    simp only [AuthDb.answer]
    rw [(AuthDb.commit_eq_some.mp hc).2]

theorem Families.run {s : AuthState} {ts : List AuthTransition}
    (hrun : Sys.Run (authStep env) .start ts s) (hunf : ∀ t ∈ ts, Unforged env t) : Families s :=
  hrun.invariant (I := Families) .start fun _ _ _ _ ht hst h => h.step (hunf _ ht) hst

/-- **Logging out ends the session.** In every run with unforgeable tokens, after a logout that finds the
live row of its token for the user and succeeds, every row of the family of this token is revoked in every
later state, whatever the family has become by then; and no refresh that presents a token of the family
hands out tokens. -/
theorem logout_ends_session {s : AuthState} {before after : List AuthTransition} {t : AuthTransition}
    (hrun : Sys.Run (authStep env) .start (before ++ t :: after) s)
    (hunf : ∀ u ∈ before ++ t :: after, Unforged env u) {bearer : Option String} {token : String}
    {user : User} {record : RefreshToken}
    (hlabel : t.label = .request (.logout bearer token) a)
    (huser : getCurrentUser env a.now bearer t.pre.db.toTables = some user)
    (htarget : logoutTarget env a.now user token t.pre.db.toTables = some record)
    (hout : t.out = some (.status 200 "ok" none)) :
    (∀ r ∈ s.db.refreshTokens, SameSession s.db.refreshTokens record.jti r.jti → r.revokedAt ≠ none) ∧
    ∀ u ∈ after, ∀ presented a' claims jti access refresh,
      u.label = .request (.refresh presented) a' → env.decodeToken a'.now presented = some claims →
      claims.jti = some jti → SameSession u.pre.db.refreshTokens record.jti jti →
      u.out ≠ some (.refreshed access refresh) := by
  obtain ⟨hbefore, hst⟩ := hrun.cut
  have hfam := Families.run hbefore fun u hu => hunf u (List.mem_append_left _ hu)
  obtain ⟨hrecord, -, hlive⟩ := logoutTarget_spec htarget
  have hends : Ended (SameSession t.pre.db.refreshTokens record.jti) t.post.db.refreshTokens := by
    rw [hlabel, hout] at hst
    rw [logout_revokes hst huser htarget]
    exact hfam.ended_revoke hrecord hlive a.now
  have hself : SameSession t.pre.db.refreshTokens record.jti record.jti :=
    ⟨record, hrecord, record, hrecord, rfl, rfl, .refl _⟩
  -- The set of ended tokens is that of the logout; it is closed under the rotations of every later state.
  have hlater : ∀ (us : List AuthTransition) (s' : AuthState),
      Sys.Run (authStep env) .start (before ++ t :: us) s' →
      Ended (SameSession t.pre.db.refreshTokens record.jti) s'.db.refreshTokens :=
    fun us s' h => h.since (J := fun s => Ended _ s.db.refreshTokens) hends
      fun _ _ _ hst' _ hJ => hJ.step hst'
  constructor
  · intro r hr hsame
    have hended := hlater after s hrun
    exact hended.revoked r hr (hended.of_sameSession hsame hself)
  · intro u hu presented a' claims jti access refresh hul hclaims hjti hsame huout
    obtain ⟨xs, ys, rfl⟩ := List.append_of_mem hu
    rw [← List.cons_append, ← List.append_assoc] at hrun
    obtain ⟨hupto, hstep⟩ := hrun.cut
    have hended := hlater xs u.pre hupto
    have hjtiS := hended.of_sameSession hsame hself
    rw [hul, huout] at hstep
    obtain ⟨r, a'', issued, hreq, heff, -, hissued⟩ | ⟨_, _, hreq, -⟩ := authStep_cases hstep
    · cases hreq
      have hne : issued ≠ [] := by
        rw [← hissued]
        simp [AuthResponse.issued]
      obtain ⟨row, _, hcheck, -⟩ := heff.refresh_rotates hne
      obtain ⟨c, hc, -, hcj, -⟩ := hcheck.claims
      obtain rfl : c = claims := Option.some.inj (hc.symm.trans hclaims)
      obtain rfl : row.jti = jti := Option.some.inj (hcj.symm.trans hjti)
      exact hended.revoked row hcheck.record_mem hjtiS hcheck.unrevoked
    · cases hreq

/-- The transition is a logout that revokes the row `j2`. -/
def endsDemo (t : AuthTransition) : Bool :=
  match t.label with
  | .request (.logout bearer token) a =>
    t.out = some (.status 200 "ok" none) &&
      (getCurrentUser (demoAuthEnv true) a.now bearer t.pre.db.toTables).any fun user =>
        (logoutTarget (demoAuthEnv true) a.now user token t.pre.db.toTables).any (·.jti = "j2")
  | _ => false

theorem of_endsDemo {t : AuthTransition} (h : endsDemo t = true) :
    ∃ bearer token a user record, t.label = .request (.logout bearer token) a ∧
      getCurrentUser (demoAuthEnv true) a.now bearer t.pre.db.toTables = some user ∧
      logoutTarget (demoAuthEnv true) a.now user token t.pre.db.toTables = some record ∧
      t.out = some (.status 200 "ok" none) ∧ record.jti = "j2" := by
  unfold endsDemo at h
  split at h
  · rename_i bearer token a hlabel
    simp only [Bool.and_eq_true, decide_eq_true_eq, Option.any_eq_true] at h
    obtain ⟨hout, user, huser, record, hrecord, hj⟩ := h
    exact ⟨bearer, token, a, user, record, hlabel, huser, hrecord, hout, hj⟩
  · cases h

/-- A rotation, a logout with the new token, and an attempt with either one. -/
theorem demo_session_ended : ∃ before t after s,
    Sys.Run (authStep (demoAuthEnv true)) .start (before ++ t :: after) s ∧ endsDemo t = true ∧
    s.db.refreshTokens.map (·.jti) = ["j1", "j2"] ∧
    ∀ r ∈ s.db.refreshTokens, SameSession s.db.refreshTokens "j2" r.jti → r.revokedAt ≠ none := by
  obtain ⟨ts, s, hrun, hunf, hrows, t, ht, hends⟩ :=
    Sys.exists_run (authStep (demoAuthEnv true)) .start
    (demoLogin ++ [.request (.verifyLoginOtp "demo@example.com" "jklmnp") (demoAmbient "" "j1"),
      .request (.refresh "refresh.u1.j1") (demoAmbient "" "j2"),
      .request (.logout (some "access.u1.") "refresh.u1.j2") (demoAmbient "" ""),
      .request (.refresh "refresh.u1.j1") (demoAmbient "" "j3"),
      .request (.refresh "refresh.u1.j2") (demoAmbient "" "j3")])
    (fun ts s => (∀ tr ∈ ts, Unforged (demoAuthEnv true) tr) ∧
      s.db.refreshTokens.map (·.jti) = ["j1", "j2"] ∧ ∃ t ∈ ts, endsDemo t = true) (by decide +kernel)
  obtain ⟨before, after, rfl⟩ := List.append_of_mem ht
  obtain ⟨bearer, token, a, user, record, hlabel, huser, hrecord, hout, hj⟩ := of_endsDemo hends
  have hended := (logout_ends_session hrun hunf hlabel huser hrecord hout).1
  rw [hj] at hended
  exact ⟨before, t, after, s, hrun, hends, hrows, hended⟩

end MarketKill3r
