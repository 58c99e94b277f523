import Mathlib.Data.List.Chain
import MarketKill3r.Auth.Changes
import MarketKill3r.Lib.Chains
import MarketKill3r.Lib.UniqueTable

/-!
# Families of refresh tokens

A refresh revokes a row and adds the row of its replacement; the rows that rotations connect form a
family. A family starts with a login or a login verification.

* `Families`: the invariant of the rows; `Families.step`: every step keeps it, without any
  assumption on the `jti` values but the unique constraint.
* `FamilyShape`: what it says about families; `FamilyStep`: what a single step does to them.
* `families_never_branch`: both hold in every run with unforgeable tokens.
-/

namespace MarketKill3r

variable {env : AuthEnv} {a : Ambient}

/-! ## Statements -/

/-- The row `r` of the table was rotated into the row `r'`. -/
def ReplacedBy (rows : List RefreshToken) (r r' : RefreshToken) : Prop :=
  r ∈ rows ∧ r' ∈ rows ∧ r.replacedByJti = some r'.jti

/-- The rows of a rotation chain, the oldest first. -/
def RotationChain (rows chain : List RefreshToken) : Prop :=
  (∀ r ∈ chain, r ∈ rows) ∧ chain.IsChain fun r r' => r.replacedByJti = some r'.jti

/-- What holds of the refresh tokens in every state. -/
structure FamilyShape (rows : List RefreshToken) : Prop where
  /-- A row replaces at most one row, of the same user. -/
  replaces_one : ∀ r r₁ r₂, ReplacedBy rows r₁ r → ReplacedBy rows r₂ r →
    r₁ = r₂ ∧ r₁.userId = r.userId
  /-- A row with a replacement is revoked. -/
  replaced_revoked : ∀ r ∈ rows, r.replacedByJti ≠ none → r.revokedAt ≠ none
  /-- An unrevoked row is the last of every chain that it is on. -/
  unrevoked_last : ∀ before r after, RotationChain rows (before ++ r :: after) →
    r.revokedAt = none → after = []
  /-- A family has at most one unrevoked row. -/
  one_unrevoked : ∀ r ∈ rows, ∀ r' ∈ rows, Relation.EqvGen (ReplacedBy rows) r r' →
    r.revokedAt = none → r'.revokedAt = none → r = r'

/-- The number of unrevoked rows of the user. -/
def unrevoked (userId : String) (rows : List RefreshToken) : Nat :=
  rows.countP fun r => r.userId = userId ∧ r.revokedAt = none

/-- What a step does to the refresh tokens. -/
structure FamilyStep (env : AuthEnv) (tr : AuthTransition) : Prop where
  /-- A revoked row stays as it is. -/
  revoked_stays : ∀ r ∈ tr.pre.db.refreshTokens, r.revokedAt ≠ none → r ∈ tr.post.db.refreshTokens
  /-- A successful refresh keeps the number of unrevoked rows, for each user. -/
  refresh_count : ∀ token a access refresh, tr.label = .request (.refresh token) a →
    tr.out = some (.refreshed access refresh) →
    ∀ userId, unrevoked userId tr.post.db.refreshTokens = unrevoked userId tr.pre.db.refreshTokens
  /-- A logout lowers it by one at most. -/
  logout_count : ∀ bearer token a, tr.label = .request (.logout bearer token) a → ∀ userId,
    unrevoked userId tr.post.db.refreshTokens ≤ unrevoked userId tr.pre.db.refreshTokens ∧
    unrevoked userId tr.pre.db.refreshTokens ≤ unrevoked userId tr.post.db.refreshTokens + 1
  /-- A logout leaves every row as it is but the one of the presented token, which belongs to the
  user who logs out, and adds no row. -/
  logout_touches : ∀ bearer token a, tr.label = .request (.logout bearer token) a →
    tr.post.db.refreshTokens.map (·.jti) = tr.pre.db.refreshTokens.map (·.jti) ∧
    ∀ r ∈ tr.pre.db.refreshTokens, r ∉ tr.post.db.refreshTokens →
      (∃ claims, env.decodeToken a.now token = some claims ∧ claims.jti = some r.jti) ∧
      ∃ user, getCurrentUser env a.now bearer tr.pre.db.toTables = some user ∧
        r.userId = user.id

/-! ## The invariant -/

/-- A row of the table after an update of the row of `record`. -/
theorem exists_updatedToken {rows : List RefreshToken} (record : RefreshToken) (f : RefreshToken → RefreshToken)
    (hf : ∀ r, (f r).jti = r.jti ∧ (f r).userId = r.userId) {j userId : String}
    (h : ∃ r ∈ rows, r.jti = j ∧ r.userId = userId) :
    ∃ r' ∈ rows.map fun r => if r.jti = record.jti then f r else r,
      r'.jti = j ∧ r'.userId = userId := by
  obtain ⟨r, hr, rfl, rfl⟩ := h
  refine ⟨_, List.mem_map_of_mem hr, ?_⟩
  split
  · exact hf r
  · exact ⟨rfl, rfl⟩

/-- The replacement of a row is a row of the same user, and of no other row. -/
structure Linked (rows : List RefreshToken) : Prop where
  replacement : ∀ r ∈ rows, ∀ j, r.replacedByJti = some j →
    ∃ r' ∈ rows, r'.jti = j ∧ r'.userId = r.userId
  injective : ∀ r ∈ rows, ∀ r' ∈ rows, ∀ j, r.replacedByJti = some j →
    r'.replacedByJti = some j → r = r'

namespace Linked

variable {rows : List RefreshToken}

/-- A new row without a replacement. -/
theorem append (h : Linked rows) {new : RefreshToken} (hnew : new.replacedByJti = none) :
    Linked (rows ++ [new]) := by
  have hold : ∀ r ∈ rows ++ [new], ∀ j, r.replacedByJti = some j → r ∈ rows := by
    intro r hr j hj
    obtain hr | hr := List.mem_append.mp hr
    · exact hr
    · rw [List.mem_singleton.mp hr, hnew] at hj
      cases hj
  refine ⟨fun r hr j hj => ?_, fun r hr r' hr' j hj hj' => ?_⟩
  · obtain ⟨r', hr', hjti, huser⟩ := h.replacement r (hold r hr j hj) j hj
    exact ⟨r', List.mem_append_left _ hr', hjti, huser⟩
  · exact h.injective r (hold r hr j hj) r' (hold r' hr' j hj') j hj hj'

/-- The revocation of a row. -/
theorem revoke (h : Linked rows) (hu : (rows.map (·.jti)).Nodup) {record : RefreshToken}
    (hrecord : record ∈ rows) (now : Int) : Linked (revokeToken now record.jti rows) := by
  -- Each row comes from one with the same replacement.
  have hold : ∀ r' ∈ revokeToken now record.jti rows, ∃ r ∈ rows, r'.jti = r.jti ∧
      r'.userId = r.userId ∧ r'.replacedByJti = r.replacedByJti := by
    intro r' hr'
    obtain ⟨hr, -⟩ | rfl := UniqueTable.mem_key_map hu hrecord hr'
    · exact ⟨r', hr, rfl, rfl, rfl⟩
    · exact ⟨record, hrecord, rfl, rfl, rfl⟩
  have hjtis : ((revokeToken now record.jti rows).map (·.jti)).Nodup := by
    rw [revokeToken, List.map_map]
    refine (List.map_congr_left fun r _ => ?_).symm ▸ hu
    simp only [Function.comp_apply]
    split <;> rfl
  refine ⟨fun r' hr' j hj => ?_, fun r₁ hr₁ r₂ hr₂ j hj₁ hj₂ => ?_⟩
  · obtain ⟨r, hr, -, huser, hrep⟩ := hold r' hr'
    rw [huser]
    exact exists_updatedToken record (fun r => { r with revokedAt := some now })
      (fun _ => ⟨rfl, rfl⟩) (h.replacement r hr j (hrep ▸ hj))
  · obtain ⟨x₁, hx₁, hjti₁, -, hrep₁⟩ := hold r₁ hr₁
    obtain ⟨x₂, hx₂, hjti₂, -, hrep₂⟩ := hold r₂ hr₂
    have he := h.injective x₁ hx₁ x₂ hx₂ j (hrep₁ ▸ hj₁) (hrep₂ ▸ hj₂)
    exact List.inj_on_of_nodup_map hjtis hr₁ hr₂ (by rw [hjti₁, he, hjti₂])

/-- The rotation of a row into a row with a new `jti`. -/
theorem rotate (h : Linked rows) (hu : (rows.map (·.jti)).Nodup) {record : RefreshToken}
    (hrecord : record ∈ rows) (new : RefreshToken) (hnew : ∀ r ∈ rows, r.jti ≠ new.jti)
    (huser : new.userId = record.userId) (hfree : new.replacedByJti = none) (now : Int) :
    Linked (rotateToken now record.jti new.jti rows ++ [new]) := by
  have hunused : ∀ r ∈ rows, r.replacedByJti ≠ some new.jti := by
    intro r hr hj
    obtain ⟨r', hr', hjti, -⟩ := h.replacement r hr _ hj
    exact hnew r' hr' hjti
  have hold : ∀ r' ∈ rotateToken now record.jti new.jti rows ++ [new], ∀ j,
      r'.replacedByJti = some j → (r' ∈ rows ∧ r'.jti ≠ record.jti) ∨
        r' = { record with revokedAt := some now, replacedByJti := some new.jti } := by
    intro r' hr' j hj
    obtain hr' | hr' := List.mem_append.mp hr'
    · exact UniqueTable.mem_key_map hu hrecord hr'
    · rw [List.mem_singleton.mp hr', hfree] at hj
      cases hj
  refine ⟨fun r' hr' j hj => ?_, fun r₁ hr₁ r₂ hr₂ j hj₁ hj₂ => ?_⟩
  · obtain ⟨hr, -⟩ | rfl := hold r' hr' j hj
    · obtain ⟨x, hx, hxj, hxu⟩ := exists_updatedToken record
        (fun r => { r with revokedAt := some now, replacedByJti := some new.jti })
        (fun _ => ⟨rfl, rfl⟩) (h.replacement r' hr j hj)
      exact ⟨x, List.mem_append_left _ hx, hxj, hxu⟩
    · cases hj
      exact ⟨new, List.mem_append_right _ List.mem_cons_self, rfl, huser⟩
  · obtain ⟨hx₁, -⟩ | rfl := hold r₁ hr₁ j hj₁
    · obtain ⟨hx₂, -⟩ | rfl := hold r₂ hr₂ j hj₂
      · exact h.injective r₁ hx₁ r₂ hx₂ j hj₁ hj₂
      · cases hj₂
        exact absurd hj₁ (hunused r₁ hx₁)
    · obtain ⟨hx₂, -⟩ | rfl := hold r₂ hr₂ j hj₂
      · cases hj₁
        exact absurd hj₂ (hunused r₂ hx₂)
      · rfl

end Linked

/-- The invariant of the refresh tokens. -/
structure Families (s : AuthState) : Prop extends Sessions s where
  linked : Linked s.db.refreshTokens

theorem Families.start : Families .start where
  toSessions := .start
  linked := ⟨List.forall_mem_nil _, List.forall_mem_nil _⟩

/-- Every step keeps it. Only a refresh connects rows, and an unforged token names the user of its
row. -/
theorem Families.step {s s' : AuthState} {l : AuthLabel} {o : Option AuthResponse}
    (h : Families s) (hunf : Unforged env ⟨s, l, o, s'⟩) (hst : authStep env s l = some (s', o)) :
    Families s' := by
  refine ⟨h.toSessions.step hst, ?_⟩
  obtain ⟨r, a, claims, rfl, heff, -⟩ | ⟨userId, active, rfl, -, -, hdb⟩ := authStep_cases hst
  · have hjtis := s'.db.unique.jtis
    obtain he | ⟨userId, he⟩ | ⟨token, record, user, rfl, hcheck, he⟩ | ⟨record, hrecord, -, he⟩ :=
      heff.refreshTokens_eq
    · rw [he]
      exact h.linked
    · rw [he]
      exact h.linked.append rfl
    · have howner := h.toSessions.refresh_owner hunf hcheck
      rw [he] at hjtis ⊢
      refine h.linked.rotate s.db.unique.jtis hcheck.record_mem (refreshRow env a user.id) ?_
        howner.symm rfl a.now
      intro r hr hj
      obtain ⟨r', hr', hj', -⟩ := exists_updatedToken record
        (fun r => { r with revokedAt := some a.now, replacedByJti := some a.jti })
        (fun _ => ⟨rfl, rfl⟩) ⟨r, hr, rfl, rfl⟩
      exact ne_of_append_nodup hjtis r' hr' (hj'.trans hj)
    · rw [he]
      exact h.linked.revoke s.db.unique.jtis hrecord a.now
  · rw [hdb]
    exact h.linked

/-! ## Families of rows -/

namespace Families

variable {s : AuthState}

theorem rightUnique (s : AuthState) : Relator.RightUnique (ReplacedBy s.db.refreshTokens) := by
  rintro r r₁ r₂ ⟨-, hr₁, h₁⟩ ⟨-, hr₂, h₂⟩
  exact List.inj_on_of_nodup_map s.db.unique.jtis hr₁ hr₂
    (Option.some.inj (h₁.symm.trans h₂))

theorem leftUnique (h : Families s) : Relator.LeftUnique (ReplacedBy s.db.refreshTokens) := by
  rintro r₁ r₂ r ⟨hr₁, -, h₁⟩ ⟨hr₂, -, h₂⟩
  exact h.linked.injective r₁ hr₁ r₂ hr₂ _ h₁ h₂

/-- An unrevoked row has no replacement. -/
theorem not_replacedBy (h : Families s) {r : RefreshToken} (hr : r ∈ s.db.refreshTokens)
    (hlive : r.revokedAt = none) (r' : RefreshToken) : ¬ ReplacedBy s.db.refreshTokens r r' := by
  rintro ⟨-, -, hrep⟩
  rw [h.unreplaced r hr hlive] at hrep
  cases hrep

/-- **Families do not branch**, in a state with the invariant. -/
theorem shape (h : Families s) : FamilyShape s.db.refreshTokens where
  replaces_one r r₁ r₂ h₁ h₂ := by
    refine ⟨h.leftUnique h₁ h₂, ?_⟩
    obtain ⟨hr₁, hr, hrep⟩ := h₁
    obtain ⟨r', hr', hjti, huser⟩ := h.linked.replacement r₁ hr₁ _ hrep
    rw [← huser, List.inj_on_of_nodup_map s.db.unique.jtis hr' hr hjti]
  replaced_revoked r hr hrep hlive := hrep (h.unreplaced r hr hlive)
  unrevoked_last before r after hchain hlive := by
    cases after with
    | nil => rfl
    | cons r' after =>
      have hr : r ∈ s.db.refreshTokens := hchain.1 r (by simp)
      have hrep := (List.isChain_append_cons_cons.mp hchain.2).2.1
      rw [h.unreplaced r hr hlive] at hrep
      cases hrep
  one_unrevoked r hr r' hr' hfam hlive hlive' :=
    Chains.eq_of_eqvGen (rightUnique s) h.leftUnique (h.not_replacedBy hr hlive)
      (h.not_replacedBy hr' hlive') hfam

end Families

/-! ## Steps -/

/-- `countP` of the unrevoked rows of a user, after the row of `record` lost its liveness. -/
theorem unrevoked_updated {rows : List RefreshToken} (hu : (rows.map (·.jti)).Nodup)
    {record : RefreshToken} (hrecord : record ∈ rows) (hlive : record.revokedAt = none)
    {f : RefreshToken → RefreshToken} (hf : ∀ r, (f r).revokedAt ≠ none) (userId : String) :
    unrevoked userId rows =
      unrevoked userId (rows.map fun r => if r.jti = record.jti then f r else r) +
        if record.userId = userId then 1 else 0 := by
  unfold unrevoked
  rw [UniqueTable.countP_key_map (f := f) (fun r => by simp [hf r]) hu hrecord]
  simp only [hlive, and_true, decide_eq_true_eq]

/-- A revoked row is another one than an unrevoked row. -/
theorem mem_updated_of_revoked {rows : List RefreshToken} (hu : (rows.map (·.jti)).Nodup)
    {record : RefreshToken} (hrecord : record ∈ rows) (hlive : record.revokedAt = none)
    {f : RefreshToken → RefreshToken} {r : RefreshToken} (hr : r ∈ rows)
    (hrevoked : r.revokedAt ≠ none) :
    r ∈ rows.map fun r => if r.jti = record.jti then f r else r := by
  refine List.mem_map.mpr ⟨r, hr, if_neg fun hj => hrevoked ?_⟩
  rw [List.inj_on_of_nodup_map hu hr hrecord hj, hlive]

/-- A revoked row stays as it is. -/
theorem AuthEffect.revoked_stays {t t' : Tables} {r : AuthRequest} {claims : List Claims}
    (h : AuthEffect env a t r t' claims) (hu : t.Unique) {x : RefreshToken}
    (hx : x ∈ t.refreshTokens) (hrevoked : x.revokedAt ≠ none) : x ∈ t'.refreshTokens := by
  obtain he | ⟨userId, he⟩ | ⟨token, record, user, -, hcheck, he⟩ | ⟨record, hrecord, hlive, he⟩ :=
    h.refreshTokens_eq <;> rw [he]
  · exact hx
  · exact List.mem_append_left _ hx
  · exact List.mem_append_left _
      (mem_updated_of_revoked hu.jtis hcheck.record_mem hcheck.unrevoked hx hrevoked)
  · exact mem_updated_of_revoked hu.jtis hrecord hlive hx hrevoked

/-- A refresh that returns tokens has rotated a row. -/
theorem AuthEffect.refresh_rotates {t t' : Tables} {token : String} {claims : List Claims}
    (h : AuthEffect env a t (.refresh token) t' claims) (hclaims : claims ≠ []) :
    ∃ record user, RefreshChecked env a.now token t record user ∧
      t'.refreshTokens = rotateToken a.now record.jti a.jti t.refreshTokens ++
        [refreshRow env a user.id] := by
  cases h with
  | unchanged => exact absurd rfl hclaims
  | rotated _ record user hcheck => exact ⟨record, user, hcheck, rfl⟩

/-- What a logout does to the refresh tokens. -/
theorem logout_refreshTokens (env : AuthEnv) (a : Ambient) (bearer : Option String)
    (refreshToken : String) (db : AuthDb) :
    (logout env a bearer refreshToken db).db.refreshTokens = db.refreshTokens ∨
    ∃ user record, getCurrentUser env a.now bearer db.toTables = some user ∧
      logoutTarget env a.now user refreshToken db.toTables = some record ∧
      (logout env a bearer refreshToken db).db.refreshTokens =
        revokeToken a.now record.jti db.refreshTokens := by
  unfold logout
  split
  · exact Or.inl rfl
  · rename_i user huser
    split
    · exact Or.inl rfl
    · rename_i record hrecord
      split
      · exact Or.inl rfl
      · rename_i db' hc
        refine Or.inr ⟨user, record, huser, hrecord, ?_⟩
        rw [AuthDb.answer, (AuthDb.commit_eq_some.mp hc).2]

/-- The row that a logout revokes is the one that the presented token names. -/
theorem logoutTarget_claims {now : Int} {user : User} {refreshToken : String} {t : Tables}
    {record : RefreshToken} (h : logoutTarget env now user refreshToken t = some record) :
    ∃ claims, env.decodeToken now refreshToken = some claims ∧ claims.jti = some record.jti := by
  simp only [logoutTarget, bind, Option.bind_eq_some_iff, Option.guard_eq_some', pure,
    Option.some.injEq] at h
  obtain ⟨c, hc, -, -, jti, hjti, record', hrec, -, -, rfl⟩ := h
  have hmatch := List.find?_some hrec
  rw [Bool.and_eq_true, decide_eq_true_eq] at hmatch
  exact ⟨c, hc, by rw [hmatch.1]; exact truthy_eq_some hjti⟩

/-- A successful refresh trades an unrevoked row for another one of the same user. -/
theorem Families.refresh_count {s s' : AuthState} {token : String} {access refresh : Token}
    (h : Families s)
    (hunf : Unforged env ⟨s, .request (.refresh token) a, some (.refreshed access refresh), s'⟩)
    (hst : authStep env s (.request (.refresh token) a) =
      some (s', some (.refreshed access refresh))) (userId : String) :
    unrevoked userId s'.db.refreshTokens = unrevoked userId s.db.refreshTokens := by
  obtain ⟨r, a', claims, hl, heff, -, hclaims⟩ | ⟨_, _, hl, -⟩ := authStep_cases hst
  · cases hl
    have hissued : claims ≠ [] := by
      rw [← hclaims]
      simp [AuthResponse.issued]
    obtain ⟨record, user, hcheck, he⟩ := heff.refresh_rotates hissued
    have howner := h.toSessions.refresh_owner hunf hcheck
    rw [he, unrevoked_updated s.db.unique.jtis hcheck.record_mem hcheck.unrevoked
      (f := fun r => { r with revokedAt := some a.now, replacedByJti := some a.jti })
      (fun _ => Option.some_ne_none _)]
    simp only [unrevoked, List.countP_append, List.countP_singleton, refreshRow, howner, and_true,
      decide_eq_true_eq]
    rfl
  · cases hl

/-- What a logout does to the number of unrevoked rows and to the rows. -/
theorem logout_step {s s' : AuthState} {bearer : Option String} {token : String}
    {o : Option AuthResponse} (hst : authStep env s (.request (.logout bearer token) a) =
      some (s', o)) :
    (∀ userId, unrevoked userId s'.db.refreshTokens ≤ unrevoked userId s.db.refreshTokens ∧
      unrevoked userId s.db.refreshTokens ≤ unrevoked userId s'.db.refreshTokens + 1) ∧
    s'.db.refreshTokens.map (·.jti) = s.db.refreshTokens.map (·.jti) ∧
    ∀ r ∈ s.db.refreshTokens, r ∉ s'.db.refreshTokens →
      (∃ claims, env.decodeToken a.now token = some claims ∧ claims.jti = some r.jti) ∧
      ∃ user, getCurrentUser env a.now bearer s.db.toTables = some user ∧
        r.userId = user.id := by
  cases hst
  simp only [authHandle]
  obtain he | ⟨user, record, huser, htarget, he⟩ := logout_refreshTokens env a bearer token s.db
  · rw [he]
    exact ⟨fun userId => ⟨Nat.le_refl _, Nat.le_succ _⟩, rfl, fun r hr hn => absurd hr hn⟩
  · rw [he]
    obtain ⟨hrecord, howner, hlive⟩ := logoutTarget_spec htarget
    refine ⟨fun userId => ?_, ?_, fun r hr hn => ?_⟩
    · have hcount := unrevoked_updated s.db.unique.jtis hrecord hlive
        (f := fun r => { r with revokedAt := some a.now }) (fun _ => Option.some_ne_none _) userId
      rw [revokeToken, hcount]
      split <;> omega
    · rw [revokeToken, List.map_map]
      refine List.map_congr_left fun r _ => ?_
      simp only [Function.comp_apply]
      split <;> rfl
    · have hj : r.jti = record.jti := by
        by_contra hne
        exact hn (List.mem_map.mpr ⟨r, hr, if_neg hne⟩)
      obtain rfl := List.inj_on_of_nodup_map s.db.unique.jtis hr hrecord hj
      exact ⟨logoutTarget_claims htarget, user, huser, howner⟩

/-- What any step does, from a state with the invariant. -/
theorem Families.familyStep {s s' : AuthState} {l : AuthLabel} {o : Option AuthResponse}
    (h : Families s) (hunf : Unforged env ⟨s, l, o, s'⟩) (hst : authStep env s l = some (s', o)) :
    FamilyStep env ⟨s, l, o, s'⟩ where
  revoked_stays r hr hrevoked := by
    obtain ⟨q, a, claims, rfl, heff, -⟩ | ⟨userId, active, rfl, -, -, hdb⟩ := authStep_cases hst
    · exact heff.revoked_stays s.db.unique hr hrevoked
    · simp only [hdb]
      exact hr
  refresh_count token a access refresh hl ho := by
    cases hl
    cases ho
    exact h.refresh_count hunf hst
  logout_count bearer token a hl := by
    cases hl
    exact (logout_step hst).1
  logout_touches bearer token a hl := by
    cases hl
    exact (logout_step hst).2

/-- **Refresh-token families never branch**, in every run from the empty database with unforgeable
tokens. -/
theorem families_never_branch {s : AuthState} {ts : List AuthTransition}
    (hrun : Sys.Run (authStep env) .start ts s) (hunf : ∀ tr ∈ ts, Unforged env tr) :
    FamilyShape s.db.refreshTokens ∧ ∀ tr ∈ ts, FamilyStep env tr := by
  have hinv : Families s ∧ ∀ tr ∈ ts, FamilyStep env tr := by
    refine hrun.history (I := fun ts s => Families s ∧ ∀ tr ∈ ts, FamilyStep env tr)
      ⟨.start, List.forall_mem_nil _⟩ ?_
    rintro us s l o s' - hst hsub ⟨h, hpast⟩
    have hl : Unforged env ⟨s, l, o, s'⟩ := hunf _ (hsub _ (by simp))
    refine ⟨h.step hl hst, ?_⟩
    rw [List.forall_mem_append, List.forall_mem_singleton]
    exact ⟨hpast, h.familyStep hl hst⟩
  exact ⟨hinv.1.shape, hinv.2⟩

theorem demo_families : ∃ ts s, Sys.Run (authStep (demoAuthEnv true)) .start ts s ∧
    s.db.refreshTokens.map (fun r => (r.jti, r.replacedByJti)) =
      [("j1", some "j2"), ("j2", none)] ∧
    FamilyShape s.db.refreshTokens ∧ ∀ tr ∈ ts, FamilyStep (demoAuthEnv true) tr := by
  obtain ⟨ts, s, hrun, hunf, hs⟩ := Sys.exists_run (authStep (demoAuthEnv true)) .start
    (demoLogin ++ [.request (.verifyLoginOtp "demo@example.com" "jklmnp") (demoAmbient "" "j1"),
      .request (.refresh "refresh.u1.j1") (demoAmbient "" "j2"),
      .request (.logout (some "access.u1.") "refresh.u1.j2") (demoAmbient "" "")])
    (fun ts s => (∀ tr ∈ ts, Unforged (demoAuthEnv true) tr) ∧
      s.db.refreshTokens.map (fun r => (r.jti, r.replacedByJti)) =
        [("j1", some "j2"), ("j2", none)]) (by decide +kernel)
  exact ⟨ts, s, hrun, hs, families_never_branch hrun hunf⟩

end MarketKill3r
