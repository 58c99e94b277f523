import MarketKill3r.Auth.Registration

/-!
# Whether a registration is all or nothing

`register` commits the user before it looks for a code. When none of the five attempts commits, it
answers "Please try again" and leaves the user behind; the next try finds the address taken.

* `registerUser_eq_none`: when the commit of the user fails.
* `register_cases`: everything that a registration can do.
* `register_allOrNothing_iff`: **a registration is all or nothing exactly when it does not get as
  far as the code loop, or an attempt of the loop commits.**
-/

namespace MarketKill3r

variable {env : AuthEnv} {a : Ambient} {payload : UserCreate} {db : AuthDb}

/-- `HTTPException` and an exception that nobody catches. -/
def AuthResponse.isError : AuthResponse → Bool
  | .httpError _ _ | .serverError => true
  | _ => false

/-- The registration codes of the user that are neither used nor revoked. -/
def Tables.liveCodesOf (t : Tables) (userId : String) : List RegistrationCode :=
  t.registrationCodes.filter fun c => c.userId = userId && c.live

/-- A registration that fails leaves the users and the codes as they were, so that the address is as
free as before; one that succeeds adds one unapproved user, with one live code. -/
structure AllOrNothing (env : AuthEnv) (a : Ambient) (payload : UserCreate) (db : AuthDb) : Prop where
  users : (register env a payload db).response.isError = true →
    (register env a payload db).db.users = db.users
  codes : (register env a payload db).response.isError = true →
    (register env a payload db).db.registrationCodes = db.registrationCodes
  retry : (register env a payload db).response.isError = true →
    (register env a payload db).db.userByEmail payload.email = db.userByEmail payload.email
  success : (register env a payload db).response.isError = false →
    ∃ u, (register env a payload db).db.users = db.users ++ [u] ∧ u.email = payload.email ∧
      u.isApproved = false ∧ ((register env a payload db).db.liveCodesOf u.id).length = 1

/-! ## What a registration can do -/

/-- The user is committed unless the database fails, or the fresh id is taken. -/
theorem registerUser_eq_none (hfree : db.userByEmail payload.email = none) :
    AuthDb.commit (a.commitFails 0) { db.toTables with users := db.users ++ [newUser env a payload] } =
        none ↔
      a.commitFails 0 = true ∨ a.userId ∈ db.users.map (·.id) := by
  have hemail : payload.email ∉ db.users.map (·.email) := by
    intro h
    obtain ⟨u, hu, he⟩ := List.mem_map.mp h
    simpa [he] using List.find?_eq_none.mp hfree u hu
  have hunique : ({ db.toTables with users := db.users ++ [newUser env a payload] } : Tables).Unique ↔
      a.userId ∉ db.users.map (·.id) := by
    constructor
    · exact fun h => (nodup_map_concat.mp h.ids).1
    · exact fun h => ⟨nodup_map_concat.mpr ⟨h, db.unique.ids⟩,
        nodup_map_concat.mpr ⟨hemail, db.unique.emails⟩, db.unique.registrationHashes,
        db.unique.otpHashes, db.unique.jtis⟩
  unfold AuthDb.commit
  rw [dite_eq_right_iff]
  constructor
  · intro h
    by_cases hf : a.commitFails 0 = true
    · exact Or.inl hf
    · refine Or.inr (not_not.mp fun hmem => ?_)
      cases h ⟨by simpa using hf, hunique.mpr hmem⟩
  · rintro (hf | hmem) ⟨hok, hu⟩
    · rw [hf] at hok
      cases hok
    · exact absurd hmem (hunique.mp hu)

/-- Everything that a registration can do: the address is taken, the user is not committed, or the
code loop runs on the tables with the user. -/
theorem register_cases (env : AuthEnv) (a : Ambient) (payload : UserCreate) (db : AuthDb) :
    let result := register env a payload db
    ((db.userByEmail payload.email).isSome ∧ result.db = db ∧ result.response.isError = true) ∨
    ((a.commitFails 0 = true ∨ a.userId ∈ db.users.map (·.id)) ∧ result.db = db ∧
      result.response.isError = true) ∨
    (db.userByEmail payload.email = none ∧
      ¬ (a.commitFails 0 = true ∨ a.userId ∈ db.users.map (·.id)) ∧
      ∃ db₁ : AuthDb, db₁.toTables = { db.toTables with users := db.users ++ [newUser env a payload] } ∧
        ∃ success, success.isError = false ∧
          result = createAndSendRegistrationCode env a 1 (newUser env a payload) db₁ success) := by
  have hcommit := @registerUser_eq_none env a payload db
  unfold register
  cases hemail : db.userByEmail payload.email with
  | some u => exact Or.inl ⟨rfl, rfl, rfl⟩
  | none =>
    dsimp only
    cases hc : AuthDb.commit (a.commitFails 0)
        { db.toTables with users := db.users ++ [newUser env a payload] } with
    | none => exact Or.inr (Or.inl ⟨(hcommit hemail).mp hc, rfl, rfl⟩)
    | some db₁ =>
      refine Or.inr (Or.inr ⟨rfl, fun hfail => ?_, db₁, (AuthDb.commit_eq_some.mp hc).2, _, ?_, rfl⟩)
      · rw [(hcommit hemail).mpr hfail] at hc
        cases hc
      · rfl

/-- The user is committed, and then no attempt to commit a code gets through. -/
structure LeavesUserBehind (env : AuthEnv) (a : Ambient) (payload : UserCreate) (db : AuthDb) :
    Prop where
  free : db.userByEmail payload.email = none
  committed : ¬ (a.commitFails 0 = true ∨ a.userId ∈ db.users.map (·.id))
  stuck : ∀ i < 5, AttemptFails env a 1 db.toTables i

/-- A new code of a user without codes is the only live one. -/
theorem liveCodesOf_addCode {base : Tables} {userId : String} (i : Nat)
    (hbase : ∀ c ∈ base.registrationCodes, c.userId ≠ userId) :
    ((addCode env a userId base i).liveCodesOf userId).length = 1 := by
  have hnone : base.registrationCodes.filter (fun c => c.userId = userId && c.live) = [] := by
    rw [List.filter_eq_nil_iff]
    intro c hc
    simp [hbase c hc]
  rw [Tables.liveCodesOf, addCode, List.filter_append, hnone]
  simp [codeRow, CodeRow.live]

/-- What the code loop leaves of a registration whose user is committed. -/
theorem registered_cases {db₁ : AuthDb} (success : AuthResponse)
    (howned : ∀ c ∈ db.registrationCodes, ∃ u ∈ db.users, u.id = c.userId)
    (hid : a.userId ∉ db.users.map (·.id))
    (hdb₁ : db₁.toTables = { db.toTables with users := db.users ++ [newUser env a payload] }) :
    let result := createAndSendRegistrationCode env a 1 (newUser env a payload) db₁ success
    result.db.users = db.users ++ [newUser env a payload] ∧
      (((∀ i < 5, AttemptFails env a 1 db.toTables i) ∧ result.response.isError = true) ∨
        ((∃ i < 5, ¬ AttemptFails env a 1 db.toTables i) ∧ result.response = success ∧
          (result.db.liveCodesOf a.userId).length = 1)) := by
  have hcodes : db₁.registrationCodes = db.registrationCodes := by rw [hdb₁]
  have husers : db₁.users = db.users ++ [newUser env a payload] := by rw [hdb₁]
  have hfails : ∀ i, AttemptFails env a 1 db₁.toTables i ↔ AttemptFails env a 1 db.toTables i := by
    intro i
    rw [AttemptFails, AttemptFails, hcodes]
  have hothers : ∀ c ∈ db₁.registrationCodes, c.userId ≠ a.userId := by
    intro c hc he
    obtain ⟨u, hu, hc⟩ := howned c (hcodes ▸ hc)
    exact hid (List.mem_map.mpr ⟨u, hu, hc.trans he⟩)
  obtain ⟨hall, hdb, hresp⟩ | ⟨hok, hresp, hdb⟩ | ⟨i, -, hi, hok, hresp, hdb⟩ :=
    createAndSendRegistrationCode_cases env a 1 (newUser env a payload) db₁ success
  · refine ⟨by rw [hdb, husers], Or.inl ⟨fun i hi => (hfails i).mp (hall i hi), ?_⟩⟩
    rw [hresp]
    rfl
  · refine ⟨by rw [hdb]; exact husers, Or.inr ⟨⟨0, by omega, mt (hfails 0).mpr hok⟩, hresp, ?_⟩⟩
    rw [hdb]
    refine liveCodesOf_addCode 0 fun c hc he => ?_
    obtain ⟨⟨c₀, hc₀, -, huser, -⟩, -⟩ := mem_revokeLiveCodes hc
    exact hothers c₀ hc₀ (huser.symm.trans he)
  · refine ⟨by rw [hdb]; exact husers, Or.inr ⟨⟨i, hi.2, mt (hfails i).mpr hok⟩, hresp, ?_⟩⟩
    rw [hdb]
    exact liveCodesOf_addCode i hothers

/-- **When a registration is all or nothing.** On tables whose codes belong to registered users (the
foreign key of `registration_codes`), it is so exactly when it does not leave a user behind. -/
theorem register_allOrNothing_iff (env : AuthEnv) (a : Ambient) (payload : UserCreate) (db : AuthDb)
    (howned : ∀ c ∈ db.registrationCodes, ∃ u ∈ db.users, u.id = c.userId) :
    AllOrNothing env a payload db ↔ ¬ LeavesUserBehind env a payload db := by
  obtain ⟨hsome, hdb, herr⟩ | ⟨hfail, hdb, herr⟩ | ⟨hfree, hok, db₁, hdb₁, success, hsucc, hres⟩ :=
    register_cases env a payload db
  · refine iff_of_true ⟨fun _ => by rw [hdb], fun _ => by rw [hdb], fun _ => by rw [hdb],
      fun h => by rw [herr] at h; cases h⟩ fun h => ?_
    rw [h.free] at hsome
    cases hsome
  · exact iff_of_true ⟨fun _ => by rw [hdb], fun _ => by rw [hdb], fun _ => by rw [hdb],
      fun h => by rw [herr] at h; cases h⟩ fun h => h.committed hfail
  · obtain ⟨husers, ⟨hall, herr⟩ | ⟨⟨i, hi, hi'⟩, hresp, hlive⟩⟩ :=
      registered_cases success howned (fun h => hok (Or.inr h)) hdb₁
    · -- The user stays, and its address is taken.
      refine iff_of_false (fun h => ?_) fun h => h ⟨hfree, hok, hall⟩
      have hsame := h.users (by rw [hres]; exact herr)
      rw [hres, husers] at hsame
      simpa using congrArg List.length hsame
    · refine iff_of_true ⟨fun h => ?_, fun h => ?_, fun h => ?_, fun _ => ?_⟩ fun h => hi' (h.stuck i hi)
      · rw [hres, hresp, hsucc] at h
        cases h
      · rw [hres, hresp, hsucc] at h
        cases h
      · rw [hres, hresp, hsucc] at h
        cases h
      · rw [hres]
        exact ⟨newUser env a payload, husers, rfl, rfl, hlive⟩

/-! ## Fixtures -/

theorem demo_password_long : 8 ≤ "password1".length := by decide

theorem demo_name_not_blank : "Demo" ≠ "" := by decide

/-- The payload of `demoLogin`. -/
def demoUserCreate : UserCreate :=
  ⟨"Demo", "demo@example.com", "password1", demo_password_long, demo_name_not_blank⟩

/-- The tables after one registration. -/
def oneRegistered : AuthDb :=
  (register (demoAuthEnv true) (demoAmbient "ABCDEFGH" "") demoUserCreate .empty).db

/-- A second registration draws the code of the first one, and then another. -/
theorem demo_allOrNothing : oneRegistered.registrationCodes.length = 1 ∧
    AllOrNothing (demoAuthEnv true)
      { demoAmbient "ABCDEFGH" "" with
        userId := "u2", codes := fun i => if i = 0 then "ABCDEFGH" else "JKLMNPQR" }
      { demoUserCreate with email := "other@example.com" } oneRegistered := by
  refine ⟨by decide +kernel, (register_allOrNothing_iff _ _ _ oneRegistered ?_).mpr fun h => ?_⟩
  · decide +kernel
  · exact absurd (h.stuck 1 (by omega)) (by decide +kernel)

/-- The database fails every commit after the first one. -/
def outageAmbient : Ambient := { demoAmbient "ABCDEFGH" "" with commitFails := fun i => i ≠ 0 }

/-- The registration answers that one should try again, its user stays, and the next try, with the
database at work again, finds the address taken. -/
theorem user_left_behind :
    let failed := register (demoAuthEnv true) outageAmbient demoUserCreate .empty
    failed.response = .httpError 500 "Could not generate a registration code. Please try again." ∧
      failed.db.users.map (·.email) = ["demo@example.com"] ∧
      ¬ AllOrNothing (demoAuthEnv true) outageAmbient demoUserCreate .empty ∧
      (register (demoAuthEnv true) { demoAmbient "ABCDEFGH" "" with userId := "u2" } demoUserCreate
          failed.db).response =
        .httpError 409 "An account with this email already exists" := by
  intro failed
  have husers : failed.db.users.map (·.email) = ["demo@example.com"] := by decide +kernel
  refine ⟨by decide +kernel, husers, fun h => ?_, by decide +kernel⟩
  have hsame : failed.db.users = [] := h.users (by decide +kernel)
  rw [hsame] at husers
  cases husers

end MarketKill3r
