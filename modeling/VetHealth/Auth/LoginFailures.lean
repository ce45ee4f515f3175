import VetHealth.Auth.Credentials
import VetHealth.Auth.Escalation

/-!
# VetHealth.Auth.LoginFailures

**How a login fails.** A registered user has the status `Pending` and no password, and
`validateLogin` takes care of that pair: it compares with a dummy. Any other status goes with a
password as long as only `confirm` gives it, but an administrator may set it on a user who has
none, and an update may clear it. From then on the user's login fails by a `TypeError`.
`login_answered` says that it takes such an update.
-/

namespace VetHealth

open Js Store Resumption Transition

section

variable [Scrypt]

/-- A user whom `validateLogin` can check: there is a status, what is stored is a hash, and it is
there unless the status is `Pending`. -/
structure UserEntity.Loginable (user : UserEntity) : Prop where
  status : user.status ≠ none
  hashed : ∀ stored, user.password = some stored → ∃ plaintext salt,
    stored = hashPassword plaintext salt
  confirmed : user.status ≠ some .pending → user.password ≠ none

/-- Every stored user can be checked. This is the invariant; it is about all rows, since a login may
ask for any address. -/
def UsersTable.Loginable (users : UsersTable) : Prop :=
  ∀ k user, users.get k = some user → user.Loginable

/-! ### One login -/

/-- The one refusal of a login, for an unknown address, a wrong password and a pending user alike.
-/
def incorrectEmailOrPassword : Failure :=
  .unprocessable ErrorMessage.INCORRECT_EMAIL_OR_PASSWORD

/-- A login issues tokens, to a user who is not Pending and whose stored password the given one
verifies against, or it is refused and leaves the database as it was. -/
def LoginAnswered (a : Ambient) (db : Database) (authDto : AuthLoginDto) : Prop :=
  (∃ response db' status, (AuthService.validateLogin a authDto).run db = (.ok response, db') ∧
    db.userByEmail authDto.email = some response.user ∧
    comparePassword authDto.password response.user.password = .ok true ∧
    response.user.status = some status ∧ status ≠ .pending) ∨
  (AuthService.validateLogin a authDto).run db = (.error incorrectEmailOrPassword, db)

/-- The comparison with the dummy has a result. It is made so that an unknown address takes as long
as a known one. -/
theorem comparePassword_dummy (password : String) :
    ∃ isValid, comparePassword password (some DUMMY_PASSWORD_HASH) = .ok isValid := by
  have hcut : cutAtDot DUMMY_PASSWORD_HASH.toList =
      ("6647e67b1fac0cc0f1d3ff5481c9e0e0".toList,
        some "d297166ebb2070ca44ab100278a91fbba173771e90047cf49879cee178729750".toList) := by
    decide +kernel
  have hlength : (fromHex (cutAtDot
      "d297166ebb2070ca44ab100278a91fbba173771e90047cf49879cee178729750".toList).1).length = 32 := by
    decide +kernel
  rw [comparePassword]
  dsimp only
  rw [hcut]
  dsimp only
  rw [if_neg (by rw [hlength]; exact not_not_intro rfl)]
  exact ⟨_, rfl⟩

namespace AuthService

/-- The check of a login lets the found user in, or it is the one refusal. Nothing is thrown on the
way, for a user that can be checked. -/
theorem checkLogin_answers (authDto : AuthLoginDto) {found : Option UserEntity}
    (h : ∀ user ∈ found, user.Loginable) :
    (∃ user, checkLogin authDto found = .ok user) ∨
      checkLogin authDto found = .error incorrectEmailOrPassword := by
  cases found with
  | none =>
      obtain ⟨isValid, hcompare⟩ := comparePassword_dummy authDto.password
      rw [checkLogin, hcompare]
      exact Or.inr rfl
  | some user =>
      have huser := h user rfl
      obtain ⟨status, hstatus⟩ := Option.ne_none_iff_exists'.1 huser.status
      -- A pending user is compared with the dummy, any other one with what is stored, which is a
      -- hash.
      have hcompare : ∃ isValid, comparePassword authDto.password
          (if status ≠ .pending then user.password else some DUMMY_PASSWORD_HASH) =
            .ok isValid := by
        by_cases hpending : status = .pending
        · rw [if_neg (not_not_intro hpending)]
          exact comparePassword_dummy authDto.password
        · rw [if_pos hpending]
          have hset := huser.confirmed (by rw [hstatus, ne_eq, Option.some.injEq]; exact hpending)
          obtain ⟨stored, hstored⟩ := Option.ne_none_iff_exists'.1 hset
          obtain ⟨plaintext, salt, rfl⟩ := huser.hashed stored hstored
          rw [hstored, comparePassword_hashPassword]
          exact ⟨_, rfl⟩
      obtain ⟨isValid, hcompare⟩ := hcompare
      rw [checkLogin, hstatus]
      dsimp only
      rw [hcompare]
      by_cases hrefused : status = .pending ∨ isValid = false
      · exact Or.inr (if_pos hrefused)
      · exact Or.inl ⟨user, if_neg hrefused⟩

end AuthService

/-- A login over checkable users is answered, when a token can be signed and the row id that is
drawn for the session is free. -/
theorem loginAnswered_of_loginable {a : Ambient} {db : Database} (authDto : AuthLoginDto)
    (hsigned : a.signed = true) (hfree : db.sessions.get a.rowId = none)
    (h : db.users.Loginable) : LoginAnswered a db authDto := by
  have hfound : ∀ user ∈ db.userByEmail authDto.email, user.Loginable := fun user huser =>
    h user.id user (Database.get_of_userByEmail huser)
  unfold LoginAnswered
  rw [AuthService.run_validateLogin]
  rcases AuthService.checkLogin_answers authDto hfound with ⟨user, hok⟩ | hrefused
  · obtain ⟨huser, hcompare, status, hstatus, hpending⟩ := checkLogin_eq_ok.1 hok
    obtain ⟨db', hins⟩ : ∃ db', db.insertSession ⟨a.rowId, user.id, a.hash, false⟩ = .ok db' :=
      Database.exists_insertSession.2 hfree
    rw [hok]
    dsimp only
    rw [hins, AuthService.getTokensData, if_pos hsigned]
    exact Or.inl ⟨_, db', status, rfl, huser, hcompare, hstatus, hpending⟩
  · rw [hrefused]
    exact Or.inr rfl

/-! ### Runs -/

variable [Mysql] [EmailSyntax]

omit [EmailSyntax] in
/-- The password that a request sets passes the check of its DTO. -/
def Request.passwordAccepted : Request → Prop
  | .confirm confirmDto => PASSWORD_REGEX.test confirmDto.password = true
  | .changePassword _ changePasswordDto => PASSWORD_REGEX.test changePasswordDto.password = true
  | _ => True

/-- An update of a user that goes through does not clear the status, and it sets one other than
`Pending` only for a user who has a password. -/
def KeepsLoginable (db : Database) : Request → Prop
  | .updateUser caller dto =>
      ∀ users, UsersController.update db.topicIds db.users caller dto = .ok users →
        Column.ofRelation Mysql.userStatusOf dto.status ≠ some .clear ∧
          ∀ status, Column.ofRelation Mysql.userStatusOf dto.status = some (.set status) →
            status ≠ .pending → ∀ k user, dto.id = some (.str k.text) →
              db.users.get k = some user → user.password ≠ none
  | _ => True

omit [Mysql] [EmailSyntax] in
/-- Setting a new password keeps a user checkable: what is stored for an accepted password is a
hash. -/
theorem loginable_setPassword {salt : Vector UInt8 16} {password : String} {user : UserEntity}
    (hpassword : PASSWORD_REGEX.test password = true) {patch : UserPatch}
    (hpatch : patch.password = .set password)
    (hstatus : patch.status.apply user.status ≠ none) :
    ((patch.setPassword salt).applyTo user).Loginable := by
  have hne : password ≠ "" := by
    rintro rfl
    revert hpassword
    decide
  have happly : (patch.setPassword salt).applyTo user =
      { patch.applyTo user with password := some (hashPassword password salt) } := by
    rw [UserPatch.setPassword, hpatch]
    dsimp only
    rw [if_pos hne]
    rfl
  rw [happly]
  exact ⟨hstatus, fun stored hstored => ⟨password, salt, (Option.some.inj hstored).symm⟩,
    fun _ => Option.some_ne_none _⟩

omit [Scrypt] [Mysql] [EmailSyntax] in
/-- What holds of the saved row and of every other one holds of all. A save writes no row but that
of the id. -/
theorem forall_get_save {users users' : UsersTable} {id : Uuid} {patch : UserPatch}
    {P : UserEntity → Prop} (hsave : UsersRepository.save users id patch = .ok users')
    (h : ∀ k user, users.get k = some user → P user)
    (hid : ∀ user, users.get id = some user → P (patch.applyTo user)) :
    ∀ k user, users'.get k = some user → P user := by
  intro k user hget
  by_cases hk : k = id
  · rw [hk, UsersRepository.get_save hsave, Option.map_eq_some_iff] at hget
    obtain ⟨old, hold, rfl⟩ := hget
    exact hid old hold
  · rw [UsersRepository.get_save_ne hsave hk] at hget
    exact h k user hget

/-- **The step lemma**: a request that meets the condition leaves every user checkable. -/
theorem loginable_of_step {a : Ambient} {db : Database} {request : Request} {users : UsersTable}
    (hstep : UsersStep db a request users) (haccepted : request.passwordAccepted)
    (hkeeps : KeepsLoginable db request) (h : db.users.Loginable) : users.Loginable := by
  cases hstep with
  | same => exact h
  -- A new user is pending and has no password yet.
  | @registered _ _ user _ _ _ hentity hinsert =>
      obtain ⟨-, hstatus, hpassword, -⟩ := AuthRegisterDto.toEntity_eq_some hentity
      intro k row hget
      rw [UsersRepository.get_insert hinsert] at hget
      split at hget
      · obtain rfl := Option.some.inj hget
        exact ⟨by rw [hstatus]; exact Option.some_ne_none _,
          fun stored hstored => (by rw [hpassword] at hstored; cases hstored),
          fun hconfirmed => absurd hstatus hconfirmed⟩
      · exact h k row hget
  -- An update may write the status, for which the condition speaks; it cannot write the password.
  | updated hupdate =>
      obtain ⟨target, role, patch, -, -, hid, hget, -, hpatch, hsave⟩ :=
        UsersController.update_eq_ok.1 hupdate
      obtain ⟨-, hcolumn, hkept⟩ := UpdateUserDto.toPatch_eq_some hpatch
      obtain ⟨hclear, hset⟩ := hkeeps _ hupdate
      refine forall_get_save hsave h fun user huser => ?_
      have huser' := h _ _ huser
      have hpassword : (patch.applyTo user).password = user.password := by
        rw [UserPatch.applyTo, hkept]
        rfl
      have hstatus : (patch.applyTo user).status = patch.status.apply user.status := rfl
      refine ⟨?_, by rw [hpassword]; exact huser'.hashed, ?_⟩
      · rw [hstatus]
        cases hcol : patch.status with
        | keep => exact huser'.status
        | clear => exact absurd (hcol ▸ hcolumn) hclear
        | set status => exact Option.some_ne_none status
      · rw [hstatus, hpassword]
        cases hcol : patch.status with
        | keep => exact huser'.confirmed
        | clear => exact absurd (hcol ▸ hcolumn) hclear
        | set status =>
            intro hne
            exact hset status (hcol ▸ hcolumn) (fun heq => hne (heq ▸ rfl)) _ _ hid huser
  -- A deletion sets the mark and leaves every other field of the row.
  | deleted =>
      intro k user hget
      rw [UsersRepository.get_softDelete, Option.map_eq_some_iff] at hget
      obtain ⟨old, hold, rfl⟩ := hget
      have huser := h k old hold
      split
      · exact ⟨huser.status, huser.hashed, huser.confirmed⟩
      · exact huser
  | confirmed _ _ hsave =>
      exact forall_get_save hsave h fun user _ =>
        loginable_setPassword haccepted rfl (Option.some_ne_none _)
  | changed hsave =>
      exact forall_get_save hsave h fun user huser =>
        loginable_setPassword haccepted rfl (h _ _ huser).status

variable {db₀ db : Database}
  {past : List (Entry Database (Ambient × Request) (Except Failure Response))}

/-- Every user of a run whose requests meet the condition can be checked: the step lemma, along the
run. -/
theorem loginable_of_reach [Typeorm] (h : server.Reach db₀ past db) (hinit : db₀.users.Loginable)
    (haccepted : ∀ e ∈ past, e.request.2.passwordAccepted)
    (hkeeps : ∀ e ∈ past, KeepsLoginable e.before e.request.2) : db.users.Loginable := by
  refine h.invariant (P := fun _ db => db.users.Loginable) hinit ?_
    (Machine.along_of_forall (C := fun e =>
      e.request.2.passwordAccepted ∧ KeepsLoginable e.before e.request.2)
      fun e he => ⟨haccepted e he, hkeeps e he⟩)
  intro past s call _ hs hC
  exact loginable_of_step (users_step call.1 s call.2) hC.1 hC.2 hs

/-- **A failed login is always the same refusal**, in every state of a run in which no update
clears a status or sets one other than `Pending` for a user without a password. -/
theorem login_answered [Typeorm] (h : server.Reach db₀ past db) (hinit : db₀.users.Loginable)
    (haccepted : ∀ e ∈ past, e.request.2.passwordAccepted)
    (hkeeps : ∀ e ∈ past, KeepsLoginable e.before e.request.2)
    (a : Ambient) (authDto : AuthLoginDto) (hsigned : a.signed = true)
    (hfree : db.sessions.get a.rowId = none) : LoginAnswered a db authDto :=
  loginAnswered_of_loginable authDto hsigned hfree (loginable_of_reach h hinit haccepted hkeeps)

end

/-! ### An activated user without a password -/

section

attribute [local instance] spelledKey Mysql.strict atSign Typeorm.comparing

/-- `desk` with the one user who has a password. -/
def frontDesk : Database := { desk with users := ⟨[authorWithPassword], by decide⟩ }

/-- An administrator sets the status of the user that `registering` adds. -/
def activating : Ambient × Request :=
  (drawing "activate" (by decide),
    .updateUser { author.signedIn with role := some .admin }
      { id := some (.str "new"), status := some (.obj [("id", .num ⟨1, "1", stringToNumber_one⟩)]) })

/-- Who asks, and with what. -/
def ivansLogin : AuthLoginDto := ⟨"ivan@vethealth.test", "Secret-1"⟩

theorem loginable_frontDesk : frontDesk.users.Loginable := by
  intro k user hget
  obtain rfl := List.mem_singleton.1 (Table.mem_def.1 (Table.get_eq_some.1 hget).1)
  exact ⟨by decide, fun stored hstored => ⟨_, _, (Option.some.inj hstored).symm⟩,
    fun _ => Option.some_ne_none _⟩

/-- The registered user is refused like anybody else. -/
theorem registered_user_refused :
    LoginAnswered (drawing "login" (by decide))
      (server.run frontDesk [registering (.str "4")]).2 ivansLogin :=
  login_answered (server.reach_run frontDesk [registering (.str "4")]) loginable_frontDesk
    (fun e he => by rw [List.mem_singleton.1 he]; trivial)
    (fun e he => by rw [List.mem_singleton.1 he]; trivial)
    (drawing "login" (by decide)) ivansLogin rfl (by decide +kernel)

/-- Once the status is set, the login throws. -/
theorem activated_user_crashes_login :
    ¬ LoginAnswered (drawing "login" (by decide))
      (server.run frontDesk [registering (.str "4"), activating]).2 ivansLogin := by
  have hthrows : (match ((AuthService.validateLogin (drawing "login" (by decide)) ivansLogin).run
      (server.run frontDesk [registering (.str "4"), activating]).2).1 with
      | .error e => decide (e = .internal .typeError)
      | .ok _ => false) = true := by
    decide +kernel
  rintro (⟨response, db', status, h, -⟩ | h)
  · rw [h] at hthrows
    cases hthrows
  · rw [h] at hthrows
    cases hthrows

end

end VetHealth
