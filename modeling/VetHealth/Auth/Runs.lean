import VetHealth.Auth.Service

/-!
# VetHealth.Auth.Runs

**Requests answered one after another.** `server` executes every request from start to end
before it takes the next one. For each service function there is one equation that says what
such an execution returns and what it leaves behind; the results about runs of the server read
everything off these equations.
-/

namespace VetHealth

open Js Store Resumption Transition

@[simp] theorem run_query {α : Type} (f : Database → α) (db : Database) :
    (query f).run db = (.ok (f db), db) := rfl

@[simp] theorem run_execute (f : Database → Database) (db : Database) :
    (execute f).run db = (.ok (), f db) := rfl

theorem run_attempt (f : Database → Except Failure Database) (db : Database) :
    (attempt f).run db =
      match f db with
      | .ok db' => (.ok (), db')
      | .error e => (.error e, db) := rfl

section Services

variable [Scrypt] (a : Ambient) (db : Database)

/-- Whom a login lets in: a user who was found and has the password, and is not Pending. -/
theorem checkLogin_eq_ok {dto : AuthLoginDto} {found : Option UserEntity} {user : UserEntity} :
    AuthService.checkLogin dto found = .ok user ↔
      found = some user ∧ comparePassword dto.password user.password = .ok true ∧
        ∃ status, user.status = some status ∧ status ≠ .pending := by
  cases found with
  | none =>
      constructor
      · intro h
        obtain ⟨_, -, h⟩ := bind_eq_ok.1 h
        cases h
      · intro ⟨h, _⟩
        cases h
  | some row =>
      rw [AuthService.checkLogin, Option.some.injEq]
      cases hstatus : row.status with
      | none =>
          constructor
          · intro h
            cases h
          · intro ⟨hrow, _, status, hsome, _⟩
            rw [← hrow, hstatus] at hsome
            cases hsome
      | some status =>
          dsimp only
          rw [bind_eq_ok]
          constructor
          · intro ⟨isValid, hcompare, h⟩
            -- The two reasons for the one refusal stand in a disjunction: pending, or not valid.
            rw [ite_error_eq_ok, not_or, Bool.not_eq_false] at h
            obtain ⟨⟨hpending, hvalid⟩, h⟩ := h
            obtain rfl := Except.ok.inj h
            rw [if_pos hpending, hvalid] at hcompare
            exact ⟨rfl, hcompare, status, hstatus, hpending⟩
          · intro ⟨hrow, hcompare, status', hsome, hpending⟩
            subst hrow
            obtain rfl := Option.some.inj (hstatus.symm.trans hsome)
            refine ⟨true, by rw [if_pos hpending]; exact hcompare, ?_⟩
            rw [ite_error_eq_ok]
            exact ⟨by simp [hpending], rfl⟩

namespace AuthService

theorem run_validateLogin (authDto : AuthLoginDto) :
    (validateLogin a authDto).run db =
      match checkLogin authDto (db.userByEmail authDto.email) with
      | .error e => (.error e, db)
      | .ok user =>
          match db.insertSession ⟨a.rowId, user.id, a.hash, false⟩ with
          | .error e => (.error e, db)
          | .ok db' =>
              ((getTokensData a user.id user.role a.rowId a.hash).map fun tokens =>
                { tokens with user }, db') := by
  simp only [validateLogin, Prog.run_bind, run_query, Prog.run_lift]
  cases checkLogin authDto (db.userByEmail authDto.email) with
  | error e => rfl
  | ok user =>
      simp only [run_attempt]
      cases db.insertSession ⟨a.rowId, user.id, a.hash, false⟩ with
      | error e => rfl
      | ok db' => cases getTokensData a user.id user.role a.rowId a.hash <;> rfl

omit [Scrypt] in
theorem run_refreshTokens [Typeorm] (data : JwtRefreshPayload) :
    (refreshTokens a data).run db =
      match db.session data.sessionId with
      | none => (.error .unauthorized, db)
      | some (session, user) =>
          if session.hash ≠ data.hash then
            (.error .unauthorized, db.softDeleteSessions (some session.id) none none)
          else
            (match user with
              | none => .error (.internal .typeError)
              | some user => getTokensData a user.id user.role session.id a.hash,
            db.updateSession session.id a.hash) := by
  simp only [refreshTokens, Prog.run_bind, run_query]
  rcases db.session data.sessionId with _ | ⟨session, user⟩
  · rfl
  · dsimp only
    by_cases hhash : session.hash ≠ data.hash
    · rw [if_pos hhash, if_pos hhash]
      rfl
    · rw [if_neg hhash, if_neg hhash]
      cases user <;> rfl

theorem run_confirm [Typeorm] (confirmDto : AuthConfirmDto) :
    (confirm a confirmDto).run db =
      match db.confirm confirmDto.hash with
      | none => (.error (.unprocessable ErrorMessage.USER_IS_NOT_EXIST), db)
      | some (confirm, user) =>
          if confirm.expiresIn < a.now then
            (.error (.unprocessable ErrorMessage.CONFIRMATION_TOKEN_HAS_EXPIRED),
              db.deleteConfirm confirm.id)
          else
            match user with
            | none => (.error (.internal .typeError), db)
            | some user =>
                let revoked := db.softDeleteSessions none (some user.id) none
                match revoked.updateUser user.id (confirmPatch a confirmDto.password) with
                | .error e => (.error e, revoked)
                | .ok db' => (.ok "Email confirmed successfully", db'.deleteConfirm confirm.id) := by
  simp only [AuthService.confirm, Prog.run_bind, run_query]
  rcases db.confirm confirmDto.hash with _ | ⟨confirm, user⟩
  · rfl
  · dsimp only
    by_cases hexpired : confirm.expiresIn < a.now
    · rw [if_pos hexpired, if_pos hexpired]
      rfl
    · rw [if_neg hexpired, if_neg hexpired]
      cases user with
      | none => rfl
      | some user =>
          simp only [Prog.run_bind, run_execute, run_attempt]
          cases (db.softDeleteSessions none (some user.id) none).updateUser user.id
            (confirmPatch a confirmDto.password) <;> rfl

theorem run_changePassword [Typeorm] (authUser : JwtPayload) (changePasswordDto : AuthChangePasswordDto) :
    (changePassword a authUser changePasswordDto).run db =
      match checkChange changePasswordDto (db.loadUser authUser.id) with
      | .error e => (.error e, db)
      | .ok _ =>
          match db.updateUser authUser.id (changePatch a changePasswordDto.password) with
          | .error e => (.error e, db)
          | .ok db' =>
              (.ok (), db'.softDeleteSessions none (some authUser.id) (some authUser.sessionId)) := by
  simp only [changePassword, Prog.run_bind, run_query, Prog.run_lift]
  cases checkChange changePasswordDto (db.loadUser authUser.id) with
  | error e => rfl
  | ok user =>
      simp only [run_attempt]
      cases db.updateUser authUser.id (changePatch a changePasswordDto.password) <;> rfl

omit [Scrypt] in
theorem run_forgotPassword (email : String) :
    (forgotPassword a email).run db =
      match db.userByEmail email with
      | none => (.ok (), db)
      | some user =>
          match db.insertConfirm ⟨a.rowId, user.id, a.hash, a.now + 86400000⟩ with
          | .error e => (.error e, db)
          | .ok db' =>
              (if a.mailed then .ok ()
                else .error (.serviceUnavailable ErrorMessage.EMAIL_SEND_FAILED), db') := by
  simp only [forgotPassword, Prog.run_bind, run_query]
  cases db.userByEmail email with
  | none => rfl
  | some user =>
      simp only [Prog.run_bind, run_attempt]
      cases db.insertConfirm ⟨a.rowId, user.id, a.hash, a.now + 86400000⟩ with
      | error e => rfl
      | ok db' => cases a.mailed <;> rfl

omit [Scrypt] in
theorem run_getPendingUser (hash : String) :
    (getPendingUser hash).run db =
      (match db.confirm hash with
        | none => .error (.unprocessable ErrorMessage.USER_IS_NOT_EXIST)
        | some (_, none) => .error (.internal .typeError)
        | some (_, some user) => .ok { firstname := user.firstname, email := user.email },
        db) := by
  simp only [getPendingUser, Prog.run_bind, run_query]
  rcases db.confirm hash with _ | ⟨confirm, _ | user⟩ <;> rfl

omit [Scrypt] in
theorem run_register [Mysql] (createUserDto : AuthRegisterDto) :
    (register a createUserDto).run db =
      match createUserDto.toEntity db.topicIds a.userId with
      | none => (.error (.internal .queryFailed), db)
      | some user =>
          match db.insertUser user with
          | .error e => (.error e, db)
          | .ok db' =>
              match db'.insertConfirm ⟨a.rowId, user.id, a.hash, a.now + 86400000⟩ with
              | .error e => (.error e, db')
              | .ok db'' =>
                  (if a.mailed then
                    .ok { id := user.id, firstname := user.firstname, email := user.email }
                  else .error (.serviceUnavailable ErrorMessage.EMAIL_SEND_FAILED), db'') := by
  simp only [register, Prog.run_bind, Prog.run_atomic]
  cases createUserDto.toEntity db.topicIds a.userId with
  | none => rfl
  | some user =>
      dsimp only
      cases db.insertUser user with
      | error e => rfl
      | ok db' =>
          dsimp only
          simp only [run_attempt]
          cases db'.insertConfirm ⟨a.rowId, user.id, a.hash, a.now + 86400000⟩ with
          | error e => rfl
          | ok db'' => cases a.mailed <;> rfl

end AuthService

omit [Scrypt] in
theorem run_registerEndpoint [Mysql] [EmailSyntax] (caller : JwtPayload)
    (registerDto : AuthRegisterDto) :
    (AuthController.register a caller registerDto).run db =
      if !rolesGuardAdmin caller then (.error .forbiddenResource, db)
      else
        match validationPipe (AuthRegisterDto.properties db.users db.topicIds registerDto) with
        | .error e => (.error e, db)
        | .ok () => (AuthService.register a registerDto).run db := by
  unfold AuthController.register
  cases rolesGuardAdmin caller with
  | false => rfl
  | true =>
      simp only [Bool.not_true, Bool.false_eq_true, if_false, Prog.run_bind, run_query,
        Prog.run_lift]
      cases validationPipe (AuthRegisterDto.properties db.users db.topicIds registerDto) <;> rfl

end Services

/-- The server, answering one request after another: a step is a request from its first statement to
its answer. -/
def server [Scrypt] [Mysql] [EmailSyntax] [Typeorm] :
    Machine Database (Ambient × Request) (Except Failure Response) where
  step db call := (handle call.1 call.2).run db

/-! ### What a request can do to the users -/

section Users

variable [Scrypt] [Mysql] [EmailSyntax]

/-- The users table after a request: unchanged, or with one row added, updated, deleted,
activated, or given a new password. -/
inductive UsersStep (db : Database) (a : Ambient) : Request → UsersTable → Prop
  | same (request : Request) : UsersStep db a request db.users
  | registered {caller : JwtPayload} {dto : AuthRegisterDto} {user : UserEntity}
      {users : UsersTable} :
      rolesGuardAdmin caller = true →
      validate (AuthRegisterDto.properties db.users db.topicIds dto) = [] →
      dto.toEntity db.topicIds a.userId = some user →
      UsersRepository.insert db.users user = .ok users →
      UsersStep db a (.register caller dto) users
  | updated {caller : JwtPayload} {dto : UpdateUserDto} {users : UsersTable} :
      UsersController.update db.topicIds db.users caller dto = .ok users →
      UsersStep db a (.updateUser caller dto) users
  | deleted {caller : JwtPayload} {id : String} :
      UsersStep db a (.deleteUser caller id) (UsersRepository.softDelete db.users id)
  | confirmed {dto : AuthConfirmDto} {confirm : ConfirmEntity} {user : UserEntity}
      {users : UsersTable} :
      db.confirm dto.hash = some (confirm, some user) → a.now ≤ confirm.expiresIn →
      UsersRepository.save db.users user.id (AuthService.confirmPatch a dto.password) = .ok users →
      UsersStep db a (.confirm dto) users
  | changed {caller : JwtPayload} {dto : AuthChangePasswordDto} {users : UsersTable} :
      UsersRepository.save db.users caller.id (AuthService.changePatch a dto.password) = .ok users →
      UsersStep db a (.changePassword caller dto) users

omit [Mysql] [EmailSyntax] in
theorem login_users (a : Ambient) (db : Database) (dto : AuthLoginDto) :
    ((AuthService.validateLogin a dto).run db).2.users = db.users := by
  rw [AuthService.run_validateLogin]
  split
  · rfl
  · split
    · rfl
    · next hins => exact (Database.insertSession_eq_ok hins).2.1

omit [Scrypt] [Mysql] [EmailSyntax] in
theorem refresh_users [Typeorm] (a : Ambient) (db : Database) (data : JwtRefreshPayload) :
    ((AuthService.refreshTokens a data).run db).2.users = db.users := by
  rw [AuthService.run_refreshTokens]
  split
  · rfl
  · split
    · rfl
    · rfl

omit [Scrypt] [Mysql] [EmailSyntax] in
theorem forgotPassword_users (a : Ambient) (db : Database) (email : String) :
    ((AuthService.forgotPassword a email).run db).2.users = db.users := by
  rw [AuthService.run_forgotPassword]
  split
  · rfl
  · split
    · rfl
    · next hins => exact (Database.insertConfirm_eq_ok hins).2.1

theorem register_users (a : Ambient) (db : Database) (caller : JwtPayload) (dto : AuthRegisterDto) :
    UsersStep db a (.register caller dto)
      ((AuthController.register a caller dto).run db).2.users := by
  rw [run_registerEndpoint]
  cases hcaller : rolesGuardAdmin caller with
  | false => exact .same _
  | true =>
      rw [if_neg (by simp)]
      cases hpipe : validationPipe (AuthRegisterDto.properties db.users db.topicIds dto) with
      | error e => exact .same _
      | ok u =>
          dsimp only
          rw [AuthService.run_register]
          cases hentity : dto.toEntity db.topicIds a.userId with
          | none => exact .same _
          | some user =>
              dsimp only
              cases hins : db.insertUser user with
              | error e => exact .same _
              | ok db' =>
                  have hadded : UsersStep db a (.register caller dto) db'.users :=
                    .registered hcaller (validationPipe_eq_ok.1 hpipe) hentity
                      (Database.insertUser_users hins).1
                  dsimp only
                  cases hconfirm :
                      db'.insertConfirm ⟨a.rowId, user.id, a.hash, a.now + 86400000⟩ with
                  | error e => exact hadded
                  | ok db'' => exact (Database.insertConfirm_eq_ok hconfirm).2.1 ▸ hadded

theorem confirm_users [Typeorm] (a : Ambient) (db : Database) (dto : AuthConfirmDto) :
    UsersStep db a (.confirm dto) ((AuthService.confirm a dto).run db).2.users := by
  rw [AuthService.run_confirm]
  rcases hconfirm : db.confirm dto.hash with _ | ⟨confirm, user⟩
  · exact .same _
  · dsimp only
    by_cases hexpired : confirm.expiresIn < a.now
    · rw [if_pos hexpired]
      exact .same _
    · rw [if_neg hexpired]
      cases user with
      | none => exact .same _
      | some user =>
          dsimp only
          cases hupdate : (db.softDeleteSessions none (some user.id) none).updateUser user.id
              (AuthService.confirmPatch a dto.password) with
          | error e => exact .same _
          | ok db' =>
              exact .confirmed hconfirm (Int.not_lt.1 hexpired) (Database.updateUser_eq_ok hupdate).2.2

theorem changePassword_users [Typeorm] (a : Ambient) (db : Database) (caller : JwtPayload)
    (dto : AuthChangePasswordDto) :
    UsersStep db a (.changePassword caller dto)
      ((AuthService.changePassword a caller dto).run db).2.users := by
  rw [AuthService.run_changePassword]
  cases AuthService.checkChange dto (db.loadUser caller.id) with
  | error e => exact .same _
  | ok user =>
      dsimp only
      cases hupdate : db.updateUser caller.id (AuthService.changePatch a dto.password) with
      | error e => exact .same _
      | ok db' => exact .changed (Database.updateUser_eq_ok hupdate).2.2

/-- **What a request can do to the users.** Everything that is proved about roles and statuses in
runs goes by these cases. -/
theorem users_step [Typeorm] (a : Ambient) (db : Database) (request : Request) :
    UsersStep db a request ((handle a request).run db).2.users := by
  have hsame : ∀ {users : UsersTable}, users = db.users → UsersStep db a request users :=
    fun h => h ▸ .same request
  -- Requests that write no user first, then the two that write one after a lookup, then those that
  -- are one statement.
  cases request with
  | login dto => simp only [handle, Prog.run_map]; exact hsame (login_users a db dto)
  | refresh data => simp only [handle, Prog.run_map]; exact hsame (refresh_users a db data)
  | forgotPassword email =>
      simp only [handle, Prog.run_map]; exact hsame (forgotPassword_users a db email)
  | logout caller => exact .same _
  | currentUser caller => exact .same _
  | getPendingUser hash =>
      simp only [handle, Prog.run_map, AuthService.run_getPendingUser]
      exact .same _
  | register caller dto => simp only [handle, Prog.run_map]; exact register_users a db caller dto
  | confirm dto => simp only [handle, Prog.run_map]; exact confirm_users a db dto
  | changePassword caller dto =>
      simp only [handle, Prog.run_map]; exact changePassword_users a db caller dto
  | updateUser caller dto =>
      simp only [handle, Prog.run_map, run_attempt]
      cases hupdate : UsersController.update db.topicIds db.users caller dto with
      | error e => exact .same _
      | ok users => exact .updated hupdate
  | deleteUser caller id =>
      simp only [handle, Prog.run_map, run_attempt]
      cases hdelete : UsersController.delete db.users caller id with
      | error e => exact .same _
      | ok users =>
          rw [UsersController.delete_eq_ok hdelete]
          exact .deleted

end Users

/-! ### A small database -/

/-- A derivation that is good enough to compute with: the key spells the password. -/
@[reducible] def spelledKey : Scrypt :=
  ⟨fun password _ => Vector.ofFn fun i =>
    ((password.toList[i.val]?).map fun c => UInt8.ofNat c.toNat).getD 0⟩

def noSalt : Vector UInt8 16 := Vector.replicate 16 0

/-- The author of `staff` with the password `Secret-1`. -/
def authorWithPassword : UserEntity :=
  letI := spelledKey
  { author with password := some (hashPassword "Secret-1" noSalt) }

-- the texts by which several of the samples name a row
theorem phone_nonempty : "phone" ≠ "" := by decide

theorem one_nonempty : "one" ≠ "" := by decide

theorem new_nonempty : "new" ≠ "" := by decide

theorem two_nonempty : "two" ≠ "" := by decide

theorem three_nonempty : "three" ≠ "" := by decide

theorem reset_nonempty : "reset" ≠ "" := by decide

theorem change_nonempty : "change" ≠ "" := by decide

/-- Two sessions of the author, one of the owner, and a confirmation of the author's. -/
def desk : Database where
  users := ⟨[owner, authorWithPassword], by decide⟩
  sessions := ⟨[⟨⟨"phone", phone_nonempty⟩, author.id, "h1", false⟩,
    ⟨⟨"laptop", by decide⟩, author.id, "h2", false⟩,
    ⟨⟨"tablet", by decide⟩, owner.id, "h3", false⟩], by decide⟩
  confirms := ⟨[⟨⟨"reset", reset_nonempty⟩, author.id, "c1", 1000⟩], by decide⟩
  topicIds := []

/-- A request at time `0` that draws the hash and the row id from `name`. -/
def drawing (name : String) (h : name ≠ "") : Ambient where
  now := 0
  rowId := ⟨name, h⟩
  userId := ⟨name, h⟩
  hash := name
  salt := noSalt
  lifetime := 900
  signed := true
  mailed := true

end VetHealth
