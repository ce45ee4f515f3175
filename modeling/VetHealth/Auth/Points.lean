import VetHealth.Auth.Runs

/-!
# VetHealth.Auth.Points

**Where a request can be interrupted.** A request that is waiting for the database has made
some of its repository calls and remembers what it read. `Place` lists these moments, with what
is remembered at each; `controlPoints` says what the next call does and where it leads, and
`controlPoints.sound` that this is what the services do. An interleaving of requests is then a
run of `controlPoints.machine`, in which every task has an `Ambient` and a `Place`.

A place that a request ends in keeps what the request has achieved: the session that a login
opened, the confirmation that was issued, the user whose password was reset.
-/

namespace VetHealth

open Js Store Resumption Transition

inductive Place
  | ready (request : Request)
  | loginVerified (authDto : AuthLoginDto) (user : UserEntity)
  | loginOpened (authDto : AuthLoginDto) (user : UserEntity) (r : Except Failure LoginResponse)
  | refreshMismatched (data : JwtRefreshPayload) (session : SessionEntity)
  | refreshMatched (data : JwtRefreshPayload) (session : SessionEntity) (user : Option UserEntity)
  | refreshRotated (data : JwtRefreshPayload) (r : Except Failure Tokens)
  | confirmExpired (confirmDto : AuthConfirmDto) (confirm : ConfirmEntity)
  | confirmAccepted (confirmDto : AuthConfirmDto) (confirm : ConfirmEntity) (user : UserEntity)
  | confirmRevoked (confirmDto : AuthConfirmDto) (confirm : ConfirmEntity) (user : UserEntity)
  | confirmWritten (confirmDto : AuthConfirmDto) (confirm : ConfirmEntity) (user : UserEntity)
  | confirmed (confirmDto : AuthConfirmDto) (user : UserEntity)
  | changeVerified (caller : JwtPayload) (changePasswordDto : AuthChangePasswordDto)
  | changeWritten (caller : JwtPayload) (changePasswordDto : AuthChangePasswordDto)
  | passwordChanged (caller : JwtPayload) (changePasswordDto : AuthChangePasswordDto)
  | forgotFound (email : String) (user : UserEntity)
  | registerAccepted (caller : JwtPayload) (registerDto : AuthRegisterDto)
  | registerCreated (caller : JwtPayload) (registerDto : AuthRegisterDto) (user : UserEntity)
  | tokenIssued (request : Request) (confirm : ConfirmEntity) (r : Except Failure Response)
  | finished (request : Request) (r : Except Failure Response)

namespace Place

/-- The request that is being answered. -/
def request : Place → Request
  | .ready request | .tokenIssued request _ _ | .finished request _ => request
  | .loginVerified authDto _ | .loginOpened authDto _ _ => .login authDto
  | .refreshMismatched data _ | .refreshMatched data _ _ | .refreshRotated data _ => .refresh data
  | .confirmExpired confirmDto _ | .confirmAccepted confirmDto _ _
  | .confirmRevoked confirmDto _ _ | .confirmWritten confirmDto _ _
  | .confirmed confirmDto _ => .confirm confirmDto
  | .changeVerified caller dto | .changeWritten caller dto
  | .passwordChanged caller dto => .changePassword caller dto
  | .forgotFound email _ => .forgotPassword email
  | .registerAccepted caller dto | .registerCreated caller dto _ => .register caller dto

variable [Scrypt] [Mysql] [EmailSyntax] [Typeorm] (a : Ambient)

/-- The confirmation that a registration or a forgotten password issues. -/
def issued (user : UserEntity) : ConfirmEntity := ⟨a.rowId, user.id, a.hash, a.now + 86400000⟩

/-- What is left to do. A place carries what the request has loaded, so that the rest of the program
is a function of it. -/
def rest : Place → Action Response
  | .ready request => handle a request
  | .loginVerified _ user => .loggedIn <$> do
      attempt (Database.insertSession ⟨a.rowId, user.id, a.hash, false⟩)
      let tokens ← Prog.lift (AuthService.getTokensData a user.id user.role a.rowId a.hash)
      return { tokens with user }
  | .loginOpened _ _ r => Prog.lift (r.map .loggedIn)
  | .refreshMismatched _ session => .refreshed <$> do
      execute (Database.softDeleteSessions (some session.id) none none)
      throw .unauthorized
  | .refreshMatched _ session user => .refreshed <$> do
      execute (Database.updateSession session.id a.hash)
      match user with
      | none => throw (.internal .typeError)
      | some user => Prog.lift (AuthService.getTokensData a user.id user.role session.id a.hash)
  | .refreshRotated _ r => Prog.lift (r.map .refreshed)
  | .confirmExpired _ confirm => .confirmed <$> do
      execute (Database.deleteConfirm confirm.id)
      throw (.unprocessable ErrorMessage.CONFIRMATION_TOKEN_HAS_EXPIRED)
  | .confirmAccepted confirmDto confirm user => .confirmed <$> do
      execute (Database.softDeleteSessions none (some user.id) none)
      attempt (Database.updateUser user.id (AuthService.confirmPatch a confirmDto.password))
      execute (Database.deleteConfirm confirm.id)
      return "Email confirmed successfully"
  | .confirmRevoked confirmDto confirm user => .confirmed <$> do
      attempt (Database.updateUser user.id (AuthService.confirmPatch a confirmDto.password))
      execute (Database.deleteConfirm confirm.id)
      return "Email confirmed successfully"
  | .confirmWritten _ confirm _ => .confirmed <$> do
      execute (Database.deleteConfirm confirm.id)
      return "Email confirmed successfully"
  | .confirmed _ _ => return .confirmed "Email confirmed successfully"
  | .changeVerified caller dto => (fun _ => .passwordChanged) <$> do
      attempt (Database.updateUser caller.id (AuthService.changePatch a dto.password))
      execute (Database.softDeleteSessions none (some caller.id) (some caller.sessionId))
  | .changeWritten caller _ => (fun _ => .passwordChanged) <$>
      execute (Database.softDeleteSessions none (some caller.id) (some caller.sessionId))
  | .passwordChanged _ _ => return .passwordChanged
  | .forgotFound _ user => (fun _ => .resetRequested) <$> do
      attempt (Database.insertConfirm (issued a user))
      if a.mailed then return ()
      else throw (.serviceUnavailable ErrorMessage.EMAIL_SEND_FAILED)
  | .registerAccepted _ dto => .registered <$> AuthService.register a dto
  | .registerCreated _ _ user => .registered <$> do
      attempt (Database.insertConfirm (issued a user))
      if a.mailed then return { id := user.id, firstname := user.firstname, email := user.email }
      else throw (.serviceUnavailable ErrorMessage.EMAIL_SEND_FAILED)
  | .tokenIssued _ _ r => Prog.lift r
  | .finished _ r => Prog.lift r

/-- The first repository call of a request: where it leads, and the database that it leaves. What
needs no call is done in the same step. -/
def start (db : Database) : Request → Place × Database
  | .login authDto =>
      match AuthService.checkLogin authDto (db.userByEmail authDto.email) with
      | .ok user => (.loginVerified authDto user, db)
      | .error e => (.finished (.login authDto) (.error e), db)
  | .refresh data =>
      match db.session data.sessionId with
      | none => (.finished (.refresh data) (.error .unauthorized), db)
      | some (session, user) =>
          if session.hash ≠ data.hash then (.refreshMismatched data session, db)
          else (.refreshMatched data session user, db)
  | .confirm confirmDto =>
      match db.confirm confirmDto.hash with
      | none =>
          (.finished (.confirm confirmDto)
            (.error (.unprocessable ErrorMessage.USER_IS_NOT_EXIST)), db)
      | some (confirm, user) =>
          if confirm.expiresIn < a.now then (.confirmExpired confirmDto confirm, db)
          else
            match user with
            | none => (.finished (.confirm confirmDto) (.error (.internal .typeError)), db)
            | some user => (.confirmAccepted confirmDto confirm user, db)
  | .changePassword caller dto =>
      match AuthService.checkChange dto (db.loadUser caller.id) with
      | .ok _ => (.changeVerified caller dto, db)
      | .error e => (.finished (.changePassword caller dto) (.error e), db)
  | .forgotPassword email =>
      match db.userByEmail email with
      | none => (.finished (.forgotPassword email) (.ok .resetRequested), db)
      | some user => (.forgotFound email user, db)
  | .register caller dto =>
      if !rolesGuardAdmin caller then
        (.finished (.register caller dto) (.error .forbiddenResource), db)
      else
        match validationPipe (AuthRegisterDto.properties db.users db.topicIds dto) with
        | .ok () => (.registerAccepted caller dto, db)
        | .error e => (.finished (.register caller dto) (.error e), db)
  -- the other requests make one call
  | request => (.finished request ((handle a request).run db).1, ((handle a request).run db).2)

/-- The next repository call: where it leads, and the database that it leaves. -/
def step (db : Database) : Place → Place × Database
  | .ready request => start a db request
  | .loginVerified authDto user =>
      match db.insertSession ⟨a.rowId, user.id, a.hash, false⟩ with
      | .ok db' => (.loginOpened authDto user
          ((AuthService.getTokensData a user.id user.role a.rowId a.hash).map fun tokens =>
            { tokens with user }), db')
      | .error e => (.finished (.login authDto) (.error e), db)
  | .refreshMismatched data session =>
      (.finished (.refresh data) (.error .unauthorized),
        db.softDeleteSessions (some session.id) none none)
  | .refreshMatched data session user =>
      (.refreshRotated data
        (match user with
        | none => .error (.internal .typeError)
        | some user => AuthService.getTokensData a user.id user.role session.id a.hash),
        db.updateSession session.id a.hash)
  | .confirmExpired confirmDto confirm =>
      (.finished (.confirm confirmDto)
        (.error (.unprocessable ErrorMessage.CONFIRMATION_TOKEN_HAS_EXPIRED)),
        db.deleteConfirm confirm.id)
  | .confirmAccepted confirmDto confirm user =>
      (.confirmRevoked confirmDto confirm user, db.softDeleteSessions none (some user.id) none)
  | .confirmRevoked confirmDto confirm user =>
      match db.updateUser user.id (AuthService.confirmPatch a confirmDto.password) with
      | .ok db' => (.confirmWritten confirmDto confirm user, db')
      | .error e => (.finished (.confirm confirmDto) (.error e), db)
  | .confirmWritten confirmDto confirm user =>
      (.confirmed confirmDto user, db.deleteConfirm confirm.id)
  | .changeVerified caller dto =>
      match db.updateUser caller.id (AuthService.changePatch a dto.password) with
      | .ok db' => (.changeWritten caller dto, db')
      | .error e => (.finished (.changePassword caller dto) (.error e), db)
  | .changeWritten caller dto =>
      (.passwordChanged caller dto,
        db.softDeleteSessions none (some caller.id) (some caller.sessionId))
  | .forgotFound email user =>
      match db.insertConfirm (issued a user) with
      | .ok db' => (.tokenIssued (.forgotPassword email) (issued a user)
          (if a.mailed then .ok .resetRequested
            else .error (.serviceUnavailable ErrorMessage.EMAIL_SEND_FAILED)), db')
      | .error e => (.finished (.forgotPassword email) (.error e), db)
  | .registerAccepted caller dto =>
      match dto.toEntity db.topicIds a.userId with
      | none => (.finished (.register caller dto) (.error (.internal .queryFailed)), db)
      | some user =>
          match db.insertUser user with
          | .ok db' => (.registerCreated caller dto user, db')
          | .error e => (.finished (.register caller dto) (.error e), db)
  | .registerCreated caller dto user =>
      match db.insertConfirm (issued a user) with
      | .ok db' => (.tokenIssued (.register caller dto) (issued a user)
          (if a.mailed then
            .ok (.registered { id := user.id, firstname := user.firstname, email := user.email })
          else .error (.serviceUnavailable ErrorMessage.EMAIL_SEND_FAILED)), db')
      | .error e => (.finished (.register caller dto) (.error e), db)
  | place => (place, db)

/-! ### The places are those of the services -/

omit [Scrypt] [Mysql] [EmailSyntax] [Typeorm] in
theorem advance_query {α β : Type} (f : Database → α) (p : α → Action β) (db : Database) :
    (query f >>= p).advance db = (p (f db), db) := Prog.advance_atomic_bind _ p db

omit [Scrypt] [Mysql] [EmailSyntax] [Typeorm] in
theorem advance_attempt {α : Type} (f : Database → Except Failure Database) (p : Unit → Action α)
    (db : Database) :
    (attempt f >>= p).advance db =
      match f db with
      | .ok db' => (p (), db')
      | .error e => (Prog.lift (.error e), db) := by
  rw [attempt, Prog.advance_atomic_bind]
  cases f db <;> rfl

/-- A request starts with its first repository call: the program and the first step agree. -/
theorem handle_advance (db : Database) (request : Request) :
    (handle a request).advance db =
      (rest a (start a db request).1, (start a db request).2) := by
  cases request with
  -- Each case compares the first statement of the service with the first step of the place; what
  -- the statement returns decides which place it is.
  | login authDto =>
      rw [handle, Prog.advance_map, AuthService.validateLogin, advance_query, start]
      cases AuthService.checkLogin authDto (db.userByEmail authDto.email) <;> rfl
  | refresh data =>
      rw [handle, Prog.advance_map, AuthService.refreshTokens, advance_query, start]
      rcases db.session data.sessionId with _ | ⟨session, user⟩
      · rfl
      · dsimp only
        by_cases hhash : session.hash ≠ data.hash
        · rw [if_pos hhash, if_pos hhash]
          rfl
        · rw [if_neg hhash, if_neg hhash]
          cases user <;> rfl
  | confirm confirmDto =>
      rw [handle, Prog.advance_map, AuthService.confirm, advance_query, start]
      rcases db.confirm confirmDto.hash with _ | ⟨confirm, user⟩
      · rfl
      · dsimp only
        by_cases hexpired : confirm.expiresIn < a.now
        · rw [if_pos hexpired, if_pos hexpired]
          rfl
        · rw [if_neg hexpired, if_neg hexpired]
          cases user <;> rfl
  | changePassword caller dto =>
      rw [handle, Prog.advance_map, AuthService.changePassword, advance_query, start]
      cases AuthService.checkChange dto (db.loadUser caller.id) <;> rfl
  | forgotPassword email =>
      rw [handle, Prog.advance_map, AuthService.forgotPassword, advance_query, start]
      cases db.userByEmail email <;> rfl
  | register caller dto =>
      rw [handle, Prog.advance_map, AuthController.register, start]
      cases rolesGuardAdmin caller with
      | false => rfl
      | true =>
          rw [if_neg (by simp), if_neg (by simp), advance_query]
          cases validationPipe (AuthRegisterDto.properties db.users db.topicIds dto) <;> rfl
  | getPendingUser hash =>
      show _ = (Prog.lift ((handle a (.getPendingUser hash)).run db).1,
        ((handle a (.getPendingUser hash)).run db).2)
      rw [handle, Prog.run_map, AuthService.run_getPendingUser, Prog.advance_map,
        AuthService.getPendingUser, advance_query]
      rcases db.confirm hash with _ | ⟨confirm, _ | user⟩ <;> rfl
  -- One statement is all that these do.
  | logout caller => exact Prog.advance_map_atomic _ _ db
  | currentUser caller => exact Prog.advance_map_atomic _ _ db
  | updateUser caller dto => exact Prog.advance_map_atomic _ _ db
  | deleteUser caller id => exact Prog.advance_map_atomic _ _ db

/-- One step of what is left to do is one `step`. This is what ties the places to the programs of
the services. -/
theorem rest_advance (db : Database) (place : Place) :
    (rest a place).advance db = (rest a (step a db place).1, (step a db place).2) := by
  cases place with
  | ready request => exact handle_advance a db request
  | loginVerified authDto user =>
      rw [rest, Prog.advance_map, advance_attempt, step]
      cases db.insertSession ⟨a.rowId, user.id, a.hash, false⟩ with
      | ok db' => cases AuthService.getTokensData a user.id user.role a.rowId a.hash <;> rfl
      | error e => rfl
  | refreshMatched data session user =>
      cases user with
      | none => rfl
      | some user => exact Prod.ext (Prog.map_lift _ _) rfl
  | confirmRevoked confirmDto confirm user =>
      rw [rest, Prog.advance_map, advance_attempt, step]
      cases db.updateUser user.id (AuthService.confirmPatch a confirmDto.password) <;> rfl
  | changeVerified caller dto =>
      rw [rest, Prog.advance_map, advance_attempt, step]
      cases db.updateUser caller.id (AuthService.changePatch a dto.password) <;> rfl
  | forgotFound email user =>
      rw [rest, Prog.advance_map, advance_attempt, step]
      cases db.insertConfirm (issued a user) with
      | ok db' => cases a.mailed <;> rfl
      | error e => rfl
  | registerCreated caller dto user =>
      rw [rest, Prog.advance_map, advance_attempt, step]
      cases db.insertConfirm (issued a user) with
      | ok db' => cases a.mailed <;> rfl
      | error e => rfl
  | registerAccepted caller dto =>
      rw [rest, Prog.advance_map, AuthService.register, Prog.advance_atomic_bind, step]
      cases dto.toEntity db.topicIds a.userId with
      | none => rfl
      | some user =>
          dsimp only
          cases db.insertUser user <;> rfl
  | _ => rfl

/-- What the first call of a request can do: it looks something up, and the request goes on or is
answered; or it is the only call. -/
inductive Starts (db : Database) : Request → Place × Database → Prop
  | loginVerified {authDto : AuthLoginDto} {user : UserEntity} :
      AuthService.checkLogin authDto (db.userByEmail authDto.email) = .ok user →
      Starts db (.login authDto) (.loginVerified authDto user, db)
  | refreshMismatched {data : JwtRefreshPayload} {session : SessionEntity} :
      Starts db (.refresh data) (.refreshMismatched data session, db)
  | refreshMatched {data : JwtRefreshPayload} {session : SessionEntity}
      {user : Option UserEntity} :
      db.session data.sessionId = some (session, user) →
      Starts db (.refresh data) (.refreshMatched data session user, db)
  | confirmExpired {confirmDto : AuthConfirmDto} {confirm : ConfirmEntity} :
      Starts db (.confirm confirmDto) (.confirmExpired confirmDto confirm, db)
  | confirmAccepted {confirmDto : AuthConfirmDto} {confirm : ConfirmEntity} {user : UserEntity} :
      db.confirm confirmDto.hash = some (confirm, some user) → a.now ≤ confirm.expiresIn →
      Starts db (.confirm confirmDto) (.confirmAccepted confirmDto confirm user, db)
  | changeVerified {caller : JwtPayload} {dto : AuthChangePasswordDto} :
      Starts db (.changePassword caller dto) (.changeVerified caller dto, db)
  | forgotFound {email : String} {user : UserEntity} :
      Starts db (.forgotPassword email) (.forgotFound email user, db)
  | registerAccepted {caller : JwtPayload} {dto : AuthRegisterDto} :
      Starts db (.register caller dto) (.registerAccepted caller dto, db)
  | answered {request : Request} {r : Except Failure Response} :
      Starts db request (.finished request r, db)
  | loggedOut {caller : JwtPayload} {r : Except Failure Response} :
      Starts db (.logout caller) (.finished (.logout caller) r,
        db.softDeleteSessions (some caller.sessionId) none none)
  | updated {caller : JwtPayload} {dto : UpdateUserDto} {users : UsersTable}
      {r : Except Failure Response} :
      UsersController.update db.topicIds db.users caller dto = .ok users →
      Starts db (.updateUser caller dto) (.finished (.updateUser caller dto) r, { db with users })
  | deleted {caller : JwtPayload} {id : String} {r : Except Failure Response} :
      Starts db (.deleteUser caller id) (.finished (.deleteUser caller id) r,
        { db with users := UsersRepository.softDelete db.users id })

theorem starts (db : Database) (request : Request) :
    Starts a db request (start a db request) := by
  cases request with
  | login authDto =>
      rw [start]
      split
      · next hcheck => exact .loginVerified hcheck
      · exact .answered
  | refresh data =>
      rw [start]
      split
      · exact .answered
      · next hsession =>
          split
          · exact .refreshMismatched
          · exact .refreshMatched hsession
  | confirm confirmDto =>
      rw [start]
      rcases hconfirm : db.confirm confirmDto.hash with _ | ⟨confirm, user⟩
      · exact .answered
      · dsimp only
        by_cases hexpired : confirm.expiresIn < a.now
        · rw [if_pos hexpired]
          exact .confirmExpired
        · rw [if_neg hexpired]
          cases user with
          | none => exact .answered
          | some user => exact .confirmAccepted hconfirm (Int.not_lt.1 hexpired)
  | changePassword caller dto =>
      rw [start]
      split
      · exact .changeVerified
      · exact .answered
  | forgotPassword email =>
      rw [start]
      split
      · exact .answered
      · exact .forgotFound
  | register caller dto =>
      rw [start]
      split
      · exact .answered
      · split
        · exact .registerAccepted
        · exact .answered
  | logout caller => exact .loggedOut
  | currentUser caller => exact .answered
  | getPendingUser hash =>
      show Starts a db _ (.finished _ ((handle a (.getPendingUser hash)).run db).1,
        ((handle a (.getPendingUser hash)).run db).2)
      rw [handle, Prog.run_map, AuthService.run_getPendingUser]
      exact .answered
  | updateUser caller dto =>
      show Starts a db _ (.finished _ ((handle a (.updateUser caller dto)).run db).1,
        ((handle a (.updateUser caller dto)).run db).2)
      rw [handle, Prog.run_map, run_attempt]
      cases hupdate : UsersController.update db.topicIds db.users caller dto with
      | error e => exact .answered
      | ok users => exact .updated hupdate
  | deleteUser caller id =>
      show Starts a db _ (.finished _ ((handle a (.deleteUser caller id)).run db).1,
        ((handle a (.deleteUser caller id)).run db).2)
      rw [handle, Prog.run_map, run_attempt]
      cases hdelete : UsersController.delete db.users caller id with
      | error e => exact .answered
      | ok users =>
          rw [UsersController.delete_eq_ok hdelete]
          exact .deleted

omit [Scrypt] [Mysql] [EmailSyntax] [Typeorm] in
/-- The next call may violate a constraint. -/
def mayFail : Place → Bool
  | .loginVerified _ _ | .confirmRevoked _ _ _ | .changeVerified _ _ | .forgotFound _ _
  | .registerAccepted _ _ | .registerCreated _ _ _ => true
  | _ => false

/-- **What a call can do.** A statement that violates a constraint ends the request, and a
request that is answered stays where it is. -/
inductive Steps (db : Database) : Place → Place × Database → Prop
  | started {request : Request} {out : Place × Database} :
      Starts a db request out → Steps db (.ready request) out
  | refused {place : Place} {r : Except Failure Response} :
      place.mayFail = true → Steps db place (.finished place.request r, db)
  | opened {authDto : AuthLoginDto} {user : UserEntity} {r : Except Failure LoginResponse}
      {db' : Database} :
      db.insertSession ⟨a.rowId, user.id, a.hash, false⟩ = .ok db' →
      Steps db (.loginVerified authDto user) (.loginOpened authDto user r, db')
  | mismatched {data : JwtRefreshPayload} {session : SessionEntity}
      {r : Except Failure Response} :
      Steps db (.refreshMismatched data session) (.finished (.refresh data) r,
        db.softDeleteSessions (some session.id) none none)
  | rotated {data : JwtRefreshPayload} {session : SessionEntity} {user : Option UserEntity}
      {r : Except Failure Tokens} :
      Steps db (.refreshMatched data session user) (.refreshRotated data r,
        db.updateSession session.id a.hash)
  | expired {confirmDto : AuthConfirmDto} {confirm : ConfirmEntity}
      {r : Except Failure Response} :
      Steps db (.confirmExpired confirmDto confirm) (.finished (.confirm confirmDto) r,
        db.deleteConfirm confirm.id)
  | revoked {confirmDto : AuthConfirmDto} {confirm : ConfirmEntity} {user : UserEntity} :
      Steps db (.confirmAccepted confirmDto confirm user) (.confirmRevoked confirmDto confirm user,
        db.softDeleteSessions none (some user.id) none)
  | activated {confirmDto : AuthConfirmDto} {confirm : ConfirmEntity} {user : UserEntity}
      {db' : Database} :
      db.updateUser user.id (AuthService.confirmPatch a confirmDto.password) = .ok db' →
      Steps db (.confirmRevoked confirmDto confirm user)
        (.confirmWritten confirmDto confirm user, db')
  | confirmed {confirmDto : AuthConfirmDto} {confirm : ConfirmEntity} {user : UserEntity} :
      Steps db (.confirmWritten confirmDto confirm user) (.confirmed confirmDto user,
        db.deleteConfirm confirm.id)
  | changed {caller : JwtPayload} {dto : AuthChangePasswordDto} {db' : Database} :
      db.updateUser caller.id (AuthService.changePatch a dto.password) = .ok db' →
      Steps db (.changeVerified caller dto) (.changeWritten caller dto, db')
  | changeRevoked {caller : JwtPayload} {dto : AuthChangePasswordDto} :
      Steps db (.changeWritten caller dto) (.passwordChanged caller dto,
        db.softDeleteSessions none (some caller.id) (some caller.sessionId))
  | resetIssued {email : String} {user : UserEntity} {r : Except Failure Response}
      {db' : Database} :
      db.insertConfirm (issued a user) = .ok db' →
      Steps db (.forgotFound email user)
        (.tokenIssued (.forgotPassword email) (issued a user) r, db')
  | created {caller : JwtPayload} {dto : AuthRegisterDto} {user : UserEntity} {db' : Database} :
      db.insertUser user = .ok db' →
      Steps db (.registerAccepted caller dto) (.registerCreated caller dto user, db')
  | registrationIssued {caller : JwtPayload} {dto : AuthRegisterDto} {user : UserEntity}
      {r : Except Failure Response} {db' : Database} :
      db.insertConfirm (issued a user) = .ok db' →
      Steps db (.registerCreated caller dto user)
        (.tokenIssued (.register caller dto) (issued a user) r, db')
  | answered {place : Place} : Steps db place (place, db)

theorem steps (db : Database) (place : Place) : Steps a db place (step a db place) := by
  cases place with
  | ready request => exact .started (starts a db request)
  | loginVerified authDto user =>
      rw [step]
      split
      · next hins => exact .opened hins
      · exact .refused rfl
  | refreshMismatched data session => exact .mismatched
  | refreshMatched data session user => exact .rotated
  | confirmExpired confirmDto confirm => exact .expired
  | confirmAccepted confirmDto confirm user => exact .revoked
  | confirmRevoked confirmDto confirm user =>
      rw [step]
      split
      · next hupdate => exact .activated hupdate
      · exact .refused rfl
  | confirmWritten confirmDto confirm user => exact .confirmed
  | changeVerified caller dto =>
      rw [step]
      split
      · next hupdate => exact .changed hupdate
      · exact .refused rfl
  | changeWritten caller dto => exact .changeRevoked
  | forgotFound email user =>
      rw [step]
      split
      · next hins => exact .resetIssued hins
      · exact .refused rfl
  | registerAccepted caller dto =>
      rw [step]
      split
      · exact .refused rfl
      · split
        · next hins => exact .created hins
        · exact .refused rfl
  | registerCreated caller dto user =>
      rw [step]
      split
      · next hins => exact .registrationIssued hins
      · exact .refused rfl
  | loginOpened | refreshRotated | confirmed | passwordChanged | tokenIssued | finished =>
      exact .answered

/-- A call leads to a place of the same request, however far it goes. -/
theorem request_step (db : Database) (place : Place) :
    (step a db place).1.request = place.request := by
  have hstep := steps a db place
  generalize step a db place = out at hstep ⊢
  cases hstep with
  | started hstart => cases hstart <;> rfl
  | _ => rfl

end Place

/-! ### Interleavings -/

section Interleavings

variable [Scrypt] [Mysql] [EmailSyntax] [Typeorm]

/-- The places of all requests. -/
def controlPoints : Points (Ambient × Place) Database Failure Response where
  prog p := p.2.rest p.1
  step p db := ((p.1, (p.2.step p.1 db).1), (p.2.step p.1 db).2)
  sound p db := Place.rest_advance p.1 db p.2

/-- A database, and the place of every request. No request is ever taken away, an answered one
stands still. -/
abbrev Tasks (ι : Type) := Points.Names ι (Ambient × Place) Database

variable {ι : Type} [DecidableEq ι]

/-- The server, answering many requests at once: each step is one repository call of one of
them. -/
abbrev interleaving : Machine (Tasks ι) ι Unit := controlPoints.machine

/-- A step of an interleaving. -/
abbrev TaskEntry (ι : Type) := Entry (Tasks ι) ι Unit

omit [Scrypt] [Mysql] [EmailSyntax] [Typeorm] [DecidableEq ι] in
/-- All requests before their first call. When each makes it is up to the schedule. -/
def launch (db : Database) (calls : ι → Ambient × Request) : Tasks ι :=
  ⟨db, fun i => ((calls i).1, .ready (calls i).2)⟩

omit [Scrypt] [Mysql] [EmailSyntax] [Typeorm] [DecidableEq ι] in
/-- The place of a request. -/
def Tasks.place (N : Tasks ι) (i : ι) : Place := (N.at_ i).2

theorem place_next_self (N : Tasks ι) (i : ι) :
    (interleaving.next N i).place i = ((N.place i).step (N.at_ i).1 N.shared).1 := by
  rw [Tasks.place, Points.next_at_self]
  rfl

theorem place_next_ne (N : Tasks ι) {i j : ι} (h : j ≠ i) :
    (interleaving.next N i).place j = N.place j := by
  rw [Tasks.place, Points.next_at_ne _ N i h, Tasks.place]

/-- **The runs of `interleaving` are the interleavings of the requests' programs.** -/
theorem reach_interleaving {db : Database} {calls : ι → Ambient × Request}
    {P : Pool ι Database Failure Response} :
    (∃ past, Pool.machine.Reach ⟨db, fun i => handle (calls i).1 (calls i).2⟩ past P) ↔
      ∃ past N, interleaving.Reach (launch db calls) past N ∧ P = controlPoints.pool N := by
  constructor
  · intro ⟨past, h⟩
    obtain ⟨named, N, hreach, hpool, -⟩ :=
      @Points.reach_names _ _ _ _ _ _ controlPoints (launch db calls) _ _ h
    exact ⟨named, N, hreach, hpool⟩
  · intro ⟨past, N, h, hpool⟩
    exact ⟨_, hpool ▸ Points.reach_pool _ h⟩

/-- **The runs of `server` are interleavings** in which a request is answered before the next one
makes its first call. -/
theorem reach_of_server {db db' : Database}
    {past : List (Entry Database (Ambient × Request) (Except Failure Response))}
    (h : server.Reach db past db') {calls : ι → Ambient × Request} {order : List ι}
    (hnodup : order.Nodup) (hcalls : order.map calls = past.map Entry.request) :
    ∃ steps N, interleaving.Reach (launch db calls) steps N ∧ N.shared = db' ∧
      order.map (controlPoints.pool N).task = past.map fun e => .done e.response := by
  have halone : ∀ (db : Database) (call : Ambient × Request),
      server.step db call = (handle call.1 call.2).run db := fun _ _ => rfl
  obtain ⟨steps, P, hreach, hshared, hanswers, -⟩ := Pool.reach_sequence halone h hnodup hcalls
  obtain ⟨named, N, hnamed, rfl⟩ := reach_interleaving.1 ⟨steps, hreach⟩
  exact ⟨named, N, hnamed, hshared, hanswers⟩

variable {db : Database} {calls : ι → Ambient × Request} {past : List (TaskEntry ι)} {N : Tasks ι}

/-- A request keeps what it draws: the draws belong to the request, not to the call. -/
theorem ambient_of_reach (h : interleaving.Reach (launch db calls) past N) (i : ι) :
    (N.at_ i).1 = (calls i).1 :=
  Points.at_of_step (P := fun p => p.1 = (calls i).1) (fun _ _ hp => hp) h rfl

theorem request_of_reach (h : interleaving.Reach (launch db calls) past N) (i : ι) :
    (N.place i).request = (calls i).2 :=
  Points.at_of_step (P := fun p => p.2.request = (calls i).2)
    (fun p db hp => (Place.request_step p.1 db p.2).trans hp) h rfl

end Interleavings

end VetHealth
