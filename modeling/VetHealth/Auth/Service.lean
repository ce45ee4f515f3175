import VetHealth.Auth.Database

/-!
# VetHealth.Auth.Service

`AuthService`, and the endpoints that reach it or write the `users` table.

A token is modelled by its payload, since a client cannot make one up: an access token carries
the user's id and role, a refresh token the session's id and the hash that the session had when
the token was issued. A guard has verified the token of every request here that needs one.
-/

namespace VetHealth

open Js Store Resumption

/-- The payload of a refresh token. -/
structure JwtRefreshPayload where
  sessionId : Uuid
  hash : String
  deriving DecidableEq

structure AuthLoginDto where
  email : String
  password : String
  deriving DecidableEq

structure AuthConfirmDto where
  hash : String
  password : String

structure AuthChangePasswordDto where
  password : String
  oldPassword : String

/-- What `getTokensData` returns. -/
structure Tokens where
  token : JwtPayload
  refreshToken : JwtRefreshPayload
  tokenExpires : Int

structure LoginResponse extends Tokens where
  user : UserEntity

/-- What `getPendingUser` returns of a user. -/
structure PendingUser where
  firstname : String
  email : String

/-- What `register` returns of the new user. -/
structure RegisteredUser extends PendingUser where
  id : Uuid

variable [Scrypt]

namespace AuthService

omit [Scrypt] in
/-- `getTokensData`. -/
def getTokensData (a : Ambient) (id : Uuid) (role : Option RoleEnum) (sessionId : Uuid)
    (hash : String) : Except Failure Tokens :=
  if a.signed then
    .ok { token := ⟨id, role, sessionId⟩, refreshToken := ⟨sessionId, hash⟩,
          tokenExpires := a.now + a.lifetime }
  else .error (.internal .signingFailed)

/-- The part of `validateLogin` between the lookup and the new session. A password is compared on
every path, so that the time of the answer does not tell which addresses are known. -/
def checkLogin (authDto : AuthLoginDto) (user : Option UserEntity) : Except Failure UserEntity :=
  match user with
  | none => do
      let _ ← comparePassword authDto.password (some DUMMY_PASSWORD_HASH)
      .error (.unprocessable ErrorMessage.INCORRECT_EMAIL_OR_PASSWORD)
  | some user =>
      match user.status with
      -- `user.status.id` of a user without a status
      | none => .error (.internal .typeError)
      | some status => do
          -- a user who has not confirmed yet has no password to compare with
          let passwordHash := if status ≠ .pending then user.password else some DUMMY_PASSWORD_HASH
          let isValid ← comparePassword authDto.password passwordHash
          if status = .pending ∨ isValid = false then
            .error (.unprocessable ErrorMessage.INCORRECT_EMAIL_OR_PASSWORD)
          else .ok user

def validateLogin (a : Ambient) (authDto : AuthLoginDto) : Action LoginResponse := do
  let found ← query fun db => db.userByEmail authDto.email
  let user ← Prog.lift (checkLogin authDto found)
  attempt (Database.insertSession ⟨a.rowId, user.id, a.hash, false⟩)
  let tokens ← Prog.lift (getTokensData a user.id user.role a.rowId a.hash)
  return { tokens with user }

omit [Scrypt] in
def logout [Typeorm] (sessionId : Uuid) : Action Unit :=
  execute (Database.softDeleteSessions (some sessionId) none none)

omit [Scrypt] in
/-- `register`. The insert checks the values of the body against the columns. -/
def register [Mysql] (a : Ambient) (createUserDto : AuthRegisterDto) : Action RegisteredUser := do
  let user ← Prog.atomic fun db =>
    match createUserDto.toEntity db.topicIds a.userId with
    | none => (.error (.internal .queryFailed), db)
    | some user =>
        match db.insertUser user with
        | .error e => (.error e, db)
        | .ok db' => (.ok user, db')
  attempt (Database.insertConfirm ⟨a.rowId, user.id, a.hash, a.now + 86400000⟩)
  if a.mailed then return { id := user.id, firstname := user.firstname, email := user.email }
  else throw (.serviceUnavailable ErrorMessage.EMAIL_SEND_FAILED)

omit [Scrypt] in
def getPendingUser (confirmationToken : String) : Action PendingUser := do
  match ← query fun db => db.confirm confirmationToken with
  | none => throw (.unprocessable ErrorMessage.USER_IS_NOT_EXIST)
  | some (_, none) => throw (.internal .typeError)
  | some (_, some user) => return { firstname := user.firstname, email := user.email }

/-- The payload with which `confirm` activates a user, whatever the status has been. -/
def confirmPatch (a : Ambient) (password : String) : UserPatch :=
  UserPatch.setPassword a.salt { password := .set password, status := .set .active }

def confirm [Typeorm] (a : Ambient) (confirmDto : AuthConfirmDto) : Action String := do
  match ← query fun db => db.confirm confirmDto.hash with
  | none => throw (.unprocessable ErrorMessage.USER_IS_NOT_EXIST)
  | some (confirm, user) =>
      if confirm.expiresIn < a.now then
        -- an expired token is deleted, so it cannot be tried again
        execute (Database.deleteConfirm confirm.id)
        throw (.unprocessable ErrorMessage.CONFIRMATION_TOKEN_HAS_EXPIRED)
      else
        match user with
        | none => throw (.internal .typeError)
        | some user =>
            execute (Database.softDeleteSessions none (some user.id) none)
            attempt (Database.updateUser user.id (confirmPatch a confirmDto.password))
            execute (Database.deleteConfirm confirm.id)
            return "Email confirmed successfully"

omit [Scrypt] in
def forgotPassword (a : Ambient) (email : String) : Action Unit := do
  match ← query fun db => db.userByEmail email with
  | none => return ()
  | some user =>
      attempt (Database.insertConfirm ⟨a.rowId, user.id, a.hash, a.now + 86400000⟩)
      if a.mailed then return ()
      else throw (.serviceUnavailable ErrorMessage.EMAIL_SEND_FAILED)

/-- The part of `changePassword` between the lookup and the write: the user is there, and the old
password is right. -/
def checkChange (changePasswordDto : AuthChangePasswordDto) (user : Option UserEntity) :
    Except Failure UserEntity :=
  match user with
  | none => .error (.unprocessable ErrorMessage.USER_IS_NOT_EXIST)
  | some user => do
      let isValid ← comparePassword changePasswordDto.oldPassword user.password
      if isValid = false then .error (.unprocessable ErrorMessage.OLD_PASSWORD_IS_NOT_MATCH)
      else .ok user

/-- The payload with which `changePassword` stores the new password. -/
def changePatch (a : Ambient) (password : String) : UserPatch :=
  UserPatch.setPassword a.salt { password := .set password }

/-- `changePassword`. A notification that cannot be sent is only logged. -/
def changePassword [Typeorm] (a : Ambient) (authUser : JwtPayload)
    (changePasswordDto : AuthChangePasswordDto) : Action Unit := do
  let found ← query fun db => db.loadUser authUser.id
  let _ ← Prog.lift (checkChange changePasswordDto found)
  attempt (Database.updateUser authUser.id (changePatch a changePasswordDto.password))
  execute (Database.softDeleteSessions none (some authUser.id) (some authUser.sessionId))

omit [Scrypt] in
def refreshTokens [Typeorm] (a : Ambient) (data : JwtRefreshPayload) : Action Tokens := do
  match ← query fun db => db.session data.sessionId with
  | none => throw .unauthorized
  | some (session, user) =>
      if session.hash ≠ data.hash then
        -- a token that was already exchanged: whoever holds the session loses it
        execute (Database.softDeleteSessions (some session.id) none none)
        throw .unauthorized
      else
        execute (Database.updateSession session.id a.hash)
        match user with
        | none => throw (.internal .typeError)
        | some user => Prog.lift (getTokensData a user.id user.role session.id a.hash)

omit [Scrypt] in
def getCurrentUser (userJwtPayload : JwtPayload) : Action (Option UserEntity) :=
  query fun db => db.loadUser userJwtPayload.id

end AuthService

/-! ### Endpoints -/

inductive Request
  | login (authDto : AuthLoginDto)
  | logout (caller : JwtPayload)
  | register (caller : JwtPayload) (registerDto : AuthRegisterDto)
  | getPendingUser (hash : String)
  | confirm (confirmDto : AuthConfirmDto)
  | forgotPassword (email : String)
  | changePassword (caller : JwtPayload) (changePasswordDto : AuthChangePasswordDto)
  | currentUser (caller : JwtPayload)
  | refresh (data : JwtRefreshPayload)
  | updateUser (caller : JwtPayload) (updateUserDto : UpdateUserDto)
  | deleteUser (caller : JwtPayload) (id : String)

inductive Response
  | loggedIn (response : LoginResponse)
  | loggedOut
  | registered (user : RegisteredUser)
  | pendingUser (user : PendingUser)
  | confirmed (message : String)
  | resetRequested
  | passwordChanged
  | currentUser (user : Option UserEntity)
  | refreshed (tokens : Tokens)
  | userUpdated
  | userDeleted

variable [Mysql] [EmailSyntax]

omit [Scrypt] in
/-- `AuthController.register`: the role check, the validation pipe, and the service. The pipe looks
into the database, for the address. -/
def AuthController.register (a : Ambient) (caller : JwtPayload) (registerDto : AuthRegisterDto) :
    Action RegisteredUser :=
  if !rolesGuardAdmin caller then throw .forbiddenResource
  else do
    let accepted ← query fun db =>
      validationPipe (AuthRegisterDto.properties db.users db.topicIds registerDto)
    Prog.lift accepted
    AuthService.register a registerDto

/-- What the server does with a request. Updates and deletions of users are here too, since they write
the rows that the other requests read. -/
def handle [Typeorm] (a : Ambient) : Request → Action Response
  | .login authDto => .loggedIn <$> AuthService.validateLogin a authDto
  | .logout caller => (fun _ => .loggedOut) <$> AuthService.logout caller.sessionId
  | .register caller registerDto => .registered <$> AuthController.register a caller registerDto
  | .getPendingUser hash => .pendingUser <$> AuthService.getPendingUser hash
  | .confirm confirmDto => .confirmed <$> AuthService.confirm a confirmDto
  | .forgotPassword email => (fun _ => .resetRequested) <$> AuthService.forgotPassword a email
  | .changePassword caller changePasswordDto =>
      (fun _ => .passwordChanged) <$> AuthService.changePassword a caller changePasswordDto
  | .currentUser caller => .currentUser <$> AuthService.getCurrentUser caller
  | .refresh data => .refreshed <$> AuthService.refreshTokens a data
  | .updateUser caller updateUserDto =>
      (fun _ => .userUpdated) <$> attempt fun db =>
        (UsersController.update db.topicIds db.users caller updateUserDto).map fun users =>
          { db with users }
  | .deleteUser caller id =>
      (fun _ => .userDeleted) <$> attempt fun db =>
        (UsersController.delete db.users caller id).map fun users => { db with users }

end VetHealth
