import VetHealth.Auth.Points
import VetHealth.Auth.Revocation
import VetHealth.Auth.Rotation

/-!
# VetHealth.Auth.Calls

**What one repository call can do**, table by table. Each relation lists the calls that touch
the table, with the place where the call is made and the place that it leads to; every other
call is the last case. The invariants of interleaved requests are case splits on these.
-/

namespace VetHealth

open Js Store Resumption Transition

namespace Place

/-- The request has stored the hash that it draws in a session. It has no further call to make. -/
def stamped : Place → Bool
  | .loginOpened _ _ _ | .refreshRotated _ _ => true
  | _ => false

/-- The request has opened a session, or is about to write one, or has written one: all that can
bring a live session about. -/
def usesSession : Place → Bool
  | .loginOpened _ _ _ | .refreshMatched _ _ _ | .refreshRotated _ _ => true
  | _ => false

theorem usesSession_of_stamped {place : Place} (h : place.stamped = true) :
    place.usesSession = true := by
  cases place with
  | loginOpened | refreshRotated => rfl
  | _ => cases h

/-- The confirmation that the request has accepted and not yet deleted, with its user. It goes on
with what it has loaded, whatever becomes of the row. -/
def holds : Place → Option (ConfirmEntity × UserEntity)
  | .confirmAccepted _ confirm user | .confirmRevoked _ confirm user
  | .confirmWritten _ confirm user => some (confirm, user)
  | _ => none

/-- The confirmation that the request has issued. -/
def hasIssued : Place → Option ConfirmEntity
  | .tokenIssued _ confirm _ => some confirm
  | _ => none

/-- The user whose sessions the request has revoked, and the session that it spared. -/
def hasRevoked : Place → Option (Uuid × Option Uuid)
  | .confirmRevoked _ _ user | .confirmWritten _ _ user | .confirmed _ user => some (user.id, none)
  | .passwordChanged caller _ => some (caller.id, some caller.sessionId)
  | _ => none

/-- The user whose password the request has written, with the new password. This stays when the
request goes on. -/
def hasWritten : Place → Option (Uuid × String)
  | .changeWritten caller dto | .passwordChanged caller dto => some (caller.id, dto.password)
  | .confirmWritten confirmDto _ user | .confirmed confirmDto user =>
      some (user.id, confirmDto.password)
  | _ => none

end Place

variable [Scrypt] [Mysql] [EmailSyntax] [Typeorm]

/-- A request that has stored its hash is answered: further calls leave its place as it is. -/
theorem step_of_stamped {a : Ambient} {db : Database} {place : Place}
    (h : place.stamped = true) : (place.step a db).1 = place := by
  cases place with
  | loginOpened | refreshRotated => rfl
  | _ => cases h

/-! ### Sessions -/

omit [Scrypt] [Mysql] [EmailSyntax] [Typeorm] in
/-- What a call can do to the sessions. There is one constructor for each kind of place that the
call may lead to, and the last one is for all calls that leave no session as a live one that was
not. -/
inductive SessionsCall (a : Ambient) (db db' : Database) : Place → Place → Prop
  | opened {authDto : AuthLoginDto} {user : UserEntity} {r : Except Failure LoginResponse} :
      db.insertSession ⟨a.rowId, user.id, a.hash, false⟩ = .ok db' →
      SessionsCall a db db' (.loginVerified authDto user) (.loginOpened authDto user r)
  | matched {data : JwtRefreshPayload} {session : SessionEntity} {user : Option UserEntity} :
      db.session data.sessionId = some (session, user) → db' = db →
      SessionsCall a db db' (.ready (.refresh data)) (.refreshMatched data session user)
  | rotated {data : JwtRefreshPayload} {session : SessionEntity} {user : Option UserEntity}
      {r : Except Failure Tokens} :
      db' = db.updateSession session.id a.hash →
      SessionsCall a db db' (.refreshMatched data session user) (.refreshRotated data r)
  | revoked {place place' : Place} :
      db.revokes db' none → (place' = place ∨ place'.usesSession = false) →
      SessionsCall a db db' place place'

/-- **What a call can do to the sessions.** Everything that is proved about sessions under
interleavings goes by these cases, and none of it unfolds the services. -/
theorem sessionsCall_step (a : Ambient) (db : Database) (place : Place) :
    SessionsCall a db (place.step a db).2 place (place.step a db).1 := by
  have hsame : ∀ {place place' : Place} {db' : Database}, db'.sessions = db.sessions →
      place'.usesSession = false → SessionsCall a db db' place place' :=
    fun h huses => .revoked (Database.revokes_of_sessions_eq h) (Or.inr huses)
  have hdeleted : ∀ {place place' : Place} (id user excludeId : Option Uuid),
      place'.usesSession = false →
        SessionsCall a db (db.softDeleteSessions id user excludeId) place place' :=
    fun _ _ _ huses => .revoked (Database.revokes_softDelete _ _ _ _) (Or.inr huses)
  have hstep := Place.steps a db place
  generalize place.step a db = out at hstep ⊢
  -- The cases are those of the inversion of a call; each constructor says what it leaves of the
  -- sessions.
  cases hstep with
  | started hstart =>
      cases hstart with
      | refreshMatched hsession => exact .matched hsession rfl
      | loggedOut => exact hdeleted _ _ _ rfl
      | _ => exact hsame rfl rfl
  | opened hins => exact .opened hins
  | rotated => exact .rotated rfl
  | mismatched => exact hdeleted _ _ _ rfl
  | revoked => exact hdeleted _ _ _ rfl
  | changeRevoked => exact hdeleted _ _ _ rfl
  | activated hupdate => exact hsame (Database.updateUser_eq_ok hupdate).1 rfl
  | changed hupdate => exact hsame (Database.updateUser_eq_ok hupdate).1 rfl
  | resetIssued hins => exact hsame (Database.insertConfirm_eq_ok hins).2.2.1 rfl
  | registrationIssued hins => exact hsame (Database.insertConfirm_eq_ok hins).2.2.1 rfl
  | created hins => exact hsame (Database.insertUser_eq_ok hins).2.1 rfl
  | refused | expired | confirmed => exact hsame rfl rfl
  | answered => exact .revoked (Database.revokes_of_sessions_eq rfl) (Or.inl rfl)

omit [Scrypt] [Mysql] [EmailSyntax] [Typeorm] in
/-- A session that is live after a call was live before, or the call has opened it. -/
theorem SessionsCall.live {a : Ambient} {db db' : Database} {place place' : Place}
    (h : SessionsCall a db db' place place') {session : SessionEntity} (hlive : db'.live session) :
    (∃ old, db.live old ∧ old.id = session.id ∧ old.userId = session.userId) ∨
      ∃ authDto user r, place = .loginVerified authDto user ∧
        place' = .loginOpened authDto user r ∧ db.sessions.get a.rowId = none ∧
        session.id = a.rowId ∧ session.userId = user.id := by
  have hget := Table.get_eq_some.2 ⟨hlive.1, rfl⟩
  have hold : ∀ {old}, db.sessions.get session.id = some old → old ∈ db.sessions :=
    fun h => (Table.get_eq_some.1 h).1
  cases h with
  | @opened authDto user r hins =>
      obtain ⟨hfree, -, -, hrows⟩ := Database.insertSession_eq_ok hins
      rw [hrows] at hget
      split at hget
      · obtain rfl := Option.some.inj hget
        exact Or.inr ⟨authDto, user, r, rfl, rfl, hfree, rfl, rfl⟩
      · exact Or.inl ⟨session, ⟨hold hget, hlive.2⟩, rfl, rfl⟩
  | matched _ hsame => exact Or.inl ⟨session, hsame ▸ hlive, rfl, rfl⟩
  | @rotated data rotated _ _ hupdate =>
      rw [hupdate, Database.get_updateSession, Option.map_eq_some_iff] at hget
      obtain ⟨old, hrow, heq⟩ := hget
      -- the update gives the row a hash and leaves the mark of deletion as it was
      refine Or.inl ⟨old, ⟨hold hrow, ?_⟩, ?_, ?_⟩
      · rw [← hlive.2, ← heq]
        split <;> rfl
      · exact (Table.get_eq_some.1 hrow).2
      · rw [← heq]
        split <;> rfl
  | revoked hrevokes =>
      obtain ⟨⟨p, hrows⟩, -⟩ := hrevokes
      rw [hrows, Option.map_eq_some_iff] at hget
      obtain ⟨old, hrow, heq⟩ := hget
      split at heq
      · rw [← heq] at hlive
        cases hlive.2
      · exact Or.inl ⟨old, ⟨hold hrow, by rw [heq]; exact hlive.2⟩, by rw [heq], by rw [heq]⟩

omit [Scrypt] [Mysql] [EmailSyntax] in
/-- The revocation of a confirmation misses no session. Its criteria hold an `undefined` id, so an ORM
that compares it reaches no row, and then the user must not have a live session in the first place. -/
def Place.revokesAll (db : Database) : Place → Prop
  | .confirmAccepted _ _ user =>
      Typeorm.ignoresUndefined = true ∨ ∀ session, db.live session → session.userId ≠ user.id
  | _ => True

/-- When a request gets to have revoked a user's sessions and misses none, only the spared one is
live. -/
theorem live_of_hasRevoked {a : Ambient} {db : Database} {place : Place} {u : Uuid}
    {kept : Option Uuid} (hall : place.revokesAll db)
    (h : (place.step a db).1.hasRevoked = some (u, kept)) :
    place.hasRevoked = some (u, kept) ∨
      ∀ session, (place.step a db).2.live session → session.userId = u → kept = some session.id := by
  have hstep := Place.steps a db place
  generalize place.step a db = out at hstep h ⊢
  cases hstep with
  | started hstart => cases hstart <;> cases h
  | revoked =>
      obtain ⟨rfl, rfl⟩ := Prod.mk.inj (Option.some.inj h)
      refine Or.inr fun session hlive huser => ?_
      obtain ⟨hbefore, hcriteria⟩ := Database.live_softDeleteSessions.1 hlive
      rcases hall with hignores | hnone
      · exact absurd huser ((Database.sessionCriteria_user _).1 hcriteria hignores)
      · exact absurd huser (hnone session hbefore)
  | changeRevoked =>
      obtain ⟨rfl, rfl⟩ := Prod.mk.inj (Option.some.inj h)
      refine Or.inr fun session hlive huser => ?_
      -- the criteria of `changePassword` leave out the session of the caller
      have hcriteria := (Database.live_softDeleteSessions.1 hlive).2
      rcases (Database.sessionCriteria_user_except _ _).1 hcriteria with hother | hspared
      · exact absurd huser hother
      · rw [hspared]
  | activated | confirmed | answered => exact Or.inl h
  | _ => cases h

/-! ### Confirmations -/

omit [Scrypt] [Mysql] [EmailSyntax] [Typeorm] in
/-- What a call can do to the confirmations: issue one, accept one, delete the accepted one, or
leave them alone. -/
inductive ConfirmsCall (a : Ambient) (db db' : Database) : Place → Place → Prop
  | issued {place : Place} {request : Request} {user : UserEntity} {r : Except Failure Response} :
      place.holds = none → place.hasIssued = none →
      db.insertConfirm (Place.issued a user) = .ok db' →
      ConfirmsCall a db db' place (.tokenIssued request (Place.issued a user) r)
  | accepted {confirmDto : AuthConfirmDto} {confirm : ConfirmEntity} {user : UserEntity} :
      db.confirm confirmDto.hash = some (confirm, some user) → a.now ≤ confirm.expiresIn →
      db' = db →
      ConfirmsCall a db db' (.ready (.confirm confirmDto)) (.confirmAccepted confirmDto confirm user)
  | deleted {place place' : Place} {confirm : ConfirmEntity} :
      place.hasIssued = none → place'.holds = none → place'.hasIssued = none →
      db' = db.deleteConfirm confirm.id → ConfirmsCall a db db' place place'
  | kept {place place' : Place} :
      db'.confirms = db.confirms → (place'.holds = place.holds ∨ place'.holds = none) →
      place'.hasIssued = place.hasIssued → ConfirmsCall a db db' place place'

/-- **What a call can do to the confirmations.** The proofs about single use and about resets go by
these cases. -/
theorem confirmsCall_step (a : Ambient) (db : Database) (place : Place) :
    ConfirmsCall a db (place.step a db).2 place (place.step a db).1 := by
  have hstep := Place.steps a db place
  generalize place.step a db = out at hstep ⊢
  cases hstep with
  | started hstart =>
      cases hstart with
      | confirmAccepted hconfirm hvalid => exact .accepted hconfirm hvalid rfl
      | _ => exact .kept rfl (Or.inr rfl) rfl
  -- A statement that was refused has changed nothing, and no place where one can be refused has
  -- issued anything.
  | refused hfallible =>
      refine .kept rfl (Or.inr rfl) ?_
      cases place with
      | tokenIssued => cases hfallible
      | _ => rfl
  | resetIssued hins => exact .issued rfl rfl hins
  | registrationIssued hins => exact .issued rfl rfl hins
  | expired | confirmed => exact .deleted rfl rfl rfl rfl
  | opened hins => exact .kept (Database.insertSession_eq_ok hins).2.2.1 (Or.inr rfl) rfl
  | activated hupdate => exact .kept (Database.updateUser_eq_ok hupdate).2.1 (Or.inl rfl) rfl
  | changed hupdate => exact .kept (Database.updateUser_eq_ok hupdate).2.1 (Or.inr rfl) rfl
  | created hins => exact .kept (Database.insertUser_eq_ok hins).2.2.1 (Or.inr rfl) rfl
  | mismatched | rotated | revoked | changeRevoked | answered => exact .kept rfl (Or.inl rfl) rfl

/-! ### Passwords -/

omit [Scrypt] [Mysql] [EmailSyntax] [Typeorm] in
def passwordOf (users : UsersTable) (k : Uuid) : Option String :=
  (users.get k).bind UserEntity.password

omit [Mysql] [EmailSyntax] in
/-- What the hook `setPassword` stores for a new password: its hash, unless it is empty. -/
def storedPassword (a : Ambient) (password : String) : String :=
  if password ≠ "" then hashPassword password a.salt else password

omit [Mysql] [EmailSyntax] in
/-- What a call can do to the passwords: write one, or leave all of them. -/
inductive PasswordsCall (a : Ambient) (db db' : Database) : Place → Place → Prop
  | written {place place' : Place} {u : Uuid} {password : String} :
      place.hasWritten = none → place'.hasWritten = some (u, password) →
      passwordOf db'.users u = some (storedPassword a password) →
      (∀ k, k ≠ u → db'.users.get k = db.users.get k) →
      PasswordsCall a db db' place place'
  | kept {place place' : Place} :
      (∀ k stored, passwordOf db.users k = some stored → passwordOf db'.users k = some stored) →
      place'.hasWritten = place.hasWritten → PasswordsCall a db db' place place'

omit [Scrypt] [Mysql] [EmailSyntax] [Typeorm] in
/-- A payload that sets the password sets it in the stored row. -/
theorem passwordOf_save {users users' : UsersTable} {id : Uuid} {patch : UserPatch}
    {stored : String} (h : UsersRepository.save users id patch = .ok users')
    (hpassword : patch.password = .set stored) : passwordOf users' id = some stored := by
  obtain ⟨⟨user, hget⟩, -⟩ := UsersRepository.exists_save.1 ⟨users', h⟩
  rw [passwordOf, UsersRepository.get_save h, hget, Option.map_some, Option.bind_some,
    UserPatch.applyTo, hpassword]
  rfl

/-- **What a call can do to the passwords.** The proofs about credentials go by these cases. -/
theorem passwordsCall_step (a : Ambient) (db : Database) (place : Place) :
    PasswordsCall a db (place.step a db).2 place (place.step a db).1 := by
  have hsame : ∀ {place place' : Place} {db' : Database}, db'.users = db.users →
      place'.hasWritten = place.hasWritten → PasswordsCall a db db' place place' :=
    fun h hwritten => .kept (fun k stored hk => h ▸ hk) hwritten
  have hstep := Place.steps a db place
  generalize place.step a db = out at hstep ⊢
  cases hstep with
  | started hstart =>
      cases hstart with
      | updated hupdate =>
          obtain ⟨_, _, patch, -, -, -, -, -, hpatch, hsave⟩ :=
            UsersController.update_eq_ok.1 hupdate
          -- the body of an update has no password
          refine .kept (fun k stored hk => ?_) rfl
          refine (UsersRepository.bind_get_save (fun user => ?_) hsave).trans hk
          rw [UserPatch.applyTo, (UpdateUserDto.toPatch_eq_some hpatch).2.2]
          rfl
      | deleted =>
          exact .kept (fun k stored hk =>
            (UsersRepository.bind_get_softDelete fun _ => rfl).trans hk) rfl
      | _ => exact hsame rfl rfl
  | refused hfallible =>
      refine hsame rfl ?_
      cases place with
      | confirmWritten | confirmed | changeWritten | passwordChanged => cases hfallible
      | _ => rfl
  | activated hupdate =>
      obtain ⟨-, -, hsave⟩ := Database.updateUser_eq_ok hupdate
      exact .written rfl rfl (passwordOf_save hsave rfl) fun k hk =>
        UsersRepository.get_save_ne hsave hk
  | changed hupdate =>
      obtain ⟨-, -, hsave⟩ := Database.updateUser_eq_ok hupdate
      exact .written rfl rfl (passwordOf_save hsave rfl) fun k hk =>
        UsersRepository.get_save_ne hsave hk
  | created hins =>
      exact .kept (fun k stored hk =>
        UsersRepository.bind_get_insert (Database.insertUser_users hins).1 hk) rfl
  | opened hins => exact hsame (Database.insertSession_eq_ok hins).2.1 rfl
  | resetIssued hins => exact hsame (Database.insertConfirm_eq_ok hins).2.1 rfl
  | registrationIssued hins => exact hsame (Database.insertConfirm_eq_ok hins).2.1 rfl
  | mismatched | rotated | expired | revoked | confirmed | changeRevoked | answered =>
      exact hsame rfl rfl

end VetHealth
