import VetHealth.Lib.Prog
import VetHealth.Users.Controller
import VetHealth.Auth.PasswordHash

/-!
# VetHealth.Auth.Database

The tables behind authentication, and the repository calls on them. A request is a `Prog` over
the `Database`, and every repository call is one step of it, so that the calls of concurrent
requests interleave as they do on the server.

Sessions are soft-deleted; confirmations are deleted for good. Loading a session or a
confirmation loads its user with it, and a soft-deleted user is loaded as `null`.
-/

namespace VetHealth

open Js Store Resumption

/-- A row of `session`. -/
structure SessionEntity where
  id : Uuid
  userId : Uuid
  hash : String
  deletedAt : Bool
  deriving DecidableEq

abbrev SessionsTable := Table SessionEntity.id

/-- A row of `confirm`. -/
structure ConfirmEntity where
  id : Uuid
  userId : Uuid
  hash : String
  expiresIn : Int
  deriving DecidableEq

abbrev ConfirmsTable := Table ConfirmEntity.id

/-- The tables that authentication reads and writes, and the ids of the live topics. -/
structure Database where
  users : UsersTable
  sessions : SessionsTable
  confirms : ConfirmsTable
  topicIds : List Uuid

/-- A program over the database: what it does between two statements is up to the others. -/
abbrev Action := Prog Database Failure

/-- What a request takes from outside the database: the clock, the random generators, the
configured lifetime of an access token, and whether signing and mailing succeed. -/
structure Ambient where
  now : Int
  rowId : Uuid
  userId : Uuid
  hash : String
  salt : Vector UInt8 16
  lifetime : Int
  signed : Bool
  mailed : Bool

/-- One query. It is a step of its own, so that what it has read may be out of date at the next one.
-/
def query {α : Type} (f : Database → α) : Action α := Prog.atomic fun db => (.ok (f db), db)

/-- One statement that cannot fail. -/
def execute (f : Database → Database) : Action Unit := Prog.atomic fun db => (.ok (), f db)

/-- One statement that may violate a constraint; then it changes nothing, and the failure ends the
request. -/
def attempt (f : Database → Except Failure Database) : Action Unit :=
  Prog.atomic fun db =>
    match f db with
    | .ok db' => (.ok (), db')
    | .error e => (.error e, db)

namespace Database

/-- The user that is loaded with a row that refers to it. A deleted one is not loaded. -/
def loadUser (db : Database) (id : Uuid) : Option UserEntity :=
  (db.users.get id).filter fun user => !user.deletedAt

/-- `usersService.findOne({ email })`. -/
def userByEmail (db : Database) (email : String) : Option UserEntity :=
  db.users.find fun user => user.email = email && !user.deletedAt

/-- `sessionRepository.findOne({ where: { id } })`, with the eager user. -/
def session (db : Database) (id : Uuid) : Option (SessionEntity × Option UserEntity) :=
  ((db.sessions.get id).filter fun session => !session.deletedAt).map fun session =>
    (session, db.loadUser session.userId)

/-- `confirmRepository.findOne({ where: { hash } })`, with the eager user. -/
def confirm (db : Database) (hash : String) : Option (ConfirmEntity × Option UserEntity) :=
  (db.confirms.find fun confirm => confirm.hash = hash).map fun confirm =>
    (confirm, db.loadUser confirm.userId)

/-! ### Statements -/

/-- `sessionRepository.save` of a new row. -/
def insertSession (session : SessionEntity) (db : Database) : Except Failure Database :=
  match Repository.insert db.sessions true session with
  | .ok sessions => .ok { db with sessions }
  | .error e => .error e

/-- `sessionRepository.update(id, { hash })`: the row is written deleted or not. -/
def updateSession (id : Uuid) (hash : String) (db : Database) : Database :=
  { db with
    sessions := db.sessions.modify (fun session => session.id = id)
      ⟨fun session => { session with hash }, fun _ => rfl⟩ }

/-- The criteria that `SessionService.softDelete` builds. The key `id` is always there: it holds the
id if that is given, else all ids but the excluded one if that is given, and else it is `undefined`.
The key `user` is only there if the caller gives it. -/
def sessionCriteria [Typeorm] (id user excludeId : Option Uuid) (session : SessionEntity) : Bool :=
  Typeorm.meets
    (if truthyId id then some fun row : SessionEntity => id = some row.id
      else if truthyId excludeId then some fun row : SessionEntity => excludeId ≠ some row.id
      else none) session &&
  match user with
  | some user => session.userId = user
  | none => true

/-- `sessionRepository.softDelete(criteria)`. -/
def softDeleteSessions [Typeorm] (id user excludeId : Option Uuid) (db : Database) : Database :=
  { db with
    sessions := db.sessions.modify (sessionCriteria id user excludeId)
      ⟨fun session => { session with deletedAt := true }, fun _ => rfl⟩ }

/-- `confirmRepository.save` of a new row. -/
def insertConfirm (confirm : ConfirmEntity) (db : Database) : Except Failure Database :=
  match Repository.insert db.confirms true confirm with
  | .ok confirms => .ok { db with confirms }
  | .error e => .error e

/-- `confirmRepository.delete(id)`. -/
def deleteConfirm (id : Uuid) (db : Database) : Database :=
  { db with confirms := db.confirms.erase fun confirm => confirm.id = id }

/-- `usersService.create(…)`. -/
def insertUser (user : UserEntity) (db : Database) : Except Failure Database :=
  match UsersRepository.insert db.users user with
  | .ok users => .ok { db with users }
  | .error e => .error e

/-- `usersService.update({ id, … })`. -/
def updateUser (id : Uuid) (patch : UserPatch) (db : Database) : Except Failure Database :=
  match UsersRepository.save db.users id patch with
  | .ok users => .ok { db with users }
  | .error e => .error e

/-! ### The criteria of a revocation -/

section

variable [Typeorm] {id user excludeId : Option Uuid} {session : SessionEntity}

/-- The criteria look at the id of a session and at its user. -/
theorem sessionCriteria_congr {row row' : SessionEntity} (hid : row.id = row'.id)
    (huser : row.userId = row'.userId) :
    sessionCriteria id user excludeId row = sessionCriteria id user excludeId row' := by
  unfold sessionCriteria
  rw [huser]
  refine congrArg (· && _) ?_
  by_cases h : truthyId id = true
  · simp only [if_pos h, Typeorm.meets, hid]
  · by_cases h' : truthyId excludeId = true
    · simp only [if_neg h, if_pos h', Typeorm.meets, hid]
    · simp only [if_neg h, if_neg h', Typeorm.meets]

theorem sessionCriteria_id (s : Uuid) :
    sessionCriteria (some s) none none session = false ↔ session.id ≠ s := by
  rw [sessionCriteria, if_pos (truthyId_some s), Typeorm.meets, Bool.and_true,
    decide_eq_false_iff_not, Option.some.injEq]
  exact ne_comm

/-- Without an id and an excluded one, whether a session is spared is up to the ORM: by its user, or
because the criteria meet no row at all. -/
theorem sessionCriteria_user (u : Uuid) :
    sessionCriteria none (some u) none session = false ↔
      (Typeorm.ignoresUndefined = true → session.userId ≠ u) := by
  simp [sessionCriteria, Typeorm.meets]

theorem sessionCriteria_user_except (u s : Uuid) :
    sessionCriteria none (some u) (some s) session = false ↔
      session.userId ≠ u ∨ session.id = s := by
  by_cases hs : s = session.id
  · simp [sessionCriteria, Typeorm.meets, hs]
  · have hs' : session.id ≠ s := fun h => hs h.symm
    simp [sessionCriteria, Typeorm.meets, hs, hs']

end

/-! ### What a statement leaves -/

variable {db db' : Database}

theorem exists_insertSession {session : SessionEntity} :
    (∃ db', db.insertSession session = .ok db') ↔ db.sessions.get session.id = none := by
  have hins := @Repository.exists_insert _ _ _ _ db.sessions true session
  rw [and_iff_left rfl] at hins
  rw [← hins, insertSession]
  cases Repository.insert db.sessions true session <;> simp

theorem insertSession_eq_ok {session : SessionEntity} (h : db.insertSession session = .ok db') :
    db.sessions.get session.id = none ∧ db'.users = db.users ∧ db'.confirms = db.confirms ∧
      ∀ k, db'.sessions.get k = if session.id = k then some session else db.sessions.get k := by
  unfold insertSession at h
  cases hins : Repository.insert db.sessions true session with
  | error e => rw [hins] at h; cases h
  | ok sessions =>
      rw [hins] at h
      obtain rfl := Except.ok.inj h
      exact ⟨Repository.get_of_insert hins, rfl, rfl, Repository.get_insert hins⟩

theorem get_of_loadUser {id : Uuid} {user : UserEntity} (h : db.loadUser id = some user) :
    db.users.get id = some user ∧ user.id = id := by
  have hget := (Option.filter_eq_some_iff.1 h).1
  exact ⟨hget, (Table.get_eq_some.1 hget).2⟩

theorem get_of_userByEmail {email : String} {user : UserEntity}
    (h : db.userByEmail email = some user) : db.users.get user.id = some user :=
  Table.get_eq_some.2 ⟨Table.find_mem h, rfl⟩

/-- A loaded confirmation is a stored one, with its user. -/
theorem confirm_eq_some {hash : String} {confirm : ConfirmEntity} {user : Option UserEntity}
    (h : db.confirm hash = some (confirm, user)) :
    confirm ∈ db.confirms ∧ confirm.hash = hash ∧ db.loadUser confirm.userId = user := by
  obtain ⟨row, hrow, heq⟩ := Option.map_eq_some_iff.1 h
  obtain ⟨rfl, rfl⟩ := Prod.mk.inj heq
  exact ⟨Table.find_mem hrow, by simpa using Table.find_prop hrow, rfl⟩

theorem get_of_confirm {hash : String} {confirm : ConfirmEntity} {user : UserEntity}
    (h : db.confirm hash = some (confirm, some user)) : db.users.get user.id = some user := by
  obtain ⟨hget, hid⟩ := get_of_loadUser (confirm_eq_some h).2.2
  rw [hid]
  exact hget

/-- A loaded session is a stored one that is not deleted, with its user. -/
theorem session_eq_some {id : Uuid} {session : SessionEntity} {user : Option UserEntity} :
    db.session id = some (session, user) ↔
      db.sessions.get id = some session ∧ session.id = id ∧ session.deletedAt = false ∧
        db.loadUser session.userId = user := by
  rw [Database.session, Option.map_eq_some_iff]
  constructor
  · intro ⟨row, hrow, heq⟩
    obtain ⟨hget, hlive⟩ := Option.filter_eq_some_iff.1 hrow
    obtain ⟨rfl, rfl⟩ := Prod.mk.inj heq
    exact ⟨hget, (Table.get_eq_some.1 hget).2, by simpa using hlive, rfl⟩
  · intro ⟨hget, _, hlive, huser⟩
    exact ⟨session, Option.filter_eq_some_iff.2 ⟨hget, by simpa using hlive⟩,
      Prod.ext rfl huser⟩

theorem get_updateSession (db : Database) (id : Uuid) (hash : String) (k : Uuid) :
    (db.updateSession id hash).sessions.get k =
      (db.sessions.get k).map fun session =>
        if session.id = id then { session with hash } else session := by
  rw [updateSession, Table.get_modify]
  simp only [decide_eq_true_eq]

theorem get_softDeleteSessions [Typeorm] (db : Database) (id user excludeId : Option Uuid) (k : Uuid) :
    (db.softDeleteSessions id user excludeId).sessions.get k =
      (db.sessions.get k).map fun session =>
        if sessionCriteria id user excludeId session then { session with deletedAt := true }
        else session := by
  rw [softDeleteSessions, Table.get_modify]

theorem exists_insertConfirm {confirm : ConfirmEntity} :
    (∃ db', db.insertConfirm confirm = .ok db') ↔ db.confirms.get confirm.id = none := by
  have hins := @Repository.exists_insert _ _ _ _ db.confirms true confirm
  rw [and_iff_left rfl] at hins
  rw [← hins, insertConfirm]
  cases Repository.insert db.confirms true confirm <;> simp

theorem insertConfirm_eq_ok {confirm : ConfirmEntity} (h : db.insertConfirm confirm = .ok db') :
    db.confirms.get confirm.id = none ∧ db'.users = db.users ∧ db'.sessions = db.sessions ∧
      ∀ k, db'.confirms.get k = if confirm.id = k then some confirm else db.confirms.get k := by
  unfold insertConfirm at h
  cases hins : Repository.insert db.confirms true confirm with
  | error e => rw [hins] at h; cases h
  | ok confirms =>
      rw [hins] at h
      obtain rfl := Except.ok.inj h
      exact ⟨Repository.get_of_insert hins, rfl, rfl, Repository.get_insert hins⟩

theorem insertUser_users {user : UserEntity} (h : db.insertUser user = .ok db') :
    UsersRepository.insert db.users user = .ok db'.users ∧ db'.sessions = db.sessions ∧
      db'.confirms = db.confirms := by
  unfold insertUser at h
  cases hins : UsersRepository.insert db.users user with
  | error e => rw [hins] at h; cases h
  | ok users =>
      rw [hins] at h
      obtain rfl := Except.ok.inj h
      exact ⟨rfl, rfl, rfl⟩

theorem insertUser_eq_ok {user : UserEntity} (h : db.insertUser user = .ok db') :
    db.users.get user.id = none ∧ db'.sessions = db.sessions ∧ db'.confirms = db.confirms ∧
      ∀ k, db'.users.get k = if user.id = k then some user else db.users.get k := by
  obtain ⟨hins, hsessions, hconfirms⟩ := insertUser_users h
  exact ⟨Repository.get_of_insert hins, hsessions, hconfirms, UsersRepository.get_insert hins⟩

theorem updateUser_eq_ok {id : Uuid} {patch : UserPatch} (h : db.updateUser id patch = .ok db') :
    db'.sessions = db.sessions ∧ db'.confirms = db.confirms ∧
      UsersRepository.save db.users id patch = .ok db'.users := by
  unfold updateUser at h
  cases hsave : UsersRepository.save db.users id patch with
  | error e => rw [hsave] at h; cases h
  | ok users =>
      rw [hsave] at h
      obtain rfl := Except.ok.inj h
      exact ⟨rfl, rfl, rfl⟩

end Database

/-- The entity's `BeforeUpdate` hook `setPassword`: a payload's non-empty password is hashed. -/
def UserPatch.setPassword [Scrypt] (salt : Vector UInt8 16) (patch : UserPatch) : UserPatch :=
  match patch.password with
  | .set password =>
      { patch with
        password := .set (if password ≠ "" then hashPassword password salt else password) }
  | _ => patch

end VetHealth
