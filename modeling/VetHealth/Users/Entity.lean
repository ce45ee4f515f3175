import VetHealth.Common.Repository
import VetHealth.Common.Validation

/-!
# VetHealth.Users.Entity

The `users` table and the two ways the repository writes it.

A `UserPatch` is a partial payload after the database's conversions. Clearing a column that
is not nullable makes the statement fail, and so does an e-mail address that another row
holds.
-/

namespace VetHealth

open Js Store

/-- A row of `users`, with its eager relations. `deletedAt` records whether the column
is set, and `topics` holds the ids of the many-to-many relation. -/
structure UserEntity where
  id : Uuid
  firstname : String
  lastname : Option String
  email : String
  password : Option String
  role : Option RoleEnum
  status : Option UserStatusEnum
  topics : List Uuid
  deletedAt : Bool
  deriving DecidableEq

abbrev UsersTable := Table UserEntity.id

/-- E-mail address, names, role and status agree. This is what the guard's comment promises of a
SuperAdmin's row. -/
def UserEntity.sameProfile (user user' : UserEntity) : Prop :=
  user.email = user'.email ∧ user.firstname = user'.firstname ∧
    user.lastname = user'.lastname ∧ user.role = user'.role ∧ user.status = user'.status

/-- A payload for `usersRepository.save(usersRepository.create(payload))`. A many-to-many
relation is either left alone or replaced. -/
structure UserPatch where
  firstname : Column String := .keep
  lastname : Column String := .keep
  email : Column String := .keep
  password : Column String := .keep
  role : Column RoleEnum := .keep
  status : Column UserStatusEnum := .keep
  topics : Option (List Uuid) := none

namespace UserPatch

/-- The row that the save leaves in place of `user`. -/
def applyTo (patch : UserPatch) (user : UserEntity) : UserEntity :=
  { user with
    firstname := patch.firstname.applyRequired user.firstname
    lastname := patch.lastname.apply user.lastname
    email := patch.email.applyRequired user.email
    password := patch.password.apply user.password
    role := patch.role.apply user.role
    status := patch.status.apply user.status
    topics := patch.topics.getD user.topics }

def edit (patch : UserPatch) : Edit UserEntity.id := ⟨patch.applyTo, fun _ => rfl⟩

/-- No `NOT NULL` column is cleared. The database refuses a statement that does. -/
def storable (patch : UserPatch) : Bool := patch.firstname ≠ .clear && patch.email ≠ .clear

/-- The payload says nothing new about the e-mail address, the names, the role and the
status of `user`. -/
def repeats (patch : UserPatch) (user : UserEntity) : Prop :=
  patch.email.keeps (some user.email) ∧ patch.firstname.keeps (some user.firstname) ∧
    patch.lastname.keeps user.lastname ∧ patch.role.keeps user.role ∧
    patch.status.keeps user.status

/-- Some other row holds the e-mail address that the payload sets. The unique index counts deleted
rows too. -/
def emailTaken (patch : UserPatch) (users : UsersTable) (id : Uuid) : Bool :=
  match patch.email with
  | .set email => users.rows.any fun user => user.email = email && user.id ≠ id
  | _ => false

theorem applyTo_sameProfile {patch : UserPatch} {user : UserEntity} (h : patch.storable = true) :
    (patch.applyTo user).sameProfile user ↔ patch.repeats user := by
  simp only [storable, Bool.and_eq_true, decide_eq_true_eq] at h
  simp only [UserEntity.sameProfile, repeats, applyTo, Column.applyRequired_eq_self h.1,
    Column.applyRequired_eq_self h.2, Column.apply_eq_self]

end UserPatch

/-! ### `UsersRepository` -/

namespace UsersRepository

/-- `save` of a payload with the id of a stored row. -/
def save (users : UsersTable) (id : Uuid) (patch : UserPatch) : Except Failure UsersTable :=
  Repository.save users id (patch.storable && !patch.emailTaken users id) patch.edit

/-- `save` of a new row: the e-mail column is unique. -/
def insert (users : UsersTable) (user : UserEntity) : Except Failure UsersTable :=
  Repository.insert users (!users.rows.any fun other => other.email = user.email) user

/-- `softDelete(id)`. -/
def softDelete (users : UsersTable) (id : String) : UsersTable :=
  users.modify (fun user => user.id.text = id)
    ⟨fun user => { user with deletedAt := true }, fun _ => rfl⟩

variable {users users' : UsersTable} {id : Uuid} {patch : UserPatch}

/-- When a save goes through. -/
theorem exists_save :
    (∃ users', save users id patch = .ok users') ↔
      (∃ user, users.get id = some user) ∧ patch.storable = true ∧
        patch.emailTaken users id = false := by
  rw [save, Repository.exists_save, Bool.and_eq_true, Bool.not_eq_true']

/-- The saved row. -/
theorem get_save (h : save users id patch = .ok users') :
    users'.get id = (users.get id).map patch.applyTo := Repository.get_save h

/-- Every other row is untouched. -/
theorem get_save_ne (h : save users id patch = .ok users') {k : Uuid} (hk : k ≠ id) :
    users'.get k = users.get k := Repository.get_save_ne h hk

/-- A successful insert adds the one row. -/
theorem get_insert {user : UserEntity} (h : insert users user = .ok users') (k : Uuid) :
    users'.get k = if user.id = k then some user else users.get k := Repository.get_insert h k

theorem get_softDelete (users : UsersTable) (id : String) (k : Uuid) :
    (softDelete users id).get k =
      (users.get k).map fun user =>
        if user.id.text = id then { user with deletedAt := true } else user := by
  rw [softDelete, Table.get_modify]
  simp only [decide_eq_true_eq]

/-! What a statement leaves of a column `f`, whatever else it writes. -/

variable {γ : Type} {f : UserEntity → Option γ} {k : Uuid}

theorem bind_get_save (hf : ∀ user, f (patch.applyTo user) = f user)
    (h : save users id patch = .ok users') : (users'.get k).bind f = (users.get k).bind f := by
  by_cases hk : k = id
  · rw [hk, get_save h]
    cases users.get id with
    | none => rfl
    | some user => exact hf user
  · rw [get_save_ne h hk]

theorem bind_get_softDelete {id : String} (hf : ∀ user, f { user with deletedAt := true } = f user) :
    ((softDelete users id).get k).bind f = (users.get k).bind f := by
  rw [get_softDelete]
  cases users.get k with
  | none => rfl
  | some user =>
      rw [Option.map_some, Option.bind_some, Option.bind_some]
      split
      · exact hf user
      · rfl

/-- A new row has an id that no row had, so that what was read of another row is read again. -/
theorem bind_get_insert {user : UserEntity} (h : insert users user = .ok users') {x : γ}
    (hk : (users.get k).bind f = some x) : (users'.get k).bind f = some x := by
  rw [get_insert h]
  split
  · next heq =>
      rw [← heq, Repository.get_of_insert h] at hk
      cases hk
  · exact hk

end UsersRepository

/-! ### A table of two users -/

def owner : UserEntity where
  id := ⟨"owner", by decide⟩
  firstname := "Olena"
  lastname := none
  email := "owner@vethealth.test"
  password := none
  role := some .superAdmin
  status := some .active
  topics := []
  deletedAt := false

def author : UserEntity :=
  { owner with
    id := ⟨"author", by decide⟩
    firstname := "Andrii"
    email := "author@vethealth.test"
    role := some .writer }

def staff : UsersTable := ⟨[owner, author], by decide⟩

/-- An access token of `user` with the role that the row has: the caller has just signed in. -/
def UserEntity.signedIn (user : UserEntity) : JwtPayload :=
  ⟨user.id, user.role, ⟨"session", by decide⟩⟩

end VetHealth
