import VetHealth.Users.Entity

/-!
# VetHealth.Users.Dto

The bodies that create and update a user, the checks of their DTOs, and the row or
payload that the repository makes of them.

`AuthRegisterDto` and `CreateUserDto` carry the same decorators, and
`UpdateUserDto` is `PartialType(CreateUserDto)` with two properties of its own, so
all of them are instances of `userProperties`. `PartialType` adds `@IsOptional()`,
which skips every check of a property that is absent *or* `null`.
-/

namespace VetHealth

open Js

/-- The properties that the user DTOs share. -/
structure UserFields where
  firstname : Option Json := none
  lastname : Option Json := none
  email : Option Json := none
  role : Option Json := none
  topics : Option Json := none

/-- The body of `POST /auth/register`. -/
abbrev AuthRegisterDto := UserFields

/-- The body of `PATCH /users`. -/
structure UpdateUserDto extends UserFields where
  id : Option Json := none
  status : Option Json := none

variable [Mysql]

section Checks

variable [EmailSyntax] (users : UsersTable) (topicIds : List Uuid)

/-- The role must name a row of its table, and not by the text `1`: the second check compares what
the id prints as. -/
def roleProperty (optional : Bool) (role : Option Json) : Property :=
  ⟨"role", optional && isNullish role,
    [(IsExist.validate (fun id => (Mysql.roleOf id).isSome) role, ErrorMessage.ROLE_IS_NOT_VALID),
      (isNotEmpty role, "role should not be empty"),
      (isObject role, "role must be an object"),
      (IsNotSuperAdmin.validate role, ErrorMessage.SUPERADMIN_IS_NOT_ALLOWED)]⟩

/-- The checks of the shared properties; `optional` is the `@IsOptional()` of `PartialType`
and `currentId` the id that the body carries. -/
def userProperties (optional : Bool) (currentId : Option Json) (dto : UserFields) :
    List Property :=
  [⟨"firstname", optional && isNullish dto.firstname,
      [(isNotEmpty dto.firstname, "firstname should not be empty")]⟩,
    ⟨"lastname", isNullish dto.lastname, []⟩,
    ⟨"email", optional && isNullish dto.email,
      [(IsNotExist.validate ((findWhere users UserEntity.email dto.email).map (·.id)) currentId,
          ErrorMessage.EMAIL_ALREADY_EXIST),
        (isNotEmpty dto.email, "email should not be empty"),
        (isEmail dto.email, "email must be an email")]⟩,
    roleProperty optional dto.role,
    ⟨"topics", isNullish dto.topics,
      [(isArray dto.topics, "topics must be an array"),
        (each (IsExist.validate fun id => (Mysql.uuidOf topicIds id).isSome) dto.topics,
          ErrorMessage.TOPIC_IS_NOT_VALID)]⟩]

def AuthRegisterDto.properties (dto : AuthRegisterDto) : List Property :=
  userProperties users topicIds false none dto

/-- `status` is skipped when it is falsy, on top of `@IsOptional()`. A falsy status that is not
`null` is refused by the database only. -/
def UpdateUserDto.properties (dto : UpdateUserDto) : List Property :=
  userProperties users topicIds true dto.id dto.toUserFields ++
    [⟨"status", isNullish dto.status || !truthy dto.status,
        [(isObject dto.status, "status must be an object"),
          (IsExist.validate (fun id => (Mysql.userStatusOf id).isSome) dto.status,
            ErrorMessage.STATUS_IS_NOT_VALID)]⟩,
      idProperty dto.id]

variable {users topicIds}

/-- What the checks establish about a role that is checked at all. -/
theorem userProperties_role {optional : Bool} {currentId : Option Json} {dto : UserFields}
    (h : ∀ p ∈ userProperties users topicIds optional currentId dto,
      p.skipped = false → ∀ check ∈ p.checks, check.1 = true)
    (hrole : (optional && isNullish dto.role) = false) :
    IsExist.validate (fun id => (Mysql.roleOf id).isSome) dto.role = true ∧
      IsNotSuperAdmin.validate dto.role = true := by
  have hchecks := h (roleProperty optional dto.role) (by simp [userProperties]) hrole
  simp only [roleProperty, List.forall_mem_cons] at hchecks
  exact ⟨hchecks.1, hchecks.2.2.2.1⟩

/-- An accepted registration names a role row, by an id that does not print as `1`. What else the
database takes for that row is not refused here. -/
theorem AuthRegisterDto.role_of_accepted {dto : AuthRegisterDto}
    (h : validate (AuthRegisterDto.properties users topicIds dto) = []) :
    ∃ id, get? dto.role "id" = some id ∧ id.truthy = true ∧
      id.toString ≠ RoleEnum.superAdmin.id := by
  obtain ⟨hexist, hnot⟩ := userProperties_role (validate_eq_nil.1 h) rfl
  obtain ⟨id, hid, htruthy, -⟩ := IsExist.validate_eq_true.1 hexist
  refine ⟨id, hid, htruthy, IsNotSuperAdmin.toString_ne hnot hid ?_⟩
  rintro rfl
  cases htruthy

/-- The role of an accepted update is absent, `null`, or named by an id that does not
print as `1`. -/
theorem UpdateUserDto.role_of_accepted {dto : UpdateUserDto}
    (h : validate (UpdateUserDto.properties users topicIds dto) = []) :
    isNullish dto.role = true ∨ ∃ id, get? dto.role "id" = some id ∧ id.truthy = true ∧
      id.toString ≠ RoleEnum.superAdmin.id := by
  cases hnullish : isNullish dto.role with
  | true => exact Or.inl rfl
  | false =>
      have hall := validate_eq_nil.1 h
      have hshared : ∀ p ∈ userProperties users topicIds true dto.id dto.toUserFields,
          p.skipped = false → ∀ check ∈ p.checks, check.1 = true :=
        fun p hp => hall p (List.mem_append_left _ hp)
      obtain ⟨hexist, hnot⟩ := userProperties_role hshared (by simp [hnullish])
      obtain ⟨id, hid, htruthy, -⟩ := IsExist.validate_eq_true.1 hexist
      refine Or.inr ⟨id, hid, htruthy, IsNotSuperAdmin.toString_ne hnot hid ?_⟩
      rintro rfl
      cases htruthy

/-- The id of an accepted update is a text. -/
theorem UpdateUserDto.id_of_accepted {dto : UpdateUserDto}
    (h : validate (UpdateUserDto.properties users topicIds dto) = []) :
    ∃ id, dto.id = some (.str id) :=
  idProperty_accepted h (by simp [UpdateUserDto.properties])

end Checks

/-! ### From a body to the database -/

/-- The row that `usersService.create({ ...dto, status: Pending })` inserts; `none` when the
database refuses a value. -/
def AuthRegisterDto.toEntity (topicIds : List Uuid) (id : Uuid) (dto : AuthRegisterDto) :
    Option UserEntity := do
  let firstname ← dto.firstname.bind Mysql.textOf
  let lastname ← Column.ofJson Mysql.textOf dto.lastname
  let email ← dto.email.bind Mysql.textOf
  let role ← Column.ofRelation Mysql.roleOf dto.role
  let topics ← relationIds topicIds dto.topics
  return {
    id, firstname, email
    lastname := lastname.apply none
    password := none
    role := role.apply none
    status := some .pending
    topics := topics.getD []
    deletedAt := false }

/-- The payload that `usersService.update(dto)` saves; `none` when the database refuses a
value. -/
def UpdateUserDto.toPatch (topicIds : List Uuid) (dto : UpdateUserDto) : Option UserPatch := do
  let firstname ← Column.ofJson Mysql.textOf dto.firstname
  let lastname ← Column.ofJson Mysql.textOf dto.lastname
  let email ← Column.ofJson Mysql.textOf dto.email
  let role ← Column.ofRelation Mysql.roleOf dto.role
  let status ← Column.ofRelation Mysql.userStatusOf dto.status
  let topics ← relationIds topicIds dto.topics
  return { firstname, lastname, email, role, status, topics }

/-- The payload that the database stores in the row `id`: every value converts, no required
column is cleared, and the e-mail address is free. -/
def UpdateUserDto.stores (users : UsersTable) (topicIds : List Uuid) (id : Uuid)
    (dto : UpdateUserDto) : Option UserPatch :=
  (dto.toPatch topicIds).filter fun patch => patch.storable && !patch.emailTaken users id

theorem UpdateUserDto.stores_eq_some {users : UsersTable} {topicIds : List Uuid} {id : Uuid}
    {dto : UpdateUserDto} {patch : UserPatch} :
    dto.stores users topicIds id = some patch ↔
      dto.toPatch topicIds = some patch ∧ patch.storable = true ∧
        patch.emailTaken users id = false := by
  simp [UpdateUserDto.stores, Option.filter_eq_some_iff]

variable {topicIds : List Uuid}

theorem AuthRegisterDto.toEntity_eq_some {id : Uuid} {dto : AuthRegisterDto} {user : UserEntity}
    (h : dto.toEntity topicIds id = some user) :
    user.id = id ∧ user.status = some .pending ∧ user.password = none ∧
      ∃ role, Column.ofRelation Mysql.roleOf dto.role = some role ∧
        user.role = role.apply none := by
  simp only [AuthRegisterDto.toEntity, Option.pure_def, Option.bind_eq_bind,
    Option.bind_eq_some_iff, Option.some.injEq] at h
  obtain ⟨firstname, -, lastname, -, email, -, role, hrole, topics, -, rfl⟩ := h
  exact ⟨rfl, rfl, rfl, role, hrole, rfl⟩

/-- A payload takes its role and status from the body's, and no password: the update has no password
property. -/
theorem UpdateUserDto.toPatch_eq_some {dto : UpdateUserDto} {patch : UserPatch}
    (h : dto.toPatch topicIds = some patch) :
    Column.ofRelation Mysql.roleOf dto.role = some patch.role ∧
      Column.ofRelation Mysql.userStatusOf dto.status = some patch.status ∧
      patch.password = .keep := by
  simp only [UpdateUserDto.toPatch, Option.pure_def, Option.bind_eq_bind,
    Option.bind_eq_some_iff, Option.some.injEq] at h
  obtain ⟨firstname, -, lastname, -, email, -, role, hrole, status, hstatus, topics, -, rfl⟩ := h
  exact ⟨hrole, hstatus, rfl⟩

/-- A falsy role that the pipe accepts is absent or `null`, and the guard's test for truth passes
over both. -/
theorem UpdateUserDto.role_of_plain [EmailSyntax] {users : UsersTable} {dto : UpdateUserDto}
    {patch : UserPatch} (hvalid : validate (dto.properties users topicIds) = [])
    (hpatch : dto.toPatch topicIds = some patch) (hplain : truthy dto.role = false) :
    (dto.role = none ∧ patch.role = .keep) ∨ (dto.role = some .null ∧ patch.role = .clear) := by
  obtain ⟨hrole, -, -⟩ := UpdateUserDto.toPatch_eq_some hpatch
  rcases UpdateUserDto.role_of_accepted hvalid with hnullish | ⟨id, hid, -, -⟩
  · rcases isNullish_iff.1 hnullish with h | h
    · rw [h] at hrole
      exact Or.inl ⟨h, (Option.some.inj hrole).symm⟩
    · rw [h] at hrole
      exact Or.inr ⟨h, (Option.some.inj hrole).symm⟩
  · rw [truthy_of_get hid] at hplain
    cases hplain

/-- A falsy status that the database stores is absent or `null`: `false`, `0` and the empty
text skip the checks, but denote no row. -/
theorem UpdateUserDto.status_of_plain {dto : UpdateUserDto} {patch : UserPatch}
    (hpatch : dto.toPatch topicIds = some patch) (hplain : truthy dto.status = false) :
    (dto.status = none ∧ patch.status = .keep) ∨
      (dto.status = some .null ∧ patch.status = .clear) := by
  obtain ⟨-, hstatus, -⟩ := UpdateUserDto.toPatch_eq_some hpatch
  rcases hdto : dto.status with _ | j
  · rw [hdto] at hstatus
    exact Or.inl ⟨rfl, (Option.some.inj hstatus).symm⟩
  · rw [hdto] at hstatus hplain
    have hfalsy : j.truthy = false := hplain
    cases j with
    | null => exact Or.inr ⟨rfl, (Option.some.inj hstatus).symm⟩
    | arr items => cases hfalsy
    | obj fields => cases hfalsy
    | _ =>
        simp only [Column.ofRelation, Column.ofJson, Mysql.userStatusOf_falsy hfalsy] at hstatus
        cases hstatus

end VetHealth
