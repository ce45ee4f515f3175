import VetHealth.Users.Dto

/-!
# VetHealth.Users.Controller

`PATCH /users` and `DELETE /users/:id`: the route guards, the validation pipe and the
service call, in the order in which a request meets them.

The guards run before the pipe, so they see a body that nothing has checked. They read
the body's `role` and `status` by truthiness, and the role's id by strict equality.
-/

namespace VetHealth

open Js Store

variable [Mysql]

/-- `usersService.findOne({ id })`. -/
def UsersService.findOne (users : UsersTable) (id : Option Json) : Option UserEntity :=
  findById users (fun user => user.id.text) UserEntity.deletedAt id

/-- Looking a text up among the ids is looking up the id it spells. Ids are compared as texts, and
different ids have different texts. -/
theorem find_id (users : UsersTable) (id : Uuid) :
    (users.find fun user => Mysql.textOf (.str id.text) = some user.id.text) = users.get id := by
  have hp : (fun user : UserEntity => decide (Mysql.textOf (.str id.text) = some user.id.text)) =
      fun user => decide (user.id = id) := by
    funext user
    simp [Mysql.text_str, Uuid.ext_iff, eq_comm]
  rw [Table.get, ← hp]

theorem UsersService.findOne_id (users : UsersTable) (id : Uuid) :
    findOne users (some (.str id.text)) = (users.get id).filter fun user => !user.deletedAt := by
  rw [← Table.find_key]
  refine congrArg users.find (funext fun user => ?_)
  simp [Mysql.text_str, Uuid.ext_iff, eq_comm]

/-- A row found by a text is stored, is not deleted, and has that text for its id. -/
theorem UsersService.findOne_text {users : UsersTable} {id : String} {user : UserEntity}
    (h : findOne users (some (.str id)) = some user) :
    users.get user.id = some user ∧ user.id.text = id ∧ user.deletedAt = false :=
  ⟨Table.get_eq_some.2 ⟨findById_mem h, rfl⟩, findById_text h⟩

/-! ### The guards -/

/-- `UpdateUserGuard.canActivate`: it returns `true` or throws. It looks at the row that the body
names and at the token, and tests role and status for truth. -/
def UpdateUserGuard.canActivate (users : UsersTable) (caller : JwtPayload) (body : UpdateUserDto) :
    Except Failure Unit :=
  if !isAdminRole caller.role && !body.id.any (Json.eqString caller.id.text) then
    .error .forbidden'
  else if !isAdminRole caller.role && (truthy body.role || truthy body.status) then
    .error .forbidden'
  else
    match UsersService.findOne users body.id with
    | none => .error .notFound
    | some target =>
        match target.role with
        | none => .error (.internal .typeError)
        | some role =>
            if role = .superAdmin ∧ (truthy body.role || truthy body.status) = true ∧
                caller.role ≠ some .superAdmin then
              .error .forbidden'
            else if (get? body.role "id").any (Json.eqString RoleEnum.superAdmin.id) = true ∧
                caller.role ≠ some .superAdmin then
              .error .forbidden'
            else .ok ()

/-- `DeleteUserGuard.canActivate`: nobody deletes a SuperAdmin, whoever asks. -/
def DeleteUserGuard.canActivate (users : UsersTable) (userId : String) : Except Failure Unit :=
  match UsersService.findOne users (some (.str userId)) with
  | none => .error .notFound
  | some user =>
      match user.role with
      | none => .error (.internal .typeError)
      | some role => if role = .superAdmin then .error .forbidden' else .ok ()

/-- What a body must satisfy to pass the update guard. The field names say which of the guard's
refusals each condition keeps away. -/
structure UpdateUserGuard.Passes (users : UsersTable) (caller : JwtPayload) (body : UpdateUserDto)
    (target : UserEntity) (role : RoleEnum) : Prop where
  own : isAdminRole caller.role = false → body.id = some (.str caller.id.text)
  plain : isAdminRole caller.role = false → (truthy body.role || truthy body.status) = false
  found : UsersService.findOne users body.id = some target
  hasRole : target.role = some role
  superAdmin : role = .superAdmin → caller.role ≠ some .superAdmin →
    (truthy body.role || truthy body.status) = false
  grant : caller.role ≠ some .superAdmin → get? body.role "id" ≠ some (.str RoleEnum.superAdmin.id)

theorem UpdateUserGuard.canActivate_eq_ok {users : UsersTable} {caller : JwtPayload}
    {body : UpdateUserDto} :
    canActivate users caller body = .ok () ↔
      ∃ target role, Passes users caller body target role := by
  have heq : ∀ (field : Option Json) (s : String),
      field.any (Json.eqString s) = true ↔ field = some (.str s) := by
    intro field s
    cases field <;> simp
  rw [canActivate, ite_error_eq_ok, ite_error_eq_ok]
  simp only [Bool.and_eq_true, Bool.not_eq_true', not_and, Bool.not_eq_false, heq]
  -- The checks in their order: whose account it is, the fields, the target, its role, and what the
  -- caller may grant.
  constructor
  · rintro ⟨hown, hplain, h⟩
    cases hfound : UsersService.findOne users body.id with
    | none => rw [hfound] at h; cases h
    | some target =>
        rw [hfound] at h
        dsimp only at h
        cases hrole : target.role with
        | none => rw [hrole] at h; cases h
        | some role =>
            rw [hrole] at h
            dsimp only at h
            rw [ite_error_eq_ok, ite_error_eq_ok] at h
            refine ⟨target, role, hown, fun hadmin => by simpa using hplain hadmin, hfound, hrole,
              fun hr hcaller => ?_, fun hcaller hget => h.2.1 ⟨(heq _ _).2 hget, hcaller⟩⟩
            rw [← Bool.not_eq_true]
            exact fun ht => h.1 ⟨hr, ht, hcaller⟩
  · rintro ⟨target, role, h⟩
    refine ⟨h.own, fun hadmin => by simpa using h.plain hadmin, ?_⟩
    rw [h.found]
    dsimp only
    rw [h.hasRole]
    dsimp only
    rw [ite_error_eq_ok, ite_error_eq_ok]
    refine ⟨?_, fun hc => h.grant hc.2 ((heq _ _).1 hc.1), rfl⟩
    rintro ⟨hr, ht, hcaller⟩
    rw [h.superAdmin hr hcaller] at ht
    cases ht

/-! ### The endpoints -/

/-- `usersService.update(dto)`. The row with the payload's id is overwritten, deleted or
not; the guard has found it. -/
def UsersService.update (topicIds : List Uuid) (users : UsersTable) (dto : UpdateUserDto) :
    Except Failure UsersTable :=
  match dto.id.bind fun id => users.find fun user => Mysql.textOf id = some user.id.text,
      dto.toPatch topicIds with
  | some user, some patch => UsersRepository.save users user.id patch
  | _, _ => .error (.internal .queryFailed)

namespace UsersController

variable [EmailSyntax]

/-- `PATCH /users`. -/
def update (topicIds : List Uuid) (users : UsersTable) (caller : JwtPayload)
    (dto : UpdateUserDto) : Except Failure UsersTable := do
  UpdateUserGuard.canActivate users caller dto
  validationPipe (dto.properties users topicIds)
  UsersService.update topicIds users dto

/-- `DELETE /users/:id`. -/
def delete (users : UsersTable) (caller : JwtPayload) (id : String) :
    Except Failure UsersTable := do
  if !rolesGuardAdmin caller then throw .forbiddenResource
  DeleteUserGuard.canActivate users id
  return UsersRepository.softDelete users id

variable {topicIds : List Uuid} {users users' : UsersTable} {caller : JwtPayload}

/-- **What a successful `PATCH /users` is**: one live row, which the guard let the caller
update, is overwritten by the payload of an accepted body. -/
theorem update_eq_ok {dto : UpdateUserDto} :
    update topicIds users caller dto = .ok users' ↔
      ∃ target role patch, UpdateUserGuard.Passes users caller dto target role ∧
        validate (dto.properties users topicIds) = [] ∧
        dto.id = some (.str target.id.text) ∧ users.get target.id = some target ∧
        target.deletedAt = false ∧ dto.toPatch topicIds = some patch ∧
        UsersRepository.save users target.id patch = .ok users' := by
  rw [update, seq_eq_ok, seq_eq_ok, validationPipe_eq_ok, UpdateUserGuard.canActivate_eq_ok]
  constructor
  · rintro ⟨⟨target, role, hpasses⟩, hvalid, h⟩
    obtain ⟨id, hid⟩ := UpdateUserDto.id_of_accepted hvalid
    have hfound := hpasses.found
    rw [hid] at hfound
    obtain ⟨hget, rfl, hlive⟩ := UsersService.findOne_text hfound
    rw [UsersService.update, hid, Option.bind_some, find_id, hget] at h
    cases hpatch : dto.toPatch topicIds with
    | none => rw [hpatch] at h; cases h
    | some patch =>
        rw [hpatch] at h
        exact ⟨target, role, patch, hpasses, hvalid, hid, hget, hlive, rfl, h⟩
  · rintro ⟨target, role, patch, hpasses, hvalid, hid, hget, -, hpatch, hsave⟩
    refine ⟨⟨target, role, hpasses⟩, hvalid, ?_⟩
    rw [UsersService.update, hid, Option.bind_some, find_id, hget, hpatch]
    exact hsave

omit [EmailSyntax] in
/-- A successful `DELETE /users/:id` marks the one row as deleted. -/
theorem delete_eq_ok {id : String} (h : delete users caller id = .ok users') :
    users' = UsersRepository.softDelete users id := by
  unfold delete at h
  cases hcaller : rolesGuardAdmin caller with
  | false => rw [hcaller] at h; cases h
  | true =>
      rw [hcaller] at h
      obtain ⟨-, h⟩ := seq_eq_ok.1 h
      exact (Except.ok.inj h).symm

/-- A live row is overwritten by the payload that the database stores for it, if the guard
and the pipe let the request through. -/
theorem exists_update {dto : UpdateUserDto} {target : UserEntity} {role : RoleEnum}
    (hpasses : UpdateUserGuard.Passes users caller dto target role)
    (hvalid : validate (dto.properties users topicIds) = [])
    (hid : dto.id = some (.str target.id.text)) (hget : users.get target.id = some target)
    (hlive : target.deletedAt = false) {patch : UserPatch}
    (hstores : dto.stores users topicIds target.id = some patch) :
    ∃ users', update topicIds users caller dto = .ok users' ∧
      users'.get target.id = some (patch.applyTo target) := by
  obtain ⟨hpatch, hstorable, hfree⟩ := UpdateUserDto.stores_eq_some.1 hstores
  obtain ⟨users', hsave⟩ := UsersRepository.exists_save.2 ⟨⟨target, hget⟩, hstorable, hfree⟩
  refine ⟨users', ?_, ?_⟩
  · exact update_eq_ok.2 ⟨target, role, patch, hpasses, hvalid, hid, hget, hlive, hpatch, hsave⟩
  · rw [UsersRepository.get_save hsave, hget, Option.map_some]

end UsersController

end VetHealth
