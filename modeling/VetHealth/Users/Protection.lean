import VetHealth.Users.Controller

/-!
# VetHealth.Users.Protection

**What `PATCH /users` can do to a row.** The guard's comments promise two things: an account
with the SuperAdmin role is out of reach of everyone else, and a caller who is no
administrator changes neither a role nor a status, and no row but their own.

The guard decides both by the truthiness of `body.role` and `body.status`. A body without
them, or with `null` for them, passes, while the save writes the other columns of the
payload and takes `null` for "clear the column". The theorems here say for which requests
the promises are kept.
-/

namespace VetHealth

open Js Store

/-- The request is refused, or it leaves the profile of `user` as it is. A refusal leaves the whole
table as it is. -/
def leavesProfile (result : Except Failure UsersTable) (user : UserEntity) : Prop :=
  ∀ users', result = .ok users' → ∃ row, users'.get user.id = some row ∧ row.sameProfile user

/-- The request is refused, or it leaves every role and every status as it is, and every row
but the one of `id`. -/
def leavesGrants (users : UsersTable) (result : Except Failure UsersTable) (id : Uuid) : Prop :=
  ∀ users', result = .ok users' →
    (∀ k, (users'.get k).map UserEntity.role = (users.get k).map UserEntity.role ∧
      (users'.get k).map UserEntity.status = (users.get k).map UserEntity.status) ∧
    ∀ k, k ≠ id → users'.get k = users.get k

/-! ### SuperAdmin accounts -/

section

variable [Mysql] [EmailSyntax] {topicIds : List Uuid} {users : UsersTable} {caller : JwtPayload}
  {dto : UpdateUserDto}

/-- **A SuperAdmin's row is safe from other callers only by accident**: the row is deleted,
the request names a role or a status, the caller is no administrator and means another row
than their own, or the payload that the database stores repeats the row. -/
theorem superAdmin_profile_iff {target : UserEntity} (hcaller : caller.role ≠ some .superAdmin)
    (hvalid : validate (dto.properties users topicIds) = [])
    (hid : dto.id = some (.str target.id.text)) (hget : users.get target.id = some target)
    (hrole : target.role = some .superAdmin) :
    leavesProfile (UsersController.update topicIds users caller dto) target ↔
      target.deletedAt = true ∨ (truthy dto.role || truthy dto.status) = true ∨
        (isAdminRole caller.role = false ∧ caller.id ≠ target.id) ∨
        ∀ patch, dto.stores users topicIds target.id = some patch → patch.repeats target := by
  constructor
  · intro hleaves
    by_contra hnot
    simp only [not_or, not_and, not_forall, Bool.not_eq_true, ne_eq, not_not] at hnot
    obtain ⟨hlive, hplain, hown, patch, hstores, hrepeats⟩ := hnot
    -- a request that meets none of the four conditions is let through and changes the row
    have hpasses : UpdateUserGuard.Passes users caller dto target .superAdmin := by
      refine ⟨?_, fun _ => hplain, ?_, hrole, fun _ _ => hplain, ?_⟩
      · intro hadmin
        rw [hid, hown hadmin]
      · rw [hid, UsersService.findOne_id, hget, Option.filter_some, hlive]
        rfl
      · intro _ hget
        have htruthy := truthy_of_get hget
        simp [htruthy] at hplain
    obtain ⟨users', hupdate, hrow⟩ :=
      UsersController.exists_update hpasses hvalid hid hget hlive hstores
    obtain ⟨row, hrow', hsame⟩ := hleaves users' hupdate
    obtain rfl := Option.some.inj (hrow.symm.trans hrow')
    have hstorable := (UpdateUserDto.stores_eq_some.1 hstores).2.1
    exact hrepeats ((UserPatch.applyTo_sameProfile hstorable).1 hsame)
  · intro hcases users' hupdate
    obtain ⟨found, role, patch, hpasses, -, hid', hget', hlive, hpatch, hsave⟩ :=
      UsersController.update_eq_ok.1 hupdate
    have hfound : found = target := by
      rw [hid, Option.some.injEq, Json.str.injEq] at hid'
      rw [← Uuid.ext hid', hget, Option.some.injEq] at hget'
      exact hget'.symm
    subst hfound
    obtain rfl : role = .superAdmin := Option.some.inj (hpasses.hasRole.symm.trans hrole)
    obtain ⟨-, hstorable, hfree⟩ := UsersRepository.exists_save.1 ⟨users', hsave⟩
    refine ⟨patch.applyTo found, ?_, (UserPatch.applyTo_sameProfile hstorable).2 ?_⟩
    · rw [UsersRepository.get_save hsave, hget, Option.map_some]
    · rcases hcases with hdeleted | htruthy | ⟨hadmin, hother⟩ | hrepeats
      · rw [hlive] at hdeleted
        cases hdeleted
      · rw [hpasses.superAdmin rfl hcaller] at htruthy
        cases htruthy
      · have hown := hpasses.own hadmin
        rw [hid, Option.some.injEq, Json.str.injEq] at hown
        exact absurd (Uuid.ext hown.symm) hother
      · exact hrepeats patch (UpdateUserDto.stores_eq_some.2 ⟨hpatch, hstorable, hfree⟩)

end

section

attribute [local instance] Mysql.strict atSign

/-- An administrator moves the SuperAdmin's account to another e-mail address. -/
theorem admin_takes_owner_email :
    let admin : JwtPayload := { author.signedIn with role := some .admin }
    let dto : UpdateUserDto :=
      { id := some (.str "owner"), email := some (.str "other@vethealth.test") }
    staff.get owner.id = some owner ∧ validate (dto.properties staff []) = [] ∧
      ¬ leavesProfile (UsersController.update [] staff admin dto) owner := by
  intro admin dto
  have hrun : ∃ users', UsersController.update [] staff admin dto = .ok users' ∧
      (users'.get owner.id).map UserEntity.email = some "other@vethealth.test" :=
    ⟨_, rfl, by decide⟩
  refine ⟨by decide, by decide, fun hleaves => ?_⟩
  obtain ⟨users', hupdate, hemail⟩ := hrun
  obtain ⟨row, hrow, hsame⟩ := hleaves users' hupdate
  rw [hrow, Option.map_some, hsame.1] at hemail
  exact absurd hemail (by decide)

/-- An administrator cannot demote the SuperAdmin. -/
theorem admin_keeps_owner_role :
    let admin : JwtPayload := { author.signedIn with role := some .admin }
    let dto : UpdateUserDto :=
      { id := some (.str "owner"), role := some (.obj [("id", .str "3")]) }
    leavesProfile (UsersController.update [] staff admin dto) owner :=
  (superAdmin_profile_iff (by decide) (by decide) rfl (by decide) rfl).2 (Or.inr (Or.inl rfl))

end

/-! ### Callers who are no administrators -/

section

variable [Mysql] [EmailSyntax] {topicIds : List Uuid} {users : UsersTable} {caller : JwtPayload}
  {dto : UpdateUserDto}

/-- A payload without a truthy role or status keeps both columns of a row with a role exactly
when its role is absent, and its status is absent or finds none to clear. -/
theorem keepsGrants_iff {user : UserEntity} {role : RoleEnum} {patch : UserPatch}
    (hvalid : validate (dto.properties users topicIds) = [])
    (hpatch : dto.toPatch topicIds = some patch)
    (hplain : (truthy dto.role || truthy dto.status) = false) (hrole : user.role = some role) :
    ((patch.applyTo user).role = user.role ∧ (patch.applyTo user).status = user.status) ↔
      dto.role = none ∧ (dto.status = none ∨ user.status = none) := by
  rw [Bool.or_eq_false_iff] at hplain
  have hroles : (patch.applyTo user).role = user.role ↔ dto.role = none := by
    rcases UpdateUserDto.role_of_plain hvalid hpatch hplain.1 with ⟨hdto, hcol⟩ | ⟨hdto, hcol⟩
    · simp [UserPatch.applyTo, hdto, hcol, Column.apply]
    · simp [UserPatch.applyTo, hdto, hcol, Column.apply, hrole]
  have hstatuses : (patch.applyTo user).status = user.status ↔
      dto.status = none ∨ user.status = none := by
    rcases UpdateUserDto.status_of_plain hpatch hplain.2 with ⟨hdto, hcol⟩ | ⟨hdto, hcol⟩
    · simp [UserPatch.applyTo, hdto, hcol, Column.apply]
    · simp [UserPatch.applyTo, hdto, hcol, Column.apply, eq_comm]
  rw [hroles, hstatuses]

/-- **A caller who is no administrator keeps role and status unless the body nulls them**: the
promise is broken by a request for the caller's own live row that passes the guard, is
stored, and carries a `null` role, or a `null` status where one is stored. -/
theorem grants_iff (hcaller : isAdminRole caller.role = false)
    (hvalid : validate (dto.properties users topicIds) = []) :
    leavesGrants users (UsersController.update topicIds users caller dto) caller.id ↔
      dto.id ≠ some (.str caller.id.text) ∨ (truthy dto.role || truthy dto.status) = true ∨
        (∀ user, users.get caller.id = some user → user.deletedAt = false → user.role = none) ∨
        dto.stores users topicIds caller.id = none ∨
        (dto.role = none ∧ (dto.status = none ∨
          ∃ user, users.get caller.id = some user ∧ user.status = none)) := by
  constructor
  · intro hleaves
    by_contra hnot
    simp only [not_or, not_not, Bool.not_eq_true, not_forall, exists_prop] at hnot
    obtain ⟨hid, hplain, ⟨user, hget, hlive, hrole⟩, hstores, hnulls⟩ := hnot
    obtain ⟨role, hrole⟩ := Option.ne_none_iff_exists'.1 hrole
    obtain ⟨patch, hstores⟩ := Option.ne_none_iff_exists'.1 hstores
    have hkey : user.id = caller.id := (Table.get_eq_some.1 hget).2
    rw [← hkey] at hid hget hstores
    -- the body names neither a role nor a status by a truthy value, so the guard lets it pass
    have hpasses : UpdateUserGuard.Passes users caller dto user role := by
      refine ⟨fun _ => hkey ▸ hid, fun _ => hplain, ?_, hrole, fun _ _ => hplain, ?_⟩
      · rw [hid, UsersService.findOne_id, hget, Option.filter_some, hlive]
        rfl
      · intro _ hget
        have htruthy := truthy_of_get hget
        simp [htruthy] at hplain
    obtain ⟨users', hupdate, hrow⟩ :=
      UsersController.exists_update hpasses hvalid hid hget hlive hstores
    obtain ⟨hsame, -⟩ := hleaves users' hupdate
    have hkeeps := hsame user.id
    rw [hrow, hget] at hkeeps
    simp only [Option.map_some, Option.some.injEq] at hkeeps
    obtain ⟨hno, hstatus⟩ :=
      (keepsGrants_iff hvalid (UpdateUserDto.stores_eq_some.1 hstores).1 hplain hrole).1 hkeeps
    exact hnulls ⟨hno, hstatus.imp_right fun h => ⟨user, hkey ▸ hget, h⟩⟩
  · intro hcases users' hupdate
    obtain ⟨user, role, patch, hpasses, -, hid, hget, hlive, hpatch, hsave⟩ :=
      UsersController.update_eq_ok.1 hupdate
    have hplain := hpasses.plain hcaller
    have hkey : user.id = caller.id := by
      have hown := hpasses.own hcaller
      rw [hid, Option.some.injEq, Json.str.injEq] at hown
      exact Uuid.ext hown
    have hother : ∀ k, k ≠ caller.id → users'.get k = users.get k :=
      fun k hk => UsersRepository.get_save_ne hsave (hkey ▸ hk)
    refine ⟨fun k => ?_, hother⟩
    by_cases hk : k = caller.id
    · obtain ⟨-, hstorable, hfree⟩ := UsersRepository.exists_save.1 ⟨users', hsave⟩
      have hkeeps : (patch.applyTo user).role = user.role ∧
          (patch.applyTo user).status = user.status := by
        rw [keepsGrants_iff hvalid hpatch hplain hpasses.hasRole]
        rcases hcases with hne | htruthy | hnorole | hnone | ⟨hno, hstatus⟩
        · exact absurd (hkey ▸ hid) hne
        · rw [hplain] at htruthy
          cases htruthy
        · have hnull := hnorole user (hkey ▸ hget) hlive
          rw [hpasses.hasRole] at hnull
          cases hnull
        · have hstores := UpdateUserDto.stores_eq_some.2 ⟨hpatch, hstorable, hfree⟩
          rw [hkey, hnone] at hstores
          cases hstores
        · refine ⟨hno, hstatus.imp_right fun h => ?_⟩
          obtain ⟨row, hrow, h⟩ := h
          rw [hkey] at hget
          obtain rfl := Option.some.inj (hget.symm.trans hrow)
          exact h
      rw [hk, ← hkey, UsersRepository.get_save hsave, hget]
      simpa using hkeeps
    · rw [hother k hk]
      exact ⟨rfl, rfl⟩

end

section

attribute [local instance] Mysql.strict atSign

/-- A writer clears their own role. -/
theorem writer_clears_own_role :
    let dto : UpdateUserDto := { id := some (.str "author"), role := some .null }
    isAdminRole author.signedIn.role = false ∧ validate (dto.properties staff []) = [] ∧
      ¬ leavesGrants staff (UsersController.update [] staff author.signedIn dto) author.id := by
  intro dto
  have hrun : ∃ users', UsersController.update [] staff author.signedIn dto = .ok users' ∧
      (users'.get author.id).map UserEntity.role = some none :=
    ⟨_, rfl, by decide⟩
  refine ⟨by decide, by decide, fun hleaves => ?_⟩
  obtain ⟨users', hupdate, hrole⟩ := hrun
  obtain ⟨hsame, -⟩ := hleaves users' hupdate
  rw [(hsame author.id).1] at hrole
  exact absurd hrole (by decide)

/-- A writer who changes their own name keeps role and status. -/
theorem writer_renames :
    let dto : UpdateUserDto := { id := some (.str "author"), firstname := some (.str "Ivan") }
    leavesGrants staff (UsersController.update [] staff author.signedIn dto) author.id :=
  (grants_iff rfl (by decide)).2
    (Or.inr (Or.inr (Or.inr (Or.inr ⟨rfl, Or.inl rfl⟩))))

end

end VetHealth
