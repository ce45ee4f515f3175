import VetHealth.Auth.Runs

/-!
# VetHealth.Auth.Escalation

**Who becomes a SuperAdmin.** Three checks keep the role `'1'` from being handed out: the guard
compares the body's role id with it by `===`, `IsNotSuperAdmin` compares the id's `toString()`,
and `IsExist` asks the database whether the id denotes a role. Only the last one sees the id as
the save does. The one scalar on which they disagree is `true`, which MySQL takes for `1`.
-/

namespace VetHealth

open Js Store Resumption Transition

namespace Request

/-- The role of the access token that a request carries. -/
def callerRole : Request → Option RoleEnum
  | .logout caller | .register caller _ | .changePassword caller _ | .currentUser caller
  | .updateUser caller _ | .deleteUser caller _ => caller.role
  | _ => none

/-- The `role.id` of a body that creates or updates a user. -/
def roleId : Request → Option Json
  | .register _ dto => get? dto.role "id"
  | .updateUser _ dto => get? dto.role "id"
  | _ => none

end Request

/-- The user `k` has the SuperAdmin role. -/
def isSuperAdmin (users : UsersTable) (k : Uuid) : Prop :=
  (users.get k).bind UserEntity.role = some .superAdmin

instance (users : UsersTable) (k : Uuid) : Decidable (isSuperAdmin users k) :=
  inferInstanceAs (Decidable (_ = _))

section

variable [Mysql]

/-- An id that the validator lets pass and that is no `true` does not become the SuperAdmin role.
The database reads `true` as the number of that role. -/
theorem role_of_checked {role : Option Json} {id : Json} {column : Column RoleEnum}
    (hcolumn : Column.ofRelation Mysql.roleOf role = some column) (hid : get? role "id" = some id)
    (hscalar : id.isScalar = true) (htrue : id ≠ .bool true)
    (htext : id.toString ≠ RoleEnum.superAdmin.id) : column ≠ .set .superAdmin := by
  intro hset
  rw [Column.ofRelation_of_get hid, hset] at hcolumn
  obtain ⟨j, hj, hdenotes⟩ := Column.ofJson_eq_set hcolumn
  rw [← Option.some.inj hj] at hdenotes
  exact htext (Mysql.toString_of_superAdmin hscalar htrue hdenotes)

variable {db₀ db : Database} {a : Ambient} {request : Request} {users : UsersTable} {k : Uuid}
  {past : List (Entry Database (Ambient × Request) (Except Failure Response))}

variable [Scrypt] [EmailSyntax]

/-- The step adds the user `k` to the SuperAdmin role. -/
def promotes [Typeorm] (e : Entry Database (Ambient × Request) (Except Failure Response)) (k : Uuid) : Prop :=
  ¬ isSuperAdmin e.before.users k ∧ isSuperAdmin (server.after e).users k

/-- **The step lemma.** Without an Admin's `true` for a role id, no request by anyone but a
SuperAdmin makes one: what checks the bodies compares the id with the text of that role. -/
theorem isSuperAdmin_of_step (hstep : UsersStep db a request users)
    (hcaller : request.callerRole ≠ some .superAdmin)
    (hscalar : ∀ id, request.roleId = some id → id.isScalar = true)
    (htrue : request.callerRole = some .admin → request.roleId ≠ some (.bool true))
    (hk : isSuperAdmin users k) : isSuperAdmin db.users k := by
  cases hstep with
  | same => exact hk
  | @registered caller dto user users hguard hvalid hentity hinsert =>
      rw [rolesGuardAdmin_eq, isAdminRole_eq_true] at hguard
      obtain ⟨id, hid, -, htext⟩ := AuthRegisterDto.role_of_accepted hvalid
      obtain ⟨-, -, -, column, hcolumn, hrole⟩ := AuthRegisterDto.toEntity_eq_some hentity
      have hne := role_of_checked hcolumn hid (hscalar id hid)
        (fun heq => htrue (hguard.resolve_left hcaller) (hid.trans (congrArg some heq))) htext
      rw [isSuperAdmin, UsersRepository.get_insert hinsert] at hk
      split at hk
      · rw [Option.bind_some, hrole] at hk
        cases column with
        | set role => exact absurd (congrArg Column.set (Option.some.inj hk)) hne
        | _ => cases hk
      · exact hk
  | @updated caller dto users hupdate =>
      obtain ⟨target, role, patch, hpasses, hvalid, -, hget, -, hpatch, hsave⟩ :=
        UsersController.update_eq_ok.1 hupdate
      obtain ⟨hcolumn, -, -⟩ := UpdateUserDto.toPatch_eq_some hpatch
      by_cases heq : k = target.id
      · rw [isSuperAdmin, heq, UsersRepository.get_save hsave, hget] at hk
        rw [isSuperAdmin, heq, hget]
        have happly : patch.role.apply target.role = some .superAdmin := hk
        cases hcol : patch.role with
        | keep => rw [hcol] at happly; exact happly
        | clear => rw [hcol] at happly; cases happly
        | set r =>
            rw [hcol] at happly
            rcases UpdateUserDto.role_of_accepted hvalid with hnullish | ⟨id, hid, -, htext⟩
            · rcases isNullish_iff.1 hnullish with hnone | hnull
              · rw [hnone, hcol] at hcolumn; cases hcolumn
              · rw [hnull, hcol] at hcolumn; cases hcolumn
            · -- the guard lets a body with a role pass only for an administrator
              have hadmin : isAdminRole caller.role = true := by
                by_contra hnot
                have hplain := hpasses.plain (Bool.not_eq_true _ ▸ hnot)
                rw [truthy_of_get hid] at hplain
                cases hplain
              have hrole := (isAdminRole_eq_true.1 hadmin).resolve_left hcaller
              have hne := role_of_checked hcolumn hid (hscalar id hid)
                (fun heq => htrue hrole (hid.trans (congrArg some heq))) htext
              exact absurd (hcol.trans (congrArg Column.set (Option.some.inj happly))) hne
      · rwa [isSuperAdmin, UsersRepository.get_save_ne hsave heq] at hk
  | deleted =>
      rw [isSuperAdmin, UsersRepository.bind_get_softDelete fun _ => rfl] at hk
      exact hk
  | confirmed _ _ hsave =>
      rw [isSuperAdmin, UsersRepository.bind_get_save (fun _ => rfl) hsave] at hk
      exact hk
  | changed hsave =>
      rw [isSuperAdmin, UsersRepository.bind_get_save (fun _ => rfl) hsave] at hk
      exact hk

/-- Whoever is a SuperAdmin at the end of a run was one at its start, or was made one by a step. -/
theorem exists_promotes [Typeorm] (h : server.Reach db₀ past db) (hk : isSuperAdmin db.users k) :
    isSuperAdmin db₀.users k ∨ ∃ e ∈ past, promotes e k :=
  h.origin (P := fun db => isSuperAdmin db.users k) hk

/-- **No escalation to SuperAdmin**, in every run in which no Admin sends `true` for a role id:
only a SuperAdmin's request promotes a user, so the SuperAdmins of the run are those of its
start and those whom a SuperAdmin promoted. -/
theorem no_escalation [Typeorm] (h : server.Reach db₀ past db)
    (hscalar : ∀ e ∈ past, ∀ id, e.request.2.roleId = some id → id.isScalar = true)
    (htrue : ∀ e ∈ past, e.request.2.callerRole = some .admin →
      e.request.2.roleId ≠ some (.bool true)) :
    (∀ e ∈ past, ∀ k, promotes e k → e.request.2.callerRole = some .superAdmin) ∧
    ∀ k, isSuperAdmin db.users k → isSuperAdmin db₀.users k ∨
      ∃ e ∈ past, promotes e k ∧ e.request.2.callerRole = some .superAdmin := by
  have hcaller : ∀ e ∈ past, ∀ k, promotes e k → e.request.2.callerRole = some .superAdmin := by
    intro e he k ⟨hbefore, hafter⟩
    by_contra hne
    have hstep := users_step e.request.1 e.before e.request.2
    exact hbefore (isSuperAdmin_of_step hstep hne (hscalar e he) (htrue e he) hafter)
  refine ⟨hcaller, fun k hk => ?_⟩
  exact (exists_promotes h hk).imp_right fun ⟨e, he, hpromotes⟩ =>
    ⟨e, he, hpromotes, hcaller e he k hpromotes⟩

end

section

attribute [local instance] spelledKey Mysql.strict atSign Typeorm.comparing

/-- `POST /auth/register` by an administrator, with the given role id. -/
def registering (roleId : Json) : Ambient × Request :=
  (drawing "new" new_nonempty,
    .register { author.signedIn with role := some .admin }
      { firstname := some (.str "Ivan"), email := some (.str "ivan@vethealth.test"),
        role := some (.obj [("id", roleId)]) })

/-- An administrator creates a SuperAdmin by sending `true` for the role id. -/
theorem admin_creates_superAdmin :
    (∀ id, (registering (.bool true)).2.roleId = some id → id.isScalar = true) ∧
      (registering (.bool true)).2.callerRole = some .admin ∧
      promotes (server.entry desk (registering (.bool true))) ⟨"new", new_nonempty⟩ :=
  ⟨fun id hid => by obtain rfl := Option.some.inj hid; rfl, rfl, by decide +kernel,
    by decide +kernel⟩

/-- With the text `"4"` the administrator creates no SuperAdmin. -/
theorem admin_creates_writer :
    let e := server.entry desk (registering (.str "4"))
    ∀ k, promotes e k → e.request.2.callerRole = some .superAdmin :=
  (no_escalation (.step (registering (.str "4")) .init)
    (fun e he id hid => by
      rw [List.mem_singleton.1 he] at hid
      obtain rfl := Option.some.inj hid
      rfl)
    (fun e he _ heq => by
      rw [List.mem_singleton.1 he] at heq
      cases heq)).1 _ List.mem_cons_self

end

end VetHealth
