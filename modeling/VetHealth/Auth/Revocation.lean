import VetHealth.Auth.Runs

/-!
# VetHealth.Auth.Revocation

**Which sessions a request revokes.** `SessionService.softDelete` serves three callers, and
builds its criteria from an optional id, user and excluded id; a value that is missing widens
the deletion. `live_softDeleteSessions` says which sessions survive for every combination of the
three, and `revokes_exactly` what that means for a password change, a confirmation and a logout
that are executed alone.

A confirmation is the one caller that gives neither an id nor an excluded one, so its criteria hold
an `undefined` id. It revokes the sessions of the user if the ORM leaves that criterion out, and no
session at all otherwise (`confirm_revokes`).
-/

namespace VetHealth

open Js Store Resumption

namespace Database

/-- The session is stored and not deleted: a request that presents its token can find it. -/
def live (db : Database) (session : SessionEntity) : Prop :=
  session ∈ db.sessions ∧ session.deletedAt = false

/-- Nothing but the user `id` and the sessions of that user may differ: what revokes for one user
leaves the others in peace. -/
def sparesOthers (db db' : Database) (id : Uuid) : Prop :=
  (∀ k, k ≠ id → db'.users.get k = db.users.get k) ∧
    ∀ session : SessionEntity, session.userId ≠ id → (session ∈ db'.sessions ↔ session ∈ db.sessions)

variable [Typeorm] {db : Database} {id user excludeId : Option Uuid} {session : SessionEntity}

/-- A session that the criteria do not select is untouched. -/
theorem mem_softDeleteSessions (h : sessionCriteria id user excludeId session = false) :
    session ∈ (db.softDeleteSessions id user excludeId).sessions ↔ session ∈ db.sessions := by
  constructor
  · intro hmem
    obtain ⟨row, hrow, hedit⟩ := Table.mem_modify.1 hmem
    cases hcriteria : sessionCriteria id user excludeId row with
    | false =>
        rw [hcriteria, if_neg Bool.false_ne_true] at hedit
        exact hedit ▸ hrow
    | true =>
        -- the criteria look at no column that the deletion writes
        rw [hcriteria, if_pos rfl] at hedit
        have hsame : sessionCriteria id user excludeId session = true := by
          rw [← hedit, ← hcriteria]
          exact sessionCriteria_congr rfl rfl
        rw [h] at hsame
        cases hsame
  · intro hmem
    refine Table.mem_modify.2 ⟨session, hmem, ?_⟩
    rw [h, if_neg Bool.false_ne_true]

/-- **The sessions that stay live** are the live ones that the criteria do not select. -/
theorem live_softDeleteSessions :
    (db.softDeleteSessions id user excludeId).live session ↔
      db.live session ∧ sessionCriteria id user excludeId session = false := by
  constructor
  · intro ⟨hmem, hlive⟩
    cases hcriteria : sessionCriteria id user excludeId session with
    | false => exact ⟨⟨(mem_softDeleteSessions hcriteria).1 hmem, hlive⟩, rfl⟩
    | true =>
        obtain ⟨row, -, hedit⟩ := Table.mem_modify.1 hmem
        -- A row that the criteria select is marked, and therefore not the live one.
        cases hrow : sessionCriteria id user excludeId row with
        | true =>
            rw [hrow, if_pos rfl] at hedit
            rw [← hedit] at hlive
            cases hlive
        | false =>
            rw [hrow, if_neg Bool.false_ne_true] at hedit
            rw [hedit, hcriteria] at hrow
            cases hrow
  · intro ⟨⟨hmem, hlive⟩, hcriteria⟩
    exact ⟨(mem_softDeleteSessions hcriteria).2 hmem, hlive⟩

end Database

section

variable [Scrypt] [Typeorm]

/-- A password change revokes the caller's other sessions. The criteria name an id to spare, so they
are the same for every ORM. -/
theorem changePassword_revokes {a : Ambient} {db db' : Database} {caller : JwtPayload}
    {dto : AuthChangePasswordDto}
    (h : (AuthService.changePassword a caller dto).run db = (.ok (), db')) :
    (∀ session, db'.live session ↔
      db.live session ∧ (session.userId ≠ caller.id ∨ session.id = caller.sessionId)) ∧
    db.sparesOthers db' caller.id := by
  rw [AuthService.run_changePassword] at h
  cases hcheck : AuthService.checkChange dto (db.loadUser caller.id) with
  | error e => rw [hcheck] at h; cases h
  | ok user =>
      rw [hcheck] at h
      dsimp only at h
      cases hupdate : db.updateUser caller.id (AuthService.changePatch a dto.password) with
      | error e => rw [hupdate] at h; cases h
      | ok written =>
          rw [hupdate, Prod.mk.injEq] at h
          obtain ⟨hsessions, -, hsave⟩ := Database.updateUser_eq_ok hupdate
          rw [← h.2]
          refine ⟨fun session => ?_, fun k hk => ?_, fun session hsession => ?_⟩
          · rw [Database.live_softDeleteSessions, Database.sessionCriteria_user_except,
              Database.live, Database.live, hsessions]
          · exact UsersRepository.get_save_ne hsave hk
          · rw [Database.mem_softDeleteSessions
              ((Database.sessionCriteria_user_except _ _).2 (Or.inl hsession)), hsessions]

/-- A confirmation revokes every session of the user whose token it uses, if the ORM leaves the
undefined id out of the criteria. If it does not, all sessions stay live. -/
theorem confirm_revokes {a : Ambient} {db db' : Database} {dto : AuthConfirmDto} {message : String}
    (h : (AuthService.confirm a dto).run db = (.ok message, db')) :
    ∃ confirm user, db.confirm dto.hash = some (confirm, some user) ∧
      (∀ session, db'.live session ↔
        db.live session ∧ (Typeorm.ignoresUndefined = true → session.userId ≠ user.id)) ∧
      db.sparesOthers db' user.id := by
  rw [AuthService.run_confirm] at h
  rcases hconfirm : db.confirm dto.hash with _ | ⟨confirm, user⟩
  · rw [hconfirm] at h; cases h
  · rw [hconfirm] at h
    dsimp only at h
    by_cases hexpired : confirm.expiresIn < a.now
    · rw [if_pos hexpired] at h; cases h
    · rw [if_neg hexpired] at h
      cases user with
      | none => cases h
      | some user =>
          dsimp only at h
          cases hupdate : (db.softDeleteSessions none (some user.id) none).updateUser user.id
              (AuthService.confirmPatch a dto.password) with
          | error e => rw [hupdate] at h; cases h
          | ok written =>
              rw [hupdate, Prod.mk.injEq] at h
              obtain ⟨hsessions, -, hsave⟩ := Database.updateUser_eq_ok hupdate
              rw [← h.2]
              refine ⟨confirm, user, rfl, fun session => ?_, fun k hk => ?_,
                fun session hsession => ?_⟩
              · -- the write of the user and the deletion of the token touch no session
                have hlive : (written.deleteConfirm confirm.id).live session ↔
                    (db.softDeleteSessions none (some user.id) none).live session := by
                  rw [Database.live, Database.live, ← hsessions]
                  rfl
                rw [hlive, Database.live_softDeleteSessions, Database.sessionCriteria_user]
              · exact UsersRepository.get_save_ne hsave hk
              · show session ∈ written.sessions ↔ _
                rw [hsessions, Database.mem_softDeleteSessions
                  ((Database.sessionCriteria_user _).2 fun _ => hsession)]

/-- With an ORM that leaves the undefined id out, no session of the user stays live. -/
theorem confirm_revokes_all (horm : Typeorm.ignoresUndefined = true) {a : Ambient}
    {db db' : Database} {dto : AuthConfirmDto} {message : String}
    (h : (AuthService.confirm a dto).run db = (.ok message, db')) :
    ∃ confirm user, db.confirm dto.hash = some (confirm, some user) ∧
      (∀ session, db'.live session ↔ db.live session ∧ session.userId ≠ user.id) ∧
      db.sparesOthers db' user.id := by
  obtain ⟨confirm, user, hconfirm, hlive, hspares⟩ := confirm_revokes h
  refine ⟨confirm, user, hconfirm, fun session => ?_, hspares⟩
  rw [hlive, forall_prop_of_true horm]

omit [Scrypt] in
/-- A logout revokes the one session of its token. The criteria name its id. -/
theorem logout_revokes {db db' : Database} {sessionId : Uuid}
    (h : (AuthService.logout sessionId).run db = (.ok (), db')) :
    (∀ session, db'.live session ↔ db.live session ∧ session.id ≠ sessionId) ∧
      db'.users = db.users ∧
      ∀ session : SessionEntity, session.id ≠ sessionId →
        (session ∈ db'.sessions ↔ session ∈ db.sessions) := by
  rw [AuthService.logout, run_execute, Prod.mk.injEq] at h
  rw [← h.2]
  refine ⟨fun session => ?_, rfl, fun session hsession => ?_⟩
  · rw [Database.live_softDeleteSessions, Database.sessionCriteria_id]
  · exact Database.mem_softDeleteSessions ((Database.sessionCriteria_id _).2 hsession)

/-- **Revocation hits exactly its target**, with an ORM that leaves undefined criteria out. -/
theorem revokes_exactly (horm : Typeorm.ignoresUndefined = true) (a : Ambient) (db db' : Database) :
    (∀ caller dto, (AuthService.changePassword a caller dto).run db = (.ok (), db') →
      (∀ session, db'.live session ↔
        db.live session ∧ (session.userId ≠ caller.id ∨ session.id = caller.sessionId)) ∧
      db.sparesOthers db' caller.id) ∧
    (∀ dto message, (AuthService.confirm a dto).run db = (.ok message, db') →
      ∃ confirm user, db.confirm dto.hash = some (confirm, some user) ∧
        (∀ session, db'.live session ↔ db.live session ∧ session.userId ≠ user.id) ∧
        db.sparesOthers db' user.id) ∧
    (∀ sessionId, (AuthService.logout sessionId).run db = (.ok (), db') →
      (∀ session, db'.live session ↔ db.live session ∧ session.id ≠ sessionId) ∧
      db'.users = db.users ∧
      ∀ session : SessionEntity, session.id ≠ sessionId →
        (session ∈ db'.sessions ↔ session ∈ db.sessions)) :=
  ⟨fun _ _ => changePassword_revokes, fun _ _ => confirm_revokes_all horm, fun _ => logout_revokes⟩

end

section

attribute [local instance] spelledKey Typeorm.ignoring

/-- The author changes the password from the phone, or resets it, or logs the phone out. -/
theorem author_revokes :
    let phone : Uuid := ⟨"phone", phone_nonempty⟩
    (∃ db' : Database, ∀ session, db'.live session ↔
      desk.live session ∧ (session.userId ≠ author.id ∨ session.id = phone)) ∧
    (∃ (db' : Database) (confirm : ConfirmEntity) (user : UserEntity), desk.confirm "c1" = some (confirm, some user) ∧
      (∀ session, db'.live session ↔ desk.live session ∧ session.userId ≠ user.id) ∧
      desk.sparesOthers db' user.id) ∧
    (desk.softDeleteSessions (some phone) none none).users = desk.users :=
  ⟨⟨_, ((revokes_exactly rfl (drawing "n" (by decide)) desk _).1
      ⟨author.id, none, ⟨"phone", phone_nonempty⟩⟩ ⟨"Secret-2", "Secret-1"⟩ rfl).1⟩,
    ⟨_, (revokes_exactly rfl (drawing "n" (by decide)) desk _).2.1 ⟨"c1", "Secret-2"⟩ _ rfl⟩,
    ((revokes_exactly rfl (drawing "n" (by decide)) desk _).2.2 ⟨"phone", phone_nonempty⟩ rfl).2.1⟩

end

end VetHealth
