import VetHealth.Content.Tables
import VetHealth.Database.Seeds

/-!
# VetHealth.Database.Installation

**A new installation.** On an empty database the seeds leave one row for each constructor of the
enumerations that stand for roles and statuses everywhere else in the backend, and one user, who can
sign in with the configured password.

`new_installation` says so for any number of runs at the same time, and that another run repairs
whatever runs that stopped have left.
-/

namespace VetHealth

open Js Store Resumption Transition

/-- Every table is as the seeds leave it: the names as they stand in the source, and the
administrator of the configuration alone among the users. -/
structure Installed [Scrypt] (config : AdminConfig) (db : SeedDatabase) : Prop where
  roles : db.roles.rows = RoleSeedService.rows
  topicStatuses : db.topicStatuses.rows = TopicStatusSeedService.rows
  userStatuses : db.userStatuses.rows = UserStatusSeedService.rows
  postStatuses : db.postStatuses.rows = PostStatusSeedService.rows
  users : ∃ a, db.users.rows = [UserSeedService.admin config a]

/-- Every constructor of the enumerations has its row. The rest of the development speaks of the
enumerations only; this is what entitles it to. -/
structure SeedDatabase.Represents (db : SeedDatabase) : Prop where
  roles : ∀ role : RoleEnum, ∃ row ∈ db.roles, row.id = role.id
  topicStatuses : ∀ status : TopicStatusEnum, ∃ row ∈ db.topicStatuses, row.name = status.name
  userStatuses : ∀ status : UserStatusEnum, ∃ row ∈ db.userStatuses, row.id = status.id
  postStatuses : ∀ status : PostStatusEnum, ⟨status.id, status.name⟩ ∈ db.postStatuses

section

variable [Scrypt] {config : AdminConfig} {db : SeedDatabase}

theorem Installed.represents (h : Installed config db) : db.Represents where
  roles role := by
    have hrows : ∃ row ∈ RoleSeedService.rows, row.id = role.id := by cases role <;> decide
    rwa [← h.roles] at hrows
  topicStatuses status := by
    have hrows : ∃ row ∈ TopicStatusSeedService.rows, row.name = status.name := by
      cases status <;> decide
    rwa [← h.topicStatuses] at hrows
  userStatuses status := by
    have hrows : ∃ row ∈ UserStatusSeedService.rows, row.id = status.id := by cases status <;> decide
    rwa [← h.userStatuses] at hrows
  postStatuses status := by
    have hrows : ⟨status.id, status.name⟩ ∈ PostStatusSeedService.rows := by cases status <;> decide
    rwa [← h.postStatuses] at hrows

omit [Scrypt] in
/-- What runs make of an empty table of names: it is empty still, or has the rows of the seed, in
their order. -/
theorem rows_of_fills {κ : Type} {rows : List (NamedRow κ)} {table table' : NamesTable κ}
    (h : NamesTable.Fills rows table table') (hempty : table.rows = []) :
    table'.rows = [] ∨ table'.rows = rows := by
  rcases h with rfl | ⟨-, hrows⟩
  · exact Or.inl hempty
  · exact Or.inr hrows

/-- What runs make of an empty table of users: it is empty still, or has the administrator alone,
with the salt that some run has drawn. -/
theorem users_of_employs {users users' : UsersTable}
    (h : UserSeedService.Employs config users users') (hempty : users.rows = []) :
    users'.rows = [] ∨ ∃ a, users'.rows = [UserSeedService.admin config a] := by
  rcases h with rfl | ⟨-, a, hinsert⟩
  · exact Or.inl hempty
  · refine Or.inr ⟨a, ?_⟩
    unfold UsersRepository.insert Repository.insert at hinsert
    split at hinsert
    · cases hinsert
    · next table htable =>
        split at hinsert
        · obtain rfl := Except.ok.inj hinsert
          rw [(Table.insert_eq_some htable).1, hempty, List.nil_append]
        · cases hinsert

/-- A new installation on which nothing is left to do. `Advances` says what may have been written,
`Complete` that it has been. -/
theorem installed_of_complete (h : Advances config .emptied db) (hcomplete : Complete db) :
    Installed config db := by
  refine ⟨?_, ?_, ?_, ?_, ?_⟩
  · exact (rows_of_fills h.roles rfl).resolve_left hcomplete.roles
  · exact (rows_of_fills h.topicStatuses rfl).resolve_left hcomplete.topicStatuses
  · exact (rows_of_fills h.userStatuses rfl).resolve_left hcomplete.userStatuses
  · exact (rows_of_fills h.postStatuses rfl).resolve_left hcomplete.postStatuses
  · refine (users_of_employs h.users rfl).resolve_left fun hempty => hcomplete.admin ?_
    rw [UserSeedService.countAdmin, hempty]
    rfl

/-- What is there on a new installation, before a run has ended or after. No two administrators,
however many runs have counted none. -/
theorem users_of_advances (h : Advances config .emptied db) :
    db.users.rows = [] ∨ ∃ a, db.users.rows = [UserSeedService.admin config a] :=
  users_of_employs h.users rfl

omit [Scrypt] in
/-- The row with an id of a table that has the rows of its seed. -/
theorem isSome_of_filled {κ : Type} [DecidableEq κ] {rows : List (NamedRow κ)}
    {table : NamesTable κ} (h : NamesTable.Fills rows (.empty : NamesTable κ) table)
    (hfilled : table.rows ≠ []) {row : NamedRow κ} (hrow : row ∈ rows) :
    (table.get row.id).isSome := by
  have hrows := (rows_of_fills h rfl).resolve_left hfilled
  refine Option.isSome_iff_exists.2 ⟨row, Table.get_eq_some.2 ⟨?_, rfl⟩⟩
  rw [Table.mem_def, hrows]
  exact hrow

/-- One more run, when no other one is active, leaves the installation complete, whatever the runs
before it have left undone. -/
theorem run_runSeed_of_advances (h : Advances config .emptied db) (a : SeedAmbient) :
    ∃ db', (runSeed config a).run db = (.ok (), db') ∧ Installed config db' := by
  have hsaves : ∀ db', Advances config db db' → RoleSeedService.part.Filled db' →
      UserStatusSeedService.part.Filled db' → UserSeedService.countAdmin db'.users = 0 →
        ∃ db'', UserSeedService.saveAdmin config a db' = .ok db'' := by
    intro db' hadvances hroles hstatuses hzero
    have hall := h.trans hadvances
    have hempty : db'.users.rows = [] := by
      refine (users_of_advances hall).resolve_right ?_
      rintro ⟨b, hrows⟩
      rw [UserSeedService.countAdmin, hrows] at hzero
      simp [UserSeedService.admin] at hzero
    refine UserSeedService.exists_saveAdmin ?_ ?_ ?_ ?_
    · exact isSome_of_filled hall.roles hroles List.mem_cons_self
    · exact isSome_of_filled hall.userStatuses hstatuses List.mem_cons_self
    · rintro ⟨user, huser, -⟩
      rw [Table.mem_def, hempty] at huser
      cases huser
    · rw [Table.get_eq_none]
      intro user huser
      rw [Table.mem_def, hempty] at huser
      cases huser
  obtain ⟨db', hrun, hadvances, hcomplete⟩ := run_runSeed hsaves
  exact ⟨db', hrun, installed_of_complete (h.trans hadvances) hcomplete⟩

/-! ### The first login -/

/-- The administrator signs in with the configured address and password, and is answered with a
token of the highest role. An empty password has not been hashed, and comparing with it throws. -/
def SignsIn (config : AdminConfig) (a : Ambient) (db : Database) : Prop :=
  if config.adminPassword = "" then
    (AuthService.validateLogin a ⟨config.adminEmail, config.adminPassword⟩).run db =
      (.error (.internal .typeError), db)
  else
    ∃ response db', (AuthService.validateLogin a ⟨config.adminEmail, config.adminPassword⟩).run db =
      (.ok response, db') ∧ response.token.role = some .superAdmin ∧
        db'.sessions.get a.rowId = some ⟨a.rowId, response.token.id, a.hash, false⟩

/-- What is compared at the first login: the password of the configuration and the hash that the
hook of the entity has stored, which is of the password unless that is empty. -/
theorem comparePassword_admin (b : SeedAmbient) :
    comparePassword config.adminPassword (UserSeedService.admin config b).password =
      if config.adminPassword = "" then .error (.internal .typeError) else .ok true := by
  unfold UserSeedService.admin UserObject.create UserObject.setPassword
  by_cases hempty : config.adminPassword = ""
  · simp only [hempty, ne_eq, reduceCtorEq, not_false_eq_true, not_true_eq_false, and_false,
      if_false, if_true]
    rfl
  · simp only [hempty, ne_eq, reduceCtorEq, not_false_eq_true, and_true, if_true, if_false]
    rw [comparePassword_hashPassword, decide_eq_true rfl]

theorem Installed.signsIn (h : Installed config db) {a : Ambient} {authDb : Database}
    (husers : authDb.users = db.users) (hsigned : a.signed = true)
    (hfree : authDb.sessions.get a.rowId = none) : SignsIn config a authDb := by
  obtain ⟨b, hrows⟩ := h.users
  have hfound : authDb.userByEmail config.adminEmail = some (UserSeedService.admin config b) := by
    rw [Database.userByEmail, husers, Table.find, hrows]
    simp [UserSeedService.admin]
  have hcompare := @comparePassword_admin _ config b
  unfold SignsIn
  -- Without a password in the configuration no hash is stored, and the comparison throws.
  by_cases hempty : config.adminPassword = ""
  · rw [if_pos hempty] at hcompare ⊢
    rw [AuthService.run_validateLogin]
    dsimp only
    rw [hfound, AuthService.checkLogin]
    simp only [UserSeedService.admin] at hcompare ⊢
    rw [if_pos (by decide), hcompare]
    rfl
  · rw [if_neg hempty] at hcompare ⊢
    have hcheck : AuthService.checkLogin ⟨config.adminEmail, config.adminPassword⟩
        (authDb.userByEmail config.adminEmail) = .ok (UserSeedService.admin config b) :=
      checkLogin_eq_ok.2 ⟨hfound, hcompare, .active, rfl, by decide⟩
    obtain ⟨db', hinsert⟩ : ∃ db', authDb.insertSession
        ⟨a.rowId, (UserSeedService.admin config b).id, a.hash, false⟩ = .ok db' :=
      Database.exists_insertSession.2 hfree
    have hget := (Database.insertSession_eq_ok hinsert).2.2.2 a.rowId
    rw [if_pos rfl] at hget
    rw [AuthService.run_validateLogin]
    dsimp only
    rw [hcheck]
    dsimp only
    rw [hinsert, AuthService.getTokensData, if_pos hsigned]
    exact ⟨_, db', rfl, rfl, hget⟩

/-! ### Runs on a new installation -/

variable {ι : Type} [DecidableEq ι] {draws : ι → SeedAmbient}
  {past : List (Entry (Pool ι SeedDatabase Failure Unit) ι Unit)}
  {N : Pool ι SeedDatabase Failure Unit}

/-- **A new installation.** Whatever runs of the seeds on an empty database have done, in every
interleaving and wherever they stopped, one more run on its own ends well; and once a run has ended
well, every constructor of the enumerations has its row, and the one user there is can sign in, unless
the configured password is empty. -/
theorem new_installation (h : Pool.machine.Reach (seeding config .emptied draws) past N) :
    (∀ b, ∃ db', (runSeed config b).run N.shared = (.ok (), db') ∧ Installed config db') ∧
      ∀ i, N.task i = .done (.ok ()) → Installed config N.shared ∧ N.shared.Represents ∧
        ∀ (a : Ambient) (authDb : Database), authDb.users = N.shared.users → a.signed = true →
          authDb.sessions.get a.rowId = none → SignsIn config a authDb := by
  obtain ⟨hadvances, hended⟩ := seeding_advances h
  refine ⟨run_runSeed_of_advances hadvances, fun i hdone => ?_⟩
  have hinstalled := installed_of_complete hadvances ((hended i _ hdone).1 rfl)
  exact ⟨hinstalled, hinstalled.represents, fun a authDb husers hsigned hfree =>
    hinstalled.signsIn husers hsigned hfree⟩

end

section

attribute [local instance] spelledKey

/-- After the two runs the administrator signs in, where nobody has signed in before. -/
theorem two_seeds_installed :
    let N := (Pool.machine.run twoSeeds seedsSchedule).2
    let authDb : Database := { desk with users := N.shared.users, sessions := .empty }
    ∃ response db', (AuthService.validateLogin (drawing "first" (by decide))
        ⟨"admin@vethealth.test", "Secret-1"⟩).run authDb = (.ok response, db') ∧
      response.token.role = some .superAdmin := by
  intro N authDb
  have hreach := Pool.machine.reach_run twoSeeds seedsSchedule
  obtain ⟨response, db', hrun, hrole, -⟩ :=
    ((new_installation hreach).2 0 rfl).2.2 (drawing "first" (by decide)) authDb rfl rfl rfl
  exact ⟨response, db', hrun, hrole⟩

end

end VetHealth
