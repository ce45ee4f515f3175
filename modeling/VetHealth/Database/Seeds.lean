import VetHealth.Auth.LoginFailures
import VetHealth.Lib.Guarantee

/-!
# VetHealth.Database.Seeds

**Seeding the database.** `run-seed.ts` fills the tables of roles and statuses and creates the first
administrator. Each seed counts before it saves, and nothing keeps another process that runs the
seeds at the same time from saving in between.

What every run keeps to, whatever the others do (`Advances`): a table of names is left alone, or it
was empty and gets all its rows in one transaction; the users are left alone, or there was no
administrator and one is created. The specification of each seed is in these terms, and
`seeds_converge` puts them together for any number of runs, each of which may stop anywhere.
-/

namespace VetHealth

open Js Store Resumption Transition

/-- A row of `roles` or of a table of statuses: its id, which the enumerations of the source fix,
and its name. -/
structure NamedRow (κ : Type) where
  id : κ
  name : String
  deriving DecidableEq

abbrev NamesTable (κ : Type) := Table fun row : NamedRow κ => row.id

/-- The tables that the seeds read and write. -/
structure SeedDatabase where
  roles : NamesTable String
  topicStatuses : NamesTable Int
  userStatuses : NamesTable Int
  postStatuses : NamesTable Int
  users : UsersTable

/-- The database before the first run. -/
def SeedDatabase.emptied : SeedDatabase := ⟨.empty, .empty, .empty, .empty, .empty⟩

/-- One of the tables of names. -/
structure NamesPart (κ : Type) where
  get : SeedDatabase → NamesTable κ
  set : NamesTable κ → SeedDatabase → SeedDatabase

namespace NamesTable

variable {κ : Type} [DecidableEq κ]

/-- One entity of a `save`: it is inserted when it was not found, and updated when it differs. An id
that has been taken meanwhile makes the insert fail. -/
def saveRow (table : NamesTable κ) (row : NamedRow κ) (found : Option (NamedRow κ)) :
    Option (NamesTable κ) :=
  match found with
  | none => table.insert row
  | some stored =>
      some <| if stored = row then table
        else table.modify (fun other => other.id = row.id)
          ⟨fun other => { other with name := row.name }, fun _ => rfl⟩

/-- The transaction of a `save`, with what was found for each row before it began. Any failure rolls
all of it back, so that the rows are there together or not at all. -/
def saveAll (table : NamesTable κ) (loaded : List (NamedRow κ × Option (NamedRow κ))) :
    Option (NamesTable κ) :=
  loaded.foldlM (fun table entry => table.saveRow entry.1 entry.2) table

end NamesTable

/-! ### The seeds -/

/-- `if (!count) save([...])`, for a table of names. The count, the loading and the transaction are
statements of their own, between which other runs may write. -/
def seedNames {κ : Type} [DecidableEq κ] (part : NamesPart κ) (rows : List (NamedRow κ)) :
    Prog SeedDatabase Failure Unit := do
  let count ← Prog.atomic fun db => (.ok (part.get db).rows.length, db)
  if count = 0 then
    let loaded ← Prog.atomic fun db =>
      (.ok (rows.map fun row => (row, (part.get db).get row.id)), db)
    Prog.atomic fun db =>
      match (part.get db).saveAll loaded with
      | none => (.error (.internal .queryFailed), db)
      | some table => (.ok (), part.set table db)

namespace RoleSeedService

def rows : List (NamedRow String) :=
  [⟨RoleEnum.superAdmin.id, "Super Administrator"⟩, ⟨RoleEnum.admin.id, "Administrator"⟩,
    ⟨RoleEnum.moder.id, "Moderator"⟩, ⟨RoleEnum.writer.id, "Writer"⟩]

def part : NamesPart String := ⟨SeedDatabase.roles, fun roles db => { db with roles }⟩

def run : Prog SeedDatabase Failure Unit := seedNames part rows

end RoleSeedService

namespace TopicStatusSeedService

def rows : List (NamedRow Int) := [⟨1, "Active"⟩, ⟨2, "Inactive"⟩]

def part : NamesPart Int :=
  ⟨SeedDatabase.topicStatuses, fun topicStatuses db => { db with topicStatuses }⟩

def run : Prog SeedDatabase Failure Unit := seedNames part rows

end TopicStatusSeedService

namespace UserStatusSeedService

def rows : List (NamedRow Int) :=
  [⟨UserStatusEnum.active.id, "Active"⟩, ⟨UserStatusEnum.pending.id, "Pending"⟩,
    ⟨UserStatusEnum.blocked.id, "Blocked"⟩]

def part : NamesPart Int :=
  ⟨SeedDatabase.userStatuses, fun userStatuses db => { db with userStatuses }⟩

def run : Prog SeedDatabase Failure Unit := seedNames part rows

end UserStatusSeedService

namespace PostStatusSeedService

def rows : List (NamedRow Int) :=
  [⟨PostStatusEnum.published.id, "Published"⟩, ⟨PostStatusEnum.draft.id, "Draft"⟩,
    ⟨PostStatusEnum.onReview.id, "OnReview"⟩]

def part : NamesPart Int :=
  ⟨SeedDatabase.postStatuses, fun postStatuses db => { db with postStatuses }⟩

def run : Prog SeedDatabase Failure Unit := seedNames part rows

end PostStatusSeedService

/-- The configuration of the first administrator: `ADMIN_NAME`, `ADMIN_EMAIL`, `ADMIN_PASSWORD`. -/
structure AdminConfig where
  adminName : String
  adminEmail : String
  adminPassword : String

/-- What a run draws: the id of the user that it may insert, and the salt of the password. -/
structure SeedAmbient where
  userId : Uuid
  salt : Vector UInt8 16

namespace UserSeedService

/-- `count({ where: { role: { id: RoleEnum.SuperAdmin } } })`. -/
def countAdmin (users : UsersTable) : Nat :=
  users.rows.countP fun user => user.role = some .superAdmin && !user.deletedAt

variable [Scrypt] (config : AdminConfig) (a : SeedAmbient)

/-- The administrator, with the password as the hook of the entity stores it. -/
def admin : UserEntity where
  id := a.userId
  firstname := config.adminName
  lastname := none
  email := config.adminEmail
  password := ((UserObject.create (some config.adminPassword)).setPassword a.salt).password
  role := some .superAdmin
  status := some .active
  topics := []
  deletedAt := false

/-- `save` of the administrator: the rows that it refers to have to be there, and the address must
be free. -/
def saveAdmin (db : SeedDatabase) : Except Failure SeedDatabase :=
  if (db.roles.get RoleEnum.superAdmin.id).isSome ∧
      (db.userStatuses.get UserStatusEnum.active.id).isSome then
    (UsersRepository.insert db.users (admin config a)).map fun users => { db with users }
  else .error (.internal .queryFailed)

def run : Prog SeedDatabase Failure Unit := do
  let countAdmin ← Prog.atomic fun db => (.ok (countAdmin db.users), db)
  if countAdmin = 0 then
    Prog.atomic fun db =>
      match saveAdmin config a db with
      | .error failure => (.error failure, db)
      | .ok db' => (.ok (), db')

end UserSeedService

/-- `run-seed.ts`: the seeds one after the other, the first failure ends the run. -/
def runSeed [Scrypt] (config : AdminConfig) (a : SeedAmbient) : Prog SeedDatabase Failure Unit := do
  RoleSeedService.run
  TopicStatusSeedService.run
  UserStatusSeedService.run
  PostStatusSeedService.run
  UserSeedService.run config a

/-! ### What a run does to a table of names -/

namespace NamesTable

variable {κ : Type} {rows : List (NamedRow κ)} {table table' table'' : NamesTable κ}

/-- The table is left alone, or it was empty and has the rows of the seed now. Unlike the statements
of a seed, this composes: whatever several runs have done to a table is one of the two. -/
def Fills (rows : List (NamedRow κ)) (table table' : NamesTable κ) : Prop :=
  table' = table ∨ table.rows = [] ∧ table'.rows = rows

theorem Fills.refl (table : NamesTable κ) : Fills rows table table := Or.inl rfl

theorem Fills.trans (h : Fills rows table table') (h' : Fills rows table' table'') :
    Fills rows table table'' := by
  rcases h' with rfl | ⟨hempty, hfull⟩
  · exact h
  · rcases h with rfl | ⟨hempty', -⟩
    · exact Or.inr ⟨hempty, hfull⟩
    · exact Or.inr ⟨hempty', hfull⟩

/-- A table that has rows keeps what it has. -/
theorem Fills.eq_of_ne_nil (h : Fills rows table table') (hne : table.rows ≠ []) : table' = table :=
  h.resolve_right fun hempty => hne hempty.1

variable [DecidableEq κ]

/-- A row that is found as it is to be is not written. -/
theorem saveAll_found (table : NamesTable κ) (rows : List (NamedRow κ)) :
    table.saveAll (rows.map fun row => (row, some row)) = some table := by
  induction rows with
  | nil => rfl
  | cons row rows ih =>
      rw [List.map_cons, saveAll, List.foldlM_cons]
      simp only [saveRow, if_true, Option.bind_eq_bind, Option.bind_some]
      exact ih

/-- New rows are all inserted. -/
theorem saveAll_new (h : ((table.rows ++ rows).map NamedRow.id).Nodup) :
    ∃ table', table.saveAll (rows.map fun row => (row, none)) = some table' ∧
      table'.rows = table.rows ++ rows := by
  induction rows generalizing table with
  | nil => exact ⟨table, rfl, (List.append_nil _).symm⟩
  | cons row rows ih =>
      have hfree : table.get row.id = none := by
        rw [Table.get_eq_none]
        intro other hother heq
        rw [List.map_append, List.map_cons] at h
        exact List.disjoint_of_nodup_append h (List.mem_map_of_mem hother) (heq ▸ List.mem_cons_self)
      obtain ⟨next, hinsert⟩ := Table.exists_insert.2 hfree
      have hnext := (Table.insert_eq_some hinsert).1
      obtain ⟨table', hsave, hrows⟩ := @ih next (by rwa [hnext, List.append_assoc])
      refine ⟨table', ?_, by rw [hrows, hnext, List.append_assoc, List.singleton_append]⟩
      rw [List.map_cons, saveAll, List.foldlM_cons]
      simp only [saveRow, hinsert, Option.bind_eq_bind, Option.bind_some]
      exact hsave

/-- When the first of them is there already, none of them is. The loser of two seeds fails here, and
has written nothing. -/
theorem saveAll_taken {row : NamedRow κ} (h : row ∈ table) :
    table.saveAll ((row :: rows).map fun row => (row, none)) = none := by
  have hinsert : table.insert row = none := by
    rw [Option.eq_none_iff_forall_not_mem]
    intro next hnext
    exact (Table.insert_eq_some hnext).2 row h rfl
  rw [List.map_cons, saveAll, List.foldlM_cons]
  simp only [saveRow, hinsert, Option.bind_eq_bind, Option.bind_none]

end NamesTable

/-! ### The promise of a run -/

namespace UserSeedService

variable [Scrypt] {config : AdminConfig} {users users' users'' : UsersTable}

/-- The users are left alone, or there was no administrator and one is created. For the same reason
as `Fills` this composes: a second administrator is never created. -/
def Employs (config : AdminConfig) (users users' : UsersTable) : Prop :=
  users' = users ∨ countAdmin users = 0 ∧
    ∃ a, UsersRepository.insert users (admin config a) = .ok users'

/-- The administrator counts, so that no later seed creates another one. -/
theorem countAdmin_insert {a : SeedAmbient}
    (h : UsersRepository.insert users (admin config a) = .ok users') : countAdmin users' ≠ 0 := by
  have hget := UsersRepository.get_insert h (admin config a).id
  rw [if_pos rfl] at hget
  refine Nat.ne_of_gt (List.countP_pos_iff.2 ⟨_, (Table.get_eq_some.1 hget).1, ?_⟩)
  simp [admin]

theorem Employs.refl (users : UsersTable) : Employs config users users := Or.inl rfl

theorem Employs.eq_of_ne_zero (h : Employs config users users') (hne : countAdmin users ≠ 0) :
    users' = users := h.resolve_right fun hcount => hne hcount.1

theorem Employs.trans (h : Employs config users users') (h' : Employs config users' users'') :
    Employs config users users'' := by
  rcases h with rfl | ⟨hzero, a, hinsert⟩
  · exact h'
  · obtain rfl := h'.eq_of_ne_zero (countAdmin_insert hinsert)
    exact Or.inr ⟨hzero, a, hinsert⟩

end UserSeedService

/-- **What runs of the seeds may do.** Every statement of every run keeps to it, and it is
transitive, so that it is also what any number of runs have done. -/
structure Advances [Scrypt] (config : AdminConfig) (db db' : SeedDatabase) : Prop where
  roles : NamesTable.Fills RoleSeedService.rows db.roles db'.roles
  topicStatuses : NamesTable.Fills TopicStatusSeedService.rows db.topicStatuses db'.topicStatuses
  userStatuses : NamesTable.Fills UserStatusSeedService.rows db.userStatuses db'.userStatuses
  postStatuses : NamesTable.Fills PostStatusSeedService.rows db.postStatuses db'.postStatuses
  users : UserSeedService.Employs config db.users db'.users

namespace Advances

variable [Scrypt] {config : AdminConfig} {db db' db'' : SeedDatabase}

theorem refl (db : SeedDatabase) : Advances config db db := ⟨.refl _, .refl _, .refl _, .refl _, .refl _⟩

theorem trans (h : Advances config db db') (h' : Advances config db' db'') :
    Advances config db db'' where
  roles := h.roles.trans h'.roles
  topicStatuses := h.topicStatuses.trans h'.topicStatuses
  userStatuses := h.userStatuses.trans h'.userStatuses
  postStatuses := h.postStatuses.trans h'.postStatuses
  users := h.users.trans h'.users

end Advances

/-! ### The specification of a seed -/

/-- A table of names among the tables, with the rows of its seed. -/
structure NamesPart.Seeded [Scrypt] {κ : Type} [DecidableEq κ] (config : AdminConfig)
    (part : NamesPart κ) (rows : List (NamedRow κ)) : Prop where
  get_set : ∀ db table, part.get (part.set table db) = table
  advances : ∀ db table, NamesTable.Fills rows (part.get db) table →
    Advances config db (part.set table db)
  fills : ∀ db db', Advances config db db' → NamesTable.Fills rows (part.get db) (part.get db')
  nodup : (rows.map NamedRow.id).Nodup
  rows_ne : rows ≠ []

namespace NamesPart

variable [Scrypt] {κ : Type} [DecidableEq κ] {config : AdminConfig} {part : NamesPart κ}
  {rows : List (NamedRow κ)}

/-- The table has rows. -/
def Filled (part : NamesPart κ) (db : SeedDatabase) : Prop := (part.get db).rows ≠ []

theorem Seeded.stable_filled (h : part.Seeded config rows) : Stable (Advances config) part.Filled := by
  intro db db' hfilled hadvances
  rw [Filled, (h.fills _ _ hadvances).eq_of_ne_nil hfilled]
  exact hfilled

/-- The table is empty still, or has the rows of the seed. No statement of a run ends that, whoever
makes it. -/
theorem Seeded.stable_open (h : part.Seeded config rows) :
    Stable (Advances config) fun db => (part.get db).rows = [] ∨ (part.get db).rows = rows := by
  intro db db' hopen hadvances
  rcases h.fills _ _ hadvances with heq | ⟨-, hfull⟩
  · rwa [heq]
  · exact Or.inr hfull

theorem Seeded.stable_full (h : part.Seeded config rows) :
    Stable (Advances config) fun db => (part.get db).rows = rows := by
  intro db db' hfull hadvances
  rw [(h.fills _ _ hadvances).eq_of_ne_nil (hfull ▸ h.rows_ne)]
  exact hfull

/-- What a seed ends in: the table has rows, and if it failed, then in the database. The rows need
not be its own: another run may have been faster. -/
def Ends (part : NamesPart κ) (r : Except Failure Unit) (db : SeedDatabase) : Prop :=
  part.Filled db ∧ ∀ failure, r = .error failure → failure = .internal .queryFailed

/-- What a run that has found the table empty knows of it later: no more than that nobody but a seed
has written there. -/
def Open (part : NamesPart κ) (rows : List (NamedRow κ)) (db : SeedDatabase) : Prop :=
  (part.get db).rows = [] ∨ (part.get db).rows = rows

/-- What it has loaded for the rows: nothing, or all of them. A mixture is impossible, since the
rows come in one transaction. -/
def Loads (part : NamesPart κ) (rows : List (NamedRow κ))
    (loaded : List (NamedRow κ × Option (NamedRow κ))) (db : SeedDatabase) : Prop :=
  (loaded = rows.map fun row => (row, none)) ∧ part.Open rows db ∨
    (loaded = rows.map fun row => (row, some row)) ∧ (part.get db).rows = rows

theorem Seeded.stable_loads (h : part.Seeded config rows)
    (loaded : List (NamedRow κ × Option (NamedRow κ))) :
    Stable (Advances config) (part.Loads rows loaded) := by
  intro db db' hloads hadvances
  exact hloads.imp (fun hnew => ⟨hnew.1, h.stable_open db db' hnew.2 hadvances⟩)
    fun hfound => ⟨hfound.1, h.stable_full db db' hfound.2 hadvances⟩

omit [Scrypt] in
/-- Loading the rows of an empty table, or of one that has been filled meanwhile. -/
theorem Open.loads {db : SeedDatabase} (hopen : part.Open rows db) :
    part.Loads rows (rows.map fun row => (row, (part.get db).get row.id)) db := by
  rcases hopen with hempty | hfull
  · refine Or.inl ⟨List.map_congr_left fun row _ => ?_, Or.inl hempty⟩
    have hnone : (part.get db).get row.id = none := by
      rw [Table.get_eq_none]
      intro other hother
      rw [Table.mem_def, hempty] at hother
      cases hother
    rw [hnone]
  · refine Or.inr ⟨List.map_congr_left fun row hrow => ?_, hfull⟩
    rw [Table.get_eq_some.2 ⟨Table.mem_def.2 (hfull ▸ hrow), rfl⟩]

/-- The transaction fills the table, finds it as it is to be, or is refused because it is filled.
These are the cases of the specification below. -/
theorem Seeded.saves (h : part.Seeded config rows) {db : SeedDatabase}
    {loaded : List (NamedRow κ × Option (NamedRow κ))} (hloads : part.Loads rows loaded db) :
    (∃ table, (part.get db).saveAll loaded = some table ∧
      NamesTable.Fills rows (part.get db) table ∧ table.rows ≠ []) ∨
      (part.get db).saveAll loaded = none ∧ part.Filled db := by
  rcases hloads with ⟨rfl, hempty | hfull⟩ | ⟨rfl, hfull⟩
  · obtain ⟨table, hsave, hrows⟩ := @NamesTable.saveAll_new κ rows (part.get db) _
      (by rw [hempty, List.nil_append]; exact h.nodup)
    rw [hempty, List.nil_append] at hrows
    exact Or.inl ⟨table, hsave, Or.inr ⟨hempty, hrows⟩, hrows ▸ h.rows_ne⟩
  · obtain ⟨row, rest, rfl⟩ := List.exists_cons_of_ne_nil h.rows_ne
    refine Or.inr ⟨NamesTable.saveAll_taken (Table.mem_def.2 (hfull ▸ List.mem_cons_self)), ?_⟩
    rw [Filled, hfull]
    exact h.rows_ne
  · exact Or.inl ⟨part.get db, NamesTable.saveAll_found _ _, .refl _, hfull ▸ h.rows_ne⟩

/-- **The specification of the seed of a table of names.** Between any two of its statements other
runs may do what `Advances` allows. -/
theorem Seeded.meets (h : part.Seeded config rows) :
    (seedNames part rows).Meets (Advances config) (fun _ => True) part.Ends := by
  have hends : ∀ r, Stable (Advances config) (part.Ends r) := fun r db db' hend hadvances =>
    ⟨h.stable_filled db db' hend.1 hadvances, hend.2⟩
  refine .counted .refl h.stable_open h.stable_filled (fun db _ hzero => ?_) (fun db _ hne => ?_) ?_ ?_
  · exact Or.inl (List.eq_nil_of_length_eq_zero hzero)
  · exact fun hempty => hne (congrArg List.length hempty)
  · refine .query .refl h.stable_loads (fun db hopen => NamesPart.Open.loads hopen)
      fun loaded => .atomic hends fun db hloads => ?_
    rcases h.saves hloads with ⟨table, hsave, hfills, hne⟩ | ⟨hsave, hfilled⟩
    · rw [hsave]
      refine ⟨h.advances db table hfills, ?_, fun failure hfailed => by cases hfailed⟩
      rw [Filled, h.get_set]
      exact hne
    · rw [hsave]
      exact ⟨.refl db, hfilled, fun failure hfailed => (Except.error.inj hfailed).symm⟩
  · exact fun db hfilled => ⟨hfilled, fun failure hfailed => by cases hfailed⟩

end NamesPart

section

variable [Scrypt] {config : AdminConfig}

theorem RoleSeedService.seeded : part.Seeded config rows where
  get_set _ _ := rfl
  advances _ _ hfills := ⟨hfills, .refl _, .refl _, .refl _, .refl _⟩
  fills _ _ hadvances := hadvances.roles
  nodup := by decide
  rows_ne := by simp [rows]

theorem TopicStatusSeedService.seeded : part.Seeded config rows where
  get_set _ _ := rfl
  advances _ _ hfills := ⟨.refl _, hfills, .refl _, .refl _, .refl _⟩
  fills _ _ hadvances := hadvances.topicStatuses
  nodup := by decide
  rows_ne := by simp [rows]

theorem UserStatusSeedService.seeded : part.Seeded config rows where
  get_set _ _ := rfl
  advances _ _ hfills := ⟨.refl _, .refl _, hfills, .refl _, .refl _⟩
  fills _ _ hadvances := hadvances.userStatuses
  nodup := by decide
  rows_ne := by simp [rows]

theorem PostStatusSeedService.seeded : part.Seeded config rows where
  get_set _ _ := rfl
  advances _ _ hfills := ⟨.refl _, .refl _, .refl _, hfills, .refl _⟩
  fills _ _ hadvances := hadvances.postStatuses
  nodup := by decide
  rows_ne := by simp [rows]

namespace UserSeedService

variable {a : SeedAmbient} {db db' : SeedDatabase}

/-- The address of the administrator is not free. -/
def Taken (config : AdminConfig) (db : SeedDatabase) : Prop :=
  ∃ user ∈ db.users, user.email = config.adminEmail

/-- What a save of the administrator is, when it goes through: the rows it refers to were there, and
it is one insert. -/
theorem saveAdmin_eq_ok (h : saveAdmin config a db = .ok db') :
    ((db.roles.get RoleEnum.superAdmin.id).isSome ∧
      (db.userStatuses.get UserStatusEnum.active.id).isSome) ∧ ¬ Taken config db ∧
      ∃ users, UsersRepository.insert db.users (admin config a) = .ok users ∧
        db' = { db with users } := by
  unfold saveAdmin at h
  split at h
  · next hrefers =>
      cases hinsert : UsersRepository.insert db.users (admin config a) with
      | error failure =>
          rw [hinsert] at h
          cases h
      | ok users =>
          rw [hinsert] at h
          refine ⟨hrefers, ?_, users, rfl, (Except.ok.inj h).symm⟩
          rintro ⟨user, huser, hemail⟩
          have hfree := (Repository.exists_insert.1 ⟨users, hinsert⟩).2
          rw [Bool.not_eq_true', List.any_eq_false] at hfree
          exact hfree user huser (decide_eq_true hemail)
  · cases h

/-- When it does: the role and the status are there, and nobody has the address. -/
theorem exists_saveAdmin (hroles : (db.roles.get RoleEnum.superAdmin.id).isSome)
    (hstatuses : (db.userStatuses.get UserStatusEnum.active.id).isSome) (hfree : ¬ Taken config db)
    (hid : db.users.get a.userId = none) : ∃ db', saveAdmin config a db = .ok db' := by
  have hinsert : ∃ users, UsersRepository.insert db.users (admin config a) = .ok users := by
    refine Repository.exists_insert.2 ⟨hid, ?_⟩
    rw [Bool.not_eq_true', List.any_eq_false]
    exact fun user huser hemail => hfree ⟨user, huser, of_decide_eq_true hemail⟩
  obtain ⟨users, husers⟩ := hinsert
  exact ⟨{ db with users }, by rw [saveAdmin, if_pos ⟨hroles, hstatuses⟩, husers]; rfl⟩

theorem saveAdmin_eq_error {failure : Failure} (h : saveAdmin config a db = .error failure) :
    failure = .internal .queryFailed := by
  unfold saveAdmin at h
  split at h
  · unfold UsersRepository.insert Repository.insert at h
    split at h
    · exact (Except.error.inj h).symm
    · split at h
      · cases h
      · exact (Except.error.inj h).symm
  · exact (Except.error.inj h).symm

/-- The administrator has the address. -/
theorem mem_of_insert {users users' : UsersTable}
    (h : UsersRepository.insert users (admin config a) = .ok users') :
    admin config a ∈ users' ∧ ∀ user ∈ users, user ∈ users' := by
  have hget := UsersRepository.get_insert h
  refine ⟨(Table.get_eq_some.1 ((hget a.userId).trans (if_pos rfl))).1, fun user huser => ?_⟩
  have hfound := hget user.id
  rw [if_neg, Table.get_eq_some.2 ⟨huser, rfl⟩] at hfound
  · exact (Table.get_eq_some.1 hfound).1
  · intro heq
    have hfree := Repository.get_of_insert h
    rw [Table.get_eq_none] at hfree
    exact hfree user huser heq.symm

/-- What a run that has found no administrator knows: when there is one now, it has the address. A
second insert is therefore refused by the address being unique. -/
def Vacant (config : AdminConfig) (db : SeedDatabase) : Prop :=
  countAdmin db.users = 0 ∨ Taken config db

theorem stable_vacant : Stable (Advances config) (Vacant config) := by
  intro db db' hvacant hadvances
  rcases hadvances.users with heq | ⟨-, a, hinsert⟩
  · rw [Vacant, Taken, heq]
    exact hvacant
  · exact Or.inr ⟨_, (mem_of_insert hinsert).1, rfl⟩

theorem stable_countAdmin : Stable (Advances config) fun db => countAdmin db.users ≠ 0 := by
  intro db db' hne hadvances
  rw [hadvances.users.eq_of_ne_zero hne]
  exact hne

/-- What the seed of the administrator ends in. Only a run that succeeds leaves an administrator for
certain; the address may belong to somebody else. -/
def Ends (r : Except Failure Unit) (db : SeedDatabase) : Prop :=
  (r = .ok () → countAdmin db.users ≠ 0) ∧
    ∀ failure, r = .error failure → failure = .internal .queryFailed

theorem stable_ends (r : Except Failure Unit) : Stable (Advances config) (Ends r) :=
  fun db db' hends hadvances =>
    ⟨fun hok => stable_countAdmin db db' (hends.1 hok) hadvances, hends.2⟩

/-- **The specification of the seed of the administrator.** It is put together in the way of the
tables of names, but rests on their rows being there. -/
theorem meets_run : (run config a).Meets (Advances config) (fun _ => True) Ends := by
  refine .counted .refl stable_vacant stable_countAdmin (fun db _ hzero => Or.inl hzero)
    (fun db _ hne => hne) (.atomic stable_ends fun db hvacant => ?_) fun db hcount => ?_
  · cases hsave : saveAdmin config a db with
    | error failure =>
        refine ⟨.refl db, fun hok => (by cases hok), fun failure' hfailed => ?_⟩
        obtain rfl := Except.error.inj hfailed
        exact saveAdmin_eq_error hsave
    | ok db' =>
        obtain ⟨-, hfree, users, hinsert, rfl⟩ := saveAdmin_eq_ok hsave
        refine ⟨⟨.refl _, .refl _, .refl _, .refl _, ?_⟩, fun _ => countAdmin_insert hinsert,
          fun failure hfailed => by cases hfailed⟩
        exact Or.inr ⟨hvacant.resolve_right hfree, a, hinsert⟩
  · exact ⟨fun _ => hcount, fun failure hfailed => by cases hfailed⟩

end UserSeedService

/-! ### The specification of a run -/

/-- Every table of names has rows, and there is an administrator: no seed has anything left to do.
-/
structure Complete (db : SeedDatabase) : Prop where
  roles : RoleSeedService.part.Filled db
  topicStatuses : TopicStatusSeedService.part.Filled db
  userStatuses : UserStatusSeedService.part.Filled db
  postStatuses : PostStatusSeedService.part.Filled db
  admin : UserSeedService.countAdmin db.users ≠ 0

/-- What a run ends in, whether it was alone or not. -/
def SeedEnds (r : Except Failure Unit) (db : SeedDatabase) : Prop :=
  (r = .ok () → Complete db) ∧ ∀ failure, r = .error failure → failure = .internal .queryFailed

omit [Scrypt] in
theorem SeedEnds.failed {failure : Failure} {db : SeedDatabase}
    (h : ∀ e, (.error failure : Except Failure Unit) = .error e → e = .internal .queryFailed) :
    SeedEnds (.error failure) db :=
  ⟨fun hok => (by cases hok), h⟩

theorem meets_runSeed (a : SeedAmbient) :
    (runSeed config a).Meets (Advances config) (fun _ => True) SeedEnds := by
  have hroles := (@RoleSeedService.seeded _ config).stable_filled
  have htopics := (@TopicStatusSeedService.seeded _ config).stable_filled
  have husers := (@UserStatusSeedService.seeded _ config).stable_filled
  have hposts := (@PostStatusSeedService.seeded _ config).stable_filled
  -- what the seeds before have left stays while the later ones run
  refine RoleSeedService.seeded.meets.bind (fun _ => ?_) fun _ _ hend => .failed hend.2
  refine ((TopicStatusSeedService.seeded.meets.frame hroles).weaken fun db hend => ⟨trivial, hend.1⟩).bind
    (fun _ => ?_) fun _ _ hend => .failed hend.1.2
  refine ((UserStatusSeedService.seeded.meets.frame (htopics.and hroles)).weaken fun db hend =>
    ⟨trivial, hend.1.1, hend.2⟩).bind (fun _ => ?_) fun _ _ hend => .failed hend.1.2
  refine ((PostStatusSeedService.seeded.meets.frame (husers.and (htopics.and hroles))).weaken
    fun db hend => ⟨trivial, hend.1.1, hend.2⟩).bind (fun _ => ?_)
    fun _ _ hend => .failed hend.1.2
  refine ((UserSeedService.meets_run.frame (hposts.and (husers.and (htopics.and hroles)))).weaken
    fun db hend => ⟨trivial, hend.1.1, hend.2⟩).strengthen ?_
  rintro r db ⟨⟨hadmin, hfailed⟩, hp, hu, ht, hr⟩
  exact ⟨fun hok => ⟨hr, ht, hu, hp, hadmin hok⟩, hfailed⟩

/-! ### A run alone -/

/-- A seed of names that is not disturbed goes through. -/
theorem NamesPart.Seeded.run_seedNames {κ : Type} [DecidableEq κ] {part : NamesPart κ}
    {rows : List (NamedRow κ)} (h : part.Seeded config rows) (db : SeedDatabase) :
    ∃ db', (seedNames part rows).run db = (.ok (), db') ∧ Advances config db db' ∧ part.Filled db' := by
  by_cases hempty : (part.get db).rows = []
  · have hloads : part.Loads rows (rows.map fun row => (row, (part.get db).get row.id)) db :=
      NamesPart.Open.loads (Or.inl hempty)
    obtain ⟨table, hsave, hfills, hne⟩ := (h.saves hloads).resolve_right fun hrefused =>
      hrefused.2 hempty
    refine ⟨part.set table db, ?_, h.advances db table hfills, ?_⟩
    · simp only [seedNames, Prog.run_bind, Prog.run_atomic, hempty, List.length_nil, if_true, hsave]
    · rw [Filled, h.get_set]
      exact hne
  · refine ⟨db, ?_, .refl db, hempty⟩
    have hcount : (part.get db).rows.length ≠ 0 := fun hzero =>
      hempty (List.eq_nil_of_length_eq_zero hzero)
    simp only [seedNames, Prog.run_bind, Prog.run_atomic, if_neg hcount]
    rfl

/-- The seed of the administrator alone, when there is one or one can be saved. It then ends without
a failure. -/
theorem UserSeedService.run_run {a : SeedAmbient} {db : SeedDatabase}
    (h : countAdmin db.users = 0 → ∃ db', saveAdmin config a db = .ok db') :
    ∃ db', (run config a).run db = (.ok (), db') ∧ Advances config db db' ∧
      countAdmin db'.users ≠ 0 := by
  by_cases hzero : countAdmin db.users = 0
  · obtain ⟨db', hsave⟩ := h hzero
    obtain ⟨-, -, users, hinsert, rfl⟩ := saveAdmin_eq_ok hsave
    refine ⟨{ db with users }, ?_, ⟨.refl _, .refl _, .refl _, .refl _, Or.inr ⟨hzero, a, hinsert⟩⟩,
      countAdmin_insert hinsert⟩
    simp only [UserSeedService.run, Prog.run_bind, Prog.run_atomic, hzero, if_true, hsave]
  · refine ⟨db, ?_, .refl db, hzero⟩
    simp only [UserSeedService.run, Prog.run_bind, Prog.run_atomic, if_neg hzero]
    rfl

/-- A run alone ends well, unless it has to create an administrator and cannot. What it meets may be
what stopped runs have left. -/
theorem run_runSeed {a : SeedAmbient} {db : SeedDatabase}
    (h : ∀ db', Advances config db db' → RoleSeedService.part.Filled db' →
      UserStatusSeedService.part.Filled db' → UserSeedService.countAdmin db'.users = 0 →
        ∃ db'', UserSeedService.saveAdmin config a db' = .ok db'') :
    ∃ db', (runSeed config a).run db = (.ok (), db') ∧ Advances config db db' ∧ Complete db' := by
  obtain ⟨db₁, hrun₁, hadvances₁, hroles⟩ := (@RoleSeedService.seeded _ config).run_seedNames db
  obtain ⟨db₂, hrun₂, hadvances₂, htopics⟩ := (@TopicStatusSeedService.seeded _ config).run_seedNames db₁
  obtain ⟨db₃, hrun₃, hadvances₃, husers⟩ := (@UserStatusSeedService.seeded _ config).run_seedNames db₂
  obtain ⟨db₄, hrun₄, hadvances₄, hposts⟩ := (@PostStatusSeedService.seeded _ config).run_seedNames db₃
  have hroles₄ := RoleSeedService.seeded.stable_filled _ _ hroles
    ((hadvances₂.trans hadvances₃).trans hadvances₄)
  have husers₄ := UserStatusSeedService.seeded.stable_filled _ _ husers hadvances₄
  have hadvances := ((hadvances₁.trans hadvances₂).trans hadvances₃).trans hadvances₄
  obtain ⟨db₅, hrun₅, hadvances₅, hadmin⟩ :=
    UserSeedService.run_run (h db₄ hadvances hroles₄ husers₄)
  refine ⟨db₅, ?_, hadvances.trans hadvances₅, ?_, ?_, ?_, ?_, hadmin⟩
  · simp only [runSeed, RoleSeedService.run, TopicStatusSeedService.run, UserStatusSeedService.run,
      PostStatusSeedService.run, Prog.run_bind, hrun₁, hrun₂, hrun₃, hrun₄, hrun₅]
  · exact RoleSeedService.seeded.stable_filled _ _ hroles₄ hadvances₅
  · exact TopicStatusSeedService.seeded.stable_filled _ _ htopics
      ((hadvances₃.trans hadvances₄).trans hadvances₅)
  · exact UserStatusSeedService.seeded.stable_filled _ _ husers₄ hadvances₅
  · exact PostStatusSeedService.seeded.stable_filled _ _ hposts hadvances₅

/-! ### Runs on a complete database -/

/-- No statement changes anything. The specifications are taken with this relation for a database on
which nothing is left to do. -/
def Unchanged (db db' : SeedDatabase) : Prop := db' = db

omit [Scrypt] in
theorem stable_unchanged (P : SeedDatabase → Prop) : Stable Unchanged P := fun _ _ h heq => heq ▸ h

omit [Scrypt] in
/-- What is done only if nothing is counted is left out where something is. -/
theorem meets_counted {count : SeedDatabase → Nat} {p : Prog SeedDatabase Failure Unit}
    {P : SeedDatabase → Prop} (hcount : ∀ db, P db → count db ≠ 0) :
    Prog.Meets Unchanged (do
      let n ← Prog.atomic fun db => (.ok (count db), db)
      if n = 0 then p) P fun r db => r = .ok () ∧ P db :=
  .counted (fun _ => rfl) (stable_unchanged fun _ => False) (stable_unchanged P)
    (fun db hdb hzero => hcount db hdb hzero) (fun _ hdb _ => hdb) (.of_not fun _ => id)
    fun _ hdb => ⟨rfl, hdb⟩

omit [Scrypt] in
/-- A seed of names leaves a table that has rows alone: it counts, and that is all. -/
theorem NamesPart.meets_filled {κ : Type} [DecidableEq κ] (part : NamesPart κ)
    (rows : List (NamedRow κ)) {P : SeedDatabase → Prop} (hfilled : ∀ db, P db → part.Filled db) :
    (seedNames part rows).Meets Unchanged P fun r db => r = .ok () ∧ P db :=
  meets_counted fun db hdb hzero => hfilled db hdb (List.eq_nil_of_length_eq_zero hzero)

theorem UserSeedService.meets_admin {a : SeedAmbient} {P : SeedDatabase → Prop}
    (hadmin : ∀ db, P db → countAdmin db.users ≠ 0) :
    (run config a).Meets Unchanged P fun r _ => r = .ok () :=
  (meets_counted hadmin).strengthen fun _ _ h => h.1

theorem meets_complete (a : SeedAmbient) :
    (runSeed config a).Meets Unchanged Complete fun r _ => r = .ok () := by
  have hnext : ∀ (r : Except Failure Unit) (db : SeedDatabase), r = .ok () ∧ Complete db → Complete db :=
    fun _ _ h => h.2
  have hfailed : ∀ (e : Failure) (db : SeedDatabase), (.error e : Except Failure Unit) = .ok () ∧
      Complete db → (.error e : Except Failure Unit) = .ok () := fun _ _ h => h.1
  refine (NamesPart.meets_filled _ _ fun _ h => h.roles).bind (fun _ => .weaken ?_ (hnext _)) hfailed
  refine (NamesPart.meets_filled _ _ fun _ h => h.topicStatuses).bind
    (fun _ => .weaken ?_ (hnext _)) hfailed
  refine (NamesPart.meets_filled _ _ fun _ h => h.userStatuses).bind
    (fun _ => .weaken ?_ (hnext _)) hfailed
  refine (NamesPart.meets_filled _ _ fun _ h => h.postStatuses).bind
    (fun _ => .weaken ?_ (hnext _)) hfailed
  exact UserSeedService.meets_admin fun _ h => h.admin

/-! ### Runs at the same time -/

variable {ι : Type} [DecidableEq ι] {db₀ : SeedDatabase} {draws : ι → SeedAmbient}
  {past : List (Entry (Pool ι SeedDatabase Failure Unit) ι Unit)}
  {N : Pool ι SeedDatabase Failure Unit}

/-- Runs of the seeds over one database, each with what it draws. Which runs there are, and how
many, is left open. -/
def seeding (config : AdminConfig) (db₀ : SeedDatabase) (draws : ι → SeedAmbient) :
    Pool ι SeedDatabase Failure Unit :=
  ⟨db₀, fun i => runSeed config (draws i)⟩

/-- What the runs have done, and what the ones that ended have ended in. A run that has stopped for
good is one that is never scheduled again. -/
theorem seeding_advances (h : Pool.machine.Reach (seeding config db₀ draws) past N) :
    Advances config db₀ N.shared ∧ ∀ i r, N.task i = .done r → SeedEnds r N.shared := by
  have htask : ∀ i, ∃ P, Stable (Advances config) P ∧ P db₀ ∧
      (runSeed config (draws i)).Meets (Advances config) P SeedEnds :=
    fun i => ⟨fun _ => True, fun _ _ _ _ => trivial, trivial, meets_runSeed (draws i)⟩
  have htrans : ∀ db db' db'' : SeedDatabase, Advances config db db' → Advances config db' db'' →
      Advances config db db'' := fun _ _ _ => .trans
  exact ⟨(Pool.meets .refl htrans htask h).1, fun i r hdone =>
    Pool.ended_of_meets (Q := fun _ => SeedEnds) .refl htrans htask h hdone⟩

/-- **The seeds converge**, in every interleaving of any number of runs, each of which may stop
anywhere: each table of names is as it was, or was empty and has exactly the rows of its seed; at
most one administrator is created, when there was none; a run that ends well leaves nothing to do,
and one that fails has failed in the database. Where there is nothing to do, nothing is changed, and
no run fails. -/
theorem seeds_converge (h : Pool.machine.Reach (seeding config db₀ draws) past N) :
    Advances config db₀ N.shared ∧
      (∀ i, N.task i = .done (.ok ()) → Complete N.shared) ∧
      (∀ i failure, N.task i = .done (.error failure) → failure = .internal .queryFailed) ∧
      (Complete db₀ → N.shared = db₀ ∧ ∀ i failure, N.task i ≠ .done (.error failure)) := by
  obtain ⟨hadvances, hended⟩ := seeding_advances h
  refine ⟨hadvances, fun i hdone => (hended i _ hdone).1 rfl,
    fun i failure hdone => (hended i _ hdone).2 failure rfl, fun hcomplete => ?_⟩
  have hidle : ∀ i, ∃ P, Stable Unchanged P ∧ P db₀ ∧
      (runSeed config (draws i)).Meets Unchanged P fun r _ => r = .ok () :=
    fun i => ⟨Complete, stable_unchanged _, hcomplete, meets_complete (draws i)⟩
  have hchain : ∀ db db' db'' : SeedDatabase, Unchanged db db' → Unchanged db' db'' →
      Unchanged db db'' := fun _ _ _ h h' => h'.trans h
  have hsame : ∀ db, Unchanged db db := fun _ => rfl
  refine ⟨(Pool.meets hsame hchain hidle h).1, fun i failure hdone => ?_⟩
  cases Pool.ended_of_meets hsame hchain hidle h hdone

end

section

attribute [local instance] spelledKey

/-- The configuration of the clinic's backend. -/
def clinicConfig : AdminConfig := ⟨"Admin", "admin@vethealth.test", "Secret-1"⟩

/-- Two processes that seed an empty database. -/
def twoSeeds : Pool (Fin 2) SeedDatabase Failure Unit :=
  seeding clinicConfig .emptied fun _ => ⟨⟨"administrator", by decide⟩, noSalt⟩

/-- Both find no roles and nothing to update. Then the first saves them and goes on to its end, and
the second fails. -/
def seedsSchedule : List (Fin 2) :=
  [0, 1, 0, 1, 0, 1, 0, 0, 0, 0, 0, 0, 0, 0, 0, 0, 0]

/-- The first of the two has left nothing to do. -/
theorem two_seeds_converge :
    let N := (Pool.machine.run twoSeeds seedsSchedule).2
    N.task 0 = .done (.ok ()) ∧ N.task 1 = .done (.error (.internal .queryFailed)) ∧
      Complete N.shared := by
  have hreach := Pool.machine.reach_run twoSeeds seedsSchedule
  exact ⟨rfl, rfl, (seeds_converge hreach).2.1 0 rfl⟩

end

end VetHealth
