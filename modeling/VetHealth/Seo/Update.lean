import VetHealth.Seo.Service

/-!
# VetHealth.Seo.Update

**What one request changes.** A request that no other one is interleaved with either finds nothing
and changes nothing, or leaves the entity with the fields that its body provides. `Updates` says so
for the two ways to store them, in the metadata row that the entity has and in a new one.

The ORM keeps `updatedAt` of what it writes: of the metadata row when a column of it changes, and of
the entity when it is linked to a new row. Every other column that is not provided stays. -/

namespace VetHealth

open Js Store Resumption

namespace SeoDatabase

variable {db : SeoDatabase} {type : SeoEntityType} {id : Uuid}

theorem findOne_eq_some {target : SeoTarget} {found : Option MetadataEntity} :
    db.findOne type id = some (target, found) ↔
      (db.targets type).get id = some target ∧ target.deletedAt = false ∧
        found = target.metadata.bind db.metadata.get := by
  unfold findOne
  cases (db.targets type).get id with
  | none => simp
  | some stored =>
      cases hdeleted : stored.deletedAt with
      | false =>
          simp only [Option.filter_some, hdeleted, Bool.not_false, if_true, Option.map_some,
            Option.some.injEq, Prod.mk.injEq]
          constructor
          · rintro ⟨rfl, rfl⟩
            exact ⟨rfl, hdeleted, rfl⟩
          · rintro ⟨rfl, -, rfl⟩
            exact ⟨rfl, rfl⟩
      | true =>
          simp only [Option.filter_some, hdeleted, Bool.not_true, Option.some.injEq]
          constructor
          · intro h
            cases h
          · rintro ⟨rfl, hlive, -⟩
            rw [hdeleted] at hlive
            cases hlive

/-- Saving a row that is stored is one write of that row. -/
theorem saveMetadata_stored {now : Int} {given stored : MetadataEntity}
    (h : db.metadata.get given.id = some stored) :
    (db.saveMetadata now given).1 = .ok given ∧
      (db.saveMetadata now given).2.targets = db.targets ∧
      ∀ k, (db.saveMetadata now given).2.metadata.get k =
        if k = given.id then some (if given = stored then stored else overwrite now given stored)
        else db.metadata.get k := by
  unfold saveMetadata
  rw [h]
  dsimp only
  by_cases hsame : given = stored
  · rw [if_pos hsame, if_pos hsame]
    refine ⟨rfl, rfl, fun k => ?_⟩
    split
    · next hk => rw [hk, h]
    · rfl
  · rw [if_neg hsame, if_neg hsame]
    refine ⟨rfl, rfl, fun k => ?_⟩
    show (db.metadata.modify _ _).get k = _
    rw [Table.get_modify]
    by_cases hk : k = given.id
    · subst hk
      rw [if_pos rfl, h, Option.map_some, if_pos (decide_eq_true (Table.get_eq_some.1 h).2)]
    · rw [if_neg hk]
      cases hget : db.metadata.get k with
      | none => rfl
      | some row =>
          have hrow : row.id = k := (Table.get_eq_some.1 hget).2
          rw [Option.map_some, if_neg (by simpa [hrow] using hk)]

/-- Saving what is stored writes nothing. -/
theorem saveMetadata_same {now : Int} {row : MetadataEntity} (h : db.metadata.get row.id = some row) :
    db.saveMetadata now row = (.ok row, db) := by
  unfold saveMetadata
  rw [h]
  exact if_pos rfl

/-- Inserting a row under a new id: the row is there, and nothing else has changed. -/
theorem insertMetadata_new {created : MetadataEntity} (h : db.metadata.get created.id = none) :
    (db.insertMetadata created).1 = .ok created ∧
      (db.insertMetadata created).2.targets = db.targets ∧
      ∀ k, (db.insertMetadata created).2.metadata.get k =
        if k = created.id then some created else db.metadata.get k := by
  obtain ⟨metadata, hinsert⟩ := Table.exists_insert.2 h
  unfold insertMetadata
  rw [hinsert]
  refine ⟨rfl, rfl, fun k => ?_⟩
  show metadata.get k = _
  rw [Table.get_insert hinsert]
  simp only [eq_comm]

/-- Linking an entity to a row changes that entity, and no other one of any type. -/
theorem get_linkMetadata (now : Int) (metadataId : Uuid) (type' : SeoEntityType) (k : Uuid) :
    ((db.linkMetadata now type id metadataId).2.targets type').get k =
      ((db.targets type').get k).map fun target =>
        if type' = type ∧ k = id then { target with metadata := some metadataId, updatedAt := now }
        else target := by
  show (Function.update db.targets type _ type').get k = _
  by_cases htype : type' = type
  · subst htype
    rw [Function.update_self, Table.get_modify]
    cases hget : (db.targets type').get k with
    | none => rfl
    | some target =>
        have htarget : target.id = k := (Table.get_eq_some.1 hget).2
        simp [htarget]
  · rw [Function.update_of_ne htype]
    simp [htype]

end SeoDatabase

namespace SeoService

variable {db : SeoDatabase} {type : SeoEntityType} {id : Uuid} {dto : SeoMetadataFieldsDto}
  {a : SeoAmbient}

/-! ### The fields of a body -/

theorem values_eq_ok {v : SeoField → Option (Option String)} :
    values dto = .ok v ↔ dto.Strings ∧ v = setFields dto := by
  have hall : (SEO_FIELDS.all fun field => (dto field).all fun value => value.asString?.isSome) = true ↔
      dto.Strings := by
    simp only [List.all_eq_true, Option.all_eq_true]
    constructor
    · intro h field value hvalue
      cases hj : value with
      | str s => exact ⟨s, rfl⟩
      | _ =>
          have hsome := h field field.mem_fields value hvalue
          rw [hj] at hsome
          cases hsome
    · intro h field _ value hvalue
      obtain ⟨s, rfl⟩ := h field value hvalue
      rfl
  unfold values
  by_cases hstrings : dto.Strings
  · rw [if_pos (hall.2 hstrings)]
    simp [hstrings, eq_comm]
  · rw [if_neg (fun h => hstrings (hall.1 h))]
    simp [hstrings]

theorem setFields_of_str {field : SeoField} {s : String} (h : dto field = some (.str s)) :
    setFields dto field = some (trimOrNull s) := by
  rw [setFields, h]
  rfl

theorem setFields_of_none {field : SeoField} (h : dto field = none) : setFields dto field = none := by
  rw [setFields, h]
  rfl

/-- Setting the same fields again changes nothing. So asking twice is asking once. -/
theorem merge_merge (columns : MetadataColumns) (v : SeoField → Option (Option String)) :
    merge (merge columns v) v = merge columns v := by
  unfold merge
  congr 1
  funext field
  show (v field).getD ((v field).getD (columns.seo field)) = (v field).getD (columns.seo field)
  cases v field with
  | none => rfl
  | some value => rfl

/-! ### The request alone -/

/-- An entity that is not there. -/
theorem run_update_missing (h : db.findOne type id = none) :
    (update a type id dto).run db = (.error .notFound, db) := by
  simp only [update, Prog.run_bind, Prog.run_atomic, h]
  rfl

/-- An entity with metadata. -/
theorem run_update_stored {target : SeoTarget} {row : MetadataEntity}
    (h : db.findOne type id = some (target, some row)) (hstrings : dto.Strings) :
    (update a type id dto).run db =
      let given := { row with columns := merge row.columns (setFields dto) }
      ((db.saveMetadata a.savedAt given).1.map pickSeoFields, (db.saveMetadata a.savedAt given).2) := by
  simp only [update, Prog.run_bind, Prog.run_atomic, h, values_eq_ok.2 ⟨hstrings, rfl⟩, Prog.run_lift]
  rcases db.saveMetadata a.savedAt { row with columns := merge row.columns (setFields dto) } with ⟨r, db'⟩
  cases r <;> rfl

/-- An entity without metadata. -/
theorem run_update_created {target : SeoTarget} (h : db.findOne type id = some (target, none))
    (hstrings : dto.Strings) (hfresh : db.metadata.get a.rowId = none) :
    (update a type id dto).run db =
      (.ok (created a (setFields dto)).columns.seo,
        ((db.insertMetadata (created a (setFields dto))).2.linkMetadata a.linkedAt type id a.rowId).2) := by
  obtain ⟨hinsert, -, -⟩ := @SeoDatabase.insertMetadata_new db (created a (setFields dto)) hfresh
  have hpair : db.insertMetadata (created a (setFields dto)) =
      (.ok (created a (setFields dto)), (db.insertMetadata (created a (setFields dto))).2) :=
    Prod.ext hinsert rfl
  simp only [update, Prog.run_bind, Prog.run_atomic, h, values_eq_ok.2 ⟨hstrings, rfl⟩, Prog.run_lift]
  rw [hpair]
  rfl

/-- What a request makes of an entity that was loaded as `target` with the metadata `found`, when
`row` is its metadata afterwards. -/
structure Updates (a : SeoAmbient) (type : SeoEntityType) (id : Uuid) (dto : SeoMetadataFieldsDto)
    (db db' : SeoDatabase) (target : SeoTarget) (found : Option MetadataEntity)
    (row : MetadataEntity) : Prop where
  linked : ∃ target', db'.findOne type id = some (target', some row)
  provided : ∀ field s, dto field = some (.str s) → row.columns.seo field = trimOrNull s
  kept : ∀ field, dto field = none →
    row.columns.seo field = found.bind fun stored => stored.columns.seo field
  in_place : ∀ stored, found = some stored → row.id = stored.id ∧ db'.targets = db.targets ∧
    { row.columns with seo := stored.columns.seo } = stored.columns ∧
    row.updatedAt = if row.columns = stored.columns then stored.updatedAt else a.savedAt
  created : found = none → db.metadata.get row.id = none ∧
    { row.columns with seo := fun _ => none } = .create (fun _ => none) a.savedAt ∧
    ∀ type' k, (db'.targets type').get k = ((db.targets type').get k).map fun other =>
      if type' = type ∧ k = id then { target with metadata := some row.id, updatedAt := a.linkedAt }
      else other
  frame : ∀ k, k ≠ row.id → db'.metadata.get k = db.metadata.get k

/-- Asking again for the fields that a row has writes nothing, and is answered in the same way. -/
theorem run_update_again {target : SeoTarget} {row : MetadataEntity} (b : SeoAmbient)
    (h : db.findOne type id = some (target, some row)) (hstrings : dto.Strings)
    (hset : merge row.columns (setFields dto) = row.columns) :
    (update b type id dto).run db = (.ok row.columns.seo, db) := by
  obtain ⟨-, -, hfound⟩ := SeoDatabase.findOne_eq_some.1 h
  have hstored : db.metadata.get row.id = some row := by
    obtain ⟨k, -, hget⟩ := Option.bind_eq_some_iff.1 hfound.symm
    rwa [(Table.get_eq_some.1 hget).2]
  rw [run_update_stored h hstrings, hset]
  show ((db.saveMetadata b.savedAt row).1.map _, _) = _
  rw [SeoDatabase.saveMetadata_same hstored]
  rfl

/-- The fields that a request sets, in a row that has them. -/
theorem seo_merge_of_str {columns : MetadataColumns} {field : SeoField} {s : String}
    (h : dto field = some (.str s)) :
    (merge columns (setFields dto)).seo field = trimOrNull s := by
  show (setFields dto field).getD _ = _
  rw [setFields_of_str h]
  rfl

theorem seo_merge_of_none {columns : MetadataColumns} {field : SeoField} (h : dto field = none) :
    (merge columns (setFields dto)).seo field = columns.seo field := by
  show (setFields dto field).getD _ = _
  rw [setFields_of_none h]
  rfl

/-- A request that found a metadata row: the fields are written into it, and the entity stays linked
to it. -/
theorem updates_stored {target : SeoTarget} {stored : MetadataEntity}
    (h : db.findOne type id = some (target, some stored)) (hstrings : dto.Strings) :
    ∃ row db', (update a type id dto).run db = (.ok row.columns.seo, db') ∧
      Updates a type id dto db db' target (some stored) row ∧
      merge row.columns (setFields dto) = row.columns := by
  obtain ⟨htarget, hlive, hfound⟩ := SeoDatabase.findOne_eq_some.1 h
  obtain ⟨k, hk, hget⟩ := Option.bind_eq_some_iff.1 hfound.symm
  -- What is written is the row that was read with the fields of the body, and it is a new version
  -- if that changes anything.
  obtain rfl : stored.id = k := (Table.get_eq_some.1 hget).2
  let given : MetadataEntity := { stored with columns := merge stored.columns (setFields dto) }
  let row := if given = stored then stored else SeoDatabase.overwrite a.savedAt given stored
  obtain ⟨hresult, htargets, hrows⟩ :=
    @SeoDatabase.saveMetadata_stored db a.savedAt given stored hget
  have hid : row.id = stored.id := by
    show (if given = stored then stored else _).id = _
    split <;> rfl
  have hcolumns : row.columns = merge stored.columns (setFields dto) := by
    show (if given = stored then stored else _).columns = _
    split
    · next hsame => exact congrArg MetadataEntity.columns hsame.symm
    · rfl
  -- The ORM stamps a row only if it writes it.
  have hupdated : row.updatedAt =
      if row.columns = stored.columns then stored.updatedAt else a.savedAt := by
    rw [hcolumns]
    show (if given = stored then stored else _).updatedAt = _
    by_cases hsame : merge stored.columns (setFields dto) = stored.columns
    · have hgiven : given = stored := by
        show { stored with columns := merge stored.columns (setFields dto) } = stored
        rw [hsame]
      rw [if_pos hgiven, if_pos hsame]
    · rw [if_neg (fun hgiven => hsame (congrArg MetadataEntity.columns hgiven)), if_neg hsame]
      exact if_pos rfl
  refine ⟨row, (db.saveMetadata a.savedAt given).2, ?_, ⟨⟨target, ?_⟩, ?_, ?_, ?_, ?_, ?_⟩, ?_⟩
  · rw [run_update_stored h hstrings, hcolumns]
    show ((db.saveMetadata a.savedAt given).1.map _, _) = _
    rw [hresult]
    rfl
  · rw [SeoDatabase.findOne_eq_some, htargets]
    refine ⟨htarget, hlive, ?_⟩
    rw [hk, Option.bind_some, hrows, if_pos rfl]
  · intro field s hs
    rw [hcolumns]
    exact seo_merge_of_str hs
  · intro field hnone
    rw [hcolumns]
    exact seo_merge_of_none hnone
  · intro stored' hstored'
    obtain rfl := Option.some.inj hstored'
    refine ⟨hid, htargets, ?_, hupdated⟩
    rw [hcolumns]
    rfl
  · intro hnone
    cases hnone
  · intro k hk
    rw [hrows, if_neg (by rwa [hid] at hk)]
  · rw [hcolumns]
    exact merge_merge _ _

/-- A request that found no metadata row: a row is inserted and linked, in two statements. -/
theorem updates_created {target : SeoTarget} (h : db.findOne type id = some (target, none))
    (hstrings : dto.Strings) (hfresh : db.metadata.get a.rowId = none) :
    ∃ row db', (update a type id dto).run db = (.ok row.columns.seo, db') ∧
      Updates a type id dto db db' target none row ∧
      merge row.columns (setFields dto) = row.columns := by
  obtain ⟨htarget, hlive, -⟩ := SeoDatabase.findOne_eq_some.1 h
  obtain ⟨-, htargets, hrows⟩ := @SeoDatabase.insertMetadata_new db (created a (setFields dto)) hfresh
  have hlinks := @SeoDatabase.get_linkMetadata (db.insertMetadata (created a (setFields dto))).2
    type id a.linkedAt a.rowId
  rw [htargets] at hlinks
  -- The row is the one that the request draws the id of, and the entity is the only one to be
  -- linked to it.
  refine ⟨created a (setFields dto), _, run_update_created h hstrings hfresh,
    ⟨⟨{ target with metadata := some a.rowId, updatedAt := a.linkedAt },
        SeoDatabase.findOne_eq_some.2 ⟨?_, ?_, ?_⟩⟩, ?_, ?_, ?_, ?_, ?_⟩, merge_merge _ _⟩
  · rw [hlinks, htarget, Option.map_some, if_pos ⟨rfl, rfl⟩]
  · exact hlive
  · show some _ = Table.get (db.insertMetadata _).2.metadata a.rowId
    rw [hrows]
    exact (if_pos rfl).symm
  · intro field s hs
    exact seo_merge_of_str hs
  · intro field hnone
    exact seo_merge_of_none hnone
  · intro stored hstored
    cases hstored
  · intro _
    refine ⟨hfresh, rfl, fun type' k => ?_⟩
    rw [hlinks]
    by_cases hk : type' = type ∧ k = id
    · obtain ⟨rfl, rfl⟩ := hk
      rw [htarget, Option.map_some, Option.map_some]
      rfl
    · simp only [if_neg hk]
  · intro k hk
    show Table.get (db.insertMetadata _).2.metadata k = _
    rw [hrows, if_neg hk]

/-- An entity without a metadata row is given a new one. -/
theorem exists_updates {target : SeoTarget} {found : Option MetadataEntity}
    (h : db.findOne type id = some (target, found)) (hstrings : dto.Strings)
    (hfresh : found = none → db.metadata.get a.rowId = none) :
    ∃ row db', (update a type id dto).run db = (.ok row.columns.seo, db') ∧
      Updates a type id dto db db' target found row ∧
      merge row.columns (setFields dto) = row.columns := by
  cases found with
  | none => exact updates_created h hstrings (hfresh rfl)
  | some stored => exact updates_stored h hstrings

/-- **An SEO update changes what it is given and nothing else**: the fields of the body, in the
entity's own metadata row or in a new one that it is linked to. What it returns is what it stored,
and asking for it again changes nothing. -/
theorem update_alone (db : SeoDatabase) (type : SeoEntityType) (id : Uuid)
    (dto : SeoMetadataFieldsDto) (a : SeoAmbient) (hstrings : dto.Strings)
    (hfresh : db.metadata.get a.rowId = none) :
    (db.findOne type id = none → (update a type id dto).run db = (.error .notFound, db)) ∧
    ∀ target found, db.findOne type id = some (target, found) →
      ∃ row db', (update a type id dto).run db = (.ok row.columns.seo, db') ∧
        Updates a type id dto db db' target found row ∧
        ∀ b, (update b type id dto).run db' = (.ok row.columns.seo, db') := by
  refine ⟨run_update_missing, fun target found h => ?_⟩
  obtain ⟨row, db', hrun, hupdates, hset⟩ := @exists_updates _ _ _ _ a _ _ h hstrings fun _ => hfresh
  obtain ⟨target', hlinked⟩ := hupdates.linked
  exact ⟨row, db', hrun, hupdates, fun b => run_update_again b hlinked hstrings hset⟩

/-- A topic with metadata, a request that blanks its title, and what is drawn for it. -/
def catsMetadata : MetadataEntity := ⟨⟨"m1", by decide⟩, .create (fun _ => some "Cats") 0, 0⟩

def catsTopic : SeoTarget :=
  { id := ⟨"1", by decide⟩, metadata := some catsMetadata.id, columns := [("title", "Cats")]
    updatedAt := 0, deletedAt := false }

def catsDatabase : SeoDatabase where
  targets
    | .topic => ⟨[catsTopic], by decide⟩
    | _ => .empty
  metadata := ⟨[catsMetadata], by decide⟩

def blankTitle : SeoMetadataFieldsDto
  | .metaTitle => some (.str "  ")
  | _ => none

theorem blankTitle_strings : blankTitle.Strings := by
  intro field value h
  cases field with
  | metaTitle => exact ⟨"  ", (Option.some.inj h).symm⟩
  | _ => cases h

def atFive : SeoAmbient := ⟨⟨"m2", by decide⟩, 5, 5⟩

theorem update_alone_cats :
    ∃ (row : MetadataEntity) (db' : SeoDatabase),
      (update atFive .topic catsTopic.id blankTitle).run catsDatabase = (.ok row.columns.seo, db') ∧
        row.columns.seo .metaTitle = none ∧ row.columns.seo .ogTitle = some "Cats" := by
  obtain ⟨row, db', hrun, hupdates, -⟩ := (update_alone catsDatabase .topic catsTopic.id blankTitle
    atFive blankTitle_strings (by decide +kernel)).2 catsTopic (some catsMetadata) (by decide +kernel)
  refine ⟨row, db', hrun, ?_, ?_⟩
  · rw [hupdates.provided .metaTitle "  " rfl]
    decide +kernel
  · rw [hupdates.kept .ogTitle rfl]
    rfl

/-- Not every other column keeps its value: `updatedAt` does not. -/
theorem update_stamps_row :
    ¬∀ (db : SeoDatabase) (type : SeoEntityType) (id : Uuid) (dto : SeoMetadataFieldsDto)
      (a : SeoAmbient) (target : SeoTarget) (stored : MetadataEntity), dto.Strings →
      db.metadata.get a.rowId = none → db.findOne type id = some (target, some stored) →
      ∃ seo, ((update a type id dto).run db).2.metadata.get stored.id =
        some { stored with columns := { stored.columns with seo } } := by
  intro hkept
  obtain ⟨seo, hrow⟩ := hkept catsDatabase .topic catsTopic.id blankTitle atFive catsTopic catsMetadata
    blankTitle_strings (by decide +kernel) (by decide +kernel)
  have hstamp : (((update atFive .topic catsTopic.id blankTitle).run catsDatabase).2.metadata.get
      catsMetadata.id).map MetadataEntity.updatedAt = some 5 := by
    decide +kernel
  rw [hrow] at hstamp
  cases hstamp

end SeoService

end VetHealth
