import VetHealth.Common.Repository
import VetHealth.Lib.Prog

/-!
# VetHealth.Seo.Service

**Editing SEO fields.** `SeoService.update` loads a post, page or topic with its metadata row. When
there is one, it saves that row with the given fields replaced; otherwise it inserts a row with the
given fields and links the entity to it. A field is trimmed, and a blank one is stored as `null`.

Each statement is one step of a `Prog`, so that two requests can be interleaved. The ORM writes the
columns of a saved row that differ from the stored ones, and stamps `updatedAt` when it writes
anything, unless the row itself brings another time.
-/

namespace VetHealth

open Js Store Resumption

inductive SeoField
  | metaTitle
  | metaDescription
  | metaKeywords
  | ogTitle
  | ogDescription
  deriving DecidableEq, Repr

def SEO_FIELDS : List SeoField := [.metaTitle, .metaDescription, .metaKeywords, .ogTitle, .ogDescription]

theorem SeoField.mem_fields (field : SeoField) : field ∈ SEO_FIELDS := by cases field <;> decide

/-- A value for each of the five fields; `none` is `null`. -/
abbrev SeoFieldValues := SeoField → Option String

instance : DecidableEq SeoFieldValues := fun values values' =>
  decidable_of_iff (∀ field ∈ SEO_FIELDS, values field = values' field)
    ⟨fun h => funext fun field => h field field.mem_fields, fun h field _ => congrFun h field⟩

inductive SeoEntityType
  | post
  | page
  | topic
  deriving DecidableEq, Repr

/-- The body of `PATCH /seo/:type/:id`. -/
abbrev SeoMetadataFieldsDto := SeoField → Option Json

/-- Every field that is provided is a text. -/
def SeoMetadataFieldsDto.Strings (dto : SeoMetadataFieldsDto) : Prop :=
  ∀ field value, dto field = some value → ∃ s, value = .str s

/-! ### Tables -/

/-- The columns of a metadata row that are not kept by the ORM; `structuredData` as its JSON text. -/
structure MetadataColumns where
  seo : SeoFieldValues
  ogImage : Option String
  ogType : Option String
  twitterTitle : Option String
  twitterDescription : Option String
  twitterImage : Option String
  twitterCard : Option String
  canonicalUrl : Option String
  indexable : Bool
  followable : Bool
  structuredData : Option String
  createdAt : Int
  deriving DecidableEq

/-- A row of `metadata`. -/
structure MetadataEntity where
  id : Uuid
  columns : MetadataColumns
  updatedAt : Int
  deriving DecidableEq

/-- A post, page or topic; `columns` are those that the service does not look at. -/
structure SeoTarget where
  id : Uuid
  metadata : Option Uuid
  columns : List (String × String)
  updatedAt : Int
  deletedAt : Bool
  deriving DecidableEq

structure SeoDatabase where
  targets : SeoEntityType → Table SeoTarget.id
  metadata : Table MetadataEntity.id

/-- The columns of a new row with some SEO fields. -/
def MetadataColumns.create (seo : SeoFieldValues) (createdAt : Int) : MetadataColumns :=
  { seo, createdAt, ogImage := none, ogType := none, twitterTitle := none
    twitterDescription := none, twitterImage := none, twitterCard := none, canonicalUrl := none
    indexable := true, followable := true, structuredData := none }

namespace SeoDatabase

variable (db : SeoDatabase)

/-- `findOne({ where: { id }, relations: { metadata: true } })`. -/
def findOne (type : SeoEntityType) (id : Uuid) : Option (SeoTarget × Option MetadataEntity) :=
  (((db.targets type).get id).filter fun target => !target.deletedAt).map fun target =>
    (target, target.metadata.bind db.metadata.get)

/-- The row `stored` with the columns of `given` written over it. The ORM sets the time of the
write, unless the caller has set one. -/
def overwrite (now : Int) (given stored : MetadataEntity) : MetadataEntity :=
  { stored with
    columns := given.columns
    updatedAt := if given.updatedAt = stored.updatedAt then now else given.updatedAt }

/-- `metadataRepository.save(given)` for a row that was loaded: it inserts the row when that is not
there any more, and writes nothing when nothing differs. -/
def saveMetadata (now : Int) (given : MetadataEntity) : Except Failure MetadataEntity × SeoDatabase :=
  match db.metadata.get given.id with
  | none =>
      match db.metadata.insert given with
      | none => (.error (.internal .queryFailed), db)
      | some metadata => (.ok given, { db with metadata })
  | some stored =>
      if given = stored then (.ok given, db)
      else (.ok given, { db with
        metadata := db.metadata.modify (fun row => row.id = given.id)
          ⟨overwrite now given, fun _ => rfl⟩ })

/-- `metadataRepository.save(metadataRepository.create(values))`. -/
def insertMetadata (created : MetadataEntity) : Except Failure MetadataEntity × SeoDatabase :=
  match db.metadata.insert created with
  | none => (.error (.internal .queryFailed), db)
  | some metadata => (.ok created, { db with metadata })

/-- `repository.update(id, { metadata: { id: metadataId } })`. -/
def linkMetadata (now : Int) (type : SeoEntityType) (id metadataId : Uuid) :
    Except Failure Unit × SeoDatabase :=
  (.ok (), { db with
    targets := Function.update db.targets type <|
      (db.targets type).modify (fun target => target.id = id)
        ⟨fun target => { target with metadata := some metadataId, updatedAt := now }, fun _ => rfl⟩ })

end SeoDatabase

/-! ### `SeoService` -/

/-- What a request draws: the id of the row that it may insert, and the time of its two writes. -/
structure SeoAmbient where
  rowId : Uuid
  savedAt : Int
  linkedAt : Int

namespace SeoService

/-- `text.trim() || null`. -/
def trimOrNull (text : String) : Option String :=
  let trimmed := String.ofList (trim text.toList)
  if trimmed = "" then none else some trimmed

/-- The fields that a body sets, with their values. A field that is left out is not set, and a blank
one is set to `null`. -/
def setFields (dto : SeoMetadataFieldsDto) : SeoField → Option (Option String) :=
  fun field => ((dto field).bind Json.asString?).map trimOrNull

/-- The loop over the fields: what is provided and no text has no `trim`, and the request ends
there. -/
def values (dto : SeoMetadataFieldsDto) : Except Failure (SeoField → Option (Option String)) :=
  if SEO_FIELDS.all fun field => (dto field).all fun value => value.asString?.isSome then
    .ok (setFields dto)
  else .error (.internal .typeError)

/-- `{ ...columns, ...values }`. -/
def merge (columns : MetadataColumns) (values : SeoField → Option (Option String)) :
    MetadataColumns :=
  { columns with seo := fun field => (values field).getD (columns.seo field) }

/-- The row that a request inserts: the fields of the body, and `null` for everything else. -/
def created (a : SeoAmbient) (values : SeoField → Option (Option String)) : MetadataEntity :=
  ⟨a.rowId, merge (.create (fun _ => none) a.savedAt) values, a.savedAt⟩

def pickSeoFields (metadata : MetadataEntity) : SeoFieldValues := metadata.columns.seo

def update (a : SeoAmbient) (type : SeoEntityType) (id : Uuid) (dto : SeoMetadataFieldsDto) :
    Prog SeoDatabase Failure SeoFieldValues := do
  let target ← Prog.atomic fun db => (.ok (db.findOne type id), db)
  match target with
  | none => throw .notFound
  | some (_, metadata) =>
      let values ← Prog.lift (values dto)
      match metadata with
      | some row =>
          let saved ← Prog.atomic fun db =>
            db.saveMetadata a.savedAt { row with columns := merge row.columns values }
          return pickSeoFields saved
      | none =>
          let created ← Prog.atomic fun db => db.insertMetadata (created a values)
          Prog.atomic fun db => db.linkMetadata a.linkedAt type id created.id
          return pickSeoFields created

end SeoService

end VetHealth
