import VetHealth.Common.Validation
import VetHealth.Content.Tables
import VetHealth.Metadata.Dto

/-!
# VetHealth.Content.References

**What a request on content sees of the tables that it refers to.** `IsExist` looks for a row of an
entity class by the id that a body names, and finds no row that carries a deletion mark; a foreign
key holds when there is a row at all. Both need no more of a row than a `RowRef`.

The ids of these rows are texts that a client may have chosen: `PATCH` with an id that no row has
inserts a row with this id.
-/

namespace VetHealth

open Js

/-- The entity classes that the decorators of the DTOs name. -/
inductive EntityName
  | PostEntity
  | TopicEntity
  | CategoryEntity
  | PageEntity
  | FileEntity
  | PostStatusEntity
  | TopicStatusEntity
  | UserStatusEntity
  | RoleEntity
  deriving DecidableEq, Repr

structure RowRef where
  id : String
  deletedAt : Bool
  deriving DecidableEq, Repr

/-- The rows of the tables that bodies refer to; those of roles and statuses never change, so they
are constants of the model. -/
structure Tables where
  posts : List RowRef
  topics : List RowRef
  categories : List RowRef
  pages : List RowRef
  files : List RowRef

namespace TopicStatusEnum

/-- The `topic-statuses.id` column, a number. -/
def id : TopicStatusEnum → Int
  | active => 1
  | inactive => 2

def rows : List TopicStatusEnum := [active, inactive]

end TopicStatusEnum

/-- The `content_type` column. -/
def TopicContentTypeEnum.text : TopicContentTypeEnum → String
  | page => "page"
  | posts => "post"

def TopicContentTypeEnum.values : List TopicContentTypeEnum := [page, posts]

section

variable [Mysql]

/-- The `topic-statuses` row that an id denotes. -/
def Mysql.topicStatusOf (id : Json) : Option TopicStatusEnum :=
  TopicStatusEnum.rows.find? fun s => Mysql.intOf id = some s.id

/-- The row that an id denotes. The id may be any value, and the database converts it before it
compares. -/
def Mysql.rowOf (rows : List RowRef) (id : Json) : Option String :=
  (rows.find? fun row => Mysql.textOf id = some row.id).map RowRef.id

/-- `findOne({ where: { id } })` finds a row. A deleted row is none. -/
def hasLiveRow (rows : List RowRef) (id : Json) : Bool :=
  rows.any fun row => Mysql.textOf id = some row.id && !row.deletedAt

/-- `getRepository(entity).findOne({ where: { id } })` finds a row. -/
def Tables.hasRow (tables : Tables) : EntityName → Json → Bool
  | .PostEntity => hasLiveRow tables.posts
  | .TopicEntity => hasLiveRow tables.topics
  | .CategoryEntity => hasLiveRow tables.categories
  | .PageEntity => hasLiveRow tables.pages
  | .FileEntity => hasLiveRow tables.files
  | .PostStatusEntity => fun id => (Mysql.postStatusOf id).isSome
  | .TopicStatusEntity => fun id => (Mysql.topicStatusOf id).isSome
  | .UserStatusEntity => fun id => (Mysql.userStatusOf id).isSome
  | .RoleEntity => fun id => (Mysql.roleOf id).isSome

/-- `@Validate(IsExist, [entity, 'id'])`. The entity is named in the decorator, apart from the
relation that the property is saved to. -/
def Tables.isExist (tables : Tables) (entity : EntityName) : Option Json → Bool :=
  IsExist.validate (tables.hasRow entity)

/-- A property that is a text, unless it is absent or `null`, sets its column to this text. -/
theorem Column.ofJson_text {value : Option Json} {column : Column String}
    (h : Column.ofJson Mysql.textOf value = some column)
    (hstring : isNullish value = false → isString value = true) {t : String} :
    column = .set t ↔ value = some (.str t) := by
  constructor
  · rintro rfl
    obtain ⟨j, rfl, htext⟩ := Column.ofJson_eq_set h
    cases j with
    | null => cases h
    | str s => rw [← Option.some.inj ((Mysql.text_str s).symm.trans htext)]
    | _ => cases hstring rfl
  · rintro rfl
    rw [Column.ofJson, Mysql.text_str] at h
    · exact (Option.some.inj h).symm
    · simp

/-- What a property that holds many rows makes of them: `create` ignores a value that is no array,
and an element without a row makes the statement fail. -/
def relationRows (rows : List RowRef) : Option Json → Option (Option (List String))
  | some (.arr items) =>
      (items.mapM fun item => (Json.get "id" item).bind (Mysql.rowOf rows)).map some
  | _ => some none

end

/-- `@IsEnum(TopicContentTypeEnum)`. -/
def isContentType (value : Option Json) : Bool :=
  TopicContentTypeEnum.values.any fun type => value.any (Json.eqString type.text)

/-- `IsNotExist.validate` for a table whose ids are texts. -/
def IsNotExist.validateText (found : Option String) (currentId : Option Json) : Bool :=
  match found with
  | none => true
  | some id => currentId.any (Json.eqString id)

theorem IsNotExist.validate_eq (found : Option Uuid) (currentId : Option Json) :
    IsNotExist.validate found currentId = IsNotExist.validateText (found.map Uuid.text) currentId := by
  cases found <;> rfl

/-- Nothing is found, or it is the row that the body is about. -/
theorem IsNotExist.validateText_eq_true {found : Option String} {currentId : Option Json} :
    IsNotExist.validateText found currentId = true ↔
      ∀ id, found = some id → currentId = some (.str id) := by
  unfold IsNotExist.validateText
  cases found with
  | none => simp
  | some id => cases currentId <;> simp [Option.any]

end VetHealth
