import VetHealth.Posts.Dto
import VetHealth.Topics.Entity

/-!
# VetHealth.Topics.Dto

The bodies that create and update a topic, the checks of their DTOs, and the payload that the
repository makes of them. `contentType` carries `@IsEnum` twice, and class-validator keeps one
message of each kind.
-/

namespace VetHealth

open Js

/-- The body of `POST /topics`. -/
structure CreateTopicDto where
  title : Option Json := none
  slug : Option Json := none
  image : Option Json := none
  description : Option Json := none
  contentType : Option Json := none
  status : Option Json := none
  categories : Option Json := none
  page : Option Json := none
  parent : Option Json := none
  children : Option Json := none
  metadata : Option Json := none

/-- The body of `PATCH /topics`. -/
structure UpdateTopicDto extends CreateTopicDto where
  id : Option Json := none

variable [Mysql] [UrlSyntax]

section Checks

variable (tables : Tables) (topics : TopicsTable)

/-- The properties that the topic DTOs share; `optional` is the `@IsOptional()` of `PartialType` and
`currentId` the id that the body carries. -/
def topicProperties (optional : Bool) (currentId : Option Json) (dto : CreateTopicDto) :
    List Property :=
  [⟨"title", optional && isNullish dto.title,
      [(isString dto.title, "title must be a string"),
        (IsNotExist.validateText ((findWhere topics TopicEntity.title dto.title).map (·.id)) currentId,
          ErrorMessage.TITLE_MUST_BE_UNIQUE)]⟩,
    ⟨"slug", isNullish dto.slug,
      [(isString dto.slug, "slug must be a string"),
        (IsNotExist.validateText ((findWhere topics TopicEntity.slug dto.slug).map (·.id)) currentId,
          ErrorMessage.SLUG_MUST_BE_UNIQUE)]⟩,
    ⟨"image", optional && isNullish dto.image,
      [(isObject dto.image, "image must be an object"),
        (tables.isExist .FileEntity dto.image, ErrorMessage.IMAGE_IS_NOT_VALID)]⟩,
    ⟨"description", isNullish dto.description,
      [(isString dto.description, "description must be a string")]⟩,
    ⟨"contentType", optional && isNullish dto.contentType,
      [(isContentType dto.contentType,
        "contentType must be one of the following values: page, post")]⟩,
    ⟨"status", optional && isNullish dto.status,
      [(isObject dto.status, "status must be an object"),
        (tables.isExist .TopicStatusEntity dto.status, ErrorMessage.STATUS_IS_NOT_VALID)]⟩,
    ⟨"categories", isNullish dto.categories,
      [(isArray dto.categories, "categories must be an array"),
        (each (tables.isExist .CategoryEntity) dto.categories, ErrorMessage.CATEGORY_IS_NOT_VALID)]⟩,
    ⟨"page", isNullish dto.page,
      [(isObject dto.page, "page must be an object"),
        (tables.isExist .PageEntity dto.page, ErrorMessage.PAGE_IS_NOT_VALID)]⟩,
    ⟨"parent", isNullish dto.parent,
      [(isObject dto.parent, "parent must be an object"),
        (tables.isExist .TopicEntity dto.parent, ErrorMessage.PARENT_IS_NOT_VALID)]⟩,
    ⟨"children", isNullish dto.children,
      [(isArray dto.children, "children must be an array"),
        (each (tables.isExist .TopicEntity) dto.children, ErrorMessage.CHILD_IS_NOT_VALID)]⟩,
    CreateMetadataDto.property dto.metadata]

def CreateTopicDto.properties (dto : CreateTopicDto) : List Property :=
  topicProperties tables topics false none dto

def UpdateTopicDto.properties (dto : UpdateTopicDto) : List Property :=
  topicProperties tables topics true dto.id dto.toCreateTopicDto ++ [idProperty dto.id]

variable {tables topics}

/-- A title that an update gives is a text. -/
theorem UpdateTopicDto.title_of_accepted {dto : UpdateTopicDto}
    (h : validate (dto.properties tables topics) = []) (hgiven : isNullish dto.title = false) :
    isString dto.title = true := by
  have hall := validate_eq_nil.1 h
  simp only [properties, topicProperties, List.cons_append, List.forall_mem_cons] at hall
  exact (hall.1 hgiven).1

end Checks

/-! ### From a body to the database -/

/-- The `content_type` value that a text is. -/
def contentTypeOf (value : Json) : Option TopicContentTypeEnum :=
  TopicContentTypeEnum.values.find? fun type => value.eqString type.text

omit [UrlSyntax] in
/-- The payload that `create(dto)` stands for; `none` when the database refuses a value. The rows of
the join table must refer to rows, too. -/
def CreateTopicDto.toPatch (tables : Tables) (dto : CreateTopicDto) : Option TopicPatch := do
  let title ← Column.ofJson Mysql.textOf dto.title
  let slug ← Column.ofJson Mysql.textOf dto.slug
  let image ← Column.ofRelation (Mysql.rowOf tables.files) dto.image
  let description ← Column.ofJson Mysql.textOf dto.description
  let contentType ← Column.ofJson contentTypeOf dto.contentType
  let status ← Column.ofRelation Mysql.topicStatusOf dto.status
  let _ ← relationRows tables.categories dto.categories
  let page ← Column.ofRelation (Mysql.rowOf tables.pages) dto.page
  let parent ← Column.ofRelation (Mysql.rowOf tables.topics) dto.parent
  let children ← relationRows tables.topics dto.children
  return { title, slug, image, description, contentType, status, page, parent, children }

omit [UrlSyntax] in
/-- The title and the slug of the payload are those of the body. -/
theorem CreateTopicDto.toPatch_texts {tables : Tables} {dto : CreateTopicDto} {patch : TopicPatch}
    (h : dto.toPatch tables = some patch) :
    Column.ofJson Mysql.textOf dto.title = some patch.title ∧
      Column.ofJson Mysql.textOf dto.slug = some patch.slug := by
  simp only [toPatch, Option.pure_def, Option.bind_eq_bind, Option.bind_eq_some_iff,
    Option.some.injEq] at h
  obtain ⟨title, htitle, slug, hslug, image, -, description, -, contentType, -, status, -,
    categories, -, page, -, parent, -, children, -, rfl⟩ := h
  exact ⟨htitle, hslug⟩

omit [UrlSyntax] in
/-- The parent and the children of the payload are those of the body. -/
theorem CreateTopicDto.toPatch_links {tables : Tables} {dto : CreateTopicDto} {patch : TopicPatch}
    (h : dto.toPatch tables = some patch) :
    Column.ofRelation (Mysql.rowOf tables.topics) dto.parent = some patch.parent ∧
      relationRows tables.topics dto.children = some patch.children := by
  simp only [toPatch, Option.pure_def, Option.bind_eq_bind, Option.bind_eq_some_iff,
    Option.some.injEq] at h
  obtain ⟨title, -, slug, -, image, -, description, -, contentType, -, status, -, categories, -,
    page, -, parent, hparent, children, hchildren, rfl⟩ := h
  exact ⟨hparent, hchildren⟩

end VetHealth
