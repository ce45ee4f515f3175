import VetHealth.Categories.Entity
import VetHealth.Posts.Dto

/-!
# VetHealth.Categories.Dto

The bodies that create and update a category, the checks of their DTOs, and the payload that the
repository makes of them. The ids of `posts` and `topics` are looked for among the categories.
-/

namespace VetHealth

open Js

/-- The body of `POST /categories`. -/
structure CreateCategoryDto where
  name : Option Json := none
  slug : Option Json := none
  posts : Option Json := none
  topics : Option Json := none
  parent : Option Json := none
  children : Option Json := none
  metadata : Option Json := none

/-- The body of `PATCH /categories`. -/
structure UpdateCategoryDto extends CreateCategoryDto where
  id : Option Json := none

variable [Mysql] [UrlSyntax]

section Checks

variable (tables : Tables) (categories : CategoriesTable)

/-- The properties that the category DTOs share; `optional` is the `@IsOptional()` of `PartialType`
and `currentId` the id that the body carries. -/
def categoryProperties (optional : Bool) (currentId : Option Json) (dto : CreateCategoryDto) :
    List Property :=
  [⟨"name", optional && isNullish dto.name, [(isString dto.name, "name must be a string")]⟩,
    ⟨"slug", isNullish dto.slug,
      [(isString dto.slug, "slug must be a string"),
        (IsNotExist.validateText ((findWhere categories CategoryEntity.slug dto.slug).map (·.id))
          currentId, ErrorMessage.SLUG_MUST_BE_UNIQUE)]⟩,
    ⟨"posts", isNullish dto.posts,
      [(each (tables.isExist .CategoryEntity) dto.posts, ErrorMessage.POST_IS_NOT_VALID)]⟩,
    ⟨"topics", isNullish dto.topics,
      [(each (tables.isExist .CategoryEntity) dto.topics, ErrorMessage.TOPIC_IS_NOT_VALID),
        (isArray dto.topics, "topics must be an array")]⟩,
    ⟨"parent", isNullish dto.parent,
      [(tables.isExist .CategoryEntity dto.parent, ErrorMessage.PARENT_IS_NOT_VALID)]⟩,
    ⟨"children", isNullish dto.children,
      [(each (tables.isExist .CategoryEntity) dto.children, ErrorMessage.CHILD_IS_NOT_VALID),
        (isArray dto.children, "children must be an array")]⟩,
    CreateMetadataDto.property dto.metadata]

def CreateCategoryDto.properties (dto : CreateCategoryDto) : List Property :=
  categoryProperties tables categories false none dto

def UpdateCategoryDto.properties (dto : UpdateCategoryDto) : List Property :=
  categoryProperties tables categories true dto.id dto.toCreateCategoryDto ++ [idProperty dto.id]

variable {tables categories}

/-- A name that an update gives is a text. -/
theorem UpdateCategoryDto.name_of_accepted {dto : UpdateCategoryDto}
    (h : validate (dto.properties tables categories) = []) (hgiven : isNullish dto.name = false) :
    isString dto.name = true := by
  have hall := validate_eq_nil.1 h
  simp only [properties, categoryProperties, List.cons_append, List.forall_mem_cons] at hall
  exact (hall.1 hgiven).1

end Checks

/-! ### From a body to the database -/

omit [UrlSyntax] in
/-- The payload that `create(dto)` stands for; `none` when the database refuses a value. The rows of
the join tables must refer to posts and topics, whatever the checks have looked at. -/
def CreateCategoryDto.toPatch (tables : Tables) (dto : CreateCategoryDto) : Option CategoryPatch := do
  let name ← Column.ofJson Mysql.textOf dto.name
  let slug ← Column.ofJson Mysql.textOf dto.slug
  let _ ← relationRows tables.posts dto.posts
  let _ ← relationRows tables.topics dto.topics
  let parent ← Column.ofRelation (Mysql.rowOf tables.categories) dto.parent
  let children ← relationRows tables.categories dto.children
  return { name, slug, parent, children }

omit [UrlSyntax] in
/-- The name and the slug of the payload are those of the body. -/
theorem CreateCategoryDto.toPatch_texts {tables : Tables} {dto : CreateCategoryDto}
    {patch : CategoryPatch} (h : dto.toPatch tables = some patch) :
    Column.ofJson Mysql.textOf dto.name = some patch.name ∧
      Column.ofJson Mysql.textOf dto.slug = some patch.slug := by
  simp only [toPatch, Option.pure_def, Option.bind_eq_bind, Option.bind_eq_some_iff,
    Option.some.injEq] at h
  obtain ⟨name, hname, slug, hslug, posts, -, topics, -, parent, -, children, -, rfl⟩ := h
  exact ⟨hname, hslug⟩

omit [UrlSyntax] in
/-- The parent and the children of the payload are those of the body. -/
theorem CreateCategoryDto.toPatch_links {tables : Tables} {dto : CreateCategoryDto}
    {patch : CategoryPatch} (h : dto.toPatch tables = some patch) :
    Column.ofRelation (Mysql.rowOf tables.categories) dto.parent = some patch.parent ∧
      relationRows tables.categories dto.children = some patch.children := by
  simp only [toPatch, Option.pure_def, Option.bind_eq_bind, Option.bind_eq_some_iff,
    Option.some.injEq] at h
  obtain ⟨name, -, slug, -, posts, -, topics, -, parent, hparent, children, hchildren, rfl⟩ := h
  exact ⟨hparent, hchildren⟩

end VetHealth
