import VetHealth.Pages.Entity
import VetHealth.Posts.Dto

/-!
# VetHealth.Pages.Dto

The bodies that create and update a page, the checks of their DTOs, and the payload that the
repository makes of them.
-/

namespace VetHealth

open Js

/-- The body of `POST /pages`. -/
structure CreatePageDto where
  title : Option Json := none
  content : Option Json := none
  slug : Option Json := none
  status : Option Json := none
  metadata : Option Json := none

/-- The body of `PATCH /pages`. -/
structure UpdatePageDto extends CreatePageDto where
  id : Option Json := none

variable [Mysql] [UrlSyntax]

section Checks

variable (tables : Tables) (pages : PageEntities)

/-- The properties that the page DTOs share; `optional` is the `@IsOptional()` of `PartialType` and
`currentId` the id that the body carries. -/
def pageProperties (optional : Bool) (currentId : Option Json) (dto : CreatePageDto) :
    List Property :=
  [⟨"title", optional && isNullish dto.title,
      [(isString dto.title, "title must be a string"),
        (isNotEmpty dto.title, "title should not be empty"),
        (IsNotExist.validateText ((findWhere pages PageEntity.title dto.title).map (·.id)) currentId,
          ErrorMessage.TITLE_MUST_BE_UNIQUE)]⟩,
    ⟨"content", optional && isNullish dto.content,
      [(isString dto.content, "content must be a string")]⟩,
    ⟨"slug", isNullish dto.slug,
      [(isString dto.slug, "slug must be a string"),
        (IsNotExist.validateText ((findWhere pages PageEntity.slug dto.slug).map (·.id)) currentId,
          ErrorMessage.SLUG_MUST_BE_UNIQUE)]⟩,
    ⟨"status", optional && isNullish dto.status,
      [(tables.isExist .PostStatusEntity dto.status, ErrorMessage.STATUS_IS_NOT_VALID)]⟩,
    CreateMetadataDto.property dto.metadata]

def CreatePageDto.properties (dto : CreatePageDto) : List Property :=
  pageProperties tables pages false none dto

def UpdatePageDto.properties (dto : UpdatePageDto) : List Property :=
  pageProperties tables pages true dto.id dto.toCreatePageDto ++ [idProperty dto.id]

variable {tables pages}

/-- What the checks establish about a title and a slug that are checked at all. -/
theorem pageProperties_accepted {optional : Bool} {currentId : Option Json} {dto : CreatePageDto}
    (h : ∀ p ∈ pageProperties tables pages optional currentId dto, p.skipped = false →
      ∀ check ∈ p.checks, check.1 = true) :
    ((optional && isNullish dto.title) = false → isString dto.title = true) ∧
      (isNullish dto.slug = false → IsNotExist.validateText
        ((findWhere pages PageEntity.slug dto.slug).map (·.id)) currentId = true) := by
  simp only [pageProperties, List.forall_mem_cons] at h
  obtain ⟨htitle, -, hslug, -⟩ := h
  exact ⟨fun hgiven => (htitle hgiven).1, fun hgiven => (hslug hgiven).2.1⟩

/-- A title that an update gives is a text. -/
theorem UpdatePageDto.title_of_accepted {dto : UpdatePageDto}
    (h : validate (dto.properties tables pages) = []) (hgiven : isNullish dto.title = false) :
    isString dto.title = true := by
  have hall : ∀ p ∈ pageProperties tables pages true dto.id dto.toCreatePageDto,
      p.skipped = false → ∀ check ∈ p.checks, check.1 = true :=
    fun p hp => validate_eq_nil.1 h p (List.mem_append_left _ hp)
  exact (pageProperties_accepted hall).1 hgiven

end Checks

/-! ### From a body to the database -/

omit [UrlSyntax] in
/-- The payload that `create(dto)` stands for; `none` when the database refuses a value. -/
def CreatePageDto.toPatch (dto : CreatePageDto) : Option PagePatch := do
  let title ← Column.ofJson Mysql.textOf dto.title
  let content ← Column.ofJson Mysql.textOf dto.content
  let slug ← Column.ofJson Mysql.textOf dto.slug
  let status ← Column.ofRelation Mysql.postStatusOf dto.status
  return { title, content, slug, status }

omit [UrlSyntax] in
/-- The title and the slug of the payload are those of the body. -/
theorem CreatePageDto.toPatch_texts {dto : CreatePageDto} {patch : PagePatch}
    (h : dto.toPatch = some patch) :
    Column.ofJson Mysql.textOf dto.title = some patch.title ∧
      Column.ofJson Mysql.textOf dto.slug = some patch.slug := by
  simp only [toPatch, Option.pure_def, Option.bind_eq_bind, Option.bind_eq_some_iff,
    Option.some.injEq] at h
  obtain ⟨title, htitle, content, -, slug, hslug, status, -, rfl⟩ := h
  exact ⟨htitle, hslug⟩

end VetHealth
