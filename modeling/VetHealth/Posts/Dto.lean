import VetHealth.Posts.Entity
import VetHealth.Common.Validation

/-!
# VetHealth.Posts.Dto

The bodies that create and update a post, the checks of their DTOs, and the row or payload
that the repository makes of them.

`author` has no validator of its own, so a body with an author is refused on create. The
`@IsOptional()` that `PartialType` puts on every property of `UpdatePostDto` is a validator,
so on update the author is accepted, whatever it is.
-/

namespace VetHealth

open Js

/-- The body of `POST /posts`. -/
structure CreatePostDto where
  title : Option Json := none
  content : Option Json := none
  slug : Option Json := none
  author : Option Json := none
  status : Option Json := none
  featuredImageFile : Option Json := none
  featuredImageUrl : Option Json := none
  categories : Option Json := none
  topics : Option Json := none

/-- The body of `PATCH /posts`. -/
structure UpdatePostDto extends CreatePostDto where
  id : Option Json := none

/-- `@Transform(({ obj }) => stringToSlugTransform(obj.slug))`: a slug that is present is
rewritten before it is checked, and `slugify` throws unless it is a text. -/
def transformSlug [Slugify] (slug : Option Json) : Except Failure (Option Json) :=
  match slug with
  | none => .ok none
  | some (.str s) => .ok (some (.str (Slugify.slugify s)))
  | some _ => .error (.internal (.error "slugify: string argument expected"))

variable [Mysql]

section Checks

variable (site : Site) (posts : PostsTable)

/-- The relation property names a live row of the ids, as far as its decorator looks. -/
def existsIn (ids : List Uuid) : Option Json → Bool :=
  IsExist.validate fun id => (Mysql.uuidOf ids id).isSome

/-- The status must name a row of its table. An update that clears it is not asked, since `null`
skips the checks. -/
def postStatusProperty (optional : Bool) (status : Option Json) : Property :=
  ⟨"status", optional && isNullish status,
    [(IsExist.validate (fun id => (Mysql.postStatusOf id).isSome) status,
      ErrorMessage.STATUS_IS_NOT_VALID)]⟩

/-- The properties that the post DTOs share; `optional` is the `@IsOptional()` of `PartialType`
and `currentId` the id that the body carries. -/
def postProperties (optional : Bool) (currentId : Option Json) (dto : CreatePostDto) :
    List Property :=
  [⟨"title", optional && isNullish dto.title,
      [(isString dto.title, "title must be a string"),
        (isNotEmpty dto.title, "title should not be empty"),
        (IsNotExist.validate ((findWhere posts PostEntity.title dto.title).map (·.id)) currentId,
          ErrorMessage.TITLE_MUST_BE_UNIQUE)]⟩,
    ⟨"content", optional && isNullish dto.content,
      [(isString dto.content, "content must be a string")]⟩,
    ⟨"slug", isNullish dto.slug,
      [(isString dto.slug, "slug must be a string"),
        (IsNotExist.validate ((findWhere posts PostEntity.slug dto.slug).map (·.id)) currentId,
          ErrorMessage.SLUG_MUST_BE_UNIQUE)]⟩,
    ⟨"author", optional || dto.author.isNone, [(false, "property author should not exist")]⟩,
    postStatusProperty optional dto.status,
    ⟨"featuredImageFile", isNullish dto.featuredImageFile,
      [(existsIn site.files dto.featuredImageFile, ErrorMessage.IMAGE_IS_NOT_VALID)]⟩,
    ⟨"featuredImageUrl", isNullish dto.featuredImageUrl, []⟩,
    ⟨"categories", isNullish dto.categories,
      [(isArray dto.categories, "categories must be an array"),
        (each (existsIn (site.categories.map TreeEntity.id)) dto.categories,
          ErrorMessage.CATEGORY_IS_NOT_VALID)]⟩,
    ⟨"topics", isNullish dto.topics,
      [(isArray dto.topics, "topics must be an array"),
        (each (existsIn (site.topics.map TreeEntity.id)) dto.topics,
          ErrorMessage.TOPIC_IS_NOT_VALID)]⟩]

def CreatePostDto.properties (dto : CreatePostDto) : List Property :=
  postProperties site posts false none dto

def UpdatePostDto.properties (dto : UpdatePostDto) : List Property :=
  postProperties site posts true dto.id dto.toCreatePostDto ++
    [idProperty dto.id]

variable {site posts}

/-- The id of an accepted update is a text. -/
theorem UpdatePostDto.id_of_accepted {dto : UpdatePostDto}
    (h : validate (dto.properties site posts) = []) : ∃ id, dto.id = some (.str id) :=
  idProperty_accepted h (by simp [UpdatePostDto.properties])

/-- A status that is checked at all and accepted has an id. -/
theorem postStatusProperty_accepted {properties : List Property} {optional : Bool}
    {status : Option Json} (h : validate properties = [])
    (hmem : postStatusProperty optional status ∈ properties) :
    (optional = true ∧ isNullish status = true) ∨ ∃ id, get? status "id" = some id := by
  have hchecks := validate_eq_nil.1 h _ hmem
  cases hskip : optional && isNullish status with
  | true => exact Or.inl (Bool.and_eq_true_iff.1 hskip)
  | false =>
      obtain ⟨id, hid, -⟩ :=
        IsExist.validate_eq_true.1 (hchecks hskip _ List.mem_cons_self)
      exact Or.inr ⟨id, hid⟩

theorem CreatePostDto.status_of_accepted {dto : CreatePostDto}
    (h : validate (dto.properties site posts) = []) : ∃ id, get? dto.status "id" = some id := by
  have hmem : postStatusProperty false dto.status ∈ dto.properties site posts := by
    simp [CreatePostDto.properties, postProperties]
  rcases postStatusProperty_accepted h hmem with ⟨hfalse, -⟩ | hid
  · cases hfalse
  · exact hid

/-- A body with an author is not accepted on create: the property has no decorator, and the pipe
refuses what it does not know. -/
theorem CreatePostDto.author_of_accepted {dto : CreatePostDto}
    (h : validate (dto.properties site posts) = []) : dto.author = none := by
  have hmem : (⟨"author", false || dto.author.isNone,
      [(false, "property author should not exist")]⟩ : Property) ∈ dto.properties site posts := by
    simp [CreatePostDto.properties, postProperties]
  cases hauthor : dto.author with
  | none => rfl
  | some author =>
      have hcheck := validate_eq_nil.1 h _ hmem (by rw [hauthor]; rfl) _ List.mem_cons_self
      cases hcheck

theorem UpdatePostDto.status_of_accepted {dto : UpdatePostDto}
    (h : validate (dto.properties site posts) = []) :
    isNullish dto.status = true ∨ ∃ id, get? dto.status "id" = some id := by
  have hmem : postStatusProperty true dto.status ∈ dto.properties site posts := by
    simp [UpdatePostDto.properties, postProperties]
  exact (postStatusProperty_accepted h hmem).imp_left And.right

/-- A title that an update gives is a text. -/
theorem UpdatePostDto.title_of_accepted {dto : UpdatePostDto}
    (h : validate (dto.properties site posts) = []) (hgiven : isNullish dto.title = false) :
    isString dto.title = true := by
  have hall := validate_eq_nil.1 h
  simp only [properties, postProperties, List.cons_append, List.forall_mem_cons] at hall
  exact (hall.1 hgiven).1

end Checks

/-! ### From a body to the database -/

variable [Slugify]

/-- The payload that `create(dto)` stands for; `none` when the database refuses a value. -/
def CreatePostDto.toPatch (site : Site) (dto : CreatePostDto) : Option PostPatch := do
  let title ← Column.ofJson Mysql.textOf dto.title
  let content ← Column.ofJson Mysql.textOf dto.content
  let slug ← Column.ofJson Mysql.textOf dto.slug
  let featuredImageFile ← Column.ofRelation (Mysql.uuidOf site.files) dto.featuredImageFile
  let featuredImageUrl ← Column.ofJson Mysql.textOf dto.featuredImageUrl
  let status ← Column.ofRelation Mysql.postStatusOf dto.status
  let categories ← relationIds (site.categories.map TreeEntity.id) dto.categories
  let topics ← relationIds (site.topics.map TreeEntity.id) dto.topics
  let author ← Column.ofRelation (Mysql.uuidOf (site.users.rows.map UserEntity.id)) dto.author
  return {
    title, content, slug, featuredImageFile, featuredImageUrl, status, categories, topics, author }

/-- The row that a payload without an id inserts; `none` when a `NOT NULL` column has no value. The
relations that are not given are empty. -/
def PostPatch.toEntity (id : Uuid) (patch : PostPatch) : Option PostEntity := do
  let title ← patch.title.value?
  let content ← patch.content.value?
  let slug ← slugFrom patch.slug.value? patch.title.value?
  return {
    id, title, content, slug
    featuredImageFile := patch.featuredImageFile.value?
    featuredImageUrl := patch.featuredImageUrl.value?
    status := patch.status.value?
    categories := patch.categories.getD []
    topics := patch.topics.getD []
    author := patch.author.value?
    deletedAt := false }

omit [Slugify] in
/-- The title and the slug of the payload are those of the body. Nothing rewrites them between the
checks and the hook. -/
theorem CreatePostDto.toPatch_texts {site : Site} {dto : CreatePostDto} {patch : PostPatch}
    (h : dto.toPatch site = some patch) :
    Column.ofJson Mysql.textOf dto.title = some patch.title ∧
      Column.ofJson Mysql.textOf dto.slug = some patch.slug := by
  simp only [CreatePostDto.toPatch, Option.pure_def, Option.bind_eq_bind,
    Option.bind_eq_some_iff, Option.some.injEq] at h
  obtain ⟨title, htitle, content, -, slug, hslug, file, -, url, -, status, -, categories, -,
    topics, -, author, -, rfl⟩ := h
  exact ⟨htitle, hslug⟩

omit [Slugify] in
/-- The payload's status is the body's. -/
theorem CreatePostDto.toPatch_status {site : Site} {dto : CreatePostDto} {patch : PostPatch}
    (h : dto.toPatch site = some patch) :
    Column.ofRelation Mysql.postStatusOf dto.status = some patch.status := by
  simp only [CreatePostDto.toPatch, Option.pure_def, Option.bind_eq_bind,
    Option.bind_eq_some_iff, Option.some.injEq] at h
  obtain ⟨title, -, content, -, slug, -, file, -, url, -, status, hstatus, categories, -, topics, -,
    author, -, rfl⟩ := h
  exact hstatus

omit [Slugify] in
/-- The payload's author is the body's. -/
theorem CreatePostDto.toPatch_author {site : Site} {dto : CreatePostDto} {patch : PostPatch}
    (h : dto.toPatch site = some patch) :
    Column.ofRelation (Mysql.uuidOf (site.users.rows.map UserEntity.id)) dto.author =
      some patch.author := by
  simp only [CreatePostDto.toPatch, Option.pure_def, Option.bind_eq_bind,
    Option.bind_eq_some_iff, Option.some.injEq] at h
  obtain ⟨title, -, content, -, slug, -, file, -, url, -, status, -, categories, -, topics, -,
    author, hauthor, rfl⟩ := h
  exact hauthor

omit [Mysql] in
theorem PostPatch.toEntity_author {id : Uuid} {patch : PostPatch} {post : PostEntity}
    (h : patch.toEntity id = some post) : post.author = patch.author.value? := by
  simp only [PostPatch.toEntity, Option.pure_def, Option.bind_eq_bind,
    Option.bind_eq_some_iff, Option.some.injEq] at h
  obtain ⟨title, -, content, -, slug, -, rfl⟩ := h
  rfl

omit [Mysql] in
theorem PostPatch.toEntity_eq_some {id : Uuid} {patch : PostPatch} {post : PostEntity}
    (h : patch.toEntity id = some post) : post.id = id ∧ post.status = patch.status.value? := by
  simp only [PostPatch.toEntity, Option.pure_def, Option.bind_eq_bind,
    Option.bind_eq_some_iff, Option.some.injEq] at h
  obtain ⟨title, -, content, -, slug, -, rfl⟩ := h
  exact ⟨rfl, rfl⟩

end VetHealth
