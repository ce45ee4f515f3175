import VetHealth.Common.Repository
import VetHealth.Users.Entity

/-!
# VetHealth.Posts.Entity

The `posts` table, the rows of other tables that a post request reads, and the way the
repository writes a post.

A `PostPatch` is a partial payload of a post after the database's conversions. Before it is
written, the `createSlug` hook replaces its slug by `slugify(slug || title)` when it has one
of the two.
-/

namespace VetHealth

open Js Store

/-- The `slugify` package, with the options that the entities pass. Nothing is asked of it here;
where a claim needs a fact about slugs, the fact is a hypothesis. -/
class Slugify where
  slugify : String → String

/-- `createSlug`, the entity's `BeforeInsert` and `BeforeUpdate` hook: the slug it computes from
a slug and a title, if it computes one. -/
def slugFrom [Slugify] (slug title : Option String) : Option String :=
  ((slug.filter fun s => s ≠ "").or (title.filter fun s => s ≠ "")).map Slugify.slugify

/-- A row of `posts`. The relations hold ids; the metadata row is not part of the model. -/
structure PostEntity where
  id : Uuid
  title : String
  content : String
  slug : String
  featuredImageFile : Option Uuid
  featuredImageUrl : Option String
  status : Option PostStatusEnum
  categories : List Uuid
  topics : List Uuid
  author : Option Uuid
  deletedAt : Bool
  deriving DecidableEq

abbrev PostsTable := Table PostEntity.id

/-- A live row of `topics` or `categories`, by what a post request reads of it. -/
structure TreeEntity where
  id : Uuid
  parent : Option Uuid
  deriving DecidableEq

/-- The other tables that a post request reads. -/
structure Site where
  users : UsersTable
  topics : List TreeEntity
  categories : List TreeEntity
  files : List Uuid

/-- A payload for `postsRepository.save(postsRepository.create(payload))`: for every column, whether
the body says anything of it. -/
structure PostPatch where
  title : Column String := .keep
  content : Column String := .keep
  slug : Column String := .keep
  featuredImageFile : Column Uuid := .keep
  featuredImageUrl : Column String := .keep
  status : Column PostStatusEnum := .keep
  categories : Option (List Uuid) := none
  topics : Option (List Uuid) := none
  author : Column Uuid := .keep

namespace PostPatch

/-- The row that the save leaves in place of `post`. -/
def applyTo (patch : PostPatch) (post : PostEntity) : PostEntity :=
  { post with
    title := patch.title.applyRequired post.title
    content := patch.content.applyRequired post.content
    slug := patch.slug.applyRequired post.slug
    featuredImageFile := patch.featuredImageFile.apply post.featuredImageFile
    featuredImageUrl := patch.featuredImageUrl.apply post.featuredImageUrl
    status := patch.status.apply post.status
    categories := patch.categories.getD post.categories
    topics := patch.topics.getD post.topics
    author := patch.author.apply post.author }

def edit (patch : PostPatch) : Edit PostEntity.id := ⟨patch.applyTo, fun _ => rfl⟩

/-- No `NOT NULL` column is cleared. The database refuses a statement that does. -/
def storable (patch : PostPatch) : Bool :=
  patch.title ≠ .clear && patch.content ≠ .clear && patch.slug ≠ .clear

/-- The `BeforeUpdate` hook. -/
def createSlug [Slugify] (patch : PostPatch) : PostPatch :=
  match slugFrom patch.slug.value? patch.title.value? with
  | some slug => { patch with slug := .set slug }
  | none => patch

@[simp] theorem createSlug_status [Slugify] (patch : PostPatch) :
    patch.createSlug.status = patch.status := by
  unfold createSlug
  split
  · rfl
  · rfl

@[simp] theorem createSlug_author [Slugify] (patch : PostPatch) :
    patch.createSlug.author = patch.author := by
  unfold createSlug
  split
  · rfl
  · rfl

/-- Some other row holds the title or the slug that the payload sets. Both columns are unique, in
the collation of the table. -/
def taken (patch : PostPatch) (posts : PostsTable) (id : Uuid) : Bool :=
  posts.rows.any fun post =>
    post.id ≠ id && (patch.title = .set post.title || patch.slug = .set post.slug)

end PostPatch

/-! ### `PostsRepository` -/

namespace PostsRepository

variable [Slugify]

/-- `save` of a payload with the id of a stored row. -/
def save (posts : PostsTable) (id : Uuid) (patch : PostPatch) : Except Failure PostsTable :=
  Repository.save posts id (patch.storable && !patch.createSlug.taken posts id) patch.createSlug.edit

/-- `save` of a new row, whose slug the `BeforeInsert` hook has set. -/
def insert (posts : PostsTable) (post : PostEntity) : Except Failure PostsTable :=
  Repository.insert posts
    (!posts.rows.any fun other => other.title = post.title || other.slug = post.slug) post

end PostsRepository

end VetHealth
