import VetHealth.Common.Collation
import VetHealth.Lib.Paging
import VetHealth.Posts.Entity

/-!
# VetHealth.Content.Tables

The tables that the public read requests load, and what the ORM joins to a row. Rows that carry
a deletion mark are neither found nor joined. A join table is kept with one of its two sides: a
post holds the ids of its topics and categories, a topic those of its categories, a user those of
its topics.
-/

namespace VetHealth

open Store

/-- A row of `posts` with the columns that only reading uses. -/
structure PostRow extends PostEntity where
  createdAt : Int
  updatedAt : Int
  metadata : Option Uuid
  deriving DecidableEq

inductive TopicStatusEnum
  | active
  | inactive
  deriving DecidableEq, Repr

/-- The `topic-statuses.name` column. -/
def TopicStatusEnum.name : TopicStatusEnum → String
  | active => "Active"
  | inactive => "Inactive"

inductive TopicContentTypeEnum
  | page
  | posts
  deriving DecidableEq, Repr

/-- A row of `topics`. -/
structure TopicRow where
  id : Uuid
  title : String
  image : Option Uuid
  description : Option String
  status : Option TopicStatusEnum
  metadata : Option Uuid
  slug : String
  contentType : TopicContentTypeEnum
  categories : List Uuid
  page : Option Uuid
  parent : Option Uuid
  createdAt : Int
  updatedAt : Int
  deletedAt : Bool
  deriving DecidableEq

/-- A row of `categories`. -/
structure CategoryRow where
  id : Uuid
  name : String
  slug : String
  parent : Option Uuid
  metadata : Option Uuid
  createdAt : Int
  updatedAt : Int
  deletedAt : Bool
  deriving DecidableEq

/-- A row of `pages`. -/
structure PageRow where
  id : Uuid
  title : String
  content : String
  slug : String
  status : Option PostStatusEnum
  metadata : Option Uuid
  deletedAt : Bool
  deriving DecidableEq

/-- A row of `metadata`: all its columns are handed out as they are. -/
structure MetadataRow where
  id : Uuid
  columns : List (String × String)
  deriving DecidableEq

/-- A row of `files`. -/
structure FileRow where
  id : Uuid
  path : String
  deriving DecidableEq

/-- The tables that the public read requests load. Titles and slugs of posts are unique. -/
structure Content [Collation] where
  posts : Table fun post : PostRow => post.id
  topics : Table TopicRow.id
  categories : Table CategoryRow.id
  users : UsersTable
  pages : Table PageRow.id
  metadata : Table MetadataRow.id
  files : Table FileRow.id
  unique_titles : posts.rows.Pairwise fun p q => Collation.eq p.title q.title = false
  unique_slugs : posts.rows.Pairwise fun p q => Collation.eq p.slug q.slug = false

/-- The criteria that a controller hands to `findOne`: an id from the path, or a slug. -/
inductive RowKey
  | id (text : String)
  | slug (text : String)

def RowKey.names [Collation] (key : RowKey) (id : Uuid) (slug : String) : Bool :=
  match key with
  | .id text => id.text = text
  | .slug text => Collation.eq slug text

/-- The criterion `text && Like('%' + text + '%')` on a column: an empty text is looked for as it
is, as the `&&` hands it on. -/
def looksFor [Collation] (text column : String) : Bool :=
  if text = "" then Collation.eq column text else Collation.like ("%" ++ text ++ "%") column

/-! ### Pages of rows -/

/-- The page number and the page size of an accepted query. -/
structure PaginationQueryDto where
  page : Nat
  size : Nat
  page_pos : 0 < page
  size_pos : 0 < size

structure PaginationType (α : Type) where
  items : List α
  count : Nat
  currentPage : Nat
  totalPages : Nat
  deriving DecidableEq

/-- The page that a query asks for of `count` listed rows, each row loaded by `load`. The count
comes from a query of its own, before the cut. -/
def PaginationQueryDto.paginate {ρ α : Type} (query : PaginationQueryDto) (count : Nat)
    (listed : List ρ) (load : ρ → α) : PaginationType α where
  items := (Paging.page query.size query.page listed).map load
  count := count
  currentPage := query.page
  totalPages := Paging.totalPages query.size count

/-- `FindOptionsOrderValue`. -/
inductive OrderValue
  | ASC
  | DESC
  deriving DecidableEq, Repr

def PaginationType.map {α β : Type} (f : α → β) (found : PaginationType α) : PaginationType β where
  items := found.items.map f
  count := found.count
  currentPage := found.currentPage
  totalPages := found.totalPages

/-- How the database lists the rows that a query selects: in some order that depends on them alone.
An order that the ORM refuses is `none`. -/
structure Listing (order ρ : Type) (isOrderable : order → Bool) where
  list : order → List ρ → Option (List ρ)
  accepts : ∀ o rows, isOrderable o = true → ∃ listed, list o rows = some listed ∧ listed.Perm rows
  refuses : ∀ o rows, isOrderable o = false → list o rows = none

/-! ### Loading what a query selects -/

section

variable {ρ α β order : Type} {isOrderable : order → Bool}

/-- The row that a query found, loaded; without one the service throws `NotFoundException`. -/
def findOrFail (found : Option ρ) (load : ρ → α) : Except Failure α :=
  match found with
  | none => .error .notFound
  | some row => .ok (load row)

/-- The page of `rows` that a query asks for, loaded. -/
def findAndCount (listing : Listing order ρ isOrderable) (o : order) (rows : List ρ)
    (queryDto : PaginationQueryDto) (load : ρ → α) : Except Failure (PaginationType α) :=
  match listing.list o rows with
  | none => .error (.internal .queryFailed)
  | some listed => .ok (queryDto.paginate rows.length listed load)

/-- The rows of the page. -/
def Listing.page (listing : Listing order ρ isOrderable) (o : order) (rows : List ρ)
    (queryDto : PaginationQueryDto) : List ρ :=
  ((listing.list o rows).map (Paging.page queryDto.size queryDto.page)).getD []

/-- A page is empty when it begins after the last row, or when there are no pages. Then nothing is
shown of any row, whatever is loaded with it. -/
theorem Listing.page_eq_nil (listing : Listing order ρ isOrderable) (o : order) (rows : List ρ)
    (queryDto : PaginationQueryDto) :
    listing.page o rows queryDto = [] ↔
      (isOrderable o = true → rows.length ≤ (queryDto.page - 1) * queryDto.size) := by
  unfold Listing.page
  cases horder : isOrderable o with
  | false =>
      rw [listing.refuses o rows horder]
      simp
  | true =>
      obtain ⟨listed, hlisted, hperm⟩ := listing.accepts o rows horder
      rw [hlisted, Option.map_some, Option.getD_some, Paging.page_eq_nil queryDto.size_pos,
        hperm.length_eq]
      simp

variable {γ : Type} {load load' : ρ → α} {view view' : α → β}

/-- Two ways to load and show a row that give the same answer show the row that is found alike. It
carries a statement about loading to one about requests. -/
theorem findOrFail_map_eq {wrap : β → γ} (hwrap : Function.Injective wrap) {found : Option ρ} :
    ((findOrFail found load').map fun loaded => wrap (view' loaded)) =
        ((findOrFail found load).map fun loaded => wrap (view loaded)) ↔
      ∀ row, found = some row → view' (load' row) = view (load row) := by
  cases found with
  | none => simp [findOrFail, Except.map]
  | some row => simp [findOrFail, Except.map, hwrap.eq_iff]

/-- Two ways to load and show rows that give the same answer show the rows of the page alike. -/
theorem findAndCount_map_eq {wrap : PaginationType β → γ} (hwrap : Function.Injective wrap)
    {listing : Listing order ρ isOrderable} {o : order} {rows : List ρ}
    {queryDto : PaginationQueryDto} :
    ((findAndCount listing o rows queryDto load').map fun found => wrap (found.map view')) =
        ((findAndCount listing o rows queryDto load).map fun found => wrap (found.map view)) ↔
      ∀ row ∈ listing.page o rows queryDto, view' (load' row) = view (load row) := by
  unfold findAndCount Listing.page
  cases listing.list o rows with
  | none => simp [Except.map]
  | some listed =>
      simp [Except.map, hwrap.eq_iff, PaginationQueryDto.paginate, PaginationType.map]

end

namespace Content

variable [Collation] (content : Content)

def livePosts : List PostRow := content.posts.rows.filter fun post => !post.deletedAt
def liveTopics : List TopicRow := content.topics.rows.filter fun topic => !topic.deletedAt
def liveCategories : List CategoryRow := content.categories.rows.filter fun c => !c.deletedAt
def liveUsers : List UserEntity := content.users.rows.filter fun user => !user.deletedAt

/-! ### Joins -/

/-- The author that is loaded with a post. A deleted user is not joined, so that the post has no
author then. -/
def authorOf (post : PostRow) : Option UserEntity :=
  (post.author.bind content.users.get).filter fun user => !user.deletedAt

def topicsOf (post : PostRow) : List TopicRow :=
  content.liveTopics.filter fun topic => topic.id ∈ post.topics

def categoriesOf (post : PostRow) : List CategoryRow :=
  content.liveCategories.filter fun category => category.id ∈ post.categories

def postsOfTopic (topic : TopicRow) : List PostRow :=
  content.livePosts.filter fun post => topic.id ∈ post.topics

def postsOfCategory (category : CategoryRow) : List PostRow :=
  content.livePosts.filter fun post => category.id ∈ post.categories

def pageOf (id : Option Uuid) : Option PageRow :=
  (id.bind content.pages.get).filter fun page => !page.deletedAt

def topicOf (id : Option Uuid) : Option TopicRow :=
  (id.bind content.topics.get).filter fun topic => !topic.deletedAt

def categoryOf (id : Option Uuid) : Option CategoryRow :=
  (id.bind content.categories.get).filter fun category => !category.deletedAt

def fileOf (id : Option Uuid) : Option FileRow := id.bind content.files.get

def metadataOf (id : Option Uuid) : Option MetadataRow := id.bind content.metadata.get

end Content

end VetHealth
