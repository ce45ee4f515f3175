import VetHealth.Content.Tables

/-!
# VetHealth.Posts.Reading

The two ways to read posts: `findOne` loads one row and then checks who may see it, and
`findManyWithPagination` puts who may see what into the criteria of the query.

Criteria of one object must all hold, and a list of objects is an alternative; a criterion that is
`undefined` is dropped. An author that is deleted is not joined, neither for the criteria nor for
the check, so `list_and_read_agree`: both let the same posts through.
-/

namespace VetHealth

open Store

/-! ### The query -/

/-- The columns of the entity, which are what `orderBy` may name. -/
inductive PostColumn
  | id
  | title
  | content
  | slug
  | featuredImageFile
  | featuredImageUrl
  | createdAt
  | updatedAt
  | deletedAt
  | status
  | author
  | metadata
  deriving DecidableEq, Repr

/-- The relations that `include` may name. -/
inductive PostRelation
  | topics
  | categories
  | author
  | metadata
  deriving DecidableEq, Repr

/-- The values that `status` may have. -/
inductive PostStatusFilter
  | all
  | published
  | draft
  | onreview
  deriving DecidableEq, Repr

def PostStatusFilter.text : PostStatusFilter → String
  | all => "all"
  | published => "published"
  | draft => "draft"
  | onreview => "onreview"

/-- An accepted query. -/
structure PostQueryDto extends PaginationQueryDto where
  title : Option String := none
  slug : Option String := none
  author : Option String := none
  topic : Option String := none
  category : Option String := none
  status : Option PostStatusFilter := some .published
  «include» : List PostRelation := []
  orderBy : PostColumn := .createdAt
  sort : OrderValue := .DESC

/-- What rows are ordered by: a column, or a column of a joined row, where the order of a relation
is asked for. -/
inductive PostPath
  | column (column : PostColumn)
  | authorFirstname
  | statusName
  deriving DecidableEq, Repr

structure PostOrder where
  path : PostPath
  sort : OrderValue
  deriving DecidableEq, Repr

def postOrder (orderBy : PostColumn) (sort : OrderValue) : PostOrder :=
  match orderBy with
  | .author => ⟨.authorFirstname, sort⟩
  | .status => ⟨.statusName, sort⟩
  | column => ⟨.column column, sort⟩

/-- The ORM orders by columns, not by relations. -/
def PostOrder.isOrderable (order : PostOrder) : Bool :=
  match order.path with
  | .column .featuredImageFile | .column .status | .column .author | .column .metadata => false
  | .column _ | .authorFirstname | .statusName => true

/-- One object of criteria. A `where` is a list of them, and a row is selected if it meets one. -/
structure PostWhere where
  title : Option String := none
  authorFirstname : Option String := none
  authorId : Option Uuid := none
  topicSlug : Option String := none
  categorySlug : Option String := none
  statusName : Option String := none

/-- A post with its eager relations and the relations of the request; a relation that was not
asked for is `none`. -/
structure LoadedPost where
  post : PostRow
  featuredImageFile : Option FileRow
  author : Option (Option UserEntity)
  topics : Option (List TopicRow)
  categories : Option (List CategoryRow)
  metadata : Option (Option MetadataRow)
  deriving DecidableEq

section

variable [Collation]

namespace Content

variable (content : Content)

/-- Load a post with some relations. -/
def loadPost (relations : List PostRelation) (post : PostRow) : LoadedPost where
  post := post
  featuredImageFile := content.fileOf post.featuredImageFile
  author := if .author ∈ relations then some (content.authorOf post) else none
  topics := if .topics ∈ relations then some (content.topicsOf post) else none
  categories := if .categories ∈ relations then some (content.categoriesOf post) else none
  metadata := if .metadata ∈ relations then some (content.metadataOf post.metadata) else none

/-- The criteria of one object hold of a post. A criterion that is not given is left out. -/
def satisfies (criteria : PostWhere) (post : PostRow) : Bool :=
  (criteria.title.all fun title => looksFor title post.title) &&
    (criteria.authorFirstname.all fun firstname =>
      (content.authorOf post).any fun author => Collation.eq author.firstname firstname) &&
    (criteria.authorId.all fun id => (content.authorOf post).any fun author => author.id = id) &&
    (criteria.topicSlug.all fun slug =>
      (content.topicsOf post).any fun topic => Collation.eq topic.slug slug) &&
    (criteria.categorySlug.all fun slug =>
      (content.categoriesOf post).any fun category => Collation.eq category.slug slug) &&
    (criteria.statusName.all fun name =>
      post.status.any fun status => Collation.eq status.name name)

end Content

/-! ### `PostsService` -/

namespace PostsService

def findOne (content : Content) (fields : RowKey) («include» : List PostRelation)
    (user : Option JwtPayload) : Except Failure LoadedPost :=
  match content.livePosts.find? fun post => fields.names post.id post.slug with
  | none => .error .notFound
  | some post =>
      let loaded := content.loadPost (.author :: «include») post
      match post.status with
      -- `post.status.name` of a post without a status
      | none => .error (.internal .typeError)
      | some status =>
          let isPublished := status.name = "Published"
          let isAdmin := user.any fun user => isAdminRole user.role
          let isOwner := user.any fun user => loaded.author.join.any fun author => user.id = author.id
          if !isPublished && !isAdmin && !isOwner then .error .notFound else .ok loaded

/-- The `where` of `findManyWithPagination`: an author gets a second object of criteria for the own
posts, whatever their status. -/
def criteria (queryDto : PostQueryDto) (user : Option JwtPayload) : List PostWhere :=
  let common : PostWhere :=
    { title := queryDto.title
      authorFirstname := queryDto.author
      topicSlug := queryDto.topic
      categorySlug := queryDto.category }
  match user with
  | some user =>
      if isAdminRole user.role then
        [{ common with
            statusName := if queryDto.status = some .all then none
              else some ((queryDto.status.map PostStatusFilter.text).getD "Published") }]
      else
        -- the second object puts the caller in the place of the author's name, and asks for no status
        [{ common with statusName := some "Published" },
          { common with authorFirstname := none, authorId := some user.id }]
  | none => [{ common with statusName := some "Published" }]

/-- The posts that `findManyWithPagination` selects. -/
def selected (content : Content) (queryDto : PostQueryDto) (user : Option JwtPayload) :
    List PostRow :=
  content.livePosts.filter fun post => (criteria queryDto user).any fun c => content.satisfies c post

/-- `findManyWithPagination`, when the database lists the selected rows as `listing` does; `none`
is an order that the ORM refuses. -/
def findManyWithPagination (content : Content)
    (listing : PostOrder → List PostRow → Option (List PostRow)) (queryDto : PostQueryDto)
    (user : Option JwtPayload) : Except Failure (PaginationType LoadedPost) :=
  let rows := selected content queryDto user
  match listing (postOrder queryDto.orderBy queryDto.sort) rows with
  | none => .error (.internal .queryFailed)
  | some listed => .ok (queryDto.paginate rows.length listed (content.loadPost queryDto.include))

/-! ### Who sees a post -/

/-- What both ways to read let through: everybody sees a published post, an administrator sees all,
and an author sees the own ones. -/
def visibleTo (content : Content) (user : Option JwtPayload) (post : PostRow) : Bool :=
  post.status = some .published || user.any fun user =>
    isAdminRole user.role || (content.authorOf post).any fun author => author.id = user.id

/-- The query has no filter of its own, so that what is selected depends on the caller alone. -/
structure Unfiltered (queryDto : PostQueryDto) (user : Option JwtPayload) : Prop where
  title : queryDto.title = none
  author : queryDto.author = none
  topic : queryDto.topic = none
  category : queryDto.category = none
  status : user.any (fun user => isAdminRole user.role) = true → queryDto.status = some .all

variable {content : Content} {user : Option JwtPayload}

theorem mem_livePosts {post : PostRow} :
    post ∈ content.livePosts ↔ post ∈ content.posts ∧ post.deletedAt = false := by
  simp [Content.livePosts, Table.mem_def]

/-- A status name equals `Published` only for that status, in every collation: the names are ASCII
and differ in more than case. -/
theorem eq_published (status : PostStatusEnum) :
    Collation.eq status.name "Published" = decide (status = .published) := by
  have hname : Collation.fold status.name = status.name.toList.map Char.toLower :=
    Collation.fold_ascii (by cases status <;> decide)
  have hpublished : Collation.fold "Published" = "Published".toList.map Char.toLower :=
    Collation.fold_ascii (by decide)
  rw [Collation.eq, hname, hpublished]
  cases status <;> decide

/-- A post whose status equals `Published` is published. -/
theorem any_eq_published (status : Option PostStatusEnum) :
    (status.any fun status => Collation.eq status.name "Published") =
      decide (status = some .published) := by
  cases status with
  | none => rfl
  | some status => simp [eq_published]

/-- The criteria without filters select what is visible, to an administrator, an author and the
public alike. -/
theorem criteria_unfiltered {queryDto : PostQueryDto} (h : Unfiltered queryDto user)
    (post : PostRow) :
    ((criteria queryDto user).any fun c => content.satisfies c post) =
      visibleTo content user post := by
  -- without filters the criteria differ from role to role in the status and the author alone
  unfold criteria visibleTo Content.satisfies
  rw [h.title, h.author, h.topic, h.category]
  cases user with
  | none => simp [any_eq_published]
  | some user =>
      cases hadmin : isAdminRole user.role with
      | true =>
          have hall := h.status (by rw [Option.any_some, hadmin])
          simp [hall, hadmin]
      | false => simp [any_eq_published, hadmin]

omit [Collation] in
/-- A check that refuses when three conditions all fail. -/
theorem ite_refused {α : Type} (a b c : Bool) (refused passed : α) :
    (if !a && !b && !c then refused else passed) = if a || (b || c) then passed else refused := by
  cases a <;> cases b <;> cases c <;> rfl

/-- What `findOne` hands out is a live row that its criteria name, loaded. -/
theorem findOne_eq_ok {fields : RowKey} {«include» : List PostRelation} {loaded : LoadedPost}
    (h : findOne content fields «include» user = .ok loaded) :
    ∃ post, (content.livePosts.find? fun post => fields.names post.id post.slug) = some post ∧
      loaded = content.loadPost (.author :: «include») post := by
  unfold findOne at h
  split at h
  · cases h
  · next post hfound =>
      dsimp only at h
      split at h
      · cases h
      · rw [ite_error_eq_ok] at h
        exact ⟨post, hfound, (Except.ok.inj h.2).symm⟩

/-- `findOne` hands out the post that it finds, if the post has a status and is visible. It throws
for a post without a status, whose name it reads. -/
theorem findOne_of_found {fields : RowKey} {post : PostRow} {status : PostStatusEnum}
    (hfound : (content.livePosts.find? fun post => fields.names post.id post.slug) = some post)
    (hstatus : post.status = some status)
    («include» : List PostRelation) :
    findOne content fields «include» user =
      if visibleTo content user post then .ok (content.loadPost (.author :: «include») post)
      else .error .notFound := by
  have hauthor : (content.loadPost (.author :: «include») post).author.join =
      content.authorOf post := by
    simp [Content.loadPost]
  have hname : decide (status.name = "Published") = decide (post.status = some .published) := by
    rw [hstatus, decide_eq_decide, Option.some.injEq, PostStatusEnum.name_eq_published]
  have howner : ∀ user : JwtPayload, ((content.authorOf post).any fun author => user.id = author.id) =
      (content.authorOf post).any fun author => author.id = user.id := by
    intro user
    simp only [eq_comm]
  unfold findOne visibleTo
  rw [hfound]
  dsimp only
  rw [hauthor, hstatus]
  dsimp only
  rw [ite_refused, hname, hstatus]
  cases user with
  | none => rfl
  | some user => rw [Option.any_some, Option.any_some, Option.any_some, howner]

/-- A search by id finds the live row with the id. -/
theorem find_id (content : Content) (id : Uuid) :
    (content.livePosts.find? fun post => (RowKey.id id.text).names post.id post.slug) =
      (content.posts.get id).filter fun post => !post.deletedAt := by
  rw [Content.livePosts, List.find?_filter, ← Table.find_key]
  refine congrArg content.posts.find (funext fun post => ?_)
  simp [RowKey.names, Uuid.ext_iff, Bool.and_comm]

/-- A stored post with a status is found by its id, which is that of no other row. -/
theorem findOne_id {post : PostRow} (hpost : post ∈ content.posts) (hstatus : post.status ≠ none)
    («include» : List PostRelation) :
    findOne content (.id post.id.text) «include» user =
      if !post.deletedAt && visibleTo content user post then
        .ok (content.loadPost (.author :: «include») post)
      else .error .notFound := by
  have hfind := find_id content post.id
  rw [Table.get_eq_some.2 ⟨hpost, rfl⟩] at hfind
  cases hdeleted : post.deletedAt with
  | true =>
      rw [findOne, hfind, Option.filter_some, hdeleted]
      rfl
  | false =>
      rw [Option.filter_some, hdeleted] at hfind
      obtain ⟨status, hsome⟩ := Option.ne_none_iff_exists'.1 hstatus
      rw [findOne_of_found hfind hsome]
      rfl

/-- **List and single read agree.** When every post has a status, the posts that a list without
filters selects are those that `findOne` returns by their id; every other stored post is not
found. -/
theorem list_and_read_agree (hstatus : ∀ post ∈ content.posts, post.status ≠ none)
    {queryDto : PostQueryDto} (hquery : Unfiltered queryDto user) («include» : List PostRelation) :
    (∀ post, post ∈ selected content queryDto user ↔
      ∃ loaded, findOne content (.id post.id.text) «include» user = .ok loaded ∧
        loaded.post = post) ∧
    ∀ post ∈ content.posts, post ∉ selected content queryDto user →
      findOne content (.id post.id.text) «include» user = .error .notFound := by
  -- Without filters, the criteria are those that decide what the caller may see.
  have hselected : ∀ post, post ∈ selected content queryDto user ↔
      post ∈ content.posts ∧ (!post.deletedAt && visibleTo content user post) = true := by
    intro post
    rw [selected, List.mem_filter, mem_livePosts, criteria_unfiltered hquery]
    simp [and_assoc]
  refine ⟨fun post => ?_, fun post hpost hnot => ?_⟩
  · rw [hselected]
    constructor
    · intro ⟨hpost, hvisible⟩
      exact ⟨_, by rw [findOne_id hpost (hstatus post hpost), if_pos hvisible], rfl⟩
    · intro ⟨loaded, hread, hsame⟩
      obtain ⟨found, hfound, rfl⟩ := findOne_eq_ok hread
      have hpost : post ∈ content.posts := by
        rw [← hsame]
        exact (mem_livePosts.1 (List.mem_of_find?_eq_some hfound)).1
      refine ⟨hpost, ?_⟩
      by_contra hnot
      rw [findOne_id hpost (hstatus post hpost), if_neg hnot] at hread
      cases hread
  · rw [hselected, not_and] at hnot
    rw [findOne_id hpost (hstatus post hpost), if_neg (hnot hpost)]

end PostsService

end

/-! ### A newsroom with two posts -/

section

attribute [local instance] Collation.ascii

def dogs : TopicRow where
  id := ⟨"dogs", by decide⟩
  title := "Dogs"
  image := none
  description := none
  status := some .active
  metadata := none
  slug := "dogs"
  contentType := .posts
  categories := []
  page := none
  parent := none
  createdAt := 0
  updatedAt := 0
  deletedAt := false

/-- A published post without an author. -/
def vaccines : PostRow where
  id := ⟨"vaccines", by decide⟩
  title := "Vaccines"
  content := "text"
  slug := "vaccines"
  featuredImageFile := none
  featuredImageUrl := none
  status := some .published
  categories := []
  topics := [dogs.id]
  author := none
  deletedAt := false
  createdAt := 1
  updatedAt := 1
  metadata := none

/-- A draft of the author's. -/
def parasites : PostRow :=
  { vaccines with
    id := ⟨"parasites", by decide⟩
    title := "Parasites"
    slug := "parasites"
    status := some .draft
    author := some author.id }

def newsroom : Content where
  posts := ⟨[vaccines, parasites], by decide⟩
  topics := ⟨[dogs], by decide⟩
  categories := ⟨[], by decide⟩
  users := staff
  pages := ⟨[], by decide⟩
  metadata := ⟨[], by decide⟩
  files := ⟨[], by decide⟩
  unique_titles := by decide
  unique_slugs := by decide

def firstPage : PaginationQueryDto := ⟨1, 10, by decide, by decide⟩

/-- The author finds the own draft, as the list shows it. -/
theorem author_reads_draft :
    ∃ loaded, PostsService.findOne newsroom (.id parasites.id.text) [] (some author.signedIn) =
      .ok loaded ∧ loaded.post = parasites := by
  have hquery : PostsService.Unfiltered { firstPage with } (some author.signedIn) :=
    ⟨rfl, rfl, rfl, rfl, by decide⟩
  exact ((PostsService.list_and_read_agree (by decide) hquery []).1 parasites).1 (by decide)

end

end VetHealth
