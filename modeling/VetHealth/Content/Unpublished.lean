import Mathlib.Data.List.Pairwise
import VetHealth.Content.Requests

/-!
# VetHealth.Content.Unpublished

**What the public sees of unpublished posts.** Two states of the tables have the same published
posts when they differ in other posts alone. Lists, the search and the selection of topics and
categories read published posts only or none at all, so they cannot tell such states apart.

Two requests can. One includes the posts of a topic or a category that it shows: they are loaded
whatever their status is. The other reads a single post that is not published: it is refused as if
there were none, unless the post has no status, for then the check of its status fails.
-/

namespace VetHealth

open Store

/-- The post is published. -/
def PostRow.isPublished (post : PostRow) : Bool := post.status = some .published

section

variable [Collation]

def Content.published (content : Content) : List PostRow :=
  content.posts.rows.filter PostRow.isPublished

/-- Two states that differ in unpublished posts alone. What the public may learn of unpublished
posts is what tells two such states apart. -/
structure SamePublished (content content' : Content) : Prop where
  topics : content'.topics = content.topics
  categories : content'.categories = content.categories
  users : content'.users = content.users
  pages : content'.pages = content.pages
  metadata : content'.metadata = content.metadata
  files : content'.files = content.files
  published : content'.published = content.published

/-! ### What does not depend on the posts -/

namespace SamePublished

variable {content content' : Content} (h : SamePublished content content')

include h

theorem authorOf : content'.authorOf = content.authorOf := by
  unfold Content.authorOf
  rw [h.users]

theorem topicsOf : content'.topicsOf = content.topicsOf := by
  unfold Content.topicsOf Content.liveTopics
  rw [h.topics]

theorem categoriesOf : content'.categoriesOf = content.categoriesOf := by
  unfold Content.categoriesOf Content.liveCategories
  rw [h.categories]

theorem fileOf : content'.fileOf = content.fileOf := by
  unfold Content.fileOf
  rw [h.files]

theorem metadataOf : content'.metadataOf = content.metadataOf := by
  unfold Content.metadataOf
  rw [h.metadata]

theorem loadPost : content'.loadPost = content.loadPost := by
  unfold Content.loadPost
  rw [h.authorOf, h.topicsOf, h.categoriesOf, h.fileOf, h.metadataOf]

theorem topicView : content'.topicView = content.topicView := by
  unfold Content.topicView
  rw [h.fileOf]

theorem postView : content'.postView = content.postView := by
  unfold Content.postView
  rw [h.topicView]

theorem topicResponse : content'.topicResponse = content.topicResponse := by
  unfold Content.topicResponse
  rw [h.topicView, h.postView]

theorem categoryResponse : content'.categoryResponse = content.categoryResponse := by
  unfold Content.categoryResponse
  rw [h.topicView, h.postView]

theorem satisfies : content'.satisfies = content.satisfies := by
  unfold Content.satisfies
  rw [h.authorOf, h.topicsOf, h.categoriesOf]

/-- A topic without its posts. Nothing else that is loaded with it depends on a post. -/
theorem loadTopic {relations : List TopicRelation} (hposts : .posts ∉ relations) :
    content'.loadTopic relations = content.loadTopic relations := by
  unfold Content.loadTopic Content.pageOf Content.topicOf Content.liveCategories Content.liveTopics
    Content.liveUsers
  simp only [h.fileOf, h.metadataOf, h.topics, h.categories, h.users, h.pages, if_neg hposts]

/-- A category without its posts. -/
theorem loadCategory {relations : List CategoryRelation} (hposts : .posts ∉ relations) :
    content'.loadCategory relations = content.loadCategory relations := by
  unfold Content.loadCategory Content.categoryOf Content.topicsOfCategory Content.liveCategories
    Content.liveTopics
  simp only [h.topics, h.categories, if_neg hposts]

theorem foundTopic : TopicsService.found content' = TopicsService.found content := by
  unfold TopicsService.found Content.liveTopics
  rw [h.topics]

theorem selectedTopics : TopicsService.selected content' = TopicsService.selected content := by
  unfold TopicsService.selected Content.liveTopics
  rw [h.topics]

theorem isOfTopic : content'.isOfTopic = content.isOfTopic := by
  unfold Content.isOfTopic Content.topicsOfCategory Content.liveTopics
  rw [h.topics]

theorem foundCategory : CategoriesService.found content' = CategoriesService.found content := by
  unfold CategoriesService.found Content.liveCategories
  rw [h.categories, h.isOfTopic]

theorem selectedCategories :
    CategoriesService.selected content' = CategoriesService.selected content := by
  unfold CategoriesService.selected Content.liveCategories
  rw [h.categories, h.isOfTopic]

/-! ### What depends on published posts -/

/-- A query for published posts finds the same ones, in the same order of the table. -/
theorem filter_livePosts {p : PostRow → Bool} (hp : ∀ post, p post = true → post.isPublished = true) :
    content'.livePosts.filter p = content.livePosts.filter p := by
  have hsplit : ∀ c : Content,
      c.livePosts.filter p = c.published.filter fun post => p post && !post.deletedAt := by
    intro c
    rw [Content.livePosts, Content.published, List.filter_filter, List.filter_filter]
    refine List.filter_congr fun post _ => ?_
    cases hpost : p post with
    | true => simp [hp post hpost]
    | false => simp
  rw [hsplit, hsplit, h.published]

theorem selectedPosts (queryDto : PostQueryDto) :
    PostsService.selected content' queryDto none = PostsService.selected content queryDto none := by
  unfold PostsService.selected
  rw [h.satisfies]
  refine h.filter_livePosts fun post hpost => ?_
  obtain ⟨criteria, hcriteria, hsatisfies⟩ := List.any_eq_true.1 hpost
  obtain rfl := List.mem_singleton.1 hcriteria
  unfold Content.satisfies at hsatisfies
  rw [Bool.and_eq_true] at hsatisfies
  have hstatus := hsatisfies.2
  rw [Option.all_some, PostsService.any_eq_published] at hstatus
  exact hstatus

theorem candidates (query : String) :
    SearchService.candidates content' query = SearchService.candidates content query := by
  rw [SearchService.candidates_eq, SearchService.candidates_eq]
  refine h.filter_livePosts fun post hpost => ?_
  exact (Bool.and_eq_true_iff.1 hpost).1

theorem listPosts (listing : PostOrder → List PostRow → Option (List PostRow))
    (queryDto : PostQueryDto) :
    PostsService.findManyWithPagination content' listing queryDto none =
      PostsService.findManyWithPagination content listing queryDto none := by
  unfold PostsService.findManyWithPagination
  rw [h.selectedPosts, h.loadPost]

theorem searchPosts [Collation.LowerCase] (listing : List PostRow → List PostRow)
    (queryDto : SearchQueryDto) :
    SearchService.findManyWithPagination content' listing queryDto =
      SearchService.findManyWithPagination content listing queryDto := by
  unfold SearchService.findManyWithPagination
  simp only [h.loadPost, h.candidates]

end SamePublished

/-! ### A single post -/

/-- A published post has the id or the slug. -/
def Content.namesPublished (content : Content) (key : RowKey) : Prop :=
  ∃ post ∈ content.posts, post.isPublished = true ∧ key.names post.id post.slug = true

/-- No two posts have one id or one slug, deleted ones included, so that a key names at most one
post. -/
theorem Content.names_unique (content : Content) {key : RowKey} {p q : PostRow}
    (hp : p ∈ content.posts) (hq : q ∈ content.posts) (hpkey : key.names p.id p.slug = true)
    (hqkey : key.names q.id q.slug = true) : p = q := by
  cases key with
  | id text =>
      have hid : p.id.text = q.id.text :=
        (of_decide_eq_true hpkey).trans (of_decide_eq_true hqkey).symm
      exact Table.eq_of_key_eq hp hq (Uuid.ext hid)
  | slug text =>
      by_contra hne
      have : Std.Symm fun p q : PostRow => Collation.eq p.slug q.slug = false :=
        ⟨fun a b hab => by
          by_contra hba
          rw [Bool.not_eq_false] at hba
          rw [Collation.eq_symm hba] at hab
          cases hab⟩
      have hdiffer := content.unique_slugs.forall hp hq hne
      have hsame : Collation.fold p.slug = Collation.fold q.slug :=
        (of_decide_eq_true hpkey).trans (of_decide_eq_true hqkey).symm
      rw [Collation.eq, hsame, decide_eq_true rfl] at hdiffer
      cases hdiffer

/-- A search for the key of a published post. -/
theorem Content.find_published {content : Content} {key : RowKey} {post : PostRow}
    (hpost : post ∈ content.posts) (hkey : key.names post.id post.slug = true) :
    (content.livePosts.find? fun p => key.names p.id p.slug) =
      if post.deletedAt then none else some post := by
  cases hdeleted : post.deletedAt with
  | true =>
      rw [if_pos rfl, List.find?_eq_none]
      intro q hq hqkey
      obtain ⟨hqmem, hqlive⟩ := PostsService.mem_livePosts.1 hq
      rw [content.names_unique hqmem hpost hqkey hkey, hdeleted] at hqlive
      cases hqlive
  | false =>
      rw [if_neg Bool.false_ne_true]
      cases hfind : content.livePosts.find? fun p => key.names p.id p.slug with
      | none =>
          have hnot := List.find?_eq_none.1 hfind post
            (PostsService.mem_livePosts.2 ⟨hpost, hdeleted⟩)
          exact absurd hkey hnot
      | some q =>
          have hq := PostsService.mem_livePosts.1 (List.mem_of_find?_eq_some hfind)
          have hqkey : key.names q.id q.slug = true := by
            simpa only using List.find?_some hfind
          rw [content.names_unique hq.1 hpost hqkey hkey]

namespace SamePublished

variable {content content' : Content} (h : SamePublished content content')

include h

theorem mem_published {post : PostRow} (hpost : post ∈ content.posts)
    (hpublished : post.isPublished = true) : post ∈ content'.posts := by
  have hmem : post ∈ content'.published := by
    rw [h.published]
    exact List.mem_filter.2 ⟨hpost, hpublished⟩
  exact (List.mem_filter.1 hmem).1

/-- A read of a published post finds the same row in both states, and loads the same with it. -/
theorem findOne {key : RowKey} (hkey : content.namesPublished key) («include» : List PostRelation) :
    PostsService.findOne content' key «include» none =
      PostsService.findOne content key «include» none := by
  obtain ⟨post, hpost, hpublished, hnames⟩ := hkey
  unfold PostsService.findOne
  rw [Content.find_published hpost hnames,
    Content.find_published (h.mem_published hpost hpublished) hnames, h.loadPost]

end SamePublished

/-! ### Adding a post -/

/-- The state without the unpublished posts. Comparing a state with this one shows what it reveals.
-/
theorem exists_onlyPublished (content : Content) :
    ∃ content', SamePublished content content' ∧ content'.posts.rows = content.published := by
  have hsub : content.published.Sublist content.posts.rows := List.filter_sublist
  refine ⟨{ content with
    posts := ⟨content.published, content.posts.nodup.sublist (hsub.map _)⟩
    unique_titles := content.unique_titles.sublist hsub
    unique_slugs := content.unique_slugs.sublist hsub }, ⟨rfl, rfl, rfl, rfl, rfl, rfl, ?_⟩, rfl⟩
  unfold Content.published
  rw [List.filter_filter]
  simp

/-- One unpublished post more, if its id, title and slug are free. Comparing a state with this one
shows what a draft would reveal. -/
theorem exists_added (content : Content) {post : PostRow} (hpost : post.isPublished = false)
    (hfree : ∀ p ∈ content.published, p.id ≠ post.id ∧ Collation.eq p.title post.title = false ∧
      Collation.eq p.slug post.slug = false) :
    ∃ content', SamePublished content content' ∧
      content'.posts.rows = content.published ++ [post] := by
  have hsub : content.published.Sublist content.posts.rows := List.filter_sublist
  have hpairwise : ∀ {R : PostRow → PostRow → Prop}, content.posts.rows.Pairwise R →
      (∀ p ∈ content.published, R p post) → (content.published ++ [post]).Pairwise R := by
    intro R hR hnew
    refine List.pairwise_append.2 ⟨hR.sublist hsub, List.pairwise_singleton _ _, ?_⟩
    intro p hp q hq
    rw [List.mem_singleton.1 hq]
    exact hnew p hp
  refine ⟨{ content with
    posts := ⟨content.published ++ [post],
      List.pairwise_map.2 (hpairwise (List.pairwise_map.1 content.posts.nodup)
        fun p hp => (hfree p hp).1)⟩
    unique_titles := hpairwise content.unique_titles fun p hp => (hfree p hp).2.1
    unique_slugs := hpairwise content.unique_slugs fun p hp => (hfree p hp).2.2 },
    ⟨rfl, rfl, rfl, rfl, rfl, rfl, ?_⟩, rfl⟩
  unfold Content.published
  rw [List.filter_append, List.filter_filter, List.filter_singleton, hpost]
  simp

/-- A live post with the given columns. -/
def blankPost (id : Uuid) (title slug : String) (status : Option PostStatusEnum)
    (topics categories : List Uuid) : PostRow where
  id := id
  title := title
  content := ""
  slug := slug
  featuredImageFile := none
  featuredImageUrl := none
  status := status
  categories := categories
  topics := topics
  author := none
  deletedAt := false
  createdAt := 0
  updatedAt := 0
  metadata := none

theorem exists_fresh_id (content : Content) : ∃ id : Uuid, ∀ p ∈ content.published, p.id ≠ id := by
  obtain ⟨text, hne, hfresh⟩ :=
    Collation.exists_fresh (content.published.map fun p => p.id.text)
  refine ⟨⟨text, hne⟩, fun p hp hid => ?_⟩
  have hdiffer := hfresh p.id.text (List.mem_map_of_mem hp)
  rw [hid, Collation.eq_self] at hdiffer
  cases hdiffer

theorem exists_fresh_title (content : Content) :
    ∃ title, ∀ p ∈ content.published, Collation.eq p.title title = false := by
  obtain ⟨title, -, hfresh⟩ := Collation.exists_fresh (content.published.map fun p => p.title)
  exact ⟨title, fun p hp => hfresh p.title (List.mem_map_of_mem hp)⟩

theorem exists_fresh_slug (content : Content) :
    ∃ slug, ∀ p ∈ content.published, Collation.eq p.slug slug = false := by
  obtain ⟨slug, -, hfresh⟩ := Collation.exists_fresh (content.published.map fun p => p.slug)
  exact ⟨slug, fun p hp => hfresh p.slug (List.mem_map_of_mem hp)⟩

/-- A draft more, in given topics and categories. Its title and slug are new, so that the table
stays unique. -/
theorem exists_draft (content : Content) (topics categories : List Uuid) :
    ∃ content' draft, SamePublished content content' ∧
      content'.posts.rows = content.published ++ [draft] ∧ draft.deletedAt = false ∧
      draft.topics = topics ∧ draft.categories = categories := by
  obtain ⟨id, hid⟩ := exists_fresh_id content
  obtain ⟨title, htitle⟩ := exists_fresh_title content
  obtain ⟨slug, hslug⟩ := exists_fresh_slug content
  obtain ⟨content', hsame, hrows⟩ :=
    @exists_added _ content (blankPost id title slug (some .draft) topics categories) rfl
      fun p hp => ⟨hid p hp, htitle p hp, hslug p hp⟩
  exact ⟨content', _, hsame, hrows, rfl, rfl, rfl⟩

/-- A post without a status more, with a key that no published post has. Such a post makes a read
throw, where a missing one is not found. -/
theorem exists_named (content : Content) {key : RowKey} (hnonempty : key ≠ .id "")
    (hkey : ¬content.namesPublished key) :
    ∃ content' post, SamePublished content content' ∧
      content'.posts.rows = content.published ++ [post] ∧ post.deletedAt = false ∧
      post.status = none ∧ key.names post.id post.slug = true := by
  have hfree : ∀ p ∈ content.published, key.names p.id p.slug = false := by
    intro p hp
    by_contra hnames
    obtain ⟨hmem, hpublished⟩ := List.mem_filter.1 hp
    exact hkey ⟨p, hmem, hpublished, by simpa using hnames⟩
  obtain ⟨title, htitle⟩ := exists_fresh_title content
  cases key with
  | id text =>
      have htext : text ≠ "" := fun htext => hnonempty (htext ▸ rfl)
      obtain ⟨slug, hslug⟩ := exists_fresh_slug content
      obtain ⟨content', hsame, hrows⟩ :=
        @exists_added _ content (blankPost ⟨text, htext⟩ title slug none [] []) rfl fun p hp =>
          ⟨fun hid => of_decide_eq_false (hfree p hp) (congrArg Uuid.text hid), htitle p hp,
            hslug p hp⟩
      exact ⟨content', _, hsame, hrows, rfl, rfl, decide_eq_true rfl⟩
  | slug text =>
      obtain ⟨id, hid⟩ := exists_fresh_id content
      obtain ⟨content', hsame, hrows⟩ :=
        @exists_added _ content (blankPost id title text none [] []) rfl fun p hp =>
          ⟨hid p hp, htitle p hp, hfree p hp⟩
      exact ⟨content', _, hsame, hrows, rfl, rfl, Collation.eq_self text⟩

/-! ### What gives unpublished posts away -/

section

variable (content : Content)

/-- A single read hides the unpublished posts when it names a published one. -/
theorem post_hidden_iff {key : RowKey} (hnonempty : key ≠ .id "") («include» : List PostRelation) :
    (∀ content', SamePublished content content' →
      ((PostsService.findOne content' key «include» none).map fun loaded =>
          PublicResponse.post (content'.postView loaded)) =
        (PostsService.findOne content key «include» none).map fun loaded =>
          PublicResponse.post (content.postView loaded)) ↔ content.namesPublished key := by
  constructor
  · intro hhidden
    by_contra hkey
    -- no such post at all is answered 404, and one without a status 500
    obtain ⟨without, hwithout, hrows⟩ := exists_onlyPublished content
    obtain ⟨added, post, hadded, hrows', hlive, hstatus, hnames⟩ :=
      exists_named content hnonempty hkey
    have hnone : without.livePosts.find? (fun p => key.names p.id p.slug) = none := by
      rw [List.find?_eq_none]
      intro p hp hpkey
      have hmem : p ∈ content.published := hrows ▸ (PostsService.mem_livePosts.1 hp).1
      obtain ⟨hcontent, hpublished⟩ := List.mem_filter.1 hmem
      exact hkey ⟨p, hcontent, hpublished, hpkey⟩
    have hsome : added.livePosts.find? (fun p => key.names p.id p.slug) = some post := by
      have hmem : post ∈ added.posts := by
        rw [Table.mem_def, hrows']
        exact List.mem_append_right _ List.mem_cons_self
      rw [Content.find_published hmem hnames, hlive]
      rfl
    have hrefused : PostsService.findOne without key «include» none = .error .notFound := by
      rw [PostsService.findOne, hnone]
    have hfails : PostsService.findOne added key «include» none =
        .error (.internal .typeError) := by
      rw [PostsService.findOne, hsome]
      dsimp only
      rw [hstatus]
    have hsame := (hhidden without hwithout).trans (hhidden added hadded).symm
    rw [hrefused, hfails] at hsame
    cases hsame
  · intro hkey content' h
    rw [h.findOne hkey, h.postView]

/-- Loading the posts of a topic shows its drafts. So the answer is the same in all states only if
the posts are not loaded. -/
theorem topic_hidden_iff (relations : List TopicRelation) (topic : TopicRow) :
    (∀ content', SamePublished content content' →
      content'.topicResponse (content'.loadTopic relations topic) =
        content.topicResponse (content.loadTopic relations topic)) ↔ .posts ∉ relations := by
  constructor
  · intro hhidden hposts
    obtain ⟨without, hwithout, hrows⟩ := exists_onlyPublished content
    obtain ⟨added, draft, hadded, hrows', hlive, htopics, -⟩ := exists_draft content [topic.id] []
    have hsame := (hhidden without hwithout).trans (hhidden added hadded).symm
    -- with the draft the topic has one post more
    have hlength := congrArg (fun response => response.posts.map List.length) hsame
    simp [Content.topicResponse, Content.loadTopic, hposts, Content.postsOfTopic,
      Content.livePosts, hrows, hrows', hlive, htopics] at hlength
  · intro hposts content' h
    rw [h.loadTopic hposts, h.topicResponse]

/-- Loading the posts of a category shows its drafts. -/
theorem category_hidden_iff (relations : List CategoryRelation) (category : CategoryRow) :
    (∀ content', SamePublished content content' →
      content'.categoryResponse (content'.loadCategory relations category) =
        content.categoryResponse (content.loadCategory relations category)) ↔
      .posts ∉ relations := by
  constructor
  · intro hhidden hposts
    obtain ⟨without, hwithout, hrows⟩ := exists_onlyPublished content
    obtain ⟨added, draft, hadded, hrows', hlive, -, hcategories⟩ :=
      exists_draft content [] [category.id]
    have hsame := (hhidden without hwithout).trans (hhidden added hadded).symm
    have hlength := congrArg (fun response => response.posts.map List.length) hsame
    simp [Content.categoryResponse, Content.loadCategory, hposts, Content.postsOfCategory,
      Content.livePosts, hrows, hrows', hlive, hcategories] at hlength
  · intro hposts content' h
    rw [h.loadCategory hposts, h.categoryResponse]

section

variable {content} {ρ α β γ order : Type} {isOrderable : order → Bool} {posts : Prop}
  {load : Content → ρ → α} {view : Content → α → β}
  (hrow : ∀ row, (∀ content', SamePublished content content' →
    view content' (load content' row) = view content (load content row)) ↔ ¬posts)

include hrow

/-- A row is shown without its posts, or none is found. -/
theorem findOrFail_hidden_iff {wrap : β → γ} (hwrap : Function.Injective wrap) {found : Option ρ} :
    (∀ content', SamePublished content content' →
      ((findOrFail found (load content')).map fun loaded => wrap (view content' loaded)) =
        (findOrFail found (load content)).map fun loaded => wrap (view content loaded)) ↔
      (posts → found = none) := by
  simp only [findOrFail_map_eq hwrap]
  constructor
  · intro hhidden hposts
    cases hfound : found with
    | none => rfl
    | some row =>
        exact absurd hposts ((hrow row).1 fun content' h => hhidden content' h row hfound)
  · intro hnone content' h row hfound
    refine (hrow row).2 (fun hposts => ?_) content' h
    rw [hnone hposts] at hfound
    cases hfound

/-- The rows of a page are shown without their posts, or the page has none. -/
theorem findAndCount_hidden_iff {wrap : PaginationType β → γ} (hwrap : Function.Injective wrap)
    (listing : Listing order ρ isOrderable) {o : order} {rows : List ρ}
    {queryDto : PaginationQueryDto} :
    (∀ content', SamePublished content content' →
      ((findAndCount listing o rows queryDto (load content')).map fun found =>
          wrap (found.map (view content'))) =
        (findAndCount listing o rows queryDto (load content)).map fun found =>
          wrap (found.map (view content))) ↔
      (posts → isOrderable o = true → rows.length ≤ (queryDto.page - 1) * queryDto.size) := by
  simp only [findAndCount_map_eq hwrap, ← listing.page_eq_nil o rows queryDto]
  constructor
  · intro hhidden hposts
    refine List.eq_nil_iff_forall_not_mem.2 fun row hmem => ?_
    exact (hrow row).1 (fun content' h => hhidden content' h row hmem) hposts
  · intro hnil content' h row hmem
    refine (hrow row).2 (fun hposts => ?_) content' h
    rw [hnil hposts] at hmem
    cases hmem

end

theorem findTopic_hidden_iff (key : RowKey) (queryDto : TopicQueryDto) :
    (∀ content', SamePublished content content' →
      ((TopicsService.findOne content' key queryDto).map fun loaded =>
          PublicResponse.topic (content'.topicResponse loaded)) =
        (TopicsService.findOne content key queryDto).map fun loaded =>
          PublicResponse.topic (content.topicResponse loaded)) ↔
      (.posts ∈ queryDto.include → TopicsService.found content key queryDto = none) := by
  refine Iff.trans (forall₂_congr fun content' h => ?_)
    (findOrFail_hidden_iff (topic_hidden_iff content queryDto.include)
      fun _ _ => PublicResponse.topic.inj)
  rw [TopicsService.findOne, h.foundTopic, TopicsService.findOne]

theorem listTopics_hidden_iff (listing : Listing TopicOrder TopicRow TopicOrder.isOrderable)
    (queryDto : TopicQueryDto) :
    (∀ content', SamePublished content content' →
      ((TopicsService.findManyWithPagination content' listing queryDto).map fun found =>
          PublicResponse.topics (found.map content'.topicResponse)) =
        (TopicsService.findManyWithPagination content listing queryDto).map fun found =>
          PublicResponse.topics (found.map content.topicResponse)) ↔
      (.posts ∈ queryDto.include →
        (topicOrder queryDto.orderBy queryDto.sort).isOrderable = true →
          (TopicsService.selected content queryDto).length ≤
            (queryDto.page - 1) * queryDto.size) := by
  refine Iff.trans (forall₂_congr fun content' h => ?_)
    (findAndCount_hidden_iff (topic_hidden_iff content queryDto.include)
      (fun _ _ => PublicResponse.topics.inj) listing)
  rw [TopicsService.findManyWithPagination, h.selectedTopics, TopicsService.findManyWithPagination]

theorem findCategory_hidden_iff (key : RowKey) (queryDto : CategoryQueryDto) :
    (∀ content', SamePublished content content' →
      ((CategoriesService.findOne content' key queryDto).map fun loaded =>
          PublicResponse.category (content'.categoryResponse loaded)) =
        (CategoriesService.findOne content key queryDto).map fun loaded =>
          PublicResponse.category (content.categoryResponse loaded)) ↔
      (.posts ∈ queryDto.include → CategoriesService.found content key queryDto = none) := by
  refine Iff.trans (forall₂_congr fun content' h => ?_)
    (findOrFail_hidden_iff (category_hidden_iff content queryDto.include)
      fun _ _ => PublicResponse.category.inj)
  rw [CategoriesService.findOne, h.foundCategory, CategoriesService.findOne]

theorem listCategories_hidden_iff
    (listing : Listing CategoryOrder CategoryRow CategoryOrder.isOrderable)
    (queryDto : CategoryQueryDto) :
    (∀ content', SamePublished content content' →
      ((CategoriesService.findManyWithPagination content' listing queryDto).map fun found =>
          PublicResponse.categories (found.map content'.categoryResponse)) =
        (CategoriesService.findManyWithPagination content listing queryDto).map fun found =>
          PublicResponse.categories (found.map content.categoryResponse)) ↔
      (.posts ∈ queryDto.include →
        CategoryOrder.isOrderable ⟨queryDto.orderBy, queryDto.sort⟩ = true →
          (CategoriesService.selected content queryDto).length ≤
            (queryDto.page - 1) * queryDto.size) := by
  refine Iff.trans (forall₂_congr fun content' h => ?_)
    (findAndCount_hidden_iff (category_hidden_iff content queryDto.include)
      (fun _ _ => PublicResponse.categories.inj) listing)
  rw [CategoriesService.findManyWithPagination, h.selectedCategories,
    CategoriesService.findManyWithPagination]

end

/-! ### The public requests -/

namespace PublicRequest

/-- Every topic or category that the request shows is shown without its posts, because they are not
asked for or because nothing is on the page. -/
def ShowsNoPosts (content : Content) : PublicRequest → Prop
  | .posts _ | .post _ _ | .search _ => True
  | .topic id queryDto => queryDto.status = .active → .posts ∈ queryDto.include →
      TopicsService.found content (.id id.text) queryDto = none
  | .topics queryDto => queryDto.status = .active → .posts ∈ queryDto.include →
      match givenSlug queryDto.slug with
      | some slug => TopicsService.found content (.slug slug) queryDto = none
      | none => (topicOrder queryDto.orderBy queryDto.sort).isOrderable = true →
          (TopicsService.selected content queryDto).length ≤ (queryDto.page - 1) * queryDto.size
  | .category id queryDto => .posts ∈ queryDto.include →
      CategoriesService.found content (.id id.text) queryDto = none
  | .categories queryDto => .posts ∈ queryDto.include →
      match givenSlug queryDto.slug with
      | some slug => CategoriesService.found content (.slug slug) queryDto = none
      | none => CategoryOrder.isOrderable ⟨queryDto.orderBy, queryDto.sort⟩ = true →
          (CategoriesService.selected content queryDto).length ≤ (queryDto.page - 1) * queryDto.size

/-- A single post that the request reads is published. For another one the answer tells whether it
is there. -/
def NamesPublished (content : Content) : PublicRequest → Prop
  | .post id _ => content.namesPublished (.id id.text)
  | .posts queryDto => (queryDto.orderBy = .author → .author ∈ queryDto.include) →
      ∀ slug, givenSlug queryDto.slug = some slug → content.namesPublished (.slug slug)
  | .search _ | .topic _ _ | .topics _ | .category _ _ | .categories _ => True

end PublicRequest

omit [Collation] in
/-- After one check, two answers are the same when the check fails, or else when they are. -/
theorem checked_eq_iff {γ : Type} {check : Except Failure Unit} {r r' : Except Failure γ} :
    ((do check; r') = (do check; r)) ↔ (check = .ok () → r' = r) := by
  cases check with
  | error e => exact ⟨fun _ h => (by cases h), fun _ => rfl⟩
  | ok _ => exact ⟨fun h _ => h, fun h => h rfl⟩

omit [Collation] in
theorem canActivate_anonymous {queryDto : TopicQueryDto} :
    GetTopicsGuard.canActivate queryDto none = .ok () ↔ queryDto.status = .active := by
  cases hstatus : queryDto.status <;> simp [GetTopicsGuard.canActivate, hstatus]

omit [Collation] in
theorem transform_eq_ok {queryDto : PostQueryDto} :
    AuthorOrderValidationPipe.transform queryDto = .ok () ↔
      (queryDto.orderBy = .author → .author ∈ queryDto.include) := by
  simp [AuthorOrderValidationPipe.transform]

omit [Collation] in
/-- A condition that does not depend on the state. -/
theorem forall₂_swap_right {σ : Type} {P Q : σ → Prop} {R : Prop} :
    (∀ s, P s → R → Q s) ↔ (R → ∀ s, P s → Q s) :=
  ⟨fun h hr s hs => h s hs hr, fun h s hs hr => h hr s hs⟩

/-- **What the public can tell about unpublished posts.** A request answers alike in all states with
the same published posts exactly when it shows no topic or category with its posts, and reads no
single post but a published one. -/
theorem unpublished_hidden_iff [Collation.LowerCase] (listings : Listings) (content : Content)
    (request : PublicRequest) :
    (∀ content', SamePublished content content' →
      respond listings content' request = respond listings content request) ↔
      request.ShowsNoPosts content ∧ request.NamesPublished content := by
  cases request with
  -- A list without a slug shows published posts only; one with a slug is one post, whose status is
  -- not looked at.
  | posts queryDto =>
      simp only [respond, PostsController.getMany, checked_eq_iff, transform_eq_ok,
        PublicRequest.ShowsNoPosts, PublicRequest.NamesPublished, true_and]
      cases givenSlug queryDto.slug with
      | none =>
          refine iff_of_true (fun content' h _ => ?_) fun _ slug hsome => (by cases hsome)
          dsimp only
          rw [h.listPosts, h.postView]
      | some slug =>
          have hslug : RowKey.slug slug ≠ .id "" := fun hkey => (by cases hkey)
          have hpost := post_hidden_iff content hslug queryDto.include
          constructor
          · intro hhidden hvalid other hother
            rw [← Option.some.inj hother]
            exact hpost.1 fun content' h => hhidden content' h hvalid
          · intro hnamed content' h hvalid
            exact hpost.2 (hnamed hvalid slug rfl) content' h
  | post id queryDto =>
      have hid : RowKey.id id.text ≠ .id "" := fun hid => id.nonempty (RowKey.id.inj hid)
      simp only [respond, PostsController.getOne, PublicRequest.ShowsNoPosts,
        PublicRequest.NamesPublished, true_and]
      exact post_hidden_iff content hid queryDto.include
  -- The search looks at published posts only, too.
  | search queryDto =>
      simp only [respond, PublicRequest.ShowsNoPosts, PublicRequest.NamesPublished, and_true]
      refine iff_of_true (fun content' h => ?_) trivial
      rw [SearchController.getSearchedPosts, h.searchPosts, h.postView,
        SearchController.getSearchedPosts]
  | topics queryDto =>
      simp only [respond, TopicsController.getMany, checked_eq_iff, canActivate_anonymous,
        PublicRequest.ShowsNoPosts, PublicRequest.NamesPublished, and_true]
      -- The guard lets an anonymous caller ask for active topics only, and does not look at the
      -- posts in them.
      rw [forall₂_swap_right]
      cases givenSlug queryDto.slug with
      | none =>
          exact imp_congr_right fun _ => listTopics_hidden_iff content listings.topics queryDto
      | some slug => exact imp_congr_right fun _ => findTopic_hidden_iff content (.slug slug) queryDto
  | topic id queryDto =>
      simp only [respond, TopicsController.getOne, checked_eq_iff, canActivate_anonymous,
        PublicRequest.ShowsNoPosts, PublicRequest.NamesPublished, and_true]
      rw [forall₂_swap_right]
      exact imp_congr_right fun _ => findTopic_hidden_iff content (.id id.text) queryDto
  -- Categories carry no posts but through `include`.
  | categories queryDto =>
      simp only [respond, CategoriesController.getMany, PublicRequest.ShowsNoPosts,
        PublicRequest.NamesPublished, and_true]
      cases givenSlug queryDto.slug with
      | none => exact listCategories_hidden_iff content listings.categories queryDto
      | some slug => exact findCategory_hidden_iff content (.slug slug) queryDto
  | category id queryDto =>
      simp only [respond, CategoriesController.getOne, PublicRequest.ShowsNoPosts,
        PublicRequest.NamesPublished, and_true]
      exact findCategory_hidden_iff content (.id id.text) queryDto

end

/-! ### A draft in a topic -/

section

attribute [local instance] Collation.ascii Collation.asciiLowerCase

/-- Rows as they are stored. -/
def storedOrder {order ρ : Type} (isOrderable : order → Bool) : Listing order ρ isOrderable where
  list o rows := if isOrderable o then some rows else none
  accepts o rows h := ⟨rows, if_pos h, .refl rows⟩
  refuses o rows h := if_neg (by simp [h])

def storedOrders : Listings := ⟨storedOrder _, id, storedOrder _, storedOrder _⟩

/-- The newsroom before the draft was written. -/
def morning : Content :=
  { newsroom with
    posts := ⟨[vaccines], by decide⟩
    unique_titles := by decide
    unique_slugs := by decide }

def topicsWithPosts : PublicRequest := .topics { firstPage with «include» := [.posts] }

/-- The topic's posts show the draft. -/
theorem draft_in_topic :
    SamePublished morning newsroom ∧
      respond storedOrders newsroom topicsWithPosts ≠ respond storedOrders morning topicsWithPosts :=
  ⟨⟨rfl, rfl, rfl, rfl, rfl, rfl, by decide⟩, by decide +kernel⟩

end

end VetHealth
