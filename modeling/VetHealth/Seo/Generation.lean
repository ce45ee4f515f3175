import VetHealth.Content.PageText
import VetHealth.Seo.Service
import VetHealth.Topics.Reading

/-!
# VetHealth.Seo.Generation

**What the AI service is asked about.** `SeoService.generate` puts together the text of a post, a
page or a topic and hands it to the AI service. The text of a topic has up to four parts: its
description, the text of its page, the titles of its children, and the titles of its posts. Which of
them are there depends on the parent, the children, the kind of content and the statuses.

`topic_source_public` says that what is not published does not matter for a topic, and that for a
root topic with children no post and no page matters at all.
-/

namespace VetHealth

open Js

/-- An accepted body of `POST /seo/:type/:id/generate`. -/
structure SeoGenerationOptionsDto where
  fields : Option (List SeoField) := none
  current : Option SeoFieldValues := none
  hint : Option String := none
  primaryKeyword : Option String := none
  deriving DecidableEq

/-- What `buildSource` returns. -/
structure SeoSource where
  entityType : SeoEntityType
  title : String
  text : String
  topics : Option (List String) := none
  deriving DecidableEq

/-- The input of `AiService.generateSeoMetadata`. -/
structure SeoMetadataInput extends SeoSource, SeoGenerationOptionsDto
  deriving DecidableEq

/-- What `generate` does: it answers `{}`, or returns what the AI service makes of an input. The
service itself is modelled elsewhere. -/
inductive SeoGeneration
  | empty
  | ask (input : SeoMetadataInput)
  deriving DecidableEq

/-- How `generate` fails before it asks: the entity is not there, has nothing to write about, or has
content that cannot be read. -/
inductive SeoFailure
  | notFound
  | badRequest (message errorCode : String)
  | internal (error : InternalError)
  deriving DecidableEq

namespace SeoService

/-- `PUBLISHED`. -/
def PUBLISHED : String := "Published"

/-- A text that `lexicalText` may fail to make. -/
def textOr (text : Option String) : Except SeoFailure String :=
  match text with
  | none => .error (.internal .typeError)
  | some text => .ok text

/-- `order: { createdAt: 'DESC', id: 'ASC' }`. -/
def listedBefore (a b : PostRow) : Bool :=
  b.createdAt < a.createdAt || (a.createdAt = b.createdAt && a.id.text ≤ b.id.text)

/-- Newer posts come first, and of two posts of one moment the one with the smaller id. So the order
is total, and the listing is determined. -/
theorem listedBefore_iff {a b : PostRow} :
    listedBefore a b = true ↔
      b.createdAt < a.createdAt ∨ a.createdAt = b.createdAt ∧ a.id.text ≤ b.id.text := by
  rw [listedBefore, Bool.or_eq_true, Bool.and_eq_true, decide_eq_true_eq, decide_eq_true_eq,
    decide_eq_true_eq]

theorem listedBefore_total (a b : PostRow) : listedBefore a b = true ∨ listedBefore b a = true := by
  rw [listedBefore_iff, listedBefore_iff]
  rcases Int.lt_trichotomy a.createdAt b.createdAt with hlt | heq | hlt
  · exact Or.inr (Or.inl hlt)
  · rcases String.le_total a.id.text b.id.text with hle | hle
    · exact Or.inl (Or.inr ⟨heq, hle⟩)
    · exact Or.inr (Or.inr ⟨heq.symm, hle⟩)
  · exact Or.inl (Or.inl hlt)

theorem listedBefore_trans (a b c : PostRow) (hab : listedBefore a b = true)
    (hbc : listedBefore b c = true) : listedBefore a c = true := by
  rw [listedBefore_iff] at hab hbc ⊢
  rcases hab with hab | ⟨hab, hle⟩
  · omega
  · rcases hbc with hbc | ⟨hbc, hle'⟩
    · omega
    · exact Or.inr ⟨hab.trans hbc, String.le_trans hle hle'⟩

theorem id_eq_of_listedBefore {a b : PostRow} (hab : listedBefore a b = true)
    (hba : listedBefore b a = true) : a.id = b.id := by
  rw [listedBefore_iff] at hab hba
  rcases hab with hab | ⟨hab, hle⟩
  · omega
  · rcases hba with hba | ⟨-, hle'⟩
    · omega
    · exact Uuid.ext (String.le_antisymm hle hle')

section

variable [Collation] (content : Content)

/-- The parts of a text that are not blank, one paragraph each. -/
def joinParts (parts : List (Option String)) : String :=
  "\n\n".intercalate ((parts.filterMap id).filter fun part => trim part.toList ≠ [])

variable (topic : TopicRow)

/-- `topic.children`, whatever their status. -/
def childrenOf : List TopicRow := ((content.loadTopic [.children] topic).children).getD []

/-- A root topic with children shows these. -/
def showsChildren : Bool := (content.topicOf topic.parent).isNone && (childrenOf content topic) ≠ []

def showsPage : Bool := !showsChildren content topic && topic.contentType = .page

def showsPosts : Bool := !showsChildren content topic && topic.contentType = .posts

/-- The page whose text is used: the one that the topic is linked to, when it is published. -/
def shownPage : Option PageRow :=
  (content.pageOf topic.page).filter fun page =>
    showsPage content topic && page.status.map PostStatusEnum.name = some PUBLISHED

/-- `where: { topics: { id }, status: { name: PUBLISHED } }`. -/
def publishedPosts : List PostRow :=
  (content.postsOfTopic topic).filter fun post =>
    post.status.any fun status => Collation.eq status.name PUBLISHED

/-- The titles that are used: of the published posts, the newest first, where the topic shows posts
at all. -/
def shownPosts : List String :=
  if showsPosts content topic then
    ((publishedPosts content topic).mergeSort listedBefore).map fun post => post.title
  else []

/-- The topic branch of `buildSource`. -/
def topicSource : Except SeoFailure SeoSource := do
  let posts := shownPosts content topic
  let pageText ←
    match shownPage content topic with
    | none => pure ""
    | some page => textOr (pageBlocksText true page.content)
  let children := childrenOf content topic
  return {
    entityType := .topic
    title := topic.title
    text := joinParts [
      topic.description,
      some pageText,
      some (if showsChildren content topic then
        "Підрозділи: " ++ "; ".intercalate (children.map TopicRow.title) else ""),
      some (if posts ≠ [] then "Статті розділу: " ++ "; ".intercalate posts else "")]
    topics := (content.topicOf topic.parent).map fun parent => [parent.title] }

def buildSource (type : SeoEntityType) (id : Uuid) : Except SeoFailure SeoSource :=
  match type with
  | .post =>
      match (content.posts.get id).filter fun post => !post.deletedAt with
      | none => .error .notFound
      | some post => do
          let text ← textOr (lexicalContentText true post.content)
          return {
            entityType := .post
            title := post.title
            text
            topics := some ((content.topicsOf post).map TopicRow.title) }
  | .page =>
      match (content.pages.get id).filter fun page => !page.deletedAt with
      | none => .error .notFound
      | some page => do
          let text ← textOr (pageBlocksText true page.content)
          return { entityType := .page, title := page.title, text }
  | .topic =>
      match (content.topics.get id).filter fun topic => !topic.deletedAt with
      | none => .error .notFound
      | some topic => topicSource content topic

def generate (type : SeoEntityType) (id : Uuid) (options : SeoGenerationOptionsDto) :
    Except SeoFailure SeoGeneration :=
  if options.fields = some [] then .ok .empty
  else do
    let source ← buildSource content type id
    if trim source.text.toList = [] then
      throw (.badRequest "There is no text to generate SEO from" "SEO_NO_CONTENT")
    return .ask { source, options with }

/-! ### What is public -/

/-- Two databases have the same topics, the same published posts and the same published pages. They
may differ in every draft. -/
structure PublicAgree (content content' : Content) : Prop where
  topics : content'.topics = content.topics
  posts : ∀ post : PostRow, post.status = some .published →
    (post ∈ content'.livePosts ↔ post ∈ content.livePosts)
  pages : ∀ page : PageRow, page.status = some .published → page.deletedAt = false →
    (page ∈ content'.pages ↔ page ∈ content.pages)

variable {content} {content' : Content} {topic}

theorem childrenOf_congr (h : content'.topics = content.topics) :
    childrenOf content' topic = childrenOf content topic := by
  simp only [childrenOf, Content.loadTopic, Content.liveTopics, h]

theorem topicOf_congr (h : content'.topics = content.topics) (id : Option Uuid) :
    content'.topicOf id = content.topicOf id := by
  rw [Content.topicOf, Content.topicOf, h]

theorem showsChildren_congr (h : content'.topics = content.topics) :
    showsChildren content' topic = showsChildren content topic := by
  rw [showsChildren, showsChildren, childrenOf_congr h, topicOf_congr h]

/-- The source depends on the topics, the page that is shown and the posts that are shown: nothing
else is read. -/
theorem topicSource_congr (h : content'.topics = content.topics)
    (hpage : shownPage content' topic = shownPage content topic)
    (hposts : shownPosts content' topic = shownPosts content topic) :
    topicSource content' topic = topicSource content topic := by
  unfold topicSource
  rw [hpage, hposts, showsChildren_congr h, childrenOf_congr h, topicOf_congr h]

theorem mem_publishedPosts {post : PostRow} :
    post ∈ publishedPosts content topic ↔
      post ∈ content.livePosts ∧ topic.id ∈ post.topics ∧ post.status = some .published := by
  have hpublished := PostsService.any_eq_published post.status
  rw [publishedPosts, Content.postsOfTopic, List.mem_filter, List.mem_filter, PUBLISHED, hpublished,
    decide_eq_true_eq, decide_eq_true_eq, and_assoc]

theorem nodup_publishedPosts : (publishedPosts content topic).Nodup :=
  (((content.posts.nodup.of_map _).filter _).filter _).filter _

/-- Published posts that are the same posts are listed alike. The tables may hold them in another
order, among other drafts. -/
theorem sorted_publishedPosts (h : PublicAgree content content') :
    (publishedPosts content' topic).mergeSort listedBefore =
      (publishedPosts content topic).mergeSort listedBefore := by
  have hmem : ∀ post, post ∈ publishedPosts content' topic ↔ post ∈ publishedPosts content topic := by
    intro post
    rw [mem_publishedPosts, mem_publishedPosts]
    constructor
    · rintro ⟨hlive, htopic, hpublished⟩
      exact ⟨(h.posts post hpublished).1 hlive, htopic, hpublished⟩
    · rintro ⟨hlive, htopic, hpublished⟩
      exact ⟨(h.posts post hpublished).2 hlive, htopic, hpublished⟩
  have hperm := (List.perm_ext_iff_of_nodup nodup_publishedPosts nodup_publishedPosts).2 hmem
  have hsorted := fun rows => (Paging.exists_arranges listedBefore_trans listedBefore_total rows).sorted
  refine List.Perm.eq_of_pairwise (fun post post' hpost hpost' hle hle' => ?_) (hsorted _) (hsorted _)
    ((List.mergeSort_perm _ _).trans (hperm.trans (List.mergeSort_perm _ _).symm))
  -- posts of one moment and one id are the same row
  have hrow := (mem_publishedPosts.1 ((hmem post).1 (List.mem_mergeSort.1 hpost))).1
  have hrow' := (mem_publishedPosts.1 (List.mem_mergeSort.1 hpost')).1
  exact content.posts.eq_of_key_eq (List.mem_of_mem_filter hrow) (List.mem_of_mem_filter hrow')
    (id_eq_of_listedBefore hle hle')

theorem shownPage_eq_some {page : PageRow} :
    shownPage content topic = some page ↔
      topic.page = some page.id ∧ page ∈ content.pages ∧ page.deletedAt = false ∧
        showsPage content topic = true ∧ page.status = some .published := by
  have hname : page.status.map PostStatusEnum.name = some PUBLISHED ↔
      page.status = some .published := by
    rw [Option.map_eq_some_iff]
    simp only [PUBLISHED, PostStatusEnum.name_eq_published, exists_eq_right]
  simp only [shownPage, Content.pageOf, Option.filter_eq_some_iff, Option.bind_eq_some_iff,
    Store.Table.get_eq_some, hname, Bool.and_eq_true, decide_eq_true_eq, Bool.not_eq_true']
  constructor
  · rintro ⟨⟨⟨id, hid, hpage, rfl⟩, hlive⟩, hshows, hpublished⟩
    exact ⟨hid, hpage, hlive, hshows, hpublished⟩
  · rintro ⟨hid, hpage, hlive, hshows, hpublished⟩
    exact ⟨⟨⟨_, hid, hpage, rfl⟩, hlive⟩, hshows, hpublished⟩

/-- The page that is shown is published, so that databases which agree on what is public show the
same one. -/
theorem shownPage_congr (h : PublicAgree content content') :
    shownPage content' topic = shownPage content topic := by
  have hshows : showsPage content' topic = showsPage content topic := by
    rw [showsPage, showsPage, showsChildren_congr h.topics]
  refine Option.ext fun page => ?_
  rw [shownPage_eq_some, shownPage_eq_some, hshows]
  constructor
  · rintro ⟨hid, hpage, hlive, hshows, hpublished⟩
    exact ⟨hid, (h.pages page hpublished hlive).1 hpage, hlive, hshows, hpublished⟩
  · rintro ⟨hid, hpage, hlive, hshows, hpublished⟩
    exact ⟨hid, (h.pages page hpublished hlive).2 hpage, hlive, hshows, hpublished⟩

theorem shownPosts_congr (h : PublicAgree content content') :
    shownPosts content' topic = shownPosts content topic := by
  rw [shownPosts, shownPosts, showsPosts, showsPosts, showsChildren_congr h.topics,
    sorted_publishedPosts h]

/-- A request about a topic that is found depends on its source, and one about a topic that is not
found on nothing. -/
theorem generate_topic_congr (h : content'.topics = content.topics) {id : Uuid}
    (hsource : ∀ topic, content.topics.get id = some topic →
      topicSource content' topic = topicSource content topic)
    (options : SeoGenerationOptionsDto) :
    generate content' .topic id options = generate content .topic id options := by
  have hbuild : buildSource content' .topic id = buildSource content .topic id := by
    unfold buildSource
    rw [h]
    cases hget : content.topics.get id with
    | none => rfl
    | some topic =>
        rw [Option.filter_some]
        cases topic.deletedAt with
        | true => rfl
        | false => exact hsource topic hget
  rw [generate, generate, hbuild]

/-- **The source of a topic is public.** Databases that agree on what is public ask the AI service
the same about every topic. About a root topic with children, databases with the same topics do so,
whatever their posts and pages are. -/
theorem topic_source_public (content content' : Content) :
    (PublicAgree content content' → ∀ id options,
      generate content' .topic id options = generate content .topic id options) ∧
    (content'.topics = content.topics → ∀ topic ∈ content.topics,
      content.topicOf topic.parent = none → childrenOf content topic ≠ [] → ∀ options,
        generate content' .topic topic.id options = generate content .topic topic.id options) := by
  constructor
  · intro h id options
    refine generate_topic_congr h.topics (fun topic _ => ?_) options
    exact topicSource_congr h.topics (shownPage_congr h) (shownPosts_congr h)
  · intro h topic htopic hroot hchildren options
    refine generate_topic_congr h (fun found hfound => ?_) options
    obtain rfl : topic = found := by
      rw [Store.Table.get_eq_some.2 ⟨htopic, rfl⟩] at hfound
      exact Option.some.inj hfound
    have hshows : showsChildren content topic = true := by
      rw [showsChildren, hroot, decide_eq_true hchildren]
      rfl
    have hshows' : showsChildren content' topic = true := (showsChildren_congr h).trans hshows
    -- neither the page nor the posts are looked at
    refine topicSource_congr h ?_ ?_
    · simp [shownPage, showsPage, hshows, hshows']
    · rw [shownPosts, shownPosts, showsPosts, showsPosts, hshows, hshows']
      rfl

end

/-! ### A draft in a topic -/

section

attribute [local instance] Collation.ascii

/-- The newsroom after the draft was rewritten and taken out of its topic. -/
def rewritten : Content where
  posts := ⟨[{ parasites with title := "Fleas", topics := [] }, vaccines], by decide⟩
  topics := newsroom.topics
  categories := .empty
  users := staff
  pages := legacyPages
  metadata := .empty
  files := .empty
  unique_titles := by decide
  unique_slugs := by decide

theorem publicAgree_rewritten : PublicAgree newsroom rewritten where
  topics := rfl
  posts post hpublished := by
    have hdraft : ∀ title topics, post ≠ { parasites with title, topics } := by
      rintro title topics rfl
      cases hpublished
    simp [newsroom, rewritten, PostsService.mem_livePosts, Store.Table.mem_def, hdraft]
  pages page hpublished _ := by
    have hlegacy : page ≠ legacyPage := by
      rintro rfl
      cases hpublished
    simp [newsroom, rewritten, legacyPages, Store.Table.mem_def, hlegacy]

def puppies : TopicRow :=
  { dogs with id := ⟨"puppies", by decide⟩, title := "Puppies", parent := some dogs.id }

/-- The newsroom with a topic below the dogs. -/
def kennel : Content := { newsroom with topics := ⟨[dogs, puppies], by decide⟩ }

/-- The list of posts shows the published one, and the children hide it. -/
theorem dogs_source :
    generate rewritten .topic dogs.id {} = generate newsroom .topic dogs.id {} ∧
      generate newsroom .topic dogs.id {} = .ok (.ask {
        entityType := .topic, title := "Dogs", text := "Статті розділу: Vaccines" }) ∧
      generate { rewritten with topics := kennel.topics } .topic dogs.id {} =
        generate kennel .topic dogs.id {} ∧
      generate kennel .topic dogs.id {} = .ok (.ask {
        entityType := .topic, title := "Dogs", text := "Підрозділи: Puppies" }) :=
  ⟨(topic_source_public newsroom rewritten).1 publicAgree_rewritten dogs.id {}, by decide +kernel,
    (topic_source_public kennel _).2 rfl dogs List.mem_cons_self rfl (by decide) {}, by decide +kernel⟩

end

end SeoService

end VetHealth
