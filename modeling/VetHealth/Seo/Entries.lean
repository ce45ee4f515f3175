import VetHealth.Seo.Requests

/-!
# VetHealth.Seo.Entries

**The overview of all materials.** `SeoService.findEntries` lists topics, posts and pages with their
SEO fields. A page that belongs to a topic is left out, because it is shown under the topic's URL.

The three queries run side by side, so each of them finds the database at a moment of its own. A
stored row is looked at in two halves here: an update writes what `SeoDatabase` holds of it, and the
other columns are in `Content`. Both halves are those of the query's moment, so that between two
queries rows may come and go and topics may be linked to other pages.

`overview_complete` compares the overview with the requests for one material: what a request finds at
the moment of the query for its kind is what is listed, itself or by its topic.
-/

namespace VetHealth

open Js Store Resumption Paging

/-- A row of the overview; a property that a kind of material does not have is `none`. -/
structure SeoEntry where
  type : SeoEntityType
  id : Uuid
  title : String
  slug : String
  status : Option String
  topicSlugs : Option (List String) := none
  parentSlug : Option (Option String) := none
  metadata : SeoFieldValues
  deriving DecidableEq

/-- What an entry is about. -/
def SeoEntry.material (entry : SeoEntry) : SeoEntityType × Uuid := (entry.type, entry.id)

/-- How the database lists the rows of the three queries: rows of one rank come in any order, and
only which rows there are is fixed. -/
structure SeoListing [Collation] where
  topics : List TopicRow → List TopicRow
  posts : List PostRow → List PostRow
  pages : List PageRow → List PageRow
  topics_arranged : ∀ rows, Arranges (fun a b => Collation.le a.title b.title) rows (topics rows)
  posts_arranged : ∀ rows, Arranges (fun a b => b.createdAt ≤ a.createdAt) rows (posts rows)
  pages_arranged : ∀ rows, Arranges (fun a b => Collation.le a.title b.title) rows (pages rows)

/-- The listing in which rows of one rank keep the order of their table. -/
def SeoListing.sorting [Collation] : SeoListing where
  topics rows := rows.mergeSort fun a b => Collation.le a.title b.title
  posts rows := rows.mergeSort fun a b => b.createdAt ≤ a.createdAt
  pages rows := rows.mergeSort fun a b => Collation.le a.title b.title
  topics_arranged := exists_arranges (fun _ _ _ => Collation.le_trans _ _ _) fun _ _ => Collation.le_total _ _
  posts_arranged := exists_arranges (fun a b c hab hbc => by simp at hab hbc ⊢; omega)
    fun a b => by simp; omega
  pages_arranged := exists_arranges (fun _ _ _ => Collation.le_trans _ _ _) fun _ _ => Collation.le_total _ _

namespace SeoDatabase

/-- The live rows of a kind, by their ids. -/
def liveIds (db : SeoDatabase) (type : SeoEntityType) : List Uuid :=
  ((db.targets type).rows.filter fun target => !target.deletedAt).map SeoTarget.id

theorem findOne_eq_none {db : SeoDatabase} {type : SeoEntityType} {id : Uuid} :
    db.findOne type id = none ↔ id ∉ db.liveIds type := by
  rw [findOne, Option.map_eq_none_iff, liveIds, Table.filter_get_eq_none]

/-- The SEO fields that are loaded with a material: `metadata?.[field] ?? null`. They are those that
an update of the material would answer with. -/
def seoFields (db : SeoDatabase) (type : SeoEntityType) (id : Uuid) : SeoFieldValues :=
  ((db.findOne type id).bind Prod.snd).elim (fun _ => none) SeoService.pickSeoFields

end SeoDatabase

namespace Content

variable [Collation] (content : Content)

def livePages : List PageRow := content.pages.rows.filter fun page => !page.deletedAt

/-- The live rows of a kind, by their ids. -/
def liveIds : SeoEntityType → List Uuid
  | .topic => content.liveTopics.map TopicRow.id
  | .post => content.livePosts.map fun post => post.id
  | .page => content.livePages.map PageRow.id

/-- Both halves of the tables have the same live rows. The model keeps what an entity says and what
its metadata says apart; in the database they are one row. -/
def Halves (db : SeoDatabase) : Prop :=
  ∀ type id, id ∈ db.liveIds type ↔ id ∈ content.liveIds type

end Content

namespace SeoService

section

variable [Collation] (listing : SeoListing) (content : Content) (db : SeoDatabase)

def topicEntry (topic : TopicRow) : SeoEntry where
  type := .topic
  id := topic.id
  title := topic.title
  slug := topic.slug
  metadata := db.seoFields .topic topic.id
  status := topic.status.map TopicStatusEnum.name
  parentSlug := some ((content.topicOf topic.parent).map TopicRow.slug)

def postEntry (post : PostRow) : SeoEntry where
  type := .post
  id := post.id
  title := post.title
  slug := post.slug
  metadata := db.seoFields .post post.id
  status := post.status.map PostStatusEnum.name
  topicSlugs := some ((content.topicsOf post).map TopicRow.slug)

def pageEntry (page : PageRow) : SeoEntry where
  type := .page
  id := page.id
  title := page.title
  slug := page.slug
  metadata := db.seoFields .page page.id
  status := page.status.map PostStatusEnum.name

/-- The pages of topics, which are listed with their topic and left out among the pages. -/
def topicPageIds (topics : List TopicRow) : List Uuid :=
  topics.filterMap fun topic => (content.pageOf topic.page).map PageRow.id

end

section

variable [Collation]

/-- `findEntries`, when the query for a kind of material finds the content and the SEO fields of that
kind's moment. Whether a page belongs to a topic is read off the answer of the topics' query: the
page may be linked or unlinked before the pages are read. -/
def findEntries (listing : SeoListing) (content : SeoEntityType → Content)
    (moment : SeoEntityType → SeoDatabase) : List SeoEntry :=
  let posts := listing.posts (content .post).livePosts
  let pages := listing.pages (content .page).livePages
  let topics := listing.topics (content .topic).liveTopics
  topics.map (topicEntry (content .topic) (moment .topic)) ++
    posts.map (postEntry (content .post) (moment .post)) ++
    (pages.filter fun page => page.id ∉ topicPageIds (content .topic) topics).map
      (pageEntry (moment .page))

/-! ### What is listed -/

section

variable {listing : SeoListing} {content : Content}

theorem mem_topicPageIds {topics : List TopicRow} {id : Uuid} :
    id ∈ topicPageIds content topics ↔
      ∃ topic ∈ topics, (content.pageOf topic.page).map PageRow.id = some id := by
  rw [topicPageIds, List.mem_filterMap]

/-- The pages of the topics do not depend on how these are listed, as only the ids are collected. -/
theorem mem_topicPageIds_listed {id : Uuid} :
    id ∈ topicPageIds content (listing.topics content.liveTopics) ↔
      ∃ topic ∈ content.liveTopics, (content.pageOf topic.page).map PageRow.id = some id := by
  simp only [mem_topicPageIds, (listing.topics_arranged _).perm.mem_iff]

/-- A kind's live rows have different ids. Materials of different kinds may have one id, and are
told apart by the kind. -/
theorem nodup_liveIds (type : SeoEntityType) : (content.liveIds type).Nodup := by
  cases type with
  | topic => exact content.topics.nodup.sublist (List.filter_sublist.map _)
  | post => exact content.posts.nodup.sublist (List.filter_sublist.map _)
  | page => exact content.pages.nodup.sublist (List.filter_sublist.map _)

/-- The page of a topic that is listed. -/
def IsTopicPage (content : Content) (id : Uuid) : Prop :=
  ∃ topic ∈ content.liveTopics, (content.pageOf topic.page).map PageRow.id = some id

theorem mem_liveIds_of_isTopicPage {id : Uuid} (h : IsTopicPage content id) :
    id ∈ content.liveIds .page := by
  obtain ⟨topic, -, hpage⟩ := h
  obtain ⟨page, hjoined, rfl⟩ := Option.map_eq_some_iff.1 hpage
  obtain ⟨hlinked, hlive⟩ := Option.filter_eq_some_iff.1 hjoined
  obtain ⟨k, -, hget⟩ := Option.bind_eq_some_iff.1 hlinked
  exact List.mem_map.2 ⟨page, List.mem_filter.2 ⟨(Table.get_eq_some.1 hget).1, hlive⟩, rfl⟩

end

section

variable {listing : SeoListing} {content : SeoEntityType → Content}
  {moment : SeoEntityType → SeoDatabase}

/-- Two listings of the same rows hold the same entries. How ties are broken is nobody's concern but
the reader's. -/
theorem perm_findEntries {listing' : SeoListing} :
    (findEntries listing' content moment).Perm (findEntries listing content moment) := by
  have hperm : ∀ {ρ : Type} {le : ρ → ρ → Bool} {rows listed listed' : List ρ},
      Arranges le rows listed → Arranges le rows listed' → listed'.Perm listed :=
    fun harranged harranged' => harranged'.perm.trans harranged.perm.symm
  have hpages : ∀ page : PageRow,
      decide (page.id ∉ topicPageIds (content .topic) (listing'.topics (content .topic).liveTopics)) =
        decide (page.id ∉ topicPageIds (content .topic) (listing.topics (content .topic).liveTopics)) := by
    intro page
    rw [decide_eq_decide, mem_topicPageIds_listed, mem_topicPageIds_listed]
  unfold findEntries
  simp only [hpages]
  refine ((List.Perm.map _ ?_).append (List.Perm.map _ ?_)).append (List.Perm.map _ (List.Perm.filter _ ?_))
  · exact hperm (listing.topics_arranged _) (listing'.topics_arranged _)
  · exact hperm (listing.posts_arranged _) (listing'.posts_arranged _)
  · exact hperm (listing.pages_arranged _) (listing'.pages_arranged _)

theorem materials_findEntries :
    (findEntries listing content moment).map SeoEntry.material =
      (listing.topics (content .topic).liveTopics).map (fun topic => (.topic, topic.id)) ++
        (listing.posts (content .post).livePosts).map (fun post => (.post, post.id)) ++
        ((listing.pages (content .page).livePages).filter fun page =>
          page.id ∉ topicPageIds (content .topic) (listing.topics (content .topic).liveTopics)).map
            fun page => (.page, page.id) := by
  simp only [findEntries, List.map_append, List.map_map]
  rfl

/-- A material is listed when its row is live, unless it is a page that the query for the topics has
found at a topic. -/
theorem mem_materials {type : SeoEntityType} {id : Uuid} :
    (type, id) ∈ (findEntries listing content moment).map SeoEntry.material ↔
      id ∈ (content type).liveIds type ∧ ¬ (type = .page ∧ IsTopicPage (content .topic) id) := by
  rw [materials_findEntries]
  cases type with
  | topic =>
      simp [Content.liveIds, (listing.topics_arranged _).perm.mem_iff]
  | post =>
      simp [Content.liveIds, (listing.posts_arranged _).perm.mem_iff]
  | page =>
      simp only [List.mem_append, List.mem_map, Prod.mk.injEq, reduceCtorEq, false_and, and_false,
        exists_false, false_or, true_and, List.mem_filter, decide_eq_true_eq, Content.liveIds,
        mem_topicPageIds_listed, (listing.pages_arranged _).perm.mem_iff, IsTopicPage]
      constructor
      · rintro ⟨page, ⟨hpage, hfree⟩, rfl⟩
        exact ⟨⟨page, hpage, rfl⟩, hfree⟩
      · rintro ⟨⟨page, hpage, rfl⟩, hfree⟩
        exact ⟨page, ⟨hpage, hfree⟩, rfl⟩

/-- Nothing is listed twice: the kinds differ, or the ids do. -/
theorem nodup_materials : ((findEntries listing content moment).map SeoEntry.material).Nodup := by
  have hkind : ∀ {ρ : Type} {rows listed : List ρ} {type : SeoEntityType} {key : ρ → Uuid},
      listed.Perm rows → (rows.map key).Nodup →
        (listed.map fun row => (type, key row)).Nodup := by
    intro ρ rows listed type key hperm hnodup
    have hpairs := ((hperm.map key).nodup_iff.2 hnodup).map (Prod.mk_right_injective type)
    rwa [List.map_map] at hpairs
  have hpages : ((listing.pages (content .page).livePages).map fun page =>
      (SeoEntityType.page, page.id)).Nodup :=
    hkind (listing.pages_arranged _).perm (nodup_liveIds .page)
  rw [materials_findEntries]
  refine List.nodup_append.2 ⟨List.nodup_append.2 ⟨?_, ?_, ?_⟩, ?_, ?_⟩
  · exact hkind (listing.topics_arranged _).perm (nodup_liveIds .topic)
  · exact hkind (listing.posts_arranged _).perm (nodup_liveIds .post)
  · simp
  · exact hpages.sublist (List.filter_sublist.map _)
  · rintro material hfirst _ hpage rfl
    obtain ⟨page, -, rfl⟩ := List.mem_map.1 hpage
    simp at hfirst

end

/-! ### What the requests for one material find -/

section

variable {content : Content} {db : SeoDatabase}

omit [Collation] in
theorem textOr_ne_notFound {α : Type} {text : Option String} (f : String → α) :
    (textOr text).map f ≠ .error .notFound := by
  cases text with
  | none => simp [textOr, Except.map]
  | some text => simp [textOr, Except.map]

/-- A topic that is found has a source, or a page that cannot be read. -/
theorem topicSource_ne_notFound {topic : TopicRow} : topicSource content topic ≠ .error .notFound := by
  unfold topicSource
  cases shownPage content topic with
  | none => exact fun h => by cases h
  | some page => exact textOr_ne_notFound _

theorem buildSource_eq_notFound {type : SeoEntityType} {id : Uuid} :
    buildSource content type id = .error .notFound ↔ id ∉ content.liveIds type := by
  cases type with
  | topic =>
      rw [Content.liveIds, Content.liveTopics, ← Table.filter_get_eq_none]
      unfold buildSource
      cases (content.topics.get id).filter fun topic => !topic.deletedAt with
      | none => simp
      | some topic => simp [topicSource_ne_notFound]
  | post =>
      rw [Content.liveIds, Content.livePosts, ← Table.filter_get_eq_none]
      unfold buildSource
      cases (content.posts.get id).filter fun post => !post.deletedAt with
      | none => simp
      | some post => exact iff_of_false (textOr_ne_notFound _) (by simp)
  | page =>
      rw [Content.liveIds, Content.livePages, ← Table.filter_get_eq_none]
      unfold buildSource
      cases (content.pages.get id).filter fun page => !page.deletedAt with
      | none => simp
      | some page => exact iff_of_false (textOr_ne_notFound _) (by simp)

omit [Collation] in
/-- A row under an id that is taken is refused, and nothing is written. -/
theorem insertMetadata_taken {created : MetadataEntity} (h : db.metadata.get created.id ≠ none) :
    db.insertMetadata created = (.error (.internal .queryFailed), db) := by
  have hinsert : db.metadata.insert created = none := by
    rw [Option.eq_none_iff_forall_not_mem]
    exact fun table htable => h (Table.exists_insert.1 ⟨table, htable⟩)
  rw [SeoDatabase.insertMetadata, hinsert]

omit [Collation] in
/-- An update misses a material when it does not find it, and for no other reason. What else fails,
fails in another way. -/
theorem run_update_eq_notFound {a : SeoAmbient} {type : SeoEntityType} {id : Uuid}
    {dto : SeoMetadataFieldsDto} :
    ((update a type id dto).run db).1 = .error .notFound ↔ db.findOne type id = none := by
  cases hfind : db.findOne type id with
  | none => simp [run_update_missing hfind]
  | some loaded =>
      obtain ⟨target, found⟩ := loaded
      refine iff_of_false ?_ (by simp)
      by_cases hstrings : dto.Strings
      · by_cases hfresh : found = none → db.metadata.get a.rowId = none
        · obtain ⟨row, db', hrun, -⟩ := exists_updates hfind hstrings hfresh
          simp [hrun]
        · push Not at hfresh
          obtain ⟨rfl, htaken⟩ := hfresh
          have hinsert := @insertMetadata_taken db (created a (setFields dto)) htaken
          simp [update, Prog.run_bind, hfind, values_eq_ok.2 ⟨hstrings, rfl⟩, hinsert]
      · simp [run_update_typeError hfind hstrings]

theorem generate_eq_notFound {type : SeoEntityType} {id : Uuid} {options : SeoGenerationOptionsDto}
    (hfields : options.fields ≠ some []) :
    generate content type id options = .error .notFound ↔ id ∉ content.liveIds type := by
  rw [← buildSource_eq_notFound, generate, if_neg hfields]
  cases buildSource content type id with
  | error failure => simp [bind, Except.bind]
  | ok source =>
      refine iff_of_false ?_ (by simp)
      show (if trim source.text.toList = [] then _ else _) ≠ _
      split
      · simp [throw, throwThe, MonadExceptOf.throw]
      · simp [pure, Except.pure]

end

/-- **The overview is complete**, and agrees with the requests for one material, whatever moments its
queries find. It lists nothing twice. It lists a material exactly if a generation and an update, at
the moment of the query for its kind, find it, and it is not the page of a topic. Such a page was
there when the topics were read, and its topic is listed in its place. -/
theorem overview_complete (listing : SeoListing) (content : SeoEntityType → Content)
    (moment : SeoEntityType → SeoDatabase) (hhalves : ∀ type, (content type).Halves (moment type)) :
    let listed := (findEntries listing content moment).map SeoEntry.material
    listed.Nodup ∧
      (∀ type id,
        (∀ options : SeoGenerationOptionsDto, options.fields ≠ some [] →
          ((type, id) ∈ listed ↔ generate (content type) type id options ≠ .error .notFound ∧
            ¬ (type = .page ∧ IsTopicPage (content .topic) id))) ∧
        ∀ a dto, (type, id) ∈ listed ↔ ((update a type id dto).run (moment type)).1 ≠ .error .notFound ∧
          ¬ (type = .page ∧ IsTopicPage (content .topic) id)) ∧
      ∀ id, IsTopicPage (content .topic) id →
        (∀ options : SeoGenerationOptionsDto, options.fields ≠ some [] →
          generate (content .topic) .page id options ≠ .error .notFound) ∧
        ∃ topic ∈ (content .topic).liveTopics, (.topic, topic.id) ∈ listed ∧
          ((content .topic).pageOf topic.page).map PageRow.id = some id := by
  intro listed
  refine ⟨nodup_materials, fun type id => ⟨fun options hfields => ?_, fun a dto => ?_⟩,
    fun id hpage => ⟨fun options hfields => ?_, ?_⟩⟩
  · rw [ne_eq, generate_eq_notFound hfields, not_not]
    exact mem_materials
  -- The update looks the material up in the other half of the tables, which has the same live rows.
  · rw [ne_eq, run_update_eq_notFound, SeoDatabase.findOne_eq_none, not_not, hhalves]
    exact mem_materials
  · rw [ne_eq, generate_eq_notFound hfields, not_not]
    exact mem_liveIds_of_isTopicPage hpage
  · obtain ⟨topic, hlive, hlinked⟩ := hpage
    refine ⟨topic, hlive, mem_materials.2 ⟨List.mem_map_of_mem hlive, ?_⟩, hlinked⟩
    rintro ⟨htopic, -⟩
    cases htopic

end

/-! ### A topic with a page -/

section

attribute [local instance] Collation.ascii

/-- The newsroom with a page for the dogs. -/
def kennelPage : Content :=
  { newsroom with topics := ⟨[{ dogs with page := some legacyPage.id }], by decide⟩
                  pages := legacyPages }

/-- The same before the page is linked to the dogs. -/
def unlinkedPage : Content := { newsroom with pages := legacyPages }

/-- Its rows, none of them with metadata. -/
def kennelRows : SeoDatabase where
  targets
    | .topic => ⟨[⟨dogs.id, none, [], 0, false⟩], by decide⟩
    | .post => ⟨[⟨vaccines.id, none, [], 1, false⟩, ⟨parasites.id, none, [], 1, false⟩], by decide⟩
    | .page => ⟨[⟨legacyPage.id, none, [], 0, false⟩], by decide⟩
  metadata := .empty

theorem halves_kennel : kennelPage.Halves kennelRows := by
  intro type id
  have hsame : kennelRows.liveIds type = kennelPage.liveIds type := by
    cases type <;> decide
  rw [hsame]

theorem halves_unlinked : unlinkedPage.Halves kennelRows := by
  intro type id
  have hsame : kennelRows.liveIds type = unlinkedPage.liveIds type := by
    cases type <;> decide
  rw [hsame]

/-- The page is linked to the dogs after the topics have been read and before the pages are: it is
found, and listed beside them. Had it been linked before, it would be listed under the dogs alone. -/
theorem kennel_overview :
    let linked := (findEntries .sorting (fun _ => kennelPage) fun _ => kennelRows).map
      SeoEntry.material
    let linkedLate := (findEntries .sorting
      (fun type => if type = .topic then unlinkedPage else kennelPage) fun _ => kennelRows).map
        SeoEntry.material
    (.page, legacyPage.id) ∉ linked ∧ (.page, legacyPage.id) ∈ linkedLate ∧
      ((update atFive .page legacyPage.id blankTitle).run kennelRows).1 ≠ .error .notFound := by
  intro linked linkedLate
  have hpage : IsTopicPage kennelPage legacyPage.id :=
    ⟨{ dogs with page := some legacyPage.id }, by decide, by decide⟩
  -- Before the page is linked, no topic has it: nothing leaves it out among the pages.
  have hnone : ¬ IsTopicPage unlinkedPage legacyPage.id := by
    rintro ⟨topic, hlive, hlinked⟩
    have hunlinked : ∀ topic ∈ unlinkedPage.liveTopics,
        (unlinkedPage.pageOf topic.page).map PageRow.id = none := by decide
    rw [hunlinked topic hlive] at hlinked
    cases hlinked
  have hfound : ((update atFive .page legacyPage.id blankTitle).run kennelRows).1 ≠
      .error .notFound := by
    rw [ne_eq, run_update_eq_notFound]
    decide
  obtain ⟨-, hlinked, -⟩ :=
    overview_complete .sorting (fun _ => kennelPage) (fun _ => kennelRows) fun _ => halves_kennel
  obtain ⟨-, hlate, -⟩ := overview_complete .sorting
    (fun type => if type = .topic then unlinkedPage else kennelPage) (fun _ => kennelRows)
    fun type => by
      split
      · exact halves_unlinked
      · exact halves_kennel
  refine ⟨fun hmem => ?_, ?_, hfound⟩
  · exact (((hlinked .page legacyPage.id).2 atFive blankTitle).1 hmem).2 ⟨rfl, hpage⟩
  · exact ((hlate .page legacyPage.id).2 atFive blankTitle).2 ⟨hfound, fun h => hnone h.2⟩

end

end SeoService

end VetHealth
