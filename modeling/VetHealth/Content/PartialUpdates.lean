import VetHealth.Categories.Controller
import VetHealth.Pages.Controller
import VetHealth.Posts.Publication
import VetHealth.Topics.Controller

/-!
# VetHealth.Content.PartialUpdates

**The slug of a partial update.** `PATCH` hands the ORM an entity that has only what the body gives,
and the hook makes a slug of what it finds there: a body with a title and without a slug gives the
row the slug of this title, whatever slug it had. The four entities differ in nothing here but the
name of the title.
-/

namespace VetHealth

open Js Store

section

variable [Slugify]

/-- The title of a body is not there, or empty, or the slug is made of it. Only such a title leaves
the slug when the hook makes it anew. -/
def MakesSlug (title : Option Json) (slug : String) : Prop :=
  ∀ t, title = some (.str t) → t ≠ "" → Slugify.slugify t = slug

variable [Mysql]

/-- The slug that the hook leaves when a body has none. The hook cannot tell a payload of an update
from a new row. -/
theorem hookSlug_of_body {title : Option Json} {column : Column String}
    (htitle : Column.ofJson Mysql.textOf title = some column)
    (hstring : isNullish title = false → isString title = true) {old : String} :
    (hookSlug .keep column).applyRequired old = old ↔ MakesSlug title old := by
  rw [hookSlug_keeps]
  exact forall_congr' fun t => by rw [Column.ofJson_text htitle hstring]

omit [Mysql] in
/-- A body without a slug comes through the transformation without one, so that the hook finds none.
-/
theorem transformSlug_none {slug slug' : Option Json} (h : slug = none)
    (hslug : transformSlug slug = .ok slug') : slug' = none := by
  subst h
  exact (Except.ok.inj hslug).symm

/-! ### The four entities -/

section Posts

variable {site : Site} {posts posts' : PostsTable} {caller : JwtPayload} {body : UpdatePostDto}
  {post : PostEntity}

omit [Mysql] in
theorem PostPatch.slug_createSlug (patch : PostPatch) :
    patch.createSlug.slug = hookSlug patch.slug patch.title := by
  unfold createSlug hookSlug
  cases slugFrom patch.slug.value? patch.title.value? <;> rfl

theorem PostsController.slug_kept_iff (hstored : posts.get post.id = some post)
    (hid : body.id = some (.str post.id.text)) (hslug : body.slug = none)
    (h : update site posts caller body = .ok posts') :
    (posts'.get post.id).map PostEntity.slug = some post.slug ↔ MakesSlug body.title post.slug := by
  obtain ⟨topics, categories, slug, htransform, hvalid, hupdate⟩ := update_eq_ok h
  obtain rfl := transformSlug_none hslug htransform
  obtain ⟨found, patch, hfound, hpatch, -, hsave⟩ := PostsService.update_row hupdate
  have htext := PostsService.assertCanMutate_text (hid ▸ hfound)
  obtain ⟨htitle, hnone⟩ := CreatePostDto.toPatch_texts hpatch
  have hkeep : patch.slug = .keep := (Option.some.inj hnone).symm
  rw [Uuid.ext htext] at hsave
  rw [Repository.get_save hsave, hstored, Option.map_some, Option.map_some, Option.some.injEq]
  show patch.createSlug.slug.applyRequired post.slug = post.slug ↔ _
  rw [PostPatch.slug_createSlug, hkeep]
  exact hookSlug_of_body htitle (UpdatePostDto.title_of_accepted hvalid)

end Posts

variable [UrlSyntax] {tables : Tables}

theorem PagesController.slug_kept_iff {pages pages' : PageEntities} {body : UpdatePageDto}
    {page : PageEntity} (hstored : pages.get page.id = some page) (hid : body.id = some (.str page.id))
    (hslug : body.slug = none) (h : update tables pages body = .ok pages') :
    (pages'.get page.id).map PageEntity.slug = some page.slug ↔ MakesSlug body.title page.slug := by
  obtain ⟨slug, id, patch, htransform, hid', hvalid, hpatch, hsave⟩ := update_eq_ok h
  obtain rfl := transformSlug_none hslug htransform
  obtain rfl : page.id = id := Json.str.inj (Option.some.inj (hid.symm.trans hid'))
  obtain ⟨htitle, hnone⟩ := CreatePageDto.toPatch_texts hpatch
  have hkeep : patch.slug = .keep := (Option.some.inj hnone).symm
  rw [PagesRepository.get_save hsave, if_pos rfl, Repository.saved, hstored, Option.map_some,
    Option.some.injEq]
  show (hookSlug patch.slug patch.title).applyRequired page.slug = page.slug ↔ _
  rw [hkeep]
  exact hookSlug_of_body htitle (UpdatePageDto.title_of_accepted hvalid)

theorem TopicsController.slug_kept_iff {topics topics' : TopicsTable} {body : UpdateTopicDto}
    {topic : TopicEntity} (hstored : topics.get topic.id = some topic)
    (hid : body.id = some (.str topic.id)) (hslug : body.slug = none)
    (h : update tables topics body = .ok topics') :
    (topics'.get topic.id).map TopicEntity.slug = some topic.slug ↔ MakesSlug body.title topic.slug := by
  obtain ⟨slug, id, patch, htransform, hid', hvalid, hpatch, hsave⟩ := update_eq_ok h
  obtain rfl := transformSlug_none hslug htransform
  obtain rfl : topic.id = id := Json.str.inj (Option.some.inj (hid.symm.trans hid'))
  obtain ⟨htitle, hnone⟩ := CreateTopicDto.toPatch_texts hpatch
  have hkeep : patch.slug = .keep := (Option.some.inj hnone).symm
  rw [TopicsRepository.slug_of_save hsave, Repository.saved, hstored, Option.map_some,
    Option.some.injEq]
  show (hookSlug patch.slug patch.title).applyRequired topic.slug = topic.slug ↔ _
  rw [hkeep]
  exact hookSlug_of_body htitle (UpdateTopicDto.title_of_accepted hvalid)

theorem CategoriesController.slug_kept_iff {categories categories' : CategoriesTable}
    {body : UpdateCategoryDto} {category : CategoryEntity}
    (hstored : categories.get category.id = some category) (hid : body.id = some (.str category.id))
    (hslug : body.slug = none) (h : update tables categories body = .ok categories') :
    (categories'.get category.id).map CategoryEntity.slug = some category.slug ↔
      MakesSlug body.name category.slug := by
  obtain ⟨slug, id, patch, htransform, hid', hvalid, hpatch, hsave⟩ := update_eq_ok h
  obtain rfl := transformSlug_none hslug htransform
  obtain rfl : category.id = id := Json.str.inj (Option.some.inj (hid.symm.trans hid'))
  obtain ⟨hname, hnone⟩ := CreateCategoryDto.toPatch_texts hpatch
  have hkeep : patch.slug = .keep := (Option.some.inj hnone).symm
  rw [CategoriesRepository.slug_of_save hsave, Repository.saved, hstored, Option.map_some,
    Option.some.injEq]
  show (hookSlug patch.slug patch.name).applyRequired category.slug = category.slug ↔ _
  rw [hkeep]
  exact hookSlug_of_body hname (UpdateCategoryDto.name_of_accepted hvalid)

/-- **A partial update keeps the slug** of a post, page, topic or category exactly when the body has
no title (name), an empty one, or one that the slug is made of. -/
theorem partial_update_keeps_slug_iff :
    (∀ (site : Site) (posts posts' : PostsTable) (caller : JwtPayload) (body : UpdatePostDto)
      (post : PostEntity), posts.get post.id = some post → body.id = some (.str post.id.text) →
      body.slug = none → PostsController.update site posts caller body = .ok posts' →
      ((posts'.get post.id).map PostEntity.slug = some post.slug ↔ MakesSlug body.title post.slug)) ∧
    (∀ (tables : Tables) (pages pages' : PageEntities) (body : UpdatePageDto) (page : PageEntity),
      pages.get page.id = some page → body.id = some (.str page.id) → body.slug = none →
      PagesController.update tables pages body = .ok pages' →
      ((pages'.get page.id).map PageEntity.slug = some page.slug ↔ MakesSlug body.title page.slug)) ∧
    (∀ (tables : Tables) (topics topics' : TopicsTable) (body : UpdateTopicDto) (topic : TopicEntity),
      topics.get topic.id = some topic → body.id = some (.str topic.id) → body.slug = none →
      TopicsController.update tables topics body = .ok topics' →
      ((topics'.get topic.id).map TopicEntity.slug = some topic.slug ↔
        MakesSlug body.title topic.slug)) ∧
    ∀ (tables : Tables) (categories categories' : CategoriesTable) (body : UpdateCategoryDto)
      (category : CategoryEntity), categories.get category.id = some category →
      body.id = some (.str category.id) → body.slug = none →
      CategoriesController.update tables categories body = .ok categories' →
      ((categories'.get category.id).map CategoryEntity.slug = some category.slug ↔
        MakesSlug body.name category.slug) := by
  -- The four controllers do the same with a slug, each in its own module.
  refine ⟨?_, ?_, ?_, ?_⟩
  · intro site posts posts' caller body post hstored hid hslug h
    exact PostsController.slug_kept_iff hstored hid hslug h
  · intro tables pages pages' body page hstored hid hslug h
    exact PagesController.slug_kept_iff hstored hid hslug h
  · intro tables topics topics' body topic hstored hid hslug h
    exact TopicsController.slug_kept_iff hstored hid hslug h
  · intro tables categories categories' body category hstored hid hslug h
    exact CategoriesController.slug_kept_iff hstored hid hslug h

end

/-! ### A page with a slug of its own -/

section

attribute [local instance] Mysql.strict slugsAsGiven dotted

def felines : PageEntity :=
  { id := "p1", title := "Cats", content := "", slug := "felines", status := some .published
    deletedAt := false }

def onePage : PageEntities := ⟨[felines], by decide⟩

def emptyTables : Tables := { posts := [], topics := [], categories := [], pages := [], files := [] }

/-- `PATCH /pages`, and the slug that it leaves. -/
def slugAfter (body : UpdatePageDto) : Option (Option String) :=
  (PagesController.update emptyTables onePage body).toOption.map fun pages =>
    (pages.get felines.id).map PageEntity.slug

/-- A request that leaves a slug has been accepted. -/
theorem update_of_slugAfter {body : UpdatePageDto} {slug : Option String}
    (h : slugAfter body = some slug) : ∃ pages, PagesController.update emptyTables onePage body = .ok pages ∧
      (pages.get felines.id).map PageEntity.slug = slug := by
  unfold slugAfter at h
  cases hupdate : PagesController.update emptyTables onePage body with
  | error e =>
      rw [hupdate] at h
      cases h
  | ok pages =>
      rw [hupdate] at h
      exact ⟨pages, rfl, Option.some.inj h⟩

def newContent : UpdatePageDto := { id := some (.str "p1"), content := some (.str "More") }

def newTitle : UpdatePageDto := { id := some (.str "p1"), title := some (.str "All about cats") }

theorem slug_of_new_content :
    ∃ pages, PagesController.update emptyTables onePage newContent = .ok pages ∧
      (pages.get felines.id).map PageEntity.slug = some felines.slug := by
  have hafter : slugAfter newContent = some (some "felines") := by decide +kernel
  obtain ⟨pages, hupdate, -⟩ := update_of_slugAfter hafter
  refine ⟨pages, hupdate, (partial_update_keeps_slug_iff.2.1 emptyTables onePage pages newContent
    felines (by decide +kernel) rfl rfl hupdate).2 ?_⟩
  intro t ht
  cases ht

/-- A new title takes the slug with it. -/
theorem slug_of_new_title :
    ¬∀ (tables : Tables) (pages pages' : PageEntities) (body : UpdatePageDto) (page : PageEntity),
      pages.get page.id = some page → body.id = some (.str page.id) → body.slug = none →
      PagesController.update tables pages body = .ok pages' →
      (pages'.get page.id).map PageEntity.slug = some page.slug := by
  intro hkept
  have hafter : slugAfter newTitle = some (some "All about cats") := by decide +kernel
  obtain ⟨pages, hupdate, hslug⟩ := update_of_slugAfter hafter
  have hsame := hkept emptyTables onePage pages newTitle felines (by decide +kernel) rfl rfl hupdate
  rw [hslug] at hsame
  exact absurd hsame (by decide)

end

end VetHealth
