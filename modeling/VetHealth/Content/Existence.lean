import VetHealth.Categories.Dto
import VetHealth.Pages.Dto
import VetHealth.Topics.Dto
import VetHealth.Users.Dto

/-!
# VetHealth.Content.Existence

**References that a body names.** The create DTOs of posts, topics, categories, pages and users check
their relation properties with `IsExist`, each wired by name to an entity class. Two of them are wired
to another class than the entity's relation refers to: the `posts` and the `topics` of a category are
looked for among the categories.
-/

namespace VetHealth

open Js Store

/-- The tables of a database. Posts and users know topics and categories by what they read of them;
a request for a reference looks at the rows as a whole. -/
structure SiteState where
  site : Site
  posts : PostsTable
  topics : TopicsTable
  categories : CategoriesTable
  pages : PageEntities
  topics_eq : ((topics.rows.filter fun topic => !topic.deletedAt).map TopicEntity.id) =
    site.topics.map fun topic => topic.id.text
  categories_eq : ((categories.rows.filter fun category => !category.deletedAt).map CategoryEntity.id) =
    site.categories.map fun category => category.id.text

def SiteState.tables (s : SiteState) : Tables where
  posts := s.posts.rows.map fun post => ⟨post.id.text, post.deletedAt⟩
  topics := s.topics.rows.map TopicEntity.ref
  categories := s.categories.rows.map CategoryEntity.ref
  pages := s.pages.rows.map PageEntity.ref
  files := s.site.files.map fun file => ⟨file.text, false⟩

/-- A body that creates a row. The body of a user has the decorators of `AuthRegisterDto`. -/
inductive CreateBody
  | post (dto : CreatePostDto)
  | topic (dto : CreateTopicDto)
  | category (dto : CreateCategoryDto)
  | page (dto : CreatePageDto)
  | user (dto : UserFields)

/-- A property with an `IsExist` check: its value, whether the check is made of `each` element, the
entity class that the decorator names, and the one that the column refers to. The two should be one
class. -/
structure Relation where
  property : String
  value : Option Json
  each : Bool
  looksIn : EntityName
  refersTo : EntityName
  message : String

namespace CreateBody

def relations : CreateBody → List Relation
  | .post dto =>
      [⟨"status", dto.status, false, .PostStatusEntity, .PostStatusEntity,
          ErrorMessage.STATUS_IS_NOT_VALID⟩,
        ⟨"featuredImageFile", dto.featuredImageFile, false, .FileEntity, .FileEntity,
          ErrorMessage.IMAGE_IS_NOT_VALID⟩,
        ⟨"categories", dto.categories, true, .CategoryEntity, .CategoryEntity,
          ErrorMessage.CATEGORY_IS_NOT_VALID⟩,
        ⟨"topics", dto.topics, true, .TopicEntity, .TopicEntity, ErrorMessage.TOPIC_IS_NOT_VALID⟩]
  | .topic dto =>
      [⟨"image", dto.image, false, .FileEntity, .FileEntity, ErrorMessage.IMAGE_IS_NOT_VALID⟩,
        ⟨"status", dto.status, false, .TopicStatusEntity, .TopicStatusEntity,
          ErrorMessage.STATUS_IS_NOT_VALID⟩,
        ⟨"categories", dto.categories, true, .CategoryEntity, .CategoryEntity,
          ErrorMessage.CATEGORY_IS_NOT_VALID⟩,
        ⟨"page", dto.page, false, .PageEntity, .PageEntity, ErrorMessage.PAGE_IS_NOT_VALID⟩,
        ⟨"parent", dto.parent, false, .TopicEntity, .TopicEntity, ErrorMessage.PARENT_IS_NOT_VALID⟩,
        ⟨"children", dto.children, true, .TopicEntity, .TopicEntity,
          ErrorMessage.CHILD_IS_NOT_VALID⟩]
  | .category dto =>
      [⟨"posts", dto.posts, true, .CategoryEntity, .PostEntity, ErrorMessage.POST_IS_NOT_VALID⟩,
        ⟨"topics", dto.topics, true, .CategoryEntity, .TopicEntity, ErrorMessage.TOPIC_IS_NOT_VALID⟩,
        ⟨"parent", dto.parent, false, .CategoryEntity, .CategoryEntity,
          ErrorMessage.PARENT_IS_NOT_VALID⟩,
        ⟨"children", dto.children, true, .CategoryEntity, .CategoryEntity,
          ErrorMessage.CHILD_IS_NOT_VALID⟩]
  | .page dto =>
      [⟨"status", dto.status, false, .PostStatusEntity, .PostStatusEntity,
          ErrorMessage.STATUS_IS_NOT_VALID⟩]
  | .user dto =>
      [⟨"role", dto.role, false, .RoleEntity, .RoleEntity, ErrorMessage.ROLE_IS_NOT_VALID⟩,
        ⟨"topics", dto.topics, true, .TopicEntity, .TopicEntity, ErrorMessage.TOPIC_IS_NOT_VALID⟩]

/-- The relations that are looked for in another table than they refer to. A slip in a decorator
shows here. -/
theorem wired_apart {body : CreateBody} {r : Relation} (hr : r ∈ body.relations)
    (hapart : r.looksIn ≠ r.refersTo) :
    ∃ dto, body = .category dto ∧ (r.property = "posts" ∨ r.property = "topics") := by
  by_cases hcategory : ∃ dto, body = .category dto
  · obtain ⟨dto, rfl⟩ := hcategory
    have hothers : ∀ r ∈ relations (.category dto), r.looksIn ≠ r.refersTo →
        r.property = "posts" ∨ r.property = "topics" := by
      simp [relations]
    exact ⟨dto, rfl, hothers r hr hapart⟩
  · have hsame : ∀ r ∈ body.relations, r.looksIn = r.refersTo := by
      cases body with
      | category dto => exact absurd ⟨dto, rfl⟩ hcategory
      | _ => simp [relations]
    exact absurd (hsame r hr) hapart

variable [Mysql] [EmailSyntax] [UrlSyntax]

/-- The properties that the DTO of a body checks. -/
def properties (s : SiteState) : CreateBody → List Property
  | .post dto => dto.properties s.site s.posts
  | .topic dto => dto.properties s.tables s.topics
  | .category dto => dto.properties s.tables s.categories
  | .page dto => dto.properties s.tables s.pages
  | .user dto => AuthRegisterDto.properties s.site.users (s.site.topics.map TreeEntity.id) dto

end CreateBody

namespace Relation

variable [Mysql]

/-- The `IsExist` check of the property. -/
def passes (tables : Tables) (r : Relation) : Bool :=
  if r.each then VetHealth.each (tables.isExist r.looksIn) r.value else tables.isExist r.looksIn r.value

/-- The property holds an object with an id, or an array of them where there may be many. -/
def Names (r : Relation) (ids : List Json) : Prop :=
  (∃ id, get? r.value "id" = some id ∧ ids = [id]) ∨
    r.each = true ∧ ∃ items, r.value = some (.arr items) ∧ items.map (Json.get "id") = ids.map some

variable {r : Relation} {ids : List Json} {tables : Tables}

/-- The check is passed when every id is truthy and found where the decorator looks. What the
decorator says is all that counts, whatever the column refers to. -/
theorem passes_iff (hnames : r.Names ids) :
    r.passes tables = true ↔ ∀ id ∈ ids, id.truthy = true ∧ tables.hasRow r.looksIn id = true := by
  have hone : ∀ value id, get? value "id" = some id →
      (tables.isExist r.looksIn value = true ↔
        id.truthy = true ∧ tables.hasRow r.looksIn id = true) := by
    intro value id hid
    rw [Tables.isExist, IsExist.validate_eq_true, hid]
    simp
  rcases hnames with ⟨id, hid, rfl⟩ | ⟨heach, items, hvalue, hids⟩
  -- One reference is no array, whatever `each` says.
  · have harray : r.value.bind Json.asArray? = none := by
      cases hvalue : r.value with
      | none => rfl
      | some j =>
          cases j with
          | arr items =>
              rw [hvalue] at hid
              cases hid
          | _ => rfl
    have hcheck : r.passes tables = tables.isExist r.looksIn r.value := by
      unfold passes VetHealth.each
      rw [harray]
      exact ite_self _
    rw [hcheck, hone _ _ hid]
    simp
  -- A list is checked item by item, and has an id for each.
  · rw [passes, if_pos heach, hvalue]
    show (items.all fun item => tables.isExist r.looksIn (some item)) = true ↔ _
    rw [List.all_eq_true]
    clear hvalue
    induction items generalizing ids with
    | nil =>
        obtain rfl : ids = [] := by simpa using hids.symm
        simp
    | cons item items ih =>
        cases ids with
        | nil => simp at hids
        | cons id ids =>
            rw [List.map_cons, List.map_cons, List.cons.injEq] at hids
            rw [List.forall_mem_cons, List.forall_mem_cons, ih hids.2, hone (some item) id hids.1]

end Relation

section

variable [Mysql] {s : SiteState}

/-- A list of live ids is what the validator sees of a table. -/
theorem existsIn_eq {rows : List RowRef} {ids : List Uuid}
    (h : (rows.filter fun row => !row.deletedAt).map RowRef.id = ids.map Uuid.text) :
    existsIn ids = IsExist.validate (hasLiveRow rows) := by
  have hrows : ∀ id, (Mysql.uuidOf ids id).isSome = hasLiveRow rows id := by
    intro id
    have hany : hasLiveRow rows id =
        ((rows.filter fun row => !row.deletedAt).map RowRef.id).any fun text =>
          Mysql.textOf id = some text := by
      rw [List.any_map, List.any_filter, hasLiveRow]
      congr 1
      funext row
      simp [Bool.and_comm]
    rw [hany, h, List.any_map, Mysql.uuidOf, List.isSome_find?]
    rfl
  unfold existsIn
  simp only [hrows]

theorem existsIn_files : existsIn s.site.files = s.tables.isExist .FileEntity := by
  refine existsIn_eq ?_
  simp [SiteState.tables, List.filter_map, Function.comp_def]

theorem existsIn_topics : existsIn (s.site.topics.map TreeEntity.id) = s.tables.isExist .TopicEntity := by
  refine existsIn_eq ?_
  rw [List.map_map]
  refine Eq.trans ?_ s.topics_eq
  rw [SiteState.tables, List.filter_map, List.map_map]
  rfl

theorem existsIn_categories :
    existsIn (s.site.categories.map TreeEntity.id) = s.tables.isExist .CategoryEntity := by
  refine existsIn_eq ?_
  rw [List.map_map]
  refine Eq.trans ?_ s.categories_eq
  rw [SiteState.tables, List.filter_map, List.map_map]
  rfl

variable [EmailSyntax] [UrlSyntax]

/-- Every relation is a property of its DTO with its check: the table of relations says what the
decorators say. -/
theorem CreateBody.relations_checked (body : CreateBody) {r : Relation} (hr : r ∈ body.relations) :
    ∃ p ∈ body.properties s, p.name = r.property ∧ (r.passes s.tables, r.message) ∈ p.checks := by
  revert r
  cases body with
  | post dto =>
      simp [relations, properties, CreatePostDto.properties, postProperties, postStatusProperty,
        Relation.passes, existsIn_files, existsIn_topics, existsIn_categories, Tables.isExist,
        Tables.hasRow]
  | topic dto => simp [relations, properties, CreateTopicDto.properties, topicProperties, Relation.passes]
  | category dto =>
      simp [relations, properties, CreateCategoryDto.properties, categoryProperties, Relation.passes]
  | page dto => simp [relations, properties, CreatePageDto.properties, pageProperties, Relation.passes]
  | user dto =>
      have htopics := @existsIn_topics _ s
      unfold existsIn at htopics
      simp [relations, properties, AuthRegisterDto.properties, userProperties, roleProperty,
        Relation.passes, htopics, Tables.isExist, Tables.hasRow]

omit [EmailSyntax] [UrlSyntax] in
/-- No row that is named has a falsy id, which no generated id is; and where the check looks in another
table than the relation refers to, the ids are all found in both or in neither. -/
def Relation.LooksRight (r : Relation) (tables : Tables) (ids : List Json) : Prop :=
  ((∀ id ∈ ids, tables.hasRow r.refersTo id = true) → ∀ id ∈ ids, id.truthy = true) ∧
    (r.looksIn = r.refersTo ∨ ((∀ id ∈ ids, id.truthy = true) →
      ((∀ id ∈ ids, tables.hasRow r.looksIn id = true) ↔
        ∀ id ∈ ids, tables.hasRow r.refersTo id = true)))

/-- **Validated references exist** exactly when the check looks right. It looks in the table that the
relation refers to for every relation but the posts and the topics of a category. -/
theorem references_exist_iff (s : SiteState) (body : CreateBody) (r : Relation)
    (hr : r ∈ body.relations) (ids : List Json) (hnames : r.Names ids) :
    (∃ p ∈ body.properties s, p.name = r.property ∧ (r.passes s.tables, r.message) ∈ p.checks) ∧
      (r.looksIn ≠ r.refersTo →
        ∃ dto, body = .category dto ∧ (r.property = "posts" ∨ r.property = "topics")) ∧
      ((r.passes s.tables = true ↔ ∀ id ∈ ids, s.tables.hasRow r.refersTo id = true) ↔
        r.LooksRight s.tables ids) := by
  refine ⟨body.relations_checked hr, CreateBody.wired_apart hr, ?_⟩
  rw [Relation.passes_iff hnames]
  have hboth : (∀ id ∈ ids, id.truthy = true ∧ s.tables.hasRow r.looksIn id = true) ↔
      (∀ id ∈ ids, id.truthy = true) ∧ ∀ id ∈ ids, s.tables.hasRow r.looksIn id = true := by
    constructor
    · exact fun h => ⟨fun id hid => (h id hid).1, fun id hid => (h id hid).2⟩
    · exact fun h id hid => ⟨h.1 id hid, h.2 id hid⟩
  rw [hboth, Relation.LooksRight]
  constructor
  · intro h
    exact ⟨fun hrows => (h.2 hrows).1, Or.inr fun htruthy =>
      ⟨fun hlooks => h.1 ⟨htruthy, hlooks⟩, fun hrows => (h.2 hrows).2⟩⟩
  · rintro ⟨htruthy, hsame⟩
    rcases hsame with hsame | hsame
    · rw [hsame]
      exact ⟨fun h => h.2, fun hrows => ⟨htruthy hrows, hrows⟩⟩
    · exact ⟨fun h => (hsame h.1).1 h.2,
        fun hrows => ⟨htruthy hrows, (hsame (htruthy hrows)).2 hrows⟩⟩

end

/-! ### A site with one post and one category -/

section

attribute [local instance] Mysql.strict atSign dotted

theorem p1_nonempty : "p1" ≠ "" := by decide

def onlyPost : PostEntity :=
  { id := ⟨"p1", p1_nonempty⟩, title := "Parvo", content := "", slug := "parvo"
    featuredImageFile := none, featuredImageUrl := none, status := some .published
    categories := [], topics := [], author := none, deletedAt := false }

def onlyCategory : CategoryEntity :=
  { id := "c1", name := "Dogs", slug := "dogs", parent := none, deletedAt := false }

def smallSite : SiteState where
  site := { users := .empty, topics := [], categories := [⟨⟨"c1", by decide⟩, none⟩], files := [] }
  posts := ⟨[onlyPost], by decide⟩
  topics := .empty
  categories := ⟨[onlyCategory], by decide⟩
  pages := .empty
  topics_eq := by decide
  categories_eq := by decide

/-- A list of one reference. -/
def oneReference (id : String) : Json := .arr [.obj [("id", .str id)]]

/-- The categories of a post. -/
def categoriesOfPost : Relation :=
  ⟨"categories", some (oneReference "c1"), true, .CategoryEntity, .CategoryEntity,
    ErrorMessage.CATEGORY_IS_NOT_VALID⟩

theorem category_of_post_exists :
    categoriesOfPost.passes smallSite.tables = true ∧
      smallSite.tables.hasRow .CategoryEntity (.str "c1") = true := by
  have hboth := (references_exist_iff smallSite
    (.post { categories := some (oneReference "c1") }) categoriesOfPost (by simp [CreateBody.relations,
      categoriesOfPost]) [.str "c1"] (Or.inr ⟨rfl, _, rfl, rfl⟩)).2.2.2
    ⟨fun _ id hid => by rw [List.mem_singleton.1 hid]; decide +kernel, Or.inl rfl⟩
  refine ⟨hboth.2 fun id hid => ?_, by decide +kernel⟩
  rw [List.mem_singleton.1 hid]
  decide +kernel

/-- The posts of a category are looked for among the categories. -/
theorem post_of_category_refused :
    ¬∀ (s : SiteState) (body : CreateBody) (r : Relation) (ids : List Json), r ∈ body.relations →
      r.Names ids →
      (r.passes s.tables = true ↔ ∀ id ∈ ids, s.tables.hasRow r.refersTo id = true) := by
  intro hexact
  have hpasses := (hexact smallSite (.category { posts := some (oneReference "p1") })
    ⟨"posts", some (oneReference "p1"), true, .CategoryEntity, .PostEntity,
      ErrorMessage.POST_IS_NOT_VALID⟩ [.str "p1"] (by simp [CreateBody.relations])
    (Or.inr ⟨rfl, _, rfl, rfl⟩)).2 ?_
  · revert hpasses
    decide +kernel
  · intro id hid
    rw [List.mem_singleton.1 hid]
    decide +kernel

end

end VetHealth
