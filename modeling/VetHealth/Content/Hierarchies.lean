import VetHealth.Categories.Controller
import VetHealth.Lib.Machine
import VetHealth.Posts.Publication
import VetHealth.Topics.Controller

/-!
# VetHealth.Content.Hierarchies

**The trees of topics and of categories.** Requests create and change topics and categories, and may
give them parents and children. Each request is checked for the existence of the ids that it names,
and for nothing else: a topic can be made its own parent, or the child of its own child.

The trees stay trees in every run in which no request names such a loop.
-/

namespace VetHealth

open Js Store Forest Transition

/-- The two tables whose rows refer to one another by a column of their own, each of which should be
a forest. -/
structure Hierarchies where
  topics : TopicsTable
  categories : CategoriesTable

/-- A request, with the tables that it finds elsewhere, and the id that the database generates. -/
inductive HierarchyRequest
  | createTopic (elsewhere : Tables) (id : String) (body : CreateTopicDto)
  | updateTopic (elsewhere : Tables) (body : UpdateTopicDto)
  | createCategory (elsewhere : Tables) (id : String) (body : CreateCategoryDto)
  | updateCategory (elsewhere : Tables) (body : UpdateCategoryDto)

namespace Hierarchies

def empty : Hierarchies := ⟨.empty, .empty⟩

variable (s : Hierarchies)

/-- The tables that a request finds. -/
def tables (elsewhere : Tables) : Tables :=
  { elsewhere with
    topics := s.topics.rows.map TopicEntity.ref
    categories := s.categories.rows.map CategoryEntity.ref }

def topicLinks : String → Option String := TopicEntity.parentColumn.links s.topics

def categoryLinks : String → Option String := CategoryEntity.parentColumn.links s.categories

/-- No chain of parent links returns to where it began. -/
def AreForests : Prop := Acyclic s.topicLinks ∧ Acyclic s.categoryLinks

variable [Mysql] [Slugify] [UrlSyntax]

def respond : HierarchyRequest → Except Failure Hierarchies
  | .createTopic elsewhere id body => do
      let topics ← TopicsController.create (s.tables elsewhere) s.topics id body
      return { s with topics }
  | .updateTopic elsewhere body => do
      let topics ← TopicsController.update (s.tables elsewhere) s.topics body
      return { s with topics }
  | .createCategory elsewhere id body => do
      let categories ← CategoriesController.create (s.tables elsewhere) s.categories id body
      return { s with categories }
  | .updateCategory elsewhere body => do
      let categories ← CategoriesController.update (s.tables elsewhere) s.categories body
      return { s with categories }

def machine : Machine Hierarchies HierarchyRequest (Except Failure Unit) :=
  Machine.guarded fun s request => s.respond request

end Hierarchies

section

variable [Mysql]

/-- The parent that a body names, or else the stored one, and the children that it names are no loop
with the row `id`. The code checks nothing of the kind, so the run is asked for it. -/
def NamesNoLoop {ρ : Type} {key : ρ → String} (column : ParentColumn key) (isDeleted : ρ → Bool)
    (t : Table key) (rows : List RowRef) (id : String) (parent children : Option Json) : Prop :=
  ∀ p ids, Column.ofRelation (Mysql.rowOf rows) parent = some p → relationRows rows children = some ids →
    NoLoop column isDeleted t id (p.apply (column.links t id)) ids

variable [Slugify] [UrlSyntax]

/-- A request that its DTO accepts names no loop. -/
def Hierarchies.NamesNoLoop (s : Hierarchies) : HierarchyRequest → Prop
  | .createTopic elsewhere id body => ∀ slug, transformSlug body.slug = .ok slug →
      validate (({ body with slug } : CreateTopicDto).properties (s.tables elsewhere) s.topics) = [] →
      VetHealth.NamesNoLoop TopicEntity.parentColumn TopicEntity.deletedAt s.topics
        (s.tables elsewhere).topics id body.parent body.children
  | .updateTopic elsewhere body => ∀ slug id, transformSlug body.slug = .ok slug →
      body.id = some (.str id) →
      validate (({ body with slug } : UpdateTopicDto).properties (s.tables elsewhere) s.topics) = [] →
      VetHealth.NamesNoLoop TopicEntity.parentColumn TopicEntity.deletedAt s.topics
        (s.tables elsewhere).topics id body.parent body.children
  | .createCategory elsewhere id body => ∀ slug, transformSlug body.slug = .ok slug →
      validate (({ body with slug } : CreateCategoryDto).properties (s.tables elsewhere)
        s.categories) = [] →
      VetHealth.NamesNoLoop CategoryEntity.parentColumn CategoryEntity.deletedAt s.categories
        (s.tables elsewhere).categories id body.parent body.children
  | .updateCategory elsewhere body => ∀ slug id, transformSlug body.slug = .ok slug →
      body.id = some (.str id) →
      validate (({ body with slug } : UpdateCategoryDto).properties (s.tables elsewhere)
        s.categories) = [] →
      VetHealth.NamesNoLoop CategoryEntity.parentColumn CategoryEntity.deletedAt s.categories
        (s.tables elsewhere).categories id body.parent body.children

namespace Hierarchies

variable {s s' : Hierarchies}

/-- **The step lemma.** A request that is refused changes nothing; one that goes through grafts a
row, and the condition says that the new parent is apart from it. -/
theorem areForests_respond (hforests : s.AreForests) {request : HierarchyRequest}
    (hloop : s.NamesNoLoop request) (h : s.respond request = .ok s') : s'.AreForests := by
  obtain ⟨htopics, hcategories⟩ := hforests
  -- The four requests are alike: what was saved has the links of the body, which name no loop by
  -- assumption.
  cases request with
  | createTopic elsewhere id body =>
      obtain ⟨topics, hcreate, h⟩ := bind_eq_ok.1 h
      obtain rfl := Except.ok.inj h
      obtain ⟨slug, patch, hslug, hvalid, hpatch, -, hsave⟩ := TopicsController.create_eq_ok hcreate
      obtain ⟨hparent, hchildren⟩ := CreateTopicDto.toPatch_links hpatch
      exact ⟨TopicsRepository.acyclic_save htopics hsave
        (hloop slug hslug hvalid _ _ hparent hchildren), hcategories⟩
  | updateTopic elsewhere body =>
      obtain ⟨topics, hupdate, h⟩ := bind_eq_ok.1 h
      obtain rfl := Except.ok.inj h
      obtain ⟨slug, id, patch, hslug, hid, hvalid, hpatch, hsave⟩ :=
        TopicsController.update_eq_ok hupdate
      obtain ⟨hparent, hchildren⟩ := CreateTopicDto.toPatch_links hpatch
      exact ⟨TopicsRepository.acyclic_save htopics hsave
        (hloop slug id hslug hid hvalid _ _ hparent hchildren), hcategories⟩
  | createCategory elsewhere id body =>
      obtain ⟨categories, hcreate, h⟩ := bind_eq_ok.1 h
      obtain rfl := Except.ok.inj h
      obtain ⟨slug, patch, hslug, hvalid, hpatch, -, hsave⟩ :=
        CategoriesController.create_eq_ok hcreate
      obtain ⟨hparent, hchildren⟩ := CreateCategoryDto.toPatch_links hpatch
      exact ⟨htopics, CategoriesRepository.acyclic_save hcategories hsave
        (hloop slug hslug hvalid _ _ hparent hchildren)⟩
  | updateCategory elsewhere body =>
      obtain ⟨categories, hupdate, h⟩ := bind_eq_ok.1 h
      obtain rfl := Except.ok.inj h
      obtain ⟨slug, id, patch, hslug, hid, hvalid, hpatch, hsave⟩ :=
        CategoriesController.update_eq_ok hupdate
      obtain ⟨hparent, hchildren⟩ := CreateCategoryDto.toPatch_links hpatch
      exact ⟨htopics, CategoriesRepository.acyclic_save hcategories hsave
        (hloop slug id hslug hid hvalid _ _ hparent hchildren)⟩

/-- **The hierarchies stay acyclic** in every run whose requests name no loop. The tables are empty
at first, and what a request finds of other tables may be anything. -/
theorem forests_of_no_loops {past : List (Entry Hierarchies HierarchyRequest (Except Failure Unit))}
    (h : machine.Reach empty past s) (hloop : ∀ e ∈ past, e.before.NamesNoLoop e.request) :
    s.AreForests := by
  exact Machine.Reach.guarded_invariant (P := AreForests) ⟨acyclic_none, acyclic_none⟩
    (fun _ _ _ hforests hnone hok => areForests_respond hforests hnone hok) h hloop

end Hierarchies

end

/-! ### Two topics -/

namespace Hierarchies

section

attribute [local instance] Mysql.strict slugsAsGiven dotted

/-- Two images, and nothing else. -/
def images : Tables :=
  { posts := [], topics := [], categories := [], pages := [], files := [⟨"f1", false⟩, ⟨"f2", false⟩] }

/-- A reference to a row. -/
def row (id : String) : Json := .obj [("id", .str id)]

/-- The body of a topic about cats. -/
def cats : CreateTopicDto :=
  { title := some (.str "Cats"), image := some (row "f1"), contentType := some (.str "page")
    status := some (row "1") }

/-- The body of a topic below it. -/
def kittens : CreateTopicDto :=
  { cats with title := some (.str "Kittens"), image := some (row "f2"), parent := some (row "t1") }

def creating : List HierarchyRequest :=
  [.createTopic images "t1" cats, .createTopic images "t2" kittens]

/-- `PATCH /topics` that gives a topic itself for a parent. -/
def ownParent : HierarchyRequest :=
  .updateTopic images { id := some (.str "t1"), parent := some (row "t1") }

theorem forest_of_two :
    (machine.run empty creating).2.AreForests ∧
      (machine.run empty creating).2.topicLinks "t2" = some "t1" := by
  refine ⟨forests_of_no_loops (machine.reach_run empty creating) ?_, by decide +kernel⟩
  intro e he
  have he : e ∈ [machine.entry (machine.next empty (.createTopic images "t1" cats))
    (.createTopic images "t2" kittens), machine.entry empty (.createTopic images "t1" cats)] := he
  rcases List.mem_cons.1 he with rfl | he
  · intro slug _ _ p ids hp hids
    obtain rfl : Column.set "t1" = p :=
      Option.some.inj ((by decide +kernel : some (Column.set "t1") = _).trans hp)
    obtain rfl := Option.some.inj hids
    refine ⟨by simp, fun k hk => ⟨?_, by simp⟩⟩
    obtain ⟨k', hk', hchain⟩ := hk
    obtain rfl : "t1" = k' := Option.some.inj hk'
    rcases Relation.ReflTransGen.cases_head hchain with rfl | ⟨k', hstep, -⟩
    · decide
    · -- the first topic has no parent
      exact absurd ((by decide +kernel : none = _).trans hstep) (by simp)
  · obtain rfl := List.mem_singleton.1 he
    intro slug _ _ p ids hp hids
    obtain rfl := Option.some.inj hp
    obtain rfl := Option.some.inj hids
    refine ⟨by simp, fun k hk => ?_⟩
    obtain ⟨k', hk', -⟩ := hk
    cases hk'

/-- A topic can be made its own parent. -/
theorem topic_above_itself :
    ¬∀ past (s : Hierarchies), machine.Reach empty past s → s.AreForests := by
  intro hforests
  have hreach := machine.reach_run empty [.createTopic images "t1" cats, ownParent]
  have hlink : (machine.run empty [.createTopic images "t1" cats, ownParent]).2.topicLinks "t1" =
      some "t1" := by
    decide +kernel
  exact (hforests _ _ hreach).1 "t1" (.single hlink)

end

end Hierarchies

end VetHealth
