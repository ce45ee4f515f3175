import VetHealth.Content.Slugs
import VetHealth.Content.Trees

/-!
# VetHealth.Topics.Entity

The `topics` table as requests write it. Titles, slugs and images are unique. What a topic is joined
to by join tables, its categories, posts and users, is not kept in its row.
-/

namespace VetHealth

open Store Forest

/-- A row of `topics`. -/
structure TopicEntity where
  id : String
  title : String
  image : Option String
  description : Option String
  status : Option TopicStatusEnum
  slug : String
  contentType : TopicContentTypeEnum
  page : Option String
  parent : Option String
  deletedAt : Bool
  deriving DecidableEq

abbrev TopicsTable := Table TopicEntity.id

namespace TopicEntity

def parentColumn : ParentColumn TopicEntity.id where
  get := parent
  set p := ⟨fun topic => { topic with parent := p }, fun _ => rfl⟩
  get_set _ _ := rfl

def ref (topic : TopicEntity) : RowRef := ⟨topic.id, topic.deletedAt⟩

end TopicEntity

/-- A payload for `topicsRepository.save(topicsRepository.create(payload))`. -/
structure TopicPatch where
  title : Column String := .keep
  image : Column String := .keep
  description : Column String := .keep
  status : Column TopicStatusEnum := .keep
  slug : Column String := .keep
  contentType : Column TopicContentTypeEnum := .keep
  page : Column String := .keep
  parent : Column String := .keep
  children : Option (List String) := none

namespace TopicPatch

variable (patch : TopicPatch)

/-- The row that the save leaves in place of `topic`. -/
def applyTo (topic : TopicEntity) : TopicEntity :=
  { topic with
    title := patch.title.applyRequired topic.title
    image := patch.image.apply topic.image
    description := patch.description.apply topic.description
    status := patch.status.apply topic.status
    slug := patch.slug.applyRequired topic.slug
    contentType := patch.contentType.applyRequired topic.contentType
    page := patch.page.apply topic.page
    parent := patch.parent.apply topic.parent }

def edit : Edit TopicEntity.id := ⟨patch.applyTo, fun _ => rfl⟩

/-- The row that the save of a new topic inserts; `none` when a `NOT NULL` column has no value. -/
def toEntity (id : String) : Option TopicEntity := do
  let title ← patch.title.value?
  let slug ← patch.slug.value?
  let contentType ← patch.contentType.value?
  return {
    id, title, slug, contentType
    image := patch.image.value?
    description := patch.description.value?
    status := patch.status.value?
    page := patch.page.value?
    parent := patch.parent.value?
    deletedAt := false }

/-- No `NOT NULL` column is cleared. -/
def storable : Bool := patch.title ≠ .clear && patch.slug ≠ .clear && patch.contentType ≠ .clear

/-- The `BeforeInsert` and `BeforeUpdate` hook. -/
def createSlug [Slugify] : TopicPatch := { patch with slug := hookSlug patch.slug patch.title }

/-- Some other row holds the title, the slug or the image that the payload sets. All three columns
have a unique index. -/
def taken (topics : TopicsTable) (id : String) : Bool :=
  topics.rows.any fun topic => topic.id ≠ id && (patch.title = .set topic.title ||
    patch.slug = .set topic.slug || topic.image.any fun image => patch.image = .set image)

variable {patch}

theorem toEntity_eq_some {id : String} {topic : TopicEntity} (h : patch.toEntity id = some topic) :
    topic.id = id ∧ topic.parent = patch.parent.value? := by
  simp only [toEntity, Option.pure_def, Option.bind_eq_bind, Option.bind_eq_some_iff,
    Option.some.injEq] at h
  obtain ⟨title, -, slug, -, contentType, -, rfl⟩ := h
  exact ⟨rfl, rfl⟩

end TopicPatch

/-! ### `TopicsRepository` -/

namespace TopicsRepository

variable [Slugify] {topics topics' : TopicsTable} {id : String} {patch : TopicPatch}

/-- `save` of a payload with an id. -/
def save (topics : TopicsTable) (id : String) (patch : TopicPatch) : Except Failure TopicsTable :=
  let hooked := patch.createSlug
  saveTree TopicEntity.parentColumn TopicEntity.deletedAt topics id
    (hooked.storable && !hooked.taken topics id) hooked.edit (hooked.toEntity id) patch.children

/-- `save` of a payload without an id, for which the database generates `id`. -/
def insert (topics : TopicsTable) (id : String) (patch : TopicPatch) : Except Failure TopicsTable :=
  Repository.generate topics id (save topics id patch)

/-- The slug of the saved row, by the hook on the payload alone: the stored title is not loaded. -/
theorem slug_of_save (h : save topics id patch = .ok topics') :
    (topics'.get id).map TopicEntity.slug =
      (Repository.saved topics id patch.createSlug.edit (patch.createSlug.toEntity id)).map
        TopicEntity.slug :=
  map_saveTree (fun _ hr => (TopicPatch.toEntity_eq_some hr).1) h TopicEntity.slug fun _ _ => rfl

/-- The topics stay a forest when the parent and the children of a payload are no loop. It is
`acyclic_saveTree` for the columns of a topic. -/
theorem acyclic_save (hacyclic : Acyclic (TopicEntity.parentColumn.links topics))
    (h : save topics id patch = .ok topics')
    (hloop : NoLoop TopicEntity.parentColumn TopicEntity.deletedAt topics id
      (patch.parent.apply (TopicEntity.parentColumn.links topics id)) patch.children) :
    Acyclic (TopicEntity.parentColumn.links topics') :=
  acyclic_saveTree hacyclic (fun _ hr => (TopicPatch.toEntity_eq_some hr).1)
    (parent_of_saved (fun _ => rfl) fun _ hr => (TopicPatch.toEntity_eq_some hr).2) h hloop

end TopicsRepository

end VetHealth
