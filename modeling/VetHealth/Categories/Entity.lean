import VetHealth.Content.Slugs
import VetHealth.Content.Trees

/-!
# VetHealth.Categories.Entity

The `categories` table as requests write it. Neither names nor slugs are unique. What a category is
joined to by join tables, its posts and topics, is not kept in its row.
-/

namespace VetHealth

open Store Forest

/-- A row of `categories`. -/
structure CategoryEntity where
  id : String
  name : String
  slug : String
  parent : Option String
  deletedAt : Bool
  deriving DecidableEq

abbrev CategoriesTable := Table CategoryEntity.id

namespace CategoryEntity

def parentColumn : ParentColumn CategoryEntity.id where
  get := parent
  set p := ⟨fun category => { category with parent := p }, fun _ => rfl⟩
  get_set _ _ := rfl

def ref (category : CategoryEntity) : RowRef := ⟨category.id, category.deletedAt⟩

end CategoryEntity

/-- A payload for `categoriesRepository.save(categoriesRepository.create(payload))`. -/
structure CategoryPatch where
  name : Column String := .keep
  slug : Column String := .keep
  parent : Column String := .keep
  children : Option (List String) := none

namespace CategoryPatch

variable (patch : CategoryPatch)

/-- The row that the save leaves in place of `category`. -/
def applyTo (category : CategoryEntity) : CategoryEntity :=
  { category with
    name := patch.name.applyRequired category.name
    slug := patch.slug.applyRequired category.slug
    parent := patch.parent.apply category.parent }

def edit : Edit CategoryEntity.id := ⟨patch.applyTo, fun _ => rfl⟩

/-- The row that the save of a new category inserts; `none` when a `NOT NULL` column has no value. -/
def toEntity (id : String) : Option CategoryEntity := do
  let name ← patch.name.value?
  let slug ← patch.slug.value?
  return { id, name, slug, parent := patch.parent.value?, deletedAt := false }

/-- No `NOT NULL` column is cleared. -/
def storable : Bool := patch.name ≠ .clear && patch.slug ≠ .clear

/-- The `BeforeInsert` and `BeforeUpdate` hook. -/
def createSlug [Slugify] : CategoryPatch := { patch with slug := hookSlug patch.slug patch.name }

variable {patch}

theorem toEntity_eq_some {id : String} {category : CategoryEntity}
    (h : patch.toEntity id = some category) :
    category.id = id ∧ category.parent = patch.parent.value? := by
  simp only [toEntity, Option.pure_def, Option.bind_eq_bind, Option.bind_eq_some_iff,
    Option.some.injEq] at h
  obtain ⟨name, -, slug, -, rfl⟩ := h
  exact ⟨rfl, rfl⟩

end CategoryPatch

/-! ### `CategoriesRepository` -/

namespace CategoriesRepository

variable [Slugify] {categories categories' : CategoriesTable} {id : String} {patch : CategoryPatch}

/-- `save` of a payload with an id. -/
def save (categories : CategoriesTable) (id : String) (patch : CategoryPatch) :
    Except Failure CategoriesTable :=
  let hooked := patch.createSlug
  saveTree CategoryEntity.parentColumn CategoryEntity.deletedAt categories id hooked.storable
    hooked.edit (hooked.toEntity id) patch.children

/-- `save` of a payload without an id, for which the database generates `id`. -/
def insert (categories : CategoriesTable) (id : String) (patch : CategoryPatch) :
    Except Failure CategoriesTable :=
  Repository.generate categories id (save categories id patch)

/-- The slug of the saved row. -/
theorem slug_of_save (h : save categories id patch = .ok categories') :
    (categories'.get id).map CategoryEntity.slug =
      (Repository.saved categories id patch.createSlug.edit (patch.createSlug.toEntity id)).map
        CategoryEntity.slug :=
  map_saveTree (fun _ hr => (CategoryPatch.toEntity_eq_some hr).1) h CategoryEntity.slug
    fun _ _ => rfl

/-- The categories stay a forest when the parent and the children of a payload are no loop. -/
theorem acyclic_save (hacyclic : Acyclic (CategoryEntity.parentColumn.links categories))
    (h : save categories id patch = .ok categories')
    (hloop : NoLoop CategoryEntity.parentColumn CategoryEntity.deletedAt categories id
      (patch.parent.apply (CategoryEntity.parentColumn.links categories id)) patch.children) :
    Acyclic (CategoryEntity.parentColumn.links categories') :=
  acyclic_saveTree hacyclic (fun _ hr => (CategoryPatch.toEntity_eq_some hr).1)
    (parent_of_saved (fun _ => rfl) fun _ hr => (CategoryPatch.toEntity_eq_some hr).2) h hloop

end CategoriesRepository

end VetHealth
