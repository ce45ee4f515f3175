import VetHealth.Content.Slugs
import VetHealth.Content.Trees

/-!
# VetHealth.Pages.Entity

The `pages` table as requests write it. No column of it is unique but the id.
-/

namespace VetHealth

open Store

/-- A row of `pages`. -/
structure PageEntity where
  id : String
  title : String
  content : String
  slug : String
  status : Option PostStatusEnum
  deletedAt : Bool
  deriving DecidableEq

abbrev PageEntities := Table PageEntity.id

def PageEntity.ref (page : PageEntity) : RowRef := ⟨page.id, page.deletedAt⟩

/-- A payload for `pagesRepository.save(pagesRepository.create(payload))`. -/
structure PagePatch where
  title : Column String := .keep
  content : Column String := .keep
  slug : Column String := .keep
  status : Column PostStatusEnum := .keep

namespace PagePatch

variable (patch : PagePatch)

/-- The row that the save leaves in place of `page`. -/
def applyTo (page : PageEntity) : PageEntity :=
  { page with
    title := patch.title.applyRequired page.title
    content := patch.content.applyRequired page.content
    slug := patch.slug.applyRequired page.slug
    status := patch.status.apply page.status }

def edit : Edit PageEntity.id := ⟨patch.applyTo, fun _ => rfl⟩

/-- The row that the save of a new page inserts; `none` when a `NOT NULL` column has no value. -/
def toEntity (id : String) : Option PageEntity := do
  let title ← patch.title.value?
  let content ← patch.content.value?
  let slug ← patch.slug.value?
  return { id, title, content, slug, status := patch.status.value?, deletedAt := false }

/-- No `NOT NULL` column is cleared. -/
def storable : Bool := patch.title ≠ .clear && patch.content ≠ .clear && patch.slug ≠ .clear

/-- The `BeforeInsert` and `BeforeUpdate` hook. -/
def createSlug [Slugify] : PagePatch := { patch with slug := hookSlug patch.slug patch.title }

variable {patch}

theorem toEntity_eq_some {id : String} {page : PageEntity} (h : patch.toEntity id = some page) :
    page.id = id ∧ patch.slug = .set page.slug := by
  simp only [toEntity, Option.pure_def, Option.bind_eq_bind, Option.bind_eq_some_iff,
    Option.some.injEq] at h
  obtain ⟨title, -, content, -, slug, hslug, rfl⟩ := h
  refine ⟨rfl, ?_⟩
  cases hcolumn : patch.slug with
  | set s =>
      rw [hcolumn] at hslug
      exact congrArg _ (Option.some.inj hslug)
  | _ =>
      rw [hcolumn] at hslug
      cases hslug

end PagePatch

/-! ### `PagesRepository` -/

namespace PagesRepository

variable [Slugify] {pages pages' : PageEntities} {id : String} {patch : PagePatch}

/-- `save` of a payload with an id. -/
def save (pages : PageEntities) (id : String) (patch : PagePatch) : Except Failure PageEntities :=
  let hooked := patch.createSlug
  Repository.upsert pages id hooked.storable hooked.edit (hooked.toEntity id)

/-- `save` of a payload without an id, for which the database generates `id`. -/
def insert (pages : PageEntities) (id : String) (patch : PagePatch) : Except Failure PageEntities :=
  Repository.generate pages id (save pages id patch)

/-- A save writes one row. -/
theorem get_save (h : save pages id patch = .ok pages') (k : String) :
    pages'.get k = if k = id then
      Repository.saved pages id patch.createSlug.edit (patch.createSlug.toEntity id)
    else pages.get k :=
  Repository.get_upsert (fun _ hr => (PagePatch.toEntity_eq_some hr).1) h k

end PagesRepository

end VetHealth
