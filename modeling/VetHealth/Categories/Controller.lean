import VetHealth.Categories.Dto

/-!
# VetHealth.Categories.Controller

`POST /categories` and `PATCH /categories` of an administrator: the pipe and the service call. `update` saves
whatever payload it is given: it does not look the category up, so an id that no category has
makes a new one.
-/

namespace VetHealth

open Js Store

variable [Mysql] [Slugify] [UrlSyntax]

namespace CategoriesService

omit [UrlSyntax]

def create (tables : Tables) (categories : CategoriesTable) (id : String)
    (createCategoryDto : CreateCategoryDto) : Except Failure CategoriesTable :=
  match createCategoryDto.toPatch tables with
  | none => .error (.internal .queryFailed)
  | some patch => CategoriesRepository.insert categories id patch

/-- The pipe has made sure that the id is a text. -/
def update (tables : Tables) (categories : CategoriesTable) (payload : UpdateCategoryDto) :
    Except Failure CategoriesTable :=
  match payload.id, payload.toPatch tables with
  | some (.str id), some patch => CategoriesRepository.save categories id patch
  | _, _ => .error (.internal .queryFailed)

end CategoriesService

namespace CategoriesController

variable (tables : Tables) (categories : CategoriesTable)

/-- `POST /categories`: the interceptor builds the slug first, then the service saves the payload.
The database generates `id`. -/
def create (id : String) (body : CreateCategoryDto) : Except Failure CategoriesTable := do
  let slug ← transformSlug body.slug
  let createCategoryDto := { body with slug }
  validationPipe (createCategoryDto.properties tables categories)
  CategoriesService.create tables categories id createCategoryDto

/-- `PATCH /categories`. -/
def update (body : UpdateCategoryDto) : Except Failure CategoriesTable := do
  let slug ← transformSlug body.slug
  let updateCategoryDto := { body with slug }
  validationPipe (updateCategoryDto.properties tables categories)
  CategoriesService.update tables categories updateCategoryDto

variable {tables categories} {categories' : CategoriesTable}

/-- What a successful `POST /categories` is: the slug, the payload and the write it went through,
one after the other. -/
theorem create_eq_ok {id : String} {body : CreateCategoryDto}
    (h : create tables categories id body = .ok categories') :
    ∃ slug patch, transformSlug body.slug = .ok slug ∧
      validate (({ body with slug } : CreateCategoryDto).properties tables categories) = [] ∧
      ({ body with slug } : CreateCategoryDto).toPatch tables = some patch ∧ categories.get id = none ∧
      CategoriesRepository.save categories id patch = .ok categories' := by
  obtain ⟨slug, hslug, h⟩ := bind_eq_ok.1 h
  obtain ⟨hvalid, h⟩ := seq_eq_ok.1 h
  unfold CategoriesService.create at h
  split at h
  · cases h
  · next patch hpatch =>
      obtain ⟨hfree, hsave⟩ := Repository.generate_eq_ok.1 h
      exact ⟨slug, patch, hslug, validationPipe_eq_ok.1 hvalid, hpatch, hfree, hsave⟩

/-- What a successful `PATCH /categories` is: the slug, the id of the body, the payload and the
write that it went through. -/
theorem update_eq_ok {body : UpdateCategoryDto} (h : update tables categories body = .ok categories') :
    ∃ slug id patch, transformSlug body.slug = .ok slug ∧ body.id = some (.str id) ∧
      validate (({ body with slug } : UpdateCategoryDto).properties tables categories) = [] ∧
      ({ body with slug } : UpdateCategoryDto).toPatch tables = some patch ∧
      CategoriesRepository.save categories id patch = .ok categories' := by
  obtain ⟨slug, hslug, h⟩ := bind_eq_ok.1 h
  obtain ⟨hvalid, h⟩ := seq_eq_ok.1 h
  unfold CategoriesService.update at h
  split at h
  · next id patch hid hpatch =>
      exact ⟨slug, id, patch, hslug, hid, validationPipe_eq_ok.1 hvalid, hpatch, h⟩
  · cases h

end CategoriesController

end VetHealth
