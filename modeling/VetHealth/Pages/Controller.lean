import VetHealth.Pages.Dto

/-!
# VetHealth.Pages.Controller

`POST /pages` and `PATCH /pages` of an administrator: the pipe and the service call. `update` saves
whatever payload it is given: it does not look the page up, so an id that no page has makes a new one.
-/

namespace VetHealth

open Js Store

variable [Mysql] [Slugify] [UrlSyntax]

namespace PagesService

omit [UrlSyntax]

def create (pages : PageEntities) (id : String) (createPageDto : CreatePageDto) :
    Except Failure PageEntities :=
  match createPageDto.toPatch with
  | none => .error (.internal .queryFailed)
  | some patch => PagesRepository.insert pages id patch

/-- The pipe has made sure that the id is a text. -/
def update (pages : PageEntities) (payload : UpdatePageDto) :
    Except Failure PageEntities :=
  match payload.id, payload.toPatch with
  | some (.str id), some patch => PagesRepository.save pages id patch
  | _, _ => .error (.internal .queryFailed)

end PagesService

namespace PagesController

variable (tables : Tables) (pages : PageEntities)

/-- `POST /pages`; the database generates `id`. -/
def create (id : String) (body : CreatePageDto) : Except Failure PageEntities := do
  let slug ← transformSlug body.slug
  let createPageDto := { body with slug }
  validationPipe (createPageDto.properties tables pages)
  PagesService.create pages id createPageDto

/-- `PATCH /pages`. -/
def update (body : UpdatePageDto) : Except Failure PageEntities := do
  let slug ← transformSlug body.slug
  let updatePageDto := { body with slug }
  validationPipe (updatePageDto.properties tables pages)
  PagesService.update pages updatePageDto

variable {tables pages} {pages' : PageEntities}

/-- What a successful `POST /pages` is. -/
theorem create_eq_ok {id : String} {body : CreatePageDto}
    (h : create tables pages id body = .ok pages') :
    ∃ slug patch, transformSlug body.slug = .ok slug ∧
      validate (({ body with slug } : CreatePageDto).properties tables pages) = [] ∧
      ({ body with slug } : CreatePageDto).toPatch = some patch ∧ pages.get id = none ∧
      PagesRepository.save pages id patch = .ok pages' := by
  obtain ⟨slug, hslug, h⟩ := bind_eq_ok.1 h
  obtain ⟨hvalid, h⟩ := seq_eq_ok.1 h
  unfold PagesService.create at h
  split at h
  · cases h
  · next patch hpatch =>
      obtain ⟨hfree, hsave⟩ := Repository.generate_eq_ok.1 h
      exact ⟨slug, patch, hslug, validationPipe_eq_ok.1 hvalid, hpatch, hfree, hsave⟩

/-- What a successful `PATCH /pages` is. -/
theorem update_eq_ok {body : UpdatePageDto} (h : update tables pages body = .ok pages') :
    ∃ slug id patch, transformSlug body.slug = .ok slug ∧ body.id = some (.str id) ∧
      validate (({ body with slug } : UpdatePageDto).properties tables pages) = [] ∧
      ({ body with slug } : UpdatePageDto).toPatch = some patch ∧
      PagesRepository.save pages id patch = .ok pages' := by
  obtain ⟨slug, hslug, h⟩ := bind_eq_ok.1 h
  obtain ⟨hvalid, h⟩ := seq_eq_ok.1 h
  unfold PagesService.update at h
  split at h
  · next id patch hid hpatch =>
      exact ⟨slug, id, patch, hslug, hid, validationPipe_eq_ok.1 hvalid, hpatch, h⟩
  · cases h

end PagesController

end VetHealth
