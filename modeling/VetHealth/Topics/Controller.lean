import VetHealth.Topics.Dto

/-!
# VetHealth.Topics.Controller

`POST /topics` and `PATCH /topics` of an administrator: the pipe and the service call. `update` saves
whatever payload it is given: it does not look the topic up, so an id that no topic has makes a new
one.
-/

namespace VetHealth

open Js Store

variable [Mysql] [Slugify] [UrlSyntax]

namespace TopicsService

omit [UrlSyntax]

def create (tables : Tables) (topics : TopicsTable) (id : String) (createTopicDto : CreateTopicDto) :
    Except Failure TopicsTable :=
  match createTopicDto.toPatch tables with
  | none => .error (.internal .queryFailed)
  | some patch => TopicsRepository.insert topics id patch

/-- The pipe has made sure that the id is a text. -/
def update (tables : Tables) (topics : TopicsTable) (payload : UpdateTopicDto) :
    Except Failure TopicsTable :=
  match payload.id, payload.toPatch tables with
  | some (.str id), some patch => TopicsRepository.save topics id patch
  | _, _ => .error (.internal .queryFailed)

end TopicsService

namespace TopicsController

variable (tables : Tables) (topics : TopicsTable)

/-- `POST /topics`: the interceptor builds the slug first, then the service saves the payload. The
database generates `id`. -/
def create (id : String) (body : CreateTopicDto) : Except Failure TopicsTable := do
  let slug ← transformSlug body.slug
  let createTopicDto := { body with slug }
  validationPipe (createTopicDto.properties tables topics)
  TopicsService.create tables topics id createTopicDto

/-- `PATCH /topics`. -/
def update (body : UpdateTopicDto) : Except Failure TopicsTable := do
  let slug ← transformSlug body.slug
  let updateTopicDto := { body with slug }
  validationPipe (updateTopicDto.properties tables topics)
  TopicsService.update tables topics updateTopicDto

variable {tables topics} {topics' : TopicsTable}

/-- What a successful `POST /topics` is: the slug, the payload and the write it went through, one
after the other. What is proved about creations is read off this. -/
theorem create_eq_ok {id : String} {body : CreateTopicDto}
    (h : create tables topics id body = .ok topics') :
    ∃ slug patch, transformSlug body.slug = .ok slug ∧
      validate (({ body with slug } : CreateTopicDto).properties tables topics) = [] ∧
      ({ body with slug } : CreateTopicDto).toPatch tables = some patch ∧ topics.get id = none ∧
      TopicsRepository.save topics id patch = .ok topics' := by
  obtain ⟨slug, hslug, h⟩ := bind_eq_ok.1 h
  obtain ⟨hvalid, h⟩ := seq_eq_ok.1 h
  unfold TopicsService.create at h
  split at h
  · cases h
  · next patch hpatch =>
      obtain ⟨hfree, hsave⟩ := Repository.generate_eq_ok.1 h
      exact ⟨slug, patch, hslug, validationPipe_eq_ok.1 hvalid, hpatch, hfree, hsave⟩

/-- What a successful `PATCH /topics` is: the slug, the id of the body, the payload and the write
that it went through. -/
theorem update_eq_ok {body : UpdateTopicDto} (h : update tables topics body = .ok topics') :
    ∃ slug id patch, transformSlug body.slug = .ok slug ∧ body.id = some (.str id) ∧
      validate (({ body with slug } : UpdateTopicDto).properties tables topics) = [] ∧
      ({ body with slug } : UpdateTopicDto).toPatch tables = some patch ∧
      TopicsRepository.save topics id patch = .ok topics' := by
  obtain ⟨slug, hslug, h⟩ := bind_eq_ok.1 h
  obtain ⟨hvalid, h⟩ := seq_eq_ok.1 h
  unfold TopicsService.update at h
  split at h
  · next id patch hid hpatch =>
      exact ⟨slug, id, patch, hslug, hid, validationPipe_eq_ok.1 hvalid, hpatch, h⟩
  · cases h

end TopicsController

end VetHealth
