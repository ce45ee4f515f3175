import VetHealth.Lib.Machine
import VetHealth.Pages.Controller
import VetHealth.Posts.Publication

/-!
# VetHealth.Pages.Slugs

**Slugs of pages.** A slug that a body gives is looked for in the table before it is stored. The slug
that the hook makes of a title is not: it is made when the checks are over. No column constraint
catches the second page of one slug.

Slugs stay different in every run whose requests make no slug of a title that another page has.
-/

namespace VetHealth

open Js Store Transition

/-- A request on pages, with the tables that its references are looked for in, and the id that the
database generates. -/
inductive PageRequest
  | create (tables : Tables) (id : String) (body : CreatePageDto)
  | update (tables : Tables) (body : UpdatePageDto)

/-- No two pages have the same slug. The column has no unique index, so it is left to the checks of
the requests. -/
def UniqueSlugs (pages : PageEntities) : Prop :=
  ∀ p ∈ pages, ∀ q ∈ pages, p.slug = q.slug → p = q

section

variable [Mysql] [Slugify] [UrlSyntax]

def PageRequest.respond (pages : PageEntities) : PageRequest → Except Failure PageEntities
  | .create tables id body => PagesController.create tables pages id body
  | .update tables body => PagesController.update tables pages body

def pageMachine : Machine PageEntities PageRequest (Except Failure Unit) :=
  Machine.guarded fun pages request => request.respond pages

omit [Mysql] [UrlSyntax] in
/-- The slug that the hook makes of the title of a body, if it makes one. -/
def titleSlug (slug title : Option Json) : Option String :=
  if (slug.bind Json.asString?).any fun s => Slugify.slugify s ≠ "" then none
  else ((title.bind Json.asString?).filter fun t => t ≠ "").map Slugify.slugify

/-- No other page has the slug that an accepted request makes of its title. A slug that is given is
checked, and one that the hook makes is not. -/
def TitleSlugFree (pages : PageEntities) : PageRequest → Prop
  | .create tables _ body => ∀ slug, transformSlug body.slug = .ok slug →
      validate (({ body with slug } : CreatePageDto).properties tables pages) = [] →
      ∀ made, titleSlug body.slug body.title = some made → ∀ page ∈ pages, page.slug ≠ made
  | .update tables body => ∀ slug, transformSlug body.slug = .ok slug →
      validate (({ body with slug } : UpdatePageDto).properties tables pages) = [] →
      ∀ made, titleSlug body.slug body.title = some made → ∀ page ∈ pages, page.slug = made →
        body.id = some (.str page.id)

end

/-! ### What a save makes of the slugs -/

section

variable [Slugify] {pages pages' : PageEntities} {id : String} {patch : PagePatch}

omit [Slugify] in
/-- The slug of a saved row is the payload's, or that of the row that was there. -/
theorem PagePatch.slug_saved {page : PageEntity}
    (h : Repository.saved pages id patch.edit (patch.toEntity id) = some page) :
    patch.slug = .set page.slug ∨ ∃ stored ∈ pages, stored.id = id ∧ stored.slug = page.slug := by
  unfold Repository.saved at h
  cases hget : pages.get id with
  | none =>
      rw [hget] at h
      exact Or.inl (PagePatch.toEntity_eq_some h).2
  | some stored =>
      rw [hget] at h
      obtain rfl := Option.some.inj h
      obtain ⟨hmem, hid⟩ := Table.get_eq_some.1 hget
      cases hslug : patch.slug with
      | set s => exact Or.inl (by simp [PagePatch.edit, PagePatch.applyTo, hslug, Column.applyRequired])
      | _ =>
          refine Or.inr ⟨stored, hmem, hid, ?_⟩
          simp [PagePatch.edit, PagePatch.applyTo, hslug, Column.applyRequired]

/-- A save keeps slugs different when no other page has the slug that it sets. The row itself may
have had it. -/
theorem uniqueSlugs_save (hunique : UniqueSlugs pages)
    (h : PagesRepository.save pages id patch = .ok pages')
    (hfree : ∀ s, patch.createSlug.slug = .set s → ∀ page ∈ pages, page.slug = s → page.id = id) :
    UniqueSlugs pages' := by
  have hget := PagesRepository.get_save h
  have hother : ∀ q ∈ pages', q.id ≠ id → q ∈ pages := by
    intro q hq hne
    have hstored := hget q.id
    rw [if_neg hne, Table.get_eq_some.2 ⟨hq, rfl⟩] at hstored
    exact (Table.get_eq_some.1 hstored.symm).1
  -- a page of another id does not have the slug of the saved one
  have hsaved : ∀ p ∈ pages', p.id = id → ∀ q ∈ pages, q.slug = p.slug → q.id = id := by
    rintro p hp hid q hq hslug
    have hstored := hget p.id
    rw [if_pos hid, Table.get_eq_some.2 ⟨hp, rfl⟩] at hstored
    rcases PagePatch.slug_saved hstored.symm with hset | ⟨stored, hmem, hstoredId, hsame⟩
    · exact hfree _ hset q hq hslug
    · rw [hunique q hq stored hmem (hslug.trans hsame.symm), hstoredId]
  intro p hp q hq hslug
  by_cases hpid : p.id = id
  · by_cases hqid : q.id = id
    · exact Table.eq_of_key_eq hp hq (hpid.trans hqid.symm)
    · exact absurd (hsaved p hp hpid q (hother q hq hqid) hslug.symm) hqid
  · by_cases hqid : q.id = id
    · exact absurd (hsaved q hq hqid p (hother p hp hpid) hslug) hpid
    · exact hunique p (hother p hp hpid) q (hother q hq hqid) hslug

end

/-! ### What the checks and the hook make of a body -/

section

variable [Mysql] [Slugify] [UrlSyntax] {tables : Tables} {pages pages' : PageEntities}
  {optional : Bool} {currentId : Option Json} {dto : CreatePageDto}

omit [Slugify] in
/-- A slug that is checked and accepted is that of no other page, in the collation in which the
check looks for it. -/
theorem slug_accepted (hunique : UniqueSlugs pages)
    (hvalid : ∀ p ∈ pageProperties tables pages optional currentId dto, p.skipped = false →
      ∀ check ∈ p.checks, check.1 = true) {s : String} (hslug : dto.slug = some (.str s))
    {page : PageEntity} (hpage : page ∈ pages) (hsame : page.slug = s) :
    currentId = some (.str page.id) := by
  have hcheck := (pageProperties_accepted hvalid).2 (by rw [hslug]; rfl)
  rw [IsNotExist.validateText_eq_true] at hcheck
  cases hfound : findWhere pages PageEntity.slug dto.slug with
  | none =>
      rw [hslug] at hfound
      have hnone := Table.find_eq_none.1 hfound page hpage
      simp [Mysql.text_str, hsame] at hnone
  | some found =>
      rw [hfound] at hcheck
      rw [hslug] at hfound
      have hprop := Table.find_prop hfound
      simp only [Mysql.text_str, Option.some.injEq, decide_eq_true_eq] at hprop
      rw [hunique page hpage found (Table.find_mem hfound) (hsame.trans hprop)]
      exact hcheck found.id rfl

omit [Mysql] [UrlSyntax] in
/-- A slug that comes through the transformation is one that was slugified, so that the hook leaves
it as it is. -/
theorem transformSlug_eq_ok {slug slug' : Option Json} (h : transformSlug slug = .ok slug') :
    (slug = none ∧ slug' = none) ∨
      ∃ s, slug = some (.str s) ∧ slug' = some (.str (Slugify.slugify s)) := by
  cases slug with
  | none => exact Or.inl ⟨rfl, (Except.ok.inj h).symm⟩
  | some j =>
      cases j with
      | str s => exact Or.inr ⟨s, rfl, (Except.ok.inj h).symm⟩
      | _ => cases h

omit [UrlSyntax] in
/-- **Where the slug of a payload comes from**: it is the slug that the body gives, as it was checked,
or it is made of the title. -/
theorem createSlug_of_accepted (hidempotent : ∀ s, Slugify.slugify (Slugify.slugify s) = Slugify.slugify s)
    {slug : Option Json} (hslug : transformSlug slug = .ok dto.slug)
    (htitle : ∀ t, Column.ofJson Mysql.textOf dto.title = some (.set t) → dto.title = some (.str t))
    {patch : PagePatch} (hpatch : dto.toPatch = some patch) {made : String}
    (hmade : patch.createSlug.slug = .set made) :
    dto.slug = some (.str made) ∨ titleSlug slug dto.title = some made := by
  obtain ⟨htitleColumn, hslugColumn⟩ := CreatePageDto.toPatch_texts hpatch
  have hcreate : patch.createSlug.slug = hookSlug patch.slug patch.title := rfl
  rw [hcreate] at hmade
  -- Without a slug and a title the body keeps the stored one, and the hook makes one of the title
  -- at most.
  rcases transformSlug_eq_ok hslug with ⟨rfl, hnone⟩ | ⟨s, rfl, hsome⟩
  · rw [hnone] at hslugColumn
    have hkeep : patch.slug = .keep := (Option.some.inj hslugColumn).symm
    rcases hookSlug_eq_set hmade with ⟨s, hs, -⟩ | ⟨t, ht, hne, rfl, -⟩ | ⟨hs, -⟩
    · rw [hkeep] at hs
      cases hs
    · right
      rw [htitle t (ht ▸ htitleColumn)]
      simp [titleSlug, Json.asString?, Option.filter, hne]
    · rw [hkeep] at hs
      cases hs
  -- The interceptor has slugified what was given; the hook does it once more, which changes
  -- nothing.
  · rw [hsome] at hslugColumn ⊢
    have hset : patch.slug = .set (Slugify.slugify s) := by
      refine (Option.some.inj (Eq.trans ?_ hslugColumn)).symm
      simp [Column.ofJson, Mysql.text_str]
    rw [hset] at hmade
    rcases hookSlug_eq_set hmade with ⟨s', hs', hne, rfl⟩ | ⟨t, ht, hne, rfl, hempty⟩ | ⟨hs', rfl⟩
    · obtain rfl := Column.set.inj hs'
      exact Or.inl (by rw [hidempotent])
    · right
      rw [htitle t (ht ▸ htitleColumn)]
      simp [titleSlug, Json.asString?, Option.filter, hne, hempty _ rfl]
    · exact Or.inl (by rw [Column.set.inj hs'])

omit [Slugify] in
/-- The title of a payload is the text that the body gives: a title that is no text is refused. -/
theorem title_of_accepted
    (hvalid : ∀ p ∈ pageProperties tables pages optional currentId dto, p.skipped = false →
      ∀ check ∈ p.checks, check.1 = true) {t : String}
    (ht : Column.ofJson Mysql.textOf dto.title = some (.set t)) : dto.title = some (.str t) := by
  refine (Column.ofJson_text ht fun hgiven => ?_).1 rfl
  exact (pageProperties_accepted hvalid).1 (by rw [hgiven, Bool.and_false])

/-- **The step lemma.** A request that goes through saves one row, whose slug was checked or is free
by the condition. -/
theorem uniqueSlugs_respond
    (hidempotent : ∀ s, Slugify.slugify (Slugify.slugify s) = Slugify.slugify s)
    (hunique : UniqueSlugs pages) {request : PageRequest} (hfree : TitleSlugFree pages request)
    (h : request.respond pages = .ok pages') : UniqueSlugs pages' := by
  cases request with
  | create tables id body =>
      obtain ⟨slug, patch, hslug, hvalid, hpatch, -, hsave⟩ := PagesController.create_eq_ok h
      have hchecks := validate_eq_nil.1 hvalid
      -- A slug that is made is the body's, which the check has found free, or one of the title,
      -- which is free by assumption.
      refine uniqueSlugs_save hunique hsave fun made hmade page hpage hsame => ?_
      rcases createSlug_of_accepted hidempotent hslug (fun t => title_of_accepted hchecks) hpatch hmade
        with hgiven | htitle
      · cases slug_accepted hunique hchecks hgiven hpage hsame
      · exact absurd hsame (hfree slug hslug hvalid made htitle page hpage)
  | update tables body =>
      obtain ⟨slug, id, patch, hslug, hid, hvalid, hpatch, hsave⟩ := PagesController.update_eq_ok h
      have hchecks : ∀ p ∈ pageProperties tables pages true body.id
          ({ body.toCreatePageDto with slug } : CreatePageDto), p.skipped = false →
          ∀ check ∈ p.checks, check.1 = true :=
        fun p hp => validate_eq_nil.1 hvalid p (List.mem_append_left _ hp)
      refine uniqueSlugs_save hunique hsave fun made hmade page hpage hsame => ?_
      -- The page that has the slug is the one that is updated.
      have hcurrent : body.id = some (.str page.id) := by
        rcases createSlug_of_accepted hidempotent hslug (fun t => title_of_accepted hchecks) hpatch hmade
          with hgiven | htitle
        · exact slug_accepted hunique hchecks hgiven hpage hsame
        · exact hfree slug hslug hvalid made htitle page hpage hsame
      rw [hid] at hcurrent
      exact (Json.str.inj (Option.some.inj hcurrent)).symm

/-- **Slugs identify pages** in every run that makes no slug of a title that another page has. -/
theorem slugs_identify_pages
    (hidempotent : ∀ s, Slugify.slugify (Slugify.slugify s) = Slugify.slugify s)
    {past : List (Entry PageEntities PageRequest (Except Failure Unit))}
    (h : pageMachine.Reach .empty past pages)
    (hfree : ∀ e ∈ past, TitleSlugFree e.before e.request) : UniqueSlugs pages := by
  exact Machine.Reach.guarded_invariant (P := UniqueSlugs)
    (fun p hp => absurd hp (Table.not_mem_empty p))
    (fun _ _ _ hunique hnone hok => uniqueSlugs_respond hidempotent hunique hnone hok) h hfree

end

/-! ### Two pages -/

section

attribute [local instance] Mysql.strict slugsAsGiven dotted

def noTables : Tables := { posts := [], topics := [], categories := [], pages := [], files := [] }

/-- `POST /pages` of a published page. -/
def creatingPage (id title : String) (slug : Option Json) : PageRequest :=
  .create noTables id
    { title := some (.str title), content := some (.str ""), slug
      status := some (.obj [("id", .str "1")]) }

/-- A page about cats under the slug `dogs`. -/
def catsUnderDogs : PageRequest := creatingPage "p1" "cats" (some (.str "dogs"))

theorem slugs_of_two_pages :
    (pageMachine.run .empty [catsUnderDogs, creatingPage "p2" "mice" none]).2.rows.length = 2 ∧
      UniqueSlugs (pageMachine.run .empty [catsUnderDogs, creatingPage "p2" "mice" none]).2 := by
  refine ⟨by decide +kernel, slugs_identify_pages (fun _ => rfl) (pageMachine.reach_run _ _) ?_⟩
  intro e he
  have he : e ∈ [pageMachine.entry (pageMachine.next .empty catsUnderDogs)
    (creatingPage "p2" "mice" none), pageMachine.entry .empty catsUnderDogs] := he
  rcases List.mem_cons.1 he with rfl | he
  · intro slug _ _ made hmade
    obtain rfl := Option.some.inj ((by decide +kernel : titleSlug none (some (.str "mice")) =
      some "mice").symm.trans hmade)
    show ∀ page ∈ (pageMachine.next .empty catsUnderDogs).rows, page.slug ≠ "mice"
    decide +kernel
  · obtain rfl := List.mem_singleton.1 he
    intro slug _ _ made _ page hpage
    exact absurd hpage (Table.not_mem_empty page)

/-- The slug that is made of the second page's title is the one that the first page was given. -/
theorem two_pages_of_one_slug :
    ¬∀ past (pages : PageEntities), pageMachine.Reach .empty past pages → UniqueSlugs pages := by
  intro hunique
  have hall := hunique _ _ (pageMachine.reach_run .empty [catsUnderDogs, creatingPage "p2" "dogs" none])
  have hboth : ¬∀ p ∈ (pageMachine.run .empty [catsUnderDogs, creatingPage "p2" "dogs" none]).2.rows,
      ∀ q ∈ (pageMachine.run .empty [catsUnderDogs, creatingPage "p2" "dogs" none]).2.rows,
        p.slug = q.slug → p = q := by
    decide +kernel
  exact hboth hall

end

end VetHealth
