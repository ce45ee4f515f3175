import VetHealth.Ai.SeoGeneration
import VetHealth.Seo.Generation
import VetHealth.Seo.Update

/-!
# VetHealth.Seo.Requests

**Accepted requests about SEO fields.** An accepted body may hold `null` where a property is optional.
`SeoService.update` takes every field that is not `undefined` for a text, and a generation takes
`fields` that are not `undefined` for a list, so that `null` is a `TypeError` in both.

The columns of the two titles have a width. The DTO counts the characters of a title in another way
than the database does, and a title that is too long for its column fails in the database.
-/

namespace VetHealth

open Js Resumption

namespace SeoService

/-! ### Columns of limited width -/

/-- `varchar(255)` for the titles; the others are `text`. -/
def columnWidth : SeoField → Option Nat
  | .metaTitle | .ogTitle => some 255
  | .metaDescription | .metaKeywords | .ogDescription => none

def fitsColumn (field : SeoField) (value : Option String) : Bool :=
  (columnWidth field).all fun width => value.all fun text => text.toList.length ≤ width

def fitsColumns (seo : SeoFieldValues) : Bool :=
  SEO_FIELDS.all fun field => fitsColumn field (seo field)

theorem fitsColumns_iff {seo : SeoFieldValues} :
    fitsColumns seo = true ↔ ∀ field, fitsColumn field (seo field) = true := by
  rw [fitsColumns, List.all_eq_true]
  exact ⟨fun h field => h field field.mem_fields, fun h field _ => h field⟩

/-- `update` in a database in strict mode: the statement that writes the row fails when a value does
not fit its column. -/
def updateWithin (a : SeoAmbient) (type : SeoEntityType) (id : Uuid) (dto : SeoMetadataFieldsDto)
    (db : SeoDatabase) : Except Failure SeoFieldValues × SeoDatabase :=
  match (update a type id dto).run db with
  | (.ok seo, db') =>
      if fitsColumns seo then (.ok seo, db') else (.error (.internal .queryFailed), db)
  | (.error failure, db') => (.error failure, db')

variable {db : SeoDatabase} {type : SeoEntityType} {id : Uuid} {dto : SeoMetadataFieldsDto}
  {a : SeoAmbient}

theorem values_eq_error (h : ¬dto.Strings) : values dto = .error (.internal .typeError) := by
  cases hvalues : values dto with
  | ok v => exact absurd (values_eq_ok.1 hvalues).1 h
  | error failure =>
      unfold values at hvalues
      split at hvalues
      · cases hvalues
      · exact hvalues.symm

/-- A field that is no text, for an entity that is found. -/
theorem run_update_typeError {target : SeoTarget} {found : Option MetadataEntity}
    (h : db.findOne type id = some (target, found)) (hstrings : ¬dto.Strings) :
    (update a type id dto).run db = (.error (.internal .typeError), db) := by
  simp only [update, Prog.run_bind, Prog.run_atomic, h, values_eq_error hstrings, Prog.run_lift]

/-- A body that can be saved: no field is `null`, and the trimmed titles fit their columns. The pipe
makes sure of neither. -/
structure Saveable (dto : SeoMetadataFieldsDto) : Prop where
  not_null : ∀ field, dto field ≠ some .null
  fits : ∀ field text, dto field = some (.str text) → fitsColumn field (trimOrNull text) = true

/-- The fields of an accepted body are texts unless one is `null`. -/
theorem strings_iff_not_null [TextLength] (h : validate (SeoMetadataFieldsDto.properties dto) = []) :
    dto.Strings ↔ ∀ field, dto field ≠ some .null := by
  rw [SeoMetadataFieldsDto.accepted_iff] at h
  constructor
  · intro hstrings field hnull
    obtain ⟨text, htext⟩ := hstrings field .null hnull
    cases htext
  · intro hnot field value hvalue
    rcases h field with hnullish | ⟨text, htext, -⟩
    · rcases isNullish_iff.1 hnullish with hnone | hnull
      · rw [hnone] at hvalue
        cases hvalue
      · exact absurd hnull (hnot field)
    · exact ⟨text, Option.some.inj (hvalue.symm.trans htext)⟩

/-- The values of the new row fit when the given ones do, as the stored ones do. -/
theorem fitsColumns_updated {db' : SeoDatabase} {target : SeoTarget} {found : Option MetadataEntity}
    {row : MetadataEntity} (h : Updates a type id dto db db' target found row)
    (hstrings : dto.Strings)
    (hstored : ∀ stored, found = some stored → fitsColumns stored.columns.seo = true) :
    fitsColumns row.columns.seo = true ↔
      ∀ field text, dto field = some (.str text) → fitsColumn field (trimOrNull text) = true := by
  rw [fitsColumns_iff]
  constructor
  · intro hfits field text htext
    rw [← h.provided field text htext]
    exact hfits field
  · intro hfits field
    cases hvalue : dto field with
    | some value =>
        obtain ⟨text, rfl⟩ := hstrings field value hvalue
        rw [h.provided field text hvalue]
        exact hfits field text hvalue
    | none =>
        rw [h.kept field hvalue]
        cases found with
        | none => cases field <;> rfl
        | some stored => exact fitsColumns_iff.1 (hstored stored rfl) field

/-- **An accepted update fails as declared unless a field is `null` or a title is too long for its
column**, when there is an entity to update. -/
theorem updateWithin_spec [TextLength] (h : validate (SeoMetadataFieldsDto.properties dto) = [])
    (hfresh : db.metadata.get a.rowId = none)
    (hfit : ∀ k row, db.metadata.get k = some row → fitsColumns row.columns.seo = true) :
    FailsAsDeclared Failure.isHttpException (updateWithin a type id dto db).1 ↔
      (db.findOne type id ≠ none → Saveable dto) := by
  unfold updateWithin
  rcases hfind : db.findOne type id with _ | ⟨target, found⟩
  · rw [run_update_missing hfind]
    exact iff_of_true (failsAsDeclared_error.2 rfl) fun hfound => absurd rfl hfound
  · by_cases hstrings : dto.Strings
    · obtain ⟨row, db', hrun, hupdates, -⟩ := exists_updates hfind hstrings fun _ => hfresh
      have hfits := fitsColumns_updated hupdates hstrings fun stored hstored => by
        obtain ⟨-, -, hfound⟩ := SeoDatabase.findOne_eq_some.1 hfind
        obtain ⟨k, -, hget⟩ := Option.bind_eq_some_iff.1 (hfound.symm.trans hstored)
        exact hfit k stored hget
      rw [hrun]
      dsimp only
      split
      · next hrow =>
          refine iff_of_true (failsAsDeclared_ok _) fun _ => ?_
          exact ⟨(strings_iff_not_null h).1 hstrings, hfits.1 hrow⟩
      · next hrow =>
          refine iff_of_false (fun hdeclared => Bool.false_ne_true (hdeclared _ rfl)) fun hsave => ?_
          exact hrow (hfits.2 (hsave (by simp)).fits)
    · rw [run_update_typeError hfind hstrings]
      refine iff_of_false (fun hdeclared => Bool.false_ne_true (hdeclared _ rfl)) fun hsave => ?_
      exact hstrings ((strings_iff_not_null h).2 (hsave (by simp)).not_null)

/-! ### Generations -/

end SeoService

/-- The `type` of a request. -/
def SeoEntityType.text : SeoEntityType → String
  | .post => "post"
  | .page => "page"
  | .topic => "topic"

/-- `{ ...source, ...options }`. -/
def SeoSource.withOptions (source : SeoSource) (options : SeoGenerationOptionsBody) :
    GenerateSeoMetadataBody :=
  { options with
    title := some (.str source.title)
    text := some (.str source.text)
    topics := source.topics.map fun titles => .arr (titles.map Json.str)
    entityType := some (.str source.entityType.text) }

/-- The body of options that are checked. -/
def SeoGenerationOptionsDto.body (options : SeoGenerationOptionsDto) : SeoGenerationOptionsBody where
  fields := options.fields.map requestedFields
  current := options.current.map fun values => .obj (SEO_FIELDS.filterMap fun field =>
    (values field).map fun text => (field.name, .str text))
  hint := options.hint.map Json.str
  primaryKeyword := options.primaryKeyword.map Json.str

/-- How a generation for an entity is rejected: before the AI service is asked, or by it. Each kind
says which of its failures are declared. -/
inductive SeoRequestFailure
  | source (failure : SeoFailure)
  | generation (failure : GenerationFailure)

def SeoFailure.isHttpException : SeoFailure → Bool
  | .notFound | .badRequest _ _ => true
  | .internal _ => false

def SeoRequestFailure.isHttpException : SeoRequestFailure → Bool
  | .source failure => failure.isHttpException
  | .generation failure => failure.isHttpException

namespace SeoService

section

variable [Collation] (content : Content) (type : SeoEntityType) (id : Uuid)

/-- The stored content that is read can be made into text: a post's, a page's, or that of the page
that a topic shows. -/
def Readable : Prop :=
  match type with
  | .post => ∀ post ∈ (content.posts.get id).filter fun post => !post.deletedAt,
      (lexicalContentText true post.content).isSome = true
  | .page => ∀ page ∈ (content.pages.get id).filter fun page => !page.deletedAt,
      (pageBlocksText true page.content).isSome = true
  | .topic => ∀ topic ∈ (content.topics.get id).filter fun topic => !topic.deletedAt,
      ∀ page ∈ shownPage content topic, (pageBlocksText true page.content).isSome = true

/-- The entity is found, and has a text that is not blank. -/
def HasText : Prop :=
  ∃ source, buildSource content type id = .ok source ∧ trim source.text.toList ≠ []

variable {content type id}

theorem hasText_iff {source : SeoSource} (h : buildSource content type id = .ok source) :
    HasText content type id ↔ trim source.text.toList ≠ [] := by
  constructor
  · rintro ⟨source', hok, htext⟩
    obtain rfl := Except.ok.inj (h.symm.trans hok)
    exact htext
  · exact fun htext => ⟨source, h, htext⟩

theorem not_hasText {failure : SeoFailure} (h : buildSource content type id = .error failure) :
    ¬HasText content type id := by
  rintro ⟨source, hok, -⟩
  rw [h] at hok
  cases hok

omit [Collation] in
/-- A text that is not made is the one failure that is not declared. It comes from content that the
reader of texts throws for. -/
theorem failsAsDeclared_textOr {α : Type} {text : Option String} (f : String → α) :
    FailsAsDeclared SeoFailure.isHttpException ((textOr text).map f) ↔ text.isSome = true := by
  cases text with
  | none => exact iff_of_false (fun hdeclared => Bool.false_ne_true (hdeclared _ rfl)) (by simp)
  | some text => exact iff_of_true (failsAsDeclared_ok _) rfl

theorem failsAsDeclared_topicSource {topic : TopicRow} :
    FailsAsDeclared SeoFailure.isHttpException (topicSource content topic) ↔
      ∀ page ∈ shownPage content topic, (pageBlocksText true page.content).isSome = true := by
  unfold topicSource
  cases hpage : shownPage content topic with
  | none => exact iff_of_true (failsAsDeclared_ok _) fun page hnone => by cases hnone
  | some page => exact (failsAsDeclared_textOr _).trans (by simp)

/-- **The source of an entity is made, or refused as declared, unless its content is unreadable.** -/
theorem failsAsDeclared_buildSource :
    FailsAsDeclared SeoFailure.isHttpException (buildSource content type id) ↔
      Readable content type id := by
  cases type with
  | post =>
      simp only [buildSource, Readable]
      cases (content.posts.get id).filter fun post => !post.deletedAt with
      | none => exact iff_of_true (failsAsDeclared_error.2 rfl) (by simp)
      | some post => exact (failsAsDeclared_textOr _).trans (by simp)
  | page =>
      simp only [buildSource, Readable]
      cases (content.pages.get id).filter fun page => !page.deletedAt with
      | none => exact iff_of_true (failsAsDeclared_error.2 rfl) (by simp)
      | some page => exact (failsAsDeclared_textOr _).trans (by simp)
  | topic =>
      simp only [buildSource, Readable]
      cases (content.topics.get id).filter fun topic => !topic.deletedAt with
      | none => exact iff_of_true (failsAsDeclared_error.2 rfl) (by simp)
      | some topic => exact failsAsDeclared_topicSource.trans (by simp)

variable (content type id)

variable {Model Signal : Type} [Collation.LowerCase] (registry : AiModelRegistry Model)
  (platform : AiPlatform SeoMetadataResult Model Signal) (system : String)
  (stringify : SeoPrompt → String) (responses : Nat → ProviderResponse SeoMetadataResult)

/-- `generate`, for a body as it arrives. -/
def generateFor (options : SeoGenerationOptionsBody) :
    Except SeoRequestFailure SeoGenerationResult :=
  if lengthIsZero options.fields then .ok ⟨fun _ => none, none⟩
  else
    match buildSource content type id with
    | .error failure => .error (.source failure)
    | .ok source =>
        if trim source.text.toList = [] then
          .error (.source
            (.badRequest "There is no text to generate SEO from" "SEO_NO_CONTENT"))
        else
          (AiService.generateSeoMetadata platform responses system stringify
            (source.withOptions options)).mapError .generation

/-- Options that are checked are answered as `generate` says. -/
theorem generateFor_body (options : SeoGenerationOptionsDto) :
    generateFor content type id platform system stringify responses options.body =
      match generate content type id options with
      | .error failure => .error (.source failure)
      | .ok .empty => .ok ⟨fun _ => none, none⟩
      | .ok (.ask input) =>
          (AiService.generateSeoMetadata platform responses system stringify
            (input.toSeoSource.withOptions options.body)).mapError .generation := by
  have hempty : lengthIsZero options.body.fields = decide (options.fields = some []) := by
    rw [SeoGenerationOptionsDto.body]
    rcases options.fields with _ | fields
    · rfl
    · cases fields <;> simp [requestedFields, lengthIsZero]
  unfold generateFor generate
  rw [hempty]
  by_cases hfields : options.fields = some []
  · simp [hfields]
  · rw [if_neg (by simpa using hfields), if_neg hfields]
    cases buildSource content type id with
    | error failure => rfl
    | ok source =>
        by_cases hblank : trim source.text.toList = []
        · simp [hblank, bind, Except.bind, throw, throwThe, MonadExceptOf.throw]
        · simp [hblank, bind, Except.bind, pure, Except.pure]

/-- **An accepted generation fails as declared unless `fields` is `null` and there is a text, or the
stored content makes no text.** An empty list of fields is answered before anything is read. -/
theorem generateFor_spec [TextLength] {options : SeoGenerationOptionsBody}
    (h : validate options.properties = []) :
    FailsAsDeclared SeoRequestFailure.isHttpException
        (generateFor content type id (registry.on platform) system stringify responses options) ↔
      options.fields = some (.arr []) ∨
        Readable content type id ∧ (HasText content type id → options.fields ≠ some .null) := by
  have hproper : options.IsProper :=
    SeoGenerationOptionsBody.isProper (List.flatMap_eq_nil_iff.1 h)
  -- An empty list is the only one with length zero: a list of names is as long as the request says.
  have hempty : lengthIsZero options.fields = true ↔ options.fields = some (.arr []) := by
    rcases hproper.fields with hnullish | ⟨fields, hfields⟩
    · rcases isNullish_iff.1 hnullish with hnone | hnull
      · simp [hnone, lengthIsZero]
      · simp [hnull, lengthIsZero]
    · simp [hfields, lengthIsZero, requestedFields]
  unfold generateFor
  by_cases hzero : lengthIsZero options.fields = true
  · rw [if_pos hzero]
    exact iff_of_true (failsAsDeclared_ok _) (Or.inl (hempty.1 hzero))
  · rw [if_neg hzero, or_iff_right (fun hfields => hzero (hempty.2 hfields))]
    rw [← failsAsDeclared_buildSource]
    cases hsource : buildSource content type id with
    -- No source, so nothing is asked: what counts is how that failed.
    | error failure =>
        rw [and_iff_left fun htext => absurd htext (not_hasText hsource)]
        exact failsAsDeclared_error.trans
          (@failsAsDeclared_error _ SeoSource SeoFailure.isHttpException failure).symm
    | ok source =>
        rw [and_iff_right (failsAsDeclared_ok source), hasText_iff hsource]
        -- A blank text is refused as declared, and with any other the AI service is asked, for
        -- which `null` is one field list too many.
        by_cases hblank : trim source.text.toList = []
        · simp only [hblank, if_true]
          exact iff_of_true (failsAsDeclared_error.2 rfl) fun htext => absurd rfl htext
        · have hspec := @AiService.generateSeoMetadata_spec _ _ registry platform responses _ _
            system stringify (source.withOptions options) hproper source.text rfl
          simp only [hblank, if_false]
          refine Iff.trans (failsAsDeclared_mapError fun _ => rfl) (hspec.trans ?_)
          exact ⟨fun hfields _ => hfields, fun hfields => hfields hblank⟩

/-- **Which accepted requests fail as declared.** An update does unless a field is `null` or a title is
too long for its column; a generation does unless its `fields` are `null`, or, for an entity, unless
the stored content makes no text. -/
theorem accepted_failsAsDeclared_iff [TextLength] :
    (∀ db type id dto a, validate (SeoMetadataFieldsDto.properties dto) = [] →
      db.metadata.get a.rowId = none →
      (∀ k row, db.metadata.get k = some row → fitsColumns row.columns.seo = true) →
        (FailsAsDeclared Failure.isHttpException (updateWithin a type id dto db).1 ↔
          (db.findOne type id ≠ none → Saveable dto))) ∧
    (∀ content type id, ∀ options : SeoGenerationOptionsBody, validate options.properties = [] →
      (FailsAsDeclared SeoRequestFailure.isHttpException
          (generateFor content type id (registry.on platform) system stringify responses options) ↔
        options.fields = some (.arr []) ∨
          Readable content type id ∧ (HasText content type id → options.fields ≠ some .null))) ∧
    (∀ input : GenerateSeoMetadataBody, validate input.properties = [] →
      (FailsAsDeclared GenerationFailure.isHttpException
          (AiService.generateSeoMetadata (registry.on platform) responses system stringify input) ↔
        input.fields ≠ some .null)) := by
  refine ⟨fun db type id dto a h => updateWithin_spec h, fun content type id options h => ?_,
    fun input h => ?_⟩
  · exact generateFor_spec content type id registry platform system stringify responses h
  · obtain ⟨hproper, text, htext⟩ := GenerateSeoMetadataBody.isProper h
    exact AiService.generateSeoMetadata_spec registry platform responses system stringify hproper htext

end

/-! ### A title that is `null` -/

section

attribute [local instance] characters Collation.ascii Collation.asciiLowerCase

/-- No provider has a key. -/
def keyless : AiModelRegistry String where
  provider := .anthropic
  model := none
  apiKeys _ := none
  registered _ model := model

def noAnswer : AiPlatform SeoMetadataResult String Unit where
  languageModel _ := .ok "model"
  timeout _ := ()
  stringify _ := .ok ""
  stringifyTexts := ", ".intercalate

def silence : Nat → ProviderResponse SeoMetadataResult := fun _ => ⟨.ok fun _ => none, false⟩

/-- `{ "title": "Dogs", "text": "Dogs bark" }`. -/
def dogsBody : GenerateSeoMetadataBody := { title := some (.str "Dogs"), text := some (.str "Dogs bark") }

theorem catsDatabase_fits {k : Uuid} {row : MetadataEntity}
    (h : catsDatabase.metadata.get k = some row) : fitsColumns row.columns.seo = true := by
  obtain rfl := List.mem_singleton.1 (Store.Table.get_eq_some.1 h).1
  rfl

/-- A text is made of the vaccines: their content is no JSON and is read as HTML. -/
theorem readable_vaccines : Readable newsroom .post vaccines.id := by
  have hread : ((newsroom.posts.get vaccines.id).filter fun post => !post.deletedAt).all
      (fun post => (lexicalContentText true post.content).isSome) = true := by
    decide +kernel
  intro post hpost
  rw [Option.mem_def.1 hpost, Option.all_some] at hread
  exact hread

/-- A blank title, a generation that reads the vaccines and finds no key, a list without fields and a
body without a list are answered as declared. -/
theorem proper_requests_declared :
    FailsAsDeclared Failure.isHttpException
        (updateWithin atFive .topic catsTopic.id blankTitle catsDatabase).1 ∧
      FailsAsDeclared SeoRequestFailure.isHttpException
        (generateFor newsroom .post vaccines.id (keyless.on noAnswer) "" (fun _ => "") silence {}) ∧
      FailsAsDeclared SeoRequestFailure.isHttpException
        (generateFor newsroom .topic dogs.id (keyless.on noAnswer) "" (fun _ => "") silence
          { fields := some (.arr []) }) ∧
      FailsAsDeclared GenerationFailure.isHttpException
        (AiService.generateSeoMetadata (keyless.on noAnswer) silence "" (fun _ => "") dogsBody) := by
  obtain ⟨hupdate, hgenerate, hinput⟩ :=
    accepted_failsAsDeclared_iff keyless noAnswer "" (fun _ => "") silence
  refine ⟨?_, ?_, ?_, ?_⟩
  · refine (hupdate catsDatabase .topic catsTopic.id blankTitle atFive (by decide +kernel)
      (by decide +kernel) fun _ _ => catsDatabase_fits).2 fun _ => ⟨fun field => ?_, ?_⟩
    · cases field <;> simp [blankTitle]
    · intro field text htext
      cases field with
      | metaTitle =>
          obtain rfl := Json.str.inj (Option.some.inj htext)
          decide +kernel
      | _ => cases htext
  · exact (hgenerate newsroom .post vaccines.id {} (by decide +kernel)).2
      (Or.inr ⟨readable_vaccines, fun _ => by simp⟩)
  · exact (hgenerate newsroom .topic dogs.id _ (by decide +kernel)).2 (Or.inl rfl)
  · exact (hinput dogsBody (by decide +kernel)).2 (by simp [dogsBody])

/-- `{ "metaTitle": null }`. -/
def nullTitle : SeoMetadataFieldsDto
  | .metaTitle => some .null
  | _ => none

/-- A title that is `null` is accepted and has no `trim`. -/
theorem null_title_typeError :
    ¬∀ dto, validate (SeoMetadataFieldsDto.properties dto) = [] →
      FailsAsDeclared Failure.isHttpException
        (updateWithin atFive .topic catsTopic.id dto catsDatabase).1 := by
  intro hdeclared
  have hfails : (updateWithin atFive .topic catsTopic.id nullTitle catsDatabase).1 =
      .error (.internal .typeError) := by
    decide +kernel
  exact Bool.false_ne_true (hdeclared nullTitle (by decide +kernel) _ hfails)

end

end SeoService

end VetHealth
