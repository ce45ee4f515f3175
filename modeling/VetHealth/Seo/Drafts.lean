import VetHealth.Ai.SeoDto
import VetHealth.Content.Whitespace
import VetHealth.Seo.Update

/-!
# VetHealth.Seo.Drafts

**What the AI writes can be saved.** The schema of the task and the DTO of the request limit the same
fields by two measures: the schema counts code units, of which a character has one or two, and the
DTO counts characters. Both sides trim, and what is trimmed already stays (`trimOrNull_parsed`).
-/

namespace VetHealth

open Js Resumption SeoService

/-- A text has no more characters than code units. The schema counts units and the DTO characters,
so the limits of the schema are the stricter ones. -/
theorem length_le_unitLength (text : String) : text.toList.length ≤ unitLength text := by
  rw [unitLength, Units.ofString]
  induction text.toList with
  | nil => exact Nat.le_refl 0
  | cons c cs ih =>
      have hpos : 1 ≤ (utf16 c).length := by
        rw [utf16]
        split <;> simp
      rw [List.flatMap_cons, List.length_append, List.length_cons]
      omega

/-- What a schema lets through is trimmed and within its limits. Trimming it again, as saving does,
changes nothing. -/
theorem StringSchema.parse_eq_some {schema : StringSchema} {value : Option Json} {text : String}
    (h : schema.parse value = some text) :
    trimText text = text ∧ schema.min ≤ unitLength text ∧ unitLength text ≤ schema.max := by
  obtain ⟨raw, -, hraw⟩ := Option.bind_eq_some_iff.1 h
  split at hraw
  · next hlimits =>
      obtain rfl := Option.some.inj hraw
      refine ⟨?_, hlimits⟩
      rw [trimText, trimText, String.toList_ofList, trim_eq_self (trimmed_trim _)]
  · cases hraw

theorem trimOrNull_parsed {text : String} (h : trimText text = text) :
    trimOrNull text = if text = "" then none else some text := by
  have htrim : String.ofList (trim text.toList) = text := h
  simp only [trimOrNull, htrim]

/-- The body that saves a draft, as the client sends it back: the fields that the draft has, as
texts. -/
def SeoMetadataResult.body (result : SeoMetadataResult) : SeoMetadataFieldsDto :=
  fun field => (result field).map Json.str

theorem SeoMetadataResult.body_strings (result : SeoMetadataResult) : result.body.Strings := by
  intro field value h
  obtain ⟨text, -, rfl⟩ := Option.map_eq_some_iff.1 h
  exact ⟨text, rfl⟩

/-- The schema of a task has the fields that were asked for, and no others. -/
theorem schema_seoMetadataTaskFor [Collation] [Collation.LowerCase] {INPUT : Type} (system : String)
    (buildPrompt : INPUT → String) (fields : Option (List SeoField)) :
    ∃ task, seoMetadataTaskFor system buildPrompt (fields.map requestedFields) = .ok task ∧
      ∀ field, task.schema field =
        if field ∈ fields.getD DEFAULT_SEO_FIELDS then seoMetadataSchema field else none := by
  cases fields with
  | none =>
      refine ⟨seoMetadataTask system buildPrompt, rfl, fun field => ?_⟩
      cases field <;> rfl
  | some fields =>
      refine ⟨_, seoMetadataTaskFor_requested system buildPrompt fields, fun field => ?_⟩
      simp [ObjectSchema.pick, field.mem_fields]

theorem ObjectSchema.parse_eq_some {schema : ObjectSchema} {value : Json}
    {output : SeoMetadataResult} (h : schema.parse value = some output) (field : SeoField) :
    (output field).isSome = (schema field).isSome ∧
      ∀ text, output field = some text → ∃ s, schema field = some s ∧
        s.parse (value.get field.name) = some text := by
  rw [ObjectSchema.parse] at h
  split at h
  · next hparses =>
      obtain rfl := Option.some.inj h
      cases hschema : schema field with
      | none => simp [hschema]
      | some s =>
          have hsome := hparses.2 field field.mem_fields s hschema
          exact ⟨by simpa [hschema] using hsome, fun text htext => ⟨s, rfl, by
            simpa [hschema] using htext⟩⟩
  · cases h

/-- The limits of the schema are those of the DTO; only keywords may be empty. Two files of the
source have to agree on this. -/
theorem seoMetadataSchema_limits (field : SeoField) :
    ∃ s, seoMetadataSchema field = some s ∧ s.max = SeoMetadataFieldsDto.maxOf field ∧
      (field ≠ .metaKeywords → s.min = 1) := by
  cases field <;> exact ⟨_, rfl, rfl, by simp⟩

/-- What a task's schema has let through, field by field: nothing that was not asked for, and texts
within their limits. -/
theorem parsed_field {schema : ObjectSchema} {fields : List SeoField} {value : Json}
    {output : SeoMetadataResult}
    (hschema : ∀ field, schema field = if field ∈ fields then seoMetadataSchema field else none)
    (houtput : schema.parse value = some output) {field : SeoField} {text : String}
    (htext : output field = some text) :
    trimText text = text ∧ unitLength text ≤ SeoMetadataFieldsDto.maxOf field ∧
      (field ≠ .metaKeywords → 1 ≤ unitLength text) := by
  obtain ⟨s, hs, hparse⟩ := (ObjectSchema.parse_eq_some houtput field).2 text htext
  obtain ⟨s', hs', hmax, hmin⟩ := seoMetadataSchema_limits field
  rw [hschema field] at hs
  split at hs
  · obtain rfl := Option.some.inj (hs'.symm.trans hs)
    obtain ⟨htrim, hlower, hupper⟩ := StringSchema.parse_eq_some hparse
    exact ⟨htrim, hmax ▸ hupper, fun hne => hmin hne ▸ hlower⟩
  · cases hs

/-- **A draft is saved as it is.** Whatever fields are asked for, what fits the schema of the task passes
the limits of the request that saves it, and the request stores these values in these fields, an
empty text as `null`, and changes no other SEO field. -/
theorem draft_saved_as_is [TextLength] [Collation] [Collation.LowerCase] {INPUT : Type}
    (system : String) (buildPrompt : INPUT → String) (fields : Option (List SeoField)) :
    ∃ task, seoMetadataTaskFor system buildPrompt (fields.map requestedFields) = .ok task ∧
      ∀ value output, task.schema.parse value = some output →
        (∀ field, (output field).isSome = true ↔ field ∈ fields.getD DEFAULT_SEO_FIELDS) ∧
        (∀ field, output field = some "" → field = .metaKeywords) ∧
        validate (SeoMetadataFieldsDto.properties output.body) = [] ∧
        ∀ db type id a target found, db.findOne type id = some (target, found) →
          (found = none → db.metadata.get a.rowId = none) →
          ∃ row db', (update a type id output.body).run db = (.ok row.columns.seo, db') ∧
            Updates a type id output.body db db' target found row ∧
            (∀ field text, output field = some text →
              row.columns.seo field = if text = "" then none else some text) ∧
            ∀ field, output field = none →
              row.columns.seo field = found.bind fun stored => stored.columns.seo field := by
  obtain ⟨task, htask, hschema⟩ := schema_seoMetadataTaskFor system buildPrompt fields
  refine ⟨task, htask, fun value output houtput => ?_⟩
  have hparsed := fun field text => @parsed_field _ _ _ _ hschema houtput field text
  refine ⟨?_, ?_, ?_, ?_⟩
  -- Which fields there are is up to the schema, which drops what it does not have and asks for the
  -- rest.
  · intro field
    obtain ⟨s, hs, -⟩ := seoMetadataSchema_limits field
    rw [(ObjectSchema.parse_eq_some houtput field).1, hschema field]
    by_cases hmem : field ∈ fields.getD DEFAULT_SEO_FIELDS
    · simp [hmem, hs]
    · simp [hmem]
  · intro field hempty
    by_contra hne
    exact absurd ((hparsed field "" hempty).2.2 hne) (by decide)
  · rw [SeoMetadataFieldsDto.accepted_iff]
    intro field
    cases houtputField : output field with
    | none => exact Or.inl (by simp [SeoMetadataResult.body, houtputField, isNullish])
    | some text =>
        refine Or.inr ⟨text, by simp [SeoMetadataResult.body, houtputField], ?_⟩
        -- The schema counts code units, and the DTO what the validator counts, which are no more
        -- characters.
        calc TextLength.length text ≤ text.toList.length := TextLength.length_le text
          _ ≤ unitLength text := length_le_unitLength text
          _ ≤ SeoMetadataFieldsDto.maxOf field := (hparsed field text houtputField).2.1
  · intro db type id a target found hfound hfresh
    obtain ⟨row, db', hrun, hupdates, -⟩ := exists_updates hfound output.body_strings hfresh
    refine ⟨row, db', hrun, hupdates, ?_, ?_⟩
    -- What is saved is trimmed once more, which changes nothing.
    · intro field text htext
      rw [hupdates.provided field text (by simp [SeoMetadataResult.body, htext]),
        trimOrNull_parsed (hparsed field text htext).1]
    · exact fun field hnone => hupdates.kept field (by simp [SeoMetadataResult.body, hnone])

section

attribute [local instance] characters Collation.ascii Collation.asciiLowerCase

/-- An answer for two of the fields, one of them blank. -/
def kittensAnswer : Json :=
  .obj [("metaTitle", .str " Kittens "), ("metaKeywords", .str " "), ("note", .null)]

def kittensDraft : SeoMetadataResult
  | .metaTitle => some "Kittens"
  | .metaKeywords => some ""
  | _ => none

theorem kittens_saved :
    ∃ (row : MetadataEntity) (db' : SeoDatabase),
      (update atFive .topic catsTopic.id kittensDraft.body).run catsDatabase =
        (.ok row.columns.seo, db') ∧
      row.columns.seo .metaTitle = some "Kittens" ∧ row.columns.seo .metaKeywords = none ∧
        row.columns.seo .ogTitle = some "Cats" := by
  obtain ⟨task, htask, hsaved⟩ :=
    draft_saved_as_is "" (fun _ : Unit => "") (some [.metaTitle, .metaKeywords])
  obtain rfl := Except.ok.inj ((seoMetadataTaskFor_requested _ _ _).symm.trans htask)
  have hparsed : (seoMetadataSchema.pick (SEO_FIELDS.filter
      (· ∈ [SeoField.metaTitle, .metaKeywords]))).parse kittensAnswer = some kittensDraft := by
    decide +kernel
  obtain ⟨row, db', hrun, -, hset, hkept⟩ := (hsaved _ _ hparsed).2.2.2 catsDatabase .topic
    catsTopic.id atFive catsTopic (some catsMetadata) (by decide +kernel) (by simp)
  refine ⟨row, db', hrun, hset .metaTitle "Kittens" rfl, hset .metaKeywords "" rfl, ?_⟩
  rw [hkept .ogTitle rfl]
  rfl

end

end VetHealth
