import VetHealth.Ai.SeoMetadata
import VetHealth.Metadata.Dto

/-!
# VetHealth.Ai.SeoDto

**The bodies that are about SEO fields**: the five fields, the options of a generation, and the
options together with the material. `@IsOptional()` lets a property be `null`, and most of what reads
these bodies treats `null` like a property that is not there.
-/

namespace VetHealth

open Js

/-- The length that the `validator` library gives to a text. A pair of surrogates counts as one, and
a variation selector need not count. -/
class TextLength where
  length : String → Nat
  length_le : ∀ text, length text ≤ text.toList.length

/-- The number of characters. -/
@[reducible] def characters : TextLength := ⟨fun text => text.toList.length, fun _ => Nat.le_refl _⟩

/-! ### Validators -/

/-- `@IsIn(values)`. -/
def isIn (values : List String) (value : Option Json) : Bool :=
  values.any fun text => value.any (Json.eqString text)

/-- `value === other`, for values of one body. No two objects of a body are the same one, so objects
and arrays are never equal. -/
def sameValue : Json → Json → Bool
  | .null, .null => true
  | .bool b, .bool b' => b = b'
  | .num x, .num x' => x.value = x'.value
  | .str s, .str s' => s = s'
  | _, _ => false

def hasRepeated : List Json → Bool
  | [] => false
  | item :: items => items.any (sameValue item) || hasRepeated items

/-- `@ArrayUnique()`. It compares with `===`, which is enough for the names of fields. -/
def arrayUnique (value : Option Json) : Bool :=
  (value.bind Json.asArray?).any fun items => !hasRepeated items

/-- `@ArrayMaxSize(max)`. -/
def arrayMaxSize (max : Nat) (value : Option Json) : Bool :=
  (value.bind Json.asArray?).any fun items => items.length ≤ max

theorem checks_of_errors {p : Property} (h : p.errors = []) :
    p.skipped = true ∨ ∀ check ∈ p.checks, check.1 = true := by
  cases hskipped : p.skipped with
  | true => exact Or.inl rfl
  | false =>
      refine Or.inr fun check hcheck => ?_
      rw [Property.errors, hskipped, if_neg Bool.false_ne_true, List.map_eq_nil_iff,
        List.filter_eq_nil_iff] at h
      simpa using h check hcheck

theorem isIn_fields {item : Json} (h : isIn (SEO_FIELDS.map SeoField.name) (some item) = true) :
    ∃ field : SeoField, item = .str field.name := by
  obtain ⟨text, htext, hitem⟩ := List.any_eq_true.1 h
  obtain ⟨field, -, rfl⟩ := List.mem_map.1 htext
  exact ⟨field, Json.eqString_eq_true.1 hitem⟩

theorem exists_requestedFields {items : List Json}
    (h : ∀ item ∈ items, ∃ field : SeoField, item = .str field.name) :
    ∃ fields, Json.arr items = requestedFields fields := by
  induction items with
  | nil => exact ⟨[], rfl⟩
  | cons item items ih =>
      obtain ⟨field, rfl⟩ := h item List.mem_cons_self
      obtain ⟨fields, hfields⟩ := ih fun item hitem => h item (List.mem_cons_of_mem _ hitem)
      exact ⟨field :: fields, congrArg (fun items => Json.arr (.str field.name :: items))
        (Json.arr.inj hfields)⟩

section

variable [TextLength]

/-- `@MaxLength(max)`. -/
def maxLength (max : Nat) (value : Option Json) : Bool :=
  (value.bind Json.asString?).any fun text => TextLength.length text ≤ max

/-- The checks `@IsString() @MaxLength(max)`, each with its message. -/
def textChecks (name : String) (max : Nat) (value : Option Json) : List (Bool × String) :=
  [(isString value, name ++ " must be a string"),
    (maxLength max value,
      name ++ " must be shorter than or equal to " ++ Nat.repr max ++ " characters")]

/-- `@IsOptional() @IsString() @MaxLength(max)`. -/
def optionalText (name : String) (max : Nat) (value : Option Json) : Property :=
  ⟨name, isNullish value, textChecks name max value⟩

theorem optionalText_errors {name : String} {max : Nat} {value : Option Json} :
    (optionalText name max value).errors = [] ↔
      isNullish value = true ∨ ∃ text, value = some (.str text) ∧ TextLength.length text ≤ max := by
  cases hnullish : isNullish value with
  | true => simp [optionalText, Property.errors, hnullish]
  | false =>
      rcases value with _ | j
      · cases hnullish
      · cases j with
        | str text => simp [optionalText, Property.errors, textChecks, isString, maxLength,
            Json.asString?, isNullish]
        | _ => simp_all [optionalText, Property.errors, textChecks, isString, maxLength,
            Json.asString?]

/-! ### `SeoMetadataFieldsDto` -/

namespace SeoMetadataFieldsDto

/-- `TITLE_MAX`. -/
def TITLE_MAX : Nat := 255

/-- `TEXT_MAX`. -/
def TEXT_MAX : Nat := 1000

def maxOf : SeoField → Nat
  | .metaTitle | .ogTitle => TITLE_MAX
  | .metaDescription | .metaKeywords | .ogDescription => TEXT_MAX

def properties (dto : SeoMetadataFieldsDto) : List Property :=
  SEO_FIELDS.map fun field => optionalText field.name (maxOf field) (dto field)

theorem accepted_iff {dto : SeoMetadataFieldsDto} :
    validate (properties dto) = [] ↔ ∀ field, isNullish (dto field) = true ∨
      ∃ text, dto field = some (.str text) ∧ TextLength.length text ≤ maxOf field := by
  rw [validate, properties, List.flatMap_map, List.flatMap_eq_nil_iff]
  constructor
  · exact fun h field => optionalText_errors.1 (h field field.mem_fields)
  · exact fun h field _ => optionalText_errors.2 (h field)

/-- The fields of an object. -/
def ofFields (fields : List (String × Json)) : SeoMetadataFieldsDto :=
  fun field => Json.get field.name (.obj fields)

/-- The messages for an object: those of `forbidNonWhitelisted`, and those of the checks of the
fields it has. -/
def messages (fields : List (String × Json)) : List String :=
  ((fields.filter fun field => SEO_FIELDS.all fun known => known.name ≠ field.1).map
      fun field => "property " ++ field.1 ++ " should not exist") ++
    (validate (properties (ofFields fields))).map ValidationError.message

mutual

/-- The messages for the value of a nested property. -/
def nested (name : String) : Json → List String
  | .null => []
  | .obj fields => (messages fields).map fun message => name ++ "." ++ message
  | .arr items => (nestedItems 0 items).map fun message => name ++ "." ++ message
  | _ => ["nested property " ++ name ++ " must be either object or array"]

def nestedItems (index : Nat) : List Json → List String
  | [] => []
  | item :: items => nested (toString index) item ++ nestedItems (index + 1) items

end

end SeoMetadataFieldsDto

/-! ### The options of a generation -/

/-- The body of `POST /seo/:type/:id/generate`, before it is checked. -/
structure SeoGenerationOptionsBody where
  fields : Option Json := none
  current : Option Json := none
  hint : Option Json := none
  primaryKeyword : Option Json := none

/-- `SeoGenerationOptionsDto`. -/
def SeoGenerationOptionsBody.properties (body : SeoGenerationOptionsBody) : List Property :=
  [⟨"fields", isNullish body.fields,
      [(isArray body.fields, "fields must be an array"),
        (arrayUnique body.fields, "All fields's elements must be unique"),
        (each (isIn (SEO_FIELDS.map SeoField.name)) body.fields,
          "each value in fields must be one of the following values: " ++
            ", ".intercalate (SEO_FIELDS.map SeoField.name))]⟩,
    ⟨"current", isNullish body.current,
      ((body.current.map (SeoMetadataFieldsDto.nested "current")).getD []).map
        fun message => (false, message)⟩,
    optionalText "hint" 300 body.hint,
    optionalText "primaryKeyword" 150 body.primaryKeyword]

/-- The body of `POST /ai/seo-metadata`, before it is checked. -/
structure GenerateSeoMetadataBody extends SeoGenerationOptionsBody where
  title : Option Json := none
  text : Option Json := none
  topics : Option Json := none
  entityType : Option Json := none
  sourceTruncated : Option Json := none

/-- A required text that is not empty. -/
def requiredText (name : String) (max : Nat) (value : Option Json) : Property :=
  ⟨name, false, textChecks name max value ++ [(isNotEmpty value, name ++ " should not be empty")]⟩

/-- `GenerateSeoMetadataDto`. -/
def GenerateSeoMetadataBody.properties (body : GenerateSeoMetadataBody) : List Property :=
  body.toSeoGenerationOptionsBody.properties ++
    [requiredText "title" 300 body.title,
      requiredText "text" 30000 body.text,
      ⟨"topics", isNullish body.topics,
        [(isArray body.topics, "topics must be an array"),
          (arrayMaxSize 10 body.topics, "topics must contain no more than 10 elements"),
          (each isString body.topics, "each value in topics must be a string"),
          (each (maxLength 100) body.topics,
            "each value in topics must be shorter than or equal to 100 characters")]⟩,
      ⟨"entityType", isNullish body.entityType,
        [(isIn ["post", "page", "topic"] body.entityType,
          "entityType must be one of the following values: post, page, topic")]⟩,
      ⟨"sourceTruncated", isNullish body.sourceTruncated,
        [(isBoolean body.sourceTruncated, "sourceTruncated must be a boolean value")]⟩]

/-! ### What is accepted -/

/-- A text, or nothing. -/
def IsOptionalText (value : Option Json) : Prop :=
  isNullish value = true ∨ ∃ text, value = some (.str text)

theorem isOptionalText_of_errors {name : String} {max : Nat} {value : Option Json}
    (h : (optionalText name max value).errors = []) : IsOptionalText value := by
  rcases optionalText_errors.1 h with hnullish | ⟨text, htext, -⟩
  · exact Or.inl hnullish
  · exact Or.inr ⟨text, htext⟩

/-- What the readers of the options rely on. The pipe makes sure of it; `fields` may still be
missing or `null`. -/
structure SeoGenerationOptionsBody.IsProper (body : SeoGenerationOptionsBody) : Prop where
  fields : isNullish body.fields = true ∨ ∃ fields, body.fields = some (requestedFields fields)
  current : ∀ field : SeoField, IsOptionalText (get? body.current field.name)
  hint : IsOptionalText body.hint
  primaryKeyword : IsOptionalText body.primaryKeyword

theorem isOptionalText_current {current : Option Json}
    (h : isNullish current = true ∨
      (current.map (SeoMetadataFieldsDto.nested "current")).getD [] = []) (field : SeoField) :
    IsOptionalText (get? current field.name) := by
  rcases current with _ | value
  · exact Or.inl rfl
  · cases value with
    | obj fields =>
        have hnested := h.resolve_left (by simp [isNullish])
        simp only [Option.map_some, Option.getD_some, SeoMetadataFieldsDto.nested,
          List.map_eq_nil_iff, SeoMetadataFieldsDto.messages, List.append_eq_nil_iff] at hnested
        rcases SeoMetadataFieldsDto.accepted_iff.1 hnested.2 field with hnullish | ⟨text, htext, -⟩
        · exact Or.inl hnullish
        · exact Or.inr ⟨text, htext⟩
    | _ => exact Or.inl rfl

theorem SeoGenerationOptionsBody.isProper {body : SeoGenerationOptionsBody}
    (h : ∀ p ∈ body.properties, p.errors = []) : body.IsProper := by
  simp only [properties, List.forall_mem_cons] at h
  obtain ⟨hfields, hcurrent, hhint, hkeyword, -⟩ := h
  refine ⟨?_, ?_, isOptionalText_of_errors hhint, isOptionalText_of_errors hkeyword⟩
  · refine (checks_of_errors hfields).imp_right fun hchecks => ?_
    simp only [List.forall_mem_cons] at hchecks
    obtain ⟨harray, -, hknown, -⟩ := hchecks
    obtain ⟨items, hitems⟩ := Option.isSome_iff_exists.1 harray
    rw [each, hitems] at hknown
    obtain ⟨value, hvalue, harr⟩ := Option.bind_eq_some_iff.1 hitems
    obtain ⟨fields, hrequested⟩ := exists_requestedFields fun item hitem =>
      isIn_fields (List.all_eq_true.1 hknown item hitem)
    exact ⟨fields, hvalue.trans (congrArg some ((Json.asArray?_eq_some harr).trans hrequested))⟩
  · refine isOptionalText_current ((checks_of_errors hcurrent).imp_right fun hchecks => ?_)
    -- a message is a check that fails
    refine List.eq_nil_iff_forall_not_mem.2 fun message hmessage => ?_
    exact Bool.false_ne_true (hchecks _ (List.mem_map_of_mem hmessage))

/-- What the readers of the whole body rely on: the options are proper, and there is a text to write
about. -/
theorem GenerateSeoMetadataBody.isProper {body : GenerateSeoMetadataBody}
    (h : validate body.properties = []) : body.toSeoGenerationOptionsBody.IsProper ∧
      ∃ text, body.text = some (.str text) := by
  have herrors := List.flatMap_eq_nil_iff.1 h
  refine ⟨SeoGenerationOptionsBody.isProper fun p hp =>
    herrors p (List.mem_append_left _ hp), ?_⟩
  have htext := herrors (requiredText "text" 30000 body.text)
    (List.mem_append_right _ (by simp [requiredText]))
  have hstring := (checks_of_errors htext).resolve_left Bool.false_ne_true
    _ List.mem_cons_self
  obtain ⟨text, hsome⟩ := Option.isSome_iff_exists.1 hstring
  obtain ⟨value, hvalue, hstr⟩ := Option.bind_eq_some_iff.1 hsome
  exact ⟨text, hvalue.trans (congrArg some (Json.asString?_eq_some hstr))⟩

end

end VetHealth
