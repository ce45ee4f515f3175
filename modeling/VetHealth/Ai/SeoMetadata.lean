import VetHealth.Ai.Service
import VetHealth.Common.Collation
import VetHealth.Files.ImageRefs
import VetHealth.Seo.Context
import VetHealth.Seo.Service

/-!
# VetHealth.Ai.SeoMetadata

**The task that writes SEO fields**: the schema that its answer has to fit, the review that tells the
editor what to look at, and the test that decides about a second attempt.

The review and the test walk the same fields in two ways. The review skips a field that is not there
and keywords that are empty, the test skips every empty field; the review reports a length out of
either end of its range, the test looks at the upper end. `correction_iff_warned` says where they
meet.
-/

namespace VetHealth

open Js Matching Matching.Regex ImageRefs Collation

def SeoField.name : SeoField → String
  | .metaTitle => "metaTitle"
  | .metaDescription => "metaDescription"
  | .metaKeywords => "metaKeywords"
  | .ogTitle => "ogTitle"
  | .ogDescription => "ogDescription"

def DEFAULT_SEO_FIELDS : List SeoField := SEO_FIELDS.filter (· ≠ .metaKeywords)

/-- `Partial<SeoMetadataResult>`; `none` is `undefined`. -/
abbrev SeoMetadataResult := SeoField → Option String

/-! ### The schema -/

/-- `z.string().trim().min(min).max(max)`: the bounds are for the trimmed text, and what is kept is
the trimmed text. -/
structure StringSchema where
  min : Nat
  max : Nat

/-- The number of code units of a text, which is what `length` counts in the source and in the
schema. -/
def unitLength (text : String) : Nat := (Units.ofString text).length

def trimText (text : String) : String := String.ofList (trim text.toList)

/-- What the schema makes of a value. -/
def StringSchema.parse (schema : StringSchema) (value : Option Json) : Option String :=
  (value.bind Json.asString?).bind fun text =>
    if schema.min ≤ unitLength (trimText text) ∧ unitLength (trimText text) ≤ schema.max then
      some (trimText text)
    else none

/-- The shape of an object schema. -/
abbrev ObjectSchema := SeoField → Option StringSchema

def seoMetadataSchema : ObjectSchema
  | .metaTitle => some ⟨1, 255⟩
  | .metaDescription => some ⟨1, 1000⟩
  | .metaKeywords => some ⟨0, 1000⟩
  | .ogTitle => some ⟨1, 255⟩
  | .ogDescription => some ⟨1, 1000⟩

namespace ObjectSchema

def omitting (schema : ObjectSchema) (field : SeoField) : ObjectSchema :=
  fun other => if other = field then none else schema other

def pick (schema : ObjectSchema) (mask : List SeoField) : ObjectSchema :=
  fun field => if field ∈ mask then schema field else none

/-- What the schema makes of an object: it drops what the shape does not have, and refuses an object
with a field that does not fit. -/
def parse (schema : ObjectSchema) (value : Json) : Option SeoMetadataResult :=
  if value.isObject ∧ ∀ field ∈ SEO_FIELDS, ∀ s ∈ schema field,
      (s.parse (value.get field.name)).isSome then
    some fun field => (schema field).bind fun s => s.parse (value.get field.name)
  else none

end ObjectSchema

/-! ### The review -/

def LENGTH_RANGES : SeoField → Option (Nat × Nat)
  | .metaTitle => some (40, 60)
  | .metaDescription => some (120, 160)
  | .ogTitle => some (1, 60)
  | .ogDescription => some (1, 200)
  | .metaKeywords => none

/-- `[a-z]` under the flag `i`. -/
def isLatinLetter (c : Char) : Bool := 'a' ≤ c.toLower && c.toLower ≤ 'z'

/-- `/<\/?[a-z][^>]*>/i`. -/
def TAG_RE : Regex Char :=
  .seq (.one (· = '<')) (.seq (.opt (.one (· = '/'))) (.seq (.one isLatinLetter)
    (.seq (.many false (· ≠ '>')) (.one (· = '>')))))

/-- `/^#{1,6}\s/m` after the first unit: a heading below stands after a line break. -/
def hasHeadingBelow : Units → Bool
  | [] => false
  | u :: rest => isLineTerminator u && beginsHeading rest || hasHeadingBelow rest

def MARKUP (value : String) : Bool :=
  (TAG_RE.find value.toList).isSome || ((word "**").find value.toList).isSome ||
    beginsHeading (Units.ofString value) || hasHeadingBelow (Units.ofString value)

/-- `[а-яіїєґ]` under the flag `i`: the letters, and the characters of which they are the upper case. -/
def isUkrainianLetter (c : Char) : Bool :=
  (0x410 ≤ c.toNat && c.toNat ≤ 0x44f) ||
    c.toNat ∈ [0x404, 0x406, 0x407, 0x454, 0x456, 0x457, 0x490, 0x491] ||
    (0x1c80 ≤ c.toNat && c.toNat ≤ 0x1c86)

def NOT_UKRAINIAN (field : SeoField) (value : String) : Bool :=
  (field = .metaDescription || field = .ogDescription) && !value.toList.any isUkrainianLetter

/-- What the review says about a field. The editor is shown the text of a warning; the proofs go by
its constructor. -/
inductive SeoWarning
  | length (field : SeoField) (units : Nat) (range : Nat × Nat)
  | language (field : SeoField)
  | markup (field : SeoField)
  | keywords
  deriving DecidableEq

namespace SeoWarning

/-- The field that a warning names. -/
def field : SeoWarning → SeoField
  | length field _ _ => field
  | language field => field
  | markup field => field
  | keywords => .metaKeywords

/-- What a warning says after the name. -/
def remark : SeoWarning → String
  | length _ units range =>
      Nat.repr units ++ " символів; рекомендовано " ++ Nat.repr range.1 ++ "–" ++
        Nat.repr range.2 ++ "."
  | language _ => "перевірте українську мову опису."
  | markup _ => "приберіть HTML або Markdown."
  | keywords => "рекомендовано 4–8 різних тематичних фраз."

def text (warning : SeoWarning) : String := warning.field.name ++ ": " ++ warning.remark

end SeoWarning

section

variable [Collation] [LowerCase]

/-- The phrases of `metaKeywords`. -/
def phrasesOf (value : String) : List String :=
  (((value.toList.splitOn ',').map trim).filter (· ≠ [])).map String.ofList

/-- The checks of a field that has a value: its length, markup in it, the script it is written in,
and how many phrases it is made of. -/
def reviewField (field : SeoField) (value : String) : List SeoWarning :=
  (match LENGTH_RANGES field with
    | some range =>
        if unitLength value < range.1 ∨ unitLength value > range.2 then
          [.length field (unitLength value) range]
        else []
    | none => []) ++
  (if NOT_UKRAINIAN field value then [.language field] else []) ++
  (if MARKUP value then [.markup field] else []) ++
  (if field = .metaKeywords then
    let phrases := phrasesOf value
    if phrases.length < 4 ∨ phrases.length > 8 ∨
        (phrases.map LowerCase.toLowerCase).dedup.length ≠ phrases.length then
      [.keywords]
    else []
  else [])

/-- What the review finds, in the order of the fields. A missing field is not reviewed, and neither
are empty keywords. -/
def reviewWarnings (result : SeoMetadataResult) : List SeoWarning :=
  SEO_FIELDS.flatMap fun field =>
    match result field with
    | none => []
    | some value =>
        if field = .metaKeywords ∧ value = "" then [] else reviewField field value

def reviewSeoMetadata (result : SeoMetadataResult) : List String :=
  (reviewWarnings result).map SeoWarning.text

end

def seoMetadataNeedsCorrection (result : SeoMetadataResult) : Bool :=
  SEO_FIELDS.any fun field =>
    match result field with
    | none => false
    | some value =>
        value ≠ "" && ((LENGTH_RANGES field).any (fun range => unitLength value > range.2) ||
          MARKUP value || NOT_UKRAINIAN field value)

/-! ### The texts of the warnings -/

theorem SeoField.name_injective : Function.Injective SeoField.name := by
  intro field field'
  cases field <;> cases field' <;> simp [SeoField.name]

theorem SeoField.colon_not_mem_name (field : SeoField) : ':' ∉ field.name.toList := by
  cases field <;> decide

namespace SeoWarning

/-- A text is the name of a field and a remark, and can be read back. So an editor who sees the same
texts has been warned of the same things. -/
theorem text_inj {w w' : SeoWarning} (h : w.text = w'.text) :
    w.field = w'.field ∧ w.remark = w'.remark := by
  have hname : ∀ w : SeoWarning, w.text.toList.takeWhile (· ≠ ':') = w.field.name.toList := by
    intro w
    rw [text, String.toList_append, String.toList_append, List.append_assoc,
      List.takeWhile_append_of_pos]
    · simp
    · intro c hc
      exact decide_eq_true fun heq => w.field.colon_not_mem_name (heq ▸ hc)
  have hfield : w.field = w'.field := by
    apply SeoField.name_injective
    rw [← String.toList_inj, ← hname w, ← hname w', h]
  refine ⟨hfield, ?_⟩
  rw [text, text, hfield] at h
  exact String.append_right_inj _ |>.1 h

/-- A remark about a length begins with a digit, and no other one does. -/
theorem remark_length_ne (field : SeoField) (units : Nat) (range : Nat × Nat) {other : String}
    (h : other.toList.head?.any Char.isDigit = false) :
    (length field units range).remark ≠ other := by
  rintro rfl
  have hdigits : ∀ c ∈ (Nat.repr units).toList, c.isDigit = true := by
    intro c hc
    rw [Nat.toList_repr] at hc
    exact Nat.isDigit_of_mem_toDigits (by decide) (by decide) hc
  cases hrepr : (Nat.repr units).toList with
  | nil => exact absurd hrepr (by simp [Nat.toList_repr, Nat.toDigits_ne_nil])
  | cons c rest =>
      have hdigit := hdigits c (hrepr ▸ List.mem_cons_self)
      simp [remark, hrepr, hdigit] at h

theorem text_eq_language {w : SeoWarning} {field : SeoField} (h : w.text = (language field).text) :
    w = language field := by
  obtain ⟨hfield, hremark⟩ := text_inj h
  cases w with
  | length field' units range =>
      refine absurd hremark (remark_length_ne field' units range ?_)
      simp only [remark]
      decide
  | language field' => exact congrArg language hfield
  | markup field' => exact absurd hremark (by simp [remark])
  | keywords => exact absurd hremark (by simp [remark])

theorem text_eq_markup {w : SeoWarning} {field : SeoField} (h : w.text = (markup field).text) :
    w = markup field := by
  obtain ⟨hfield, hremark⟩ := text_inj h
  cases w with
  | length field' units range =>
      refine absurd hremark (remark_length_ne field' units range ?_)
      simp only [remark]
      decide
  | language field' => exact absurd hremark (by simp [remark])
  | markup field' => exact congrArg markup hfield
  | keywords => exact absurd hremark (by simp [remark])

end SeoWarning

/-! ### What the review and the test share -/

section

variable [Collation] [LowerCase] {result : SeoMetadataResult}

theorem mem_reviewWarnings {w : SeoWarning} :
    w ∈ reviewWarnings result ↔ ∃ field value, result field = some value ∧
      ¬(field = .metaKeywords ∧ value = "") ∧ w ∈ reviewField field value := by
  rw [reviewWarnings, List.mem_flatMap]
  constructor
  · intro ⟨field, _, hmem⟩
    cases hvalue : result field with
    | none => simp [hvalue] at hmem
    | some value =>
        rw [hvalue] at hmem
        dsimp only at hmem
        split at hmem
        · cases hmem
        · next hnot => exact ⟨field, value, hvalue, hnot, hmem⟩
  · intro ⟨field, value, hvalue, hnot, hmem⟩
    refine ⟨field, field.mem_fields, ?_⟩
    rw [hvalue]
    dsimp only
    rwa [if_neg hnot]

theorem mem_reviewField_length {field field' : SeoField} {value : String} {units : Nat}
    {range : Nat × Nat} : SeoWarning.length field' units range ∈ reviewField field value ↔
      field' = field ∧ units = unitLength value ∧ LENGTH_RANGES field = some range ∧
        (unitLength value < range.1 ∨ unitLength value > range.2) := by
  cases hrange : LENGTH_RANGES field with
  | none => simp [reviewField, hrange]
  | some range' =>
      simp only [reviewField, hrange, List.mem_append, List.mem_ite_nil_right, List.mem_singleton,
        SeoWarning.length.injEq, Option.some.injEq, reduceCtorEq, and_false, or_false]
      constructor
      · intro ⟨hout, hfield, hunits, hsame⟩
        exact ⟨hfield, hunits, hsame.symm, hsame ▸ hout⟩
      · intro ⟨hfield, hunits, hsame, hout⟩
        exact ⟨hsame ▸ hout, hfield, hunits, hsame.symm⟩

theorem mem_reviewField_language {field field' : SeoField} {value : String} :
    SeoWarning.language field' ∈ reviewField field value ↔
      field' = field ∧ NOT_UKRAINIAN field value = true := by
  cases hrange : LENGTH_RANGES field with
  | none => simp [reviewField, hrange, and_comm]
  | some range' => simp [reviewField, hrange, and_comm]

theorem mem_reviewField_markup {field field' : SeoField} {value : String} :
    SeoWarning.markup field' ∈ reviewField field value ↔
      field' = field ∧ MARKUP value = true := by
  cases hrange : LENGTH_RANGES field with
  | none => simp [reviewField, hrange, and_comm]
  | some range' => simp [reviewField, hrange, and_comm]

omit [Collation] [LowerCase] in
theorem seoMetadataNeedsCorrection_iff :
    seoMetadataNeedsCorrection result = true ↔ ∃ field value, result field = some value ∧
      value ≠ "" ∧ ((∃ range, LENGTH_RANGES field = some range ∧ range.2 < unitLength value) ∨
        NOT_UKRAINIAN field value = true ∨ MARKUP value = true) := by
  rw [seoMetadataNeedsCorrection, List.any_eq_true]
  refine exists_congr fun field => ?_
  rw [and_iff_right field.mem_fields]
  cases result field with
  | none => simp
  | some value =>
      cases LENGTH_RANGES field with
      | none => simp [or_comm]
      | some range =>
          simp only [Option.any_some, Option.some.injEq, exists_eq_left', Bool.and_eq_true,
            Bool.or_eq_true, decide_eq_true_eq, ne_eq, gt_iff_lt]
          rw [or_assoc, or_comm (b := NOT_UKRAINIAN field value = true)]

/-- A field that is not empty is reviewed, and each of its warnings is among those of the result. -/
theorem text_mem_review {field : SeoField} {value : String} (hvalue : result field = some value)
    (hne : value ≠ "") {w : SeoWarning} (hw : w ∈ reviewField field value) :
    w.text ∈ reviewSeoMetadata result :=
  List.mem_map_of_mem
    (mem_reviewWarnings.2 ⟨field, value, hvalue, fun hempty => hne hempty.2, hw⟩)

/-- The warnings of a field that has a value come from its own review. -/
theorem mem_reviewField_of_mem {field : SeoField} {value : String}
    (hvalue : result field = some value) {w : SeoWarning} (hfield : ∀ field' value',
      w ∈ reviewField field' value' → field = field') (hw : w ∈ reviewWarnings result) :
    w ∈ reviewField field value := by
  obtain ⟨field', value', hvalue', -, hw⟩ := mem_reviewWarnings.1 hw
  obtain rfl := hfield field' value' hw
  rw [hvalue] at hvalue'
  exact Option.some.inj hvalue' ▸ hw

theorem language_mem_review {field : SeoField} {value : String} (hvalue : result field = some value)
    (hne : value ≠ "") : (SeoWarning.language field).text ∈ reviewSeoMetadata result ↔
      NOT_UKRAINIAN field value = true := by
  constructor
  · intro hmem
    obtain ⟨w, hw, htext⟩ := List.mem_map.1 hmem
    obtain rfl := SeoWarning.text_eq_language htext
    exact (mem_reviewField_language.1 (mem_reviewField_of_mem hvalue
      (fun _ _ hw => (mem_reviewField_language.1 hw).1) hw)).2
  · exact fun hlanguage => text_mem_review hvalue hne (mem_reviewField_language.2 ⟨rfl, hlanguage⟩)

theorem markup_mem_review {field : SeoField} {value : String} (hvalue : result field = some value)
    (hne : value ≠ "") : (SeoWarning.markup field).text ∈ reviewSeoMetadata result ↔
      MARKUP value = true := by
  constructor
  · intro hmem
    obtain ⟨w, hw, htext⟩ := List.mem_map.1 hmem
    obtain rfl := SeoWarning.text_eq_markup htext
    exact (mem_reviewField_markup.1 (mem_reviewField_of_mem hvalue
      (fun _ _ hw => (mem_reviewField_markup.1 hw).1) hw)).2
  · exact fun hmarkup => text_mem_review hvalue hne (mem_reviewField_markup.2 ⟨rfl, hmarkup⟩)

/-- What is to be corrected has been reviewed: the service never asks for a correction without being
able to say of what. -/
theorem review_ne_nil (h : seoMetadataNeedsCorrection result = true) :
    reviewSeoMetadata result ≠ [] := by
  obtain ⟨field, value, hvalue, hne, hdefect⟩ := seoMetadataNeedsCorrection_iff.1 h
  rcases hdefect with ⟨range, hrange, hlong⟩ | hlanguage | hmarkup
  · exact List.ne_nil_of_mem (text_mem_review hvalue hne
      (mem_reviewField_length.2 ⟨rfl, rfl, hrange, Or.inr hlong⟩))
  · exact List.ne_nil_of_mem ((language_mem_review hvalue hne).2 hlanguage)
  · exact List.ne_nil_of_mem ((markup_mem_review hvalue hne).2 hmarkup)

/-- **A correction is asked for exactly where the editor is warned of a defect**: of a length above the
range, of a description without Ukrainian letters, or of markup, in a field that is not empty. -/
theorem correction_iff_warned (result : SeoMetadataResult) :
    (seoMetadataNeedsCorrection result = true ↔ ∃ field value, result field = some value ∧
      value ≠ "" ∧
      ((∃ range, LENGTH_RANGES field = some range ∧ range.2 < unitLength value ∧
          (SeoWarning.length field (unitLength value) range).text ∈ reviewSeoMetadata result) ∨
        (SeoWarning.language field).text ∈ reviewSeoMetadata result ∨
        (SeoWarning.markup field).text ∈ reviewSeoMetadata result)) ∧
    (seoMetadataNeedsCorrection result = true → reviewSeoMetadata result ≠ []) := by
  refine ⟨?_, review_ne_nil⟩
  rw [seoMetadataNeedsCorrection_iff]
  refine exists_congr fun field => exists_congr fun value => and_congr_right fun hvalue =>
    and_congr_right fun hne => ?_
  rw [language_mem_review hvalue hne, markup_mem_review hvalue hne]
  refine or_congr_left (exists_congr fun range => and_congr_right fun hrange => ?_)
  exact ⟨fun hlong => ⟨hlong, text_mem_review hvalue hne
    (mem_reviewField_length.2 ⟨rfl, rfl, hrange, Or.inr hlong⟩)⟩, And.left⟩

/-! ### The task -/

/-- `seoMetadataTask`. Its system prompt and its `buildPrompt` are given. -/
def seoMetadataTask {INPUT : Type} (system : String) (buildPrompt : INPUT → String) :
    AiTask INPUT SeoMetadataResult ObjectSchema where
  name := "seo-metadata"
  schema := seoMetadataSchema.omitting .metaKeywords
  system := system
  buildPrompt := buildPrompt
  maxOutputTokens := 2000
  review := some reviewSeoMetadata
  needsCorrection := some seoMetadataNeedsCorrection
  model := none

/-- `seoMetadataTaskFor(fields)`: `pick` throws for what the schema does not have, and what is no array
has no `map`. -/
def seoMetadataTaskFor {INPUT : Type} (system : String) (buildPrompt : INPUT → String)
    (fields : Option Json) : Except Failure (AiTask INPUT SeoMetadataResult ObjectSchema) :=
  match fields with
  | none => .ok (seoMetadataTask system buildPrompt)
  | some (.arr items) =>
      match items.find? fun item => SEO_FIELDS.all fun field => field.name ≠ item.toString with
      | some item => .error (.internal (.error ("Unrecognized key: \"" ++ item.toString ++ "\"")))
      | none => .ok { seoMetadataTask system buildPrompt with
          schema := seoMetadataSchema.pick
            (SEO_FIELDS.filter fun field => items.any fun item => item.toString = field.name) }
  | some _ => .error (.internal .typeError)

/-- What is sent for some fields. -/
def requestedFields (fields : List SeoField) : Json := .arr (fields.map fun field => .str field.name)

theorem seoMetadataTaskFor_requested {INPUT : Type} (system : String)
    (buildPrompt : INPUT → String) (fields : List SeoField) :
    seoMetadataTaskFor system buildPrompt (some (requestedFields fields)) =
      .ok { seoMetadataTask system buildPrompt with
        schema := seoMetadataSchema.pick (SEO_FIELDS.filter (· ∈ fields)) } := by
  have hknown : (fields.map fun field => Json.str field.name).find?
      (fun item => SEO_FIELDS.all fun field => field.name ≠ item.toString) = none := by
    simp only [List.find?_eq_none, List.mem_map]
    rintro item ⟨field, -, rfl⟩
    rw [List.all_eq_true]
    exact fun hunknown => of_decide_eq_true (hunknown field field.mem_fields) rfl
  have hmask : ∀ field : SeoField, ((fields.map fun field => Json.str field.name).any
      fun item => item.toString = field.name) = decide (field ∈ fields) := by
    intro field
    rw [List.any_map, Bool.eq_iff_iff, List.any_eq_true, decide_eq_true_eq]
    constructor
    · intro ⟨other, hmem, hname⟩
      exact SeoField.name_injective (of_decide_eq_true hname) ▸ hmem
    · exact fun hmem => ⟨field, hmem, decide_eq_true rfl⟩
  simp only [seoMetadataTaskFor, requestedFields, hknown, hmask]

/-- A draft is worth a second attempt when it needs a correction; its review never stands against
that. So the test for warnings in the loop is idle for this task. -/
theorem defectiveDraft_seoMetadataTask {INPUT : Type} (system : String)
    (buildPrompt : INPUT → String) {response : ProviderResponse SeoMetadataResult} :
    AiService.DefectiveDraft (seoMetadataTask system buildPrompt) response ↔
      ∃ object, response.outcome = .ok object ∧ seoMetadataNeedsCorrection object = true := by
  refine exists_congr fun object => and_congr_right fun _ => ?_
  exact ⟨And.right, fun hneeds => ⟨review_ne_nil hneeds, hneeds⟩⟩

end

end VetHealth
