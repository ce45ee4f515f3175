import VetHealth.Common.Validation

/-!
# VetHealth.Metadata.Dto

`CreateMetadataDto`, and how the DTOs of posts, pages, topics and categories check it as their nested
property `metadata`: an object is checked as a body of its own, an array item by item, and the
messages carry the path to what they are about.
-/

namespace VetHealth

open Js

/-- Whether a text is a URL, as the `validator` library decides it. -/
class UrlSyntax where
  isURL : String → Bool

/-- A lenient check of a URL: the text holds a dot. -/
@[reducible] def dotted : UrlSyntax := ⟨fun s => s.toList.contains '.'⟩

variable [UrlSyntax]

/-- `@IsUrl()`. -/
def isUrl (value : Option Json) : Bool := (value.bind Json.asString?).any UrlSyntax.isURL

/-- `@IsBoolean()`. -/
def isBoolean : Option Json → Bool
  | some (.bool _) => true
  | _ => false

namespace CreateMetadataDto

/-- The properties that are texts. -/
def texts : List String :=
  ["metaTitle", "metaDescription", "metaKeywords", "ogTitle", "ogDescription", "ogImage", "ogType",
    "twitterTitle", "twitterDescription", "twitterImage", "twitterCard"]

/-- A property with one check, which is skipped when the property is absent or `null`. -/
def optional (dto : Json) (name : String) (check : Option Json → Bool) (message : String) :
    Property :=
  ⟨name, isNullish (dto.get name), [(check (dto.get name), message)]⟩

def properties (dto : Json) : List Property :=
  texts.map (fun name => optional dto name isString (name ++ " must be a string")) ++
    [optional dto "canonicalUrl" isUrl "canonicalUrl must be a URL address",
      optional dto "indexable" isBoolean "indexable must be a boolean value",
      optional dto "followable" isBoolean "followable must be a boolean value",
      ⟨"structuredData", true, []⟩]

/-- The messages for an object: those of `forbidNonWhitelisted`, and those of the checks. -/
def messages (fields : List (String × Json)) : List String :=
  ((fields.filter fun field => (properties (.obj fields)).all fun p => p.name ≠ field.1).map
      fun field => "property " ++ field.1 ++ " should not exist") ++
    (validate (properties (.obj fields))).map ValidationError.message

mutual

/-- The messages for the value of a nested property. -/
def nested (name : String) : Json → List String
  | .null => []
  | .obj fields => (messages fields).map fun message => name ++ "." ++ message
  | .arr items => (nestedItems 0 items).map fun message => name ++ "." ++ message
  | _ => ["nested property " ++ name ++ " must be either object or array"]

def nestedItems (index : Nat) : List Json → List String
  | [] => []
  | item :: items => nested (toString index) item ++ nestedItems (index + 1) items

end

/-- `@IsOptional() @ValidateNested() @Type(() => CreateMetadataDto) metadata`. -/
def property (metadata : Option Json) : Property :=
  ⟨"metadata", isNullish metadata,
    ((metadata.map (nested "metadata")).getD []).map fun message => (false, message)⟩

end CreateMetadataDto

end VetHealth
