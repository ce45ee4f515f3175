import VetHealth.Common.Mysql

/-!
# VetHealth.Common.Validation

**The validation pipe.** A DTO is a list of properties, each with the checks its
decorators name and their messages. `@IsOptional()` and `@ValidateIf` skip all
checks of a property at once; otherwise every failed check is reported, and the
body is accepted when nothing is.

A body with a property that the DTO does not declare is refused by
`forbidNonWhitelisted` before any check, so a body is modelled by the record of
its declared properties.
-/

namespace VetHealth

open Js

/-- A property of a DTO: its name, whether its checks are skipped, and each check's outcome and
message. The checks are all made, so that an answer names everything that is wrong with a body. -/
structure Property where
  name : String
  skipped : Bool
  checks : List (Bool × String)

/-- The errors that one property contributes. -/
def Property.errors (p : Property) : List ValidationError :=
  if p.skipped then []
  else (p.checks.filter fun check => !check.1).map fun check => ⟨p.name, check.2⟩

/-- The errors of a body, property by property. -/
def validate (properties : List Property) : List ValidationError :=
  properties.flatMap Property.errors

/-- A body is accepted exactly when every check that is not skipped succeeds. The claims about
accepted bodies start from this. -/
theorem validate_eq_nil {properties : List Property} :
    validate properties = [] ↔
      ∀ p ∈ properties, p.skipped = false → ∀ check ∈ p.checks, check.1 = true := by
  simp only [validate, List.flatMap_eq_nil_iff]
  refine forall₂_congr fun p _ => ?_
  cases hskip : p.skipped with
  | true => simp [Property.errors, hskip]
  | false => simp [Property.errors, hskip]

/-- What Nest answers to a body that is not accepted. -/
def validationPipe (properties : List Property) : Except Failure Unit :=
  match validate properties with
  | [] => .ok ()
  | errors => .error (.badRequest errors)

theorem validationPipe_eq_ok {properties : List Property} :
    validationPipe properties = .ok () ↔ validate properties = [] := by
  unfold validationPipe
  cases validate properties <;> simp

/-! ### Validators of `class-validator` -/

/-- Whether a text is an e-mail address, as the `validator` library decides it. -/
class EmailSyntax where
  isEmail : String → Bool

/-- A lenient address check: the text holds an `@`. -/
@[reducible] def atSign : EmailSyntax := ⟨fun s => s.toList.contains '@'⟩

/-- `@IsNotEmpty()`. -/
def isNotEmpty (value : Option Json) : Bool :=
  match value with
  | none | some .null => false
  | some (.str s) => s ≠ ""
  | some _ => true

/-- `@IsString()`. -/
def isString (value : Option Json) : Bool := (value.bind Json.asString?).isSome

/-- `@IsArray()`. -/
def isArray (value : Option Json) : Bool := (value.bind Json.asArray?).isSome

/-- `@IsObject()`. -/
def isObject (value : Option Json) : Bool := value.any Json.isObject

/-- `@IsEmail()`. -/
def isEmail [EmailSyntax] (value : Option Json) : Bool :=
  (value.bind Json.asString?).any EmailSyntax.isEmail

/-- The `@IsString() id` of the update DTOs. -/
def idProperty (id : Option Json) : Property :=
  ⟨"id", false, [(isString id, "id must be a string")]⟩

theorem idProperty_accepted {properties : List Property} {id : Option Json}
    (h : validate properties = []) (hmem : idProperty id ∈ properties) :
    ∃ text, id = some (.str text) := by
  have hid : isString id = true :=
    validate_eq_nil.1 h (idProperty id) hmem rfl (isString id, _) List.mem_cons_self
  rcases id with _ | j
  · cases hid
  · cases j with
    | str s => exact ⟨s, rfl⟩
    | _ => cases hid

/-- A check with `each: true` is made for every element of an array, and for a value that is no
array it is made for the value itself. So an empty array passes every such check. -/
def each (check : Option Json → Bool) (value : Option Json) : Bool :=
  match value.bind Json.asArray? with
  | some items => items.all fun item => check (some item)
  | none => check value

/-! ### Validators of the repository -/

/-- `IsExist.validate` with the path `'id'`: the value has a truthy id, and the
repository has a row with that id. -/
def IsExist.validate (hasRow : Json → Bool) (value : Option Json) : Bool :=
  match get? value "id" with
  | some id => id.truthy && hasRow id
  | none => false

/-- `IsNotExist.validate`: no row holds the value, or the row that does is the one
the body is about. `found` is the id of the row that the query returned. -/
def IsNotExist.validate (found : Option Uuid) (currentId : Option Json) : Bool :=
  match found with
  | none => true
  | some id => currentId.any (Json.eqString id.text)

/-- `IsNotSuperAdmin.validate`: it compares what the id prints as, where the database compares what
it converts to. -/
def IsNotSuperAdmin.validate (value : Option Json) : Bool :=
  match get? value "id" with
  | none | some .null => true
  | some id => id.toString ≠ RoleEnum.superAdmin.id

theorem IsExist.validate_eq_true {hasRow : Json → Bool} {value : Option Json} :
    IsExist.validate hasRow value = true ↔
      ∃ id, get? value "id" = some id ∧ id.truthy = true ∧ hasRow id = true := by
  unfold IsExist.validate
  cases get? value "id" <;> simp

/-- An id that the validator lets pass does not print as the SuperAdmin role's. -/
theorem IsNotSuperAdmin.toString_ne {value : Option Json} {id : Json}
    (h : IsNotSuperAdmin.validate value = true) (hid : get? value "id" = some id)
    (hnull : id ≠ .null) : id.toString ≠ RoleEnum.superAdmin.id := by
  unfold IsNotSuperAdmin.validate at h
  rw [hid] at h
  cases id with
  | null => exact absurd rfl hnull
  | _ => simpa using h

end VetHealth
