import VetHealth.Js.Number

/-!
# VetHealth.Js.Json

**JSON values as JavaScript sees them.** A request body is a JSON object; a field
of it is an `Option Json`, with `none` for an absent field (`undefined`) and
`some .null` for an explicit `null`. The two differ in most places of this
backend: a validator skips both, a truthiness test rejects both, and a save
leaves the column alone for the first and clears it for the second.

The conversions here are the ones that the services, guards and validators
apply to unvalidated values: truthiness, property access, `toString()` and
`Number()`.
-/

namespace Js

/-- A parsed JSON value. The keys of an object are distinct; `JSON.parse` sees to it, and what comes
out of the parser keeps it. -/
inductive Json where
  | null
  | bool (b : Bool)
  | num (x : Number)
  | str (s : String)
  | arr (items : List Json)
  | obj (fields : List (String × Json))

namespace Json

/-- Neither an array nor an object. -/
def isScalar : Json → Bool
  | .arr _ | .obj _ => false
  | _ => true

/-- Truthiness: `null`, `false`, `0` and the empty string are falsy. Many checks of the backend test
it where they mean `undefined`. -/
def truthy : Json → Bool
  | .null => false
  | .bool b => b
  | .num x => x.value ≠ 0
  | .str s => s ≠ ""
  | .arr _ | .obj _ => true

/-- `value?.name`. No value of this backend has an own property on a scalar. A property that is
missing is `undefined`, here `none`. -/
def get (name : String) : Json → Option Json
  | .obj fields => (fields.find? fun field => field.1 = name).map Prod.snd
  | _ => none

theorem get_cons (name key : String) (value : Json) (fields : List (String × Json)) :
    get name (.obj ((key, value) :: fields)) =
      if key = name then some value else get name (.obj fields) := by
  simp only [get, List.find?_cons]
  split <;> simp_all

theorem get_append (name key : String) (value : Json) (front back : List (String × Json)) :
    get name (.obj (front ++ (key, value) :: back)) =
      if key = name then (get name (.obj front)).or (some value)
      else get name (.obj (front ++ back)) := by
  induction front with
  | nil => exact get_cons name key value back
  | cons field front ih =>
      obtain ⟨key', value'⟩ := field
      rw [List.cons_append, List.cons_append, get_cons, get_cons, get_cons, ih]
      by_cases hkey' : key' = name
      · simp [hkey']
      · simp [hkey']

/-- A property does not depend on the values of others. -/
theorem get_of_ne {name key : String} (h : key ≠ name) (value value' : Json)
    (front back : List (String × Json)) :
    get name (.obj (front ++ (key, value) :: back)) =
      get name (.obj (front ++ (key, value') :: back)) := by
  rw [get_append, get_append, if_neg h, if_neg h]

/-- The characters of a value that is a string. -/
def asString? : Json → Option String
  | .str s => some s
  | _ => none

/-- The elements of a value that is an array. -/
def asArray? : Json → Option (List Json)
  | .arr items => some items
  | _ => none

theorem asString?_eq_some {value : Json} {text : String} (h : value.asString? = some text) :
    value = .str text := by
  cases value with
  | str s => exact congrArg Json.str (Option.some.inj h)
  | _ => cases h

theorem asArray?_eq_some {value : Json} {items : List Json} (h : value.asArray? = some items) :
    value = .arr items := by
  cases value with
  | arr items' => exact congrArg Json.arr (Option.some.inj h)
  | _ => cases h

/-- `typeof value === 'object'`, and neither `null` nor an array. -/
def isObject : Json → Bool
  | .obj _ => true
  | _ => false

mutual

/-- `value.toString()`. Objects keep the inherited `toString`, so that a body cannot choose what it
prints as. -/
def toString : Json → String
  | .null => "null"
  | .bool b => if b then "true" else "false"
  | .num x => x.text
  | .str s => s
  | .arr items => joinItems items
  | .obj _ => "[object Object]"

/-- `items.join(',')`: a `null` element prints as nothing. -/
def joinItems : List Json → String
  | [] => ""
  | [.null] => ""
  | [item] => toString item
  | .null :: items => "," ++ joinItems items
  | item :: items => toString item ++ "," ++ joinItems items

end

/-- `Number(value)`; `none` is `NaN` or an infinity. A list of one element is as much a number as
the element is. -/
def toNumber : Json → Option ℚ
  | .null => some 0
  | .bool b => some (if b then 1 else 0)
  | .num x => some x.value
  | .str s => stringToNumber s
  | .arr items => stringToNumber (joinItems items)
  | .obj _ => none

/-- `value === n` for a number `n`: no conversion takes place, so that a text of digits is not equal
to it. -/
def eqNumber (n : ℚ) : Json → Bool
  | .num x => x.value = n
  | _ => false

/-- `value === s` for a string `s`. -/
def eqString (s : String) : Json → Bool
  | .str t => t = s
  | _ => false

@[simp] theorem eqString_eq_true {s : String} {j : Json} : j.eqString s = true ↔ j = .str s := by
  cases j <;> simp [eqString]

end Json

/-! ### Enumerating an object -/

/-- The array index that a key is, written without leading zeros. -/
def arrayIndex? (key : String) : Option Nat :=
  key.toNat?.filter fun n => n < 2 ^ 32 - 1 && Nat.repr n = key

/-- The order of `Object.entries`: the array indices from the least to the greatest, then the other
keys as they were put in. A text that is collected from an object depends on it. -/
def entriesOrder {α : Type} (fields : List (String × α)) : List (String × α) :=
  let (indices, names) := fields.partition fun field => (arrayIndex? field.1).isSome
  indices.mergeSort (fun a b => (arrayIndex? a.1).getD 0 ≤ (arrayIndex? b.1).getD 0) ++ names

@[simp] theorem entriesOrder_singleton {α : Type} (field : String × α) :
    entriesOrder [field] = [field] := by
  unfold entriesOrder
  cases hindex : (arrayIndex? field.1).isSome with
  | true => simp [List.partition_eq_filter_filter, hindex]
  | false => simp [List.partition_eq_filter_filter, hindex]

/-- An enumeration leaves nothing out. -/
theorem mem_entriesOrder {α : Type} {fields : List (String × α)} {field : String × α} :
    field ∈ entriesOrder fields ↔ field ∈ fields := by
  simp only [entriesOrder, List.partition_eq_filter_filter, List.mem_append, List.mem_mergeSort,
    List.mem_filter, Function.comp_apply, ← and_or_left, Bool.not_eq_true']
  cases (arrayIndex? field.1).isSome <;> simp

/-! ### Fields that may be absent -/

/-- Truthiness of an optional field. -/
def truthy (field : Option Json) : Bool := field.any Json.truthy

/-- `field?.name`. -/
def get? (field : Option Json) (name : String) : Option Json := field.bind (Json.get name)

/-- `field ?? other`. -/
def orElse (field : Option Json) (other : Json) : Json :=
  match field with
  | none | some .null => other
  | some j => j

/-- Absent or `null`: what `@IsOptional()` lets pass unchecked. Code that tests for `undefined`
alone meets `null` later. -/
def isNullish : Option Json → Bool
  | none | some .null => true
  | _ => false

theorem isNullish_iff {field : Option Json} :
    isNullish field = true ↔ field = none ∨ field = some .null := by
  rcases field with _ | j
  · simp [isNullish]
  · cases j <;> simp [isNullish]

/-- A value with a property is an object, hence truthy. -/
theorem truthy_of_get {field : Option Json} {name : String} {j : Json}
    (h : get? field name = some j) : truthy field = true := by
  rcases field with _ | value
  · simp [get?] at h
  · cases value with
    | obj fields => rfl
    | _ => simp [get?, Json.get] at h

end Js
