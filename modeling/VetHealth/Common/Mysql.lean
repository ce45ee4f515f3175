import VetHealth.Js.Json
import VetHealth.Common.Domain

/-!
# VetHealth.Common.Mysql

**What the database makes of a JSON value.** A validated body still holds the
values the client sent, and the driver binds them to the columns as they are, so
MySQL's conversions decide which row an id denotes and what a column stores.

`Mysql` is that conversion, for a text column and for an integer column, in strict mode. Its
fields beyond the two functions are the documented facts about scalars. In a text column a
text is itself and a number is its decimal text. In an integer column a text must be a
numeral, and the empty text is `0` or refused. `null` is no value, and `true` and `false`
are `1` and `0`. Arrays and objects may convert to anything.
-/

namespace VetHealth

open Js

/-- MySQL's conversion of a bound value, per kind of column; `none` makes the statement fail or
match no row. A body may hold any JSON value where an id is meant, and the driver binds it as it is.
-/
class Mysql where
  textOf : Json → Option String
  intOf : Json → Option Int
  text_null : textOf .null = none
  text_str : ∀ s, textOf (.str s) = some s
  text_num : ∀ x, textOf (.num x) = some x.text
  text_bool : ∀ b, textOf (.bool b) = some (if b then "1" else "0")
  int_null : intOf .null = none
  int_num : ∀ x, intOf (.num x) = if x.value.den = 1 then some x.value.num else none
  int_bool : ∀ b, intOf (.bool b) = some (if b then 1 else 0)
  int_text : ∀ s n, intOf (.str s) = some n → stringToNumber s = some (n : ℚ)
  int_id : ∀ n ∈ [1, 2, 3], intOf (.str (toString (n : Int))) = some n

namespace Mysql

/-- A text bound to an integer column is read as the language reads numerals. -/
@[reducible] def strict : Mysql where
  textOf
    | .str s => some s
    | .num x => some x.text
    | .bool b => some (if b then "1" else "0")
    | _ => none
  intOf
    | .str s => (stringToNumber s).bind fun q => if q.den = 1 then some q.num else none
    | .num x => if x.value.den = 1 then some x.value.num else none
    | .bool b => some (if b then 1 else 0)
    | _ => none
  text_null := rfl
  text_str _ := rfl
  text_num _ := rfl
  text_bool _ := rfl
  int_null := rfl
  int_num _ := rfl
  int_bool _ := rfl
  int_text s n h := by
    obtain ⟨q, hread, hq⟩ := Option.bind_eq_some_iff.1 h
    by_cases hden : q.den = 1
    · rw [if_pos hden, Option.some.injEq] at hq
      rw [hread, ← hq, Rat.coe_int_num_of_den_eq_one hden]
    · rw [if_neg hden] at hq
      cases hq
  int_id := by decide +kernel

variable [Mysql]

/-- The `roles` row that an id denotes. Several values of a body may denote one row, which is how a
check on the value may miss it. -/
def roleOf (id : Json) : Option RoleEnum :=
  RoleEnum.rows.find? fun r => textOf id = some r.id

/-- The `user-statuses` row that an id denotes. -/
def userStatusOf (id : Json) : Option UserStatusEnum :=
  UserStatusEnum.rows.find? fun s => intOf id = some s.id

/-- The `post-statuses` row that an id denotes. -/
def postStatusOf (id : Json) : Option PostStatusEnum :=
  PostStatusEnum.rows.find? fun s => intOf id = some s.id

/-- The row that an id denotes among the rows with the given uuids. -/
def uuidOf (ids : List Uuid) (id : Json) : Option Uuid :=
  ids.find? fun u => textOf id = some u.text

theorem roleOf_eq_some {id : Json} {r : RoleEnum} :
    roleOf id = some r ↔ textOf id = some r.id := by
  constructor
  · intro h
    simpa using List.find?_some (p := fun r : RoleEnum => textOf id = some r.id) h
  · intro h
    cases hfind : roleOf id with
    | none =>
        rw [roleOf, List.find?_eq_none] at hfind
        exact absurd h (by simpa using hfind r (RoleEnum.mem_rows r))
    | some s =>
        have hs := List.find?_some (p := fun r : RoleEnum => textOf id = some r.id) hfind
        rw [RoleEnum.id_injective (Option.some.inj (h.symm.trans (of_decide_eq_true hs)))]

/-- No status row has an id that a falsy value converts to. -/
theorem userStatusOf_falsy {id : Json} (h : id.truthy = false) : userStatusOf id = none := by
  have hnone : ∀ n : Option Int, n = none ∨ n = some 0 →
      (UserStatusEnum.rows.find? fun s => n = some s.id) = none := by
    rintro _ (rfl | rfl) <;> decide
  apply hnone
  cases id with
  | null => exact Or.inl int_null
  | bool b =>
      rw [int_bool, if_neg (by simpa [Json.truthy] using h)]
      exact Or.inr rfl
  | num x =>
      have hx : x.value = 0 := by simpa [Json.truthy] using h
      rw [int_num, hx]
      exact Or.inr rfl
  | str s =>
      obtain rfl : s = "" := by simpa [Json.truthy] using h
      cases hint : intOf (.str "") with
      | none => exact Or.inl rfl
      | some n =>
          have hzero : stringToNumber "" = some 0 := by decide +kernel
          have hn : (n : ℚ) = 0 := Option.some.inj ((int_text _ _ hint).symm.trans hzero)
          rw [Rat.intCast_eq_zero_iff.1 hn]
          exact Or.inr rfl
  | arr items => cases h
  | obj fields => cases h

/-- A scalar that denotes the status `1` is read as `1` by `Number`. So a check by `Number` refuses
whatever the database would take for that status. -/
theorem toNumber_of_published {id : Json} (hscalar : id.isScalar = true)
    (h : postStatusOf id = some .published) : id.toNumber = some 1 := by
  have hint : intOf id = some 1 :=
    of_decide_eq_true (List.find?_some (p := fun s : PostStatusEnum => intOf id = some s.id) h)
  cases id with
  | null => rw [int_null] at hint; cases hint
  | bool b =>
      cases b with
      | true => rfl
      | false => rw [int_bool] at hint; cases hint
  | num x =>
      rw [int_num] at hint
      by_cases hden : x.value.den = 1
      · rw [if_pos hden, Option.some.injEq] at hint
        rw [Json.toNumber, ← Rat.coe_int_num_of_den_eq_one hden, hint]
        rfl
      · rw [if_neg hden] at hint
        cases hint
  | str s => exact int_text s 1 hint
  | arr items => cases hscalar
  | obj fields => cases hscalar

/-- A scalar that denotes the role `'1'` prints as `1`, unless it is `true`. So a check on the
printed value misses one value only. -/
theorem toString_of_superAdmin {id : Json} (hscalar : id.isScalar = true)
    (htrue : id ≠ .bool true) (h : roleOf id = some .superAdmin) : id.toString = "1" := by
  have htext := roleOf_eq_some.1 h
  cases id with
  | null => simp [text_null] at htext
  | bool b =>
      cases b with
      | true => exact absurd rfl htrue
      | false => simp [text_bool, RoleEnum.id] at htext
  | num x => simpa [text_num, RoleEnum.id, Json.toString] using htext
  | str s => simpa [text_str, RoleEnum.id, Json.toString] using htext
  | arr items => cases hscalar
  | obj fields => cases hscalar

end Mysql

end VetHealth
