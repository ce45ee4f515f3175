import VetHealth.Lib.Table
import VetHealth.Common.Mysql

/-!
# VetHealth.Common.Repository

**What the ORM does with a payload.** `save(create(payload))` treats every property on its
own: an absent one leaves its column alone, `null` clears it, and a value replaces it. A
`Column` is one property of a payload after the database's conversions.

A criterion of `findOne` is dropped when its value is `undefined` or `null`, so that a
search by an absent value finds the first row there is. What `softDelete` makes of such a
criterion is another matter (`Typeorm`).
-/

namespace VetHealth

open Js Store

/-! ### Criteria of a write -/

/-- What `softDelete` makes of a criterion whose key is there and whose value is `undefined`. An ORM
may leave it out, as `findOne` does, and then the write reaches more rows; or it compares the column
with `NULL`, which no row meets, and then the write reaches none. The version of the lock file does
the latter. Everything that is proved for all instances holds of both. -/
class Typeorm where
  ignoresUndefined : Bool

namespace Typeorm

/-- The ORM of the lock file. -/
@[reducible] def comparing : Typeorm := ⟨false⟩

/-- An ORM that leaves an undefined criterion out. -/
@[reducible] def ignoring : Typeorm := ⟨true⟩

/-- The row meets a criterion whose key is there; `none` is the value `undefined`. -/
def meets [Typeorm] {α : Type} (criterion : Option (α → Bool)) (row : α) : Bool :=
  match criterion with
  | some test => test row
  | none => ignoresUndefined

end Typeorm

/-! ### Columns -/

/-- What a payload says about one column. -/
inductive Column (α : Type)
  | keep
  | clear
  | set (a : α)
  deriving DecidableEq

namespace Column

variable {α : Type}

/-- The column's value after the save, for a nullable column. -/
def apply (old : Option α) : Column α → Option α
  | keep => old
  | clear => none
  | set a => some a

/-- The column's value after the save, for a column that cannot be cleared. -/
def applyRequired (old : α) : Column α → α
  | set a => a
  | _ => old

/-- The value that the payload gives. -/
def value? : Column α → Option α
  | set a => some a
  | _ => none

/-- The payload leaves the value `old` as it is: it says nothing of the column, or it says `old`
again. -/
def keeps (old : Option α) : Column α → Prop
  | keep => True
  | clear => old = none
  | set a => old = some a

theorem apply_eq_self {old : Option α} {c : Column α} : c.apply old = old ↔ c.keeps old := by
  cases c <;> simp [apply, keeps, eq_comm]

theorem applyRequired_eq_self {old : α} {c : Column α} (h : c ≠ .clear) :
    c.applyRequired old = old ↔ c.keeps (some old) := by
  cases c with
  | keep => simp [applyRequired, keeps]
  | clear => exact absurd rfl h
  | set a => simp [applyRequired, keeps, eq_comm]

/-- The part of a payload that a plain property stands for; `none` when the database refuses the
value. A property that is `undefined` is no part of the statement, and one that is `null` clears the
column. -/
def ofJson (resolve : Json → Option α) : Option Json → Option (Column α)
  | none => some keep
  | some .null => some clear
  | some j => (resolve j).map set

/-- The part of a payload that a many-to-one property stands for: the row with the id that
an object carries, or with the scalar itself for an id. An object without an id says
nothing about the column. -/
def ofRelation (resolve : Json → Option α) : Option Json → Option (Column α)
  | some (.obj fields) => ofJson resolve ((Json.obj fields).get "id")
  | some (.arr _) => some keep
  | value => ofJson resolve value

theorem ofJson_eq_set {resolve : Json → Option α} {value : Option Json} {a : α}
    (h : ofJson resolve value = some (.set a)) :
    ∃ j, value = some j ∧ resolve j = some a := by
  rcases value with _ | j
  · simp [ofJson] at h
  · cases j with
    | null => simp [ofJson] at h
    | _ => exact ⟨_, rfl, by simpa [ofJson] using h⟩

/-- The column takes the row that the property's id denotes. -/
theorem ofRelation_of_get {resolve : Json → Option α} {value : Option Json} {id : Json}
    (hid : get? value "id" = some id) : ofRelation resolve value = ofJson resolve (some id) := by
  rcases value with _ | j
  · cases hid
  · cases j with
    | obj fields =>
        have hget : (Json.obj fields).get "id" = some id := hid
        rw [ofRelation, hget]
    | _ => cases hid

end Column

/-! ### Criteria and relations -/

variable [Mysql] {κ ρ : Type} [DecidableEq κ] {key : ρ → κ}

/-- `findOne({ where: { [column]: value }, withDeleted: true })`. A criterion that is `undefined` or
`null` is left out of a find, so that the first row of the table is found. -/
def findWhere (t : Table key) (column : ρ → String) (value : Option Json) : Option ρ :=
  match value with
  | none | some .null => t.rows.head?
  | some j => t.find fun r => Mysql.textOf j = some (column r)

/-- `findOne({ where: { id } })`, for a table with a `deletedAt` column: the row with the id, if it
is not deleted. Rows that are deleted stay in the table, and every query but those `withDeleted`
passes over them. -/
def findById (t : Table key) (text : ρ → String) (deletedAt : ρ → Bool) (id : Option Json) :
    Option ρ :=
  match id with
  | none | some .null => t.find fun r => !deletedAt r
  | some j => t.find fun r => Mysql.textOf j = some (text r) && !deletedAt r

omit [DecidableEq κ] in
theorem findById_mem {t : Table key} {text : ρ → String} {deletedAt : ρ → Bool}
    {id : Option Json} {r : ρ} (h : findById t text deletedAt id = some r) : r ∈ t := by
  unfold findById at h
  split at h
  · exact Table.find_mem h
  · exact Table.find_mem h
  · exact Table.find_mem h

omit [DecidableEq κ] in
theorem findById_text {t : Table key} {text : ρ → String} {deletedAt : ρ → Bool} {id : String}
    {r : ρ} (h : findById t text deletedAt (some (.str id)) = some r) :
    text r = id ∧ deletedAt r = false := by
  have hprop := Table.find_prop h
  simp only [Mysql.text_str, Option.some.injEq, Bool.and_eq_true, decide_eq_true_eq,
    Bool.not_eq_true'] at hprop
  exact ⟨hprop.1.symm, hprop.2⟩

/-- The ids that a many-to-many property stores. `create` ignores a value that is no array;
an element without a row makes the save fail. -/
def relationIds (rows : List Uuid) : Option Json → Option (Option (List Uuid))
  | some (.arr items) => (items.mapM fun item => (Json.get "id" item).bind (Mysql.uuidOf rows)).map some
  | _ => some none

/-! ### `Repository` -/

namespace Repository

omit [Mysql]

/-- `save` of a payload with the id `id` of a stored row, which `e` makes of it. Every caller
looks the row up first, so the branch without a row is not reached by a request. -/
def save (t : Table key) (id : κ) (accepted : Bool) (e : Edit key) : Except Failure (Table key) :=
  match t.get id with
  | none => .error (.internal .queryFailed)
  | some _ =>
      if accepted then .ok (t.modify (fun r => key r = id) e)
      else .error (.internal .queryFailed)

/-- `save` of a new row. -/
def insert (t : Table key) (accepted : Bool) (r : ρ) : Except Failure (Table key) :=
  match t.insert r with
  | none => .error (.internal .queryFailed)
  | some t' => if accepted then .ok t' else .error (.internal .queryFailed)

variable {t t' : Table key} {id : κ} {accepted : Bool} {e : Edit key}

/-- When a save goes through: the row is there, and the database refuses nothing of the payload. -/
theorem exists_save :
    (∃ t', save t id accepted e = .ok t') ↔ (∃ r, t.get id = some r) ∧ accepted = true := by
  unfold save
  cases t.get id with
  | none => simp
  | some r => cases accepted <;> simp

/-- What a save that goes through is. -/
theorem save_eq_ok (h : save t id accepted e = .ok t') :
    (∃ r, t.get id = some r) ∧ accepted = true ∧ t' = t.modify (fun r => key r = id) e := by
  obtain ⟨hrow, rfl⟩ := exists_save.1 ⟨t', h⟩
  refine ⟨hrow, rfl, ?_⟩
  obtain ⟨r, hget⟩ := hrow
  rw [save, hget] at h
  exact (Except.ok.inj h).symm

/-- The saved row. -/
theorem get_save (h : save t id accepted e = .ok t') : t'.get id = (t.get id).map e.apply := by
  obtain ⟨⟨r, hget⟩, -, rfl⟩ := save_eq_ok h
  rw [Table.get_modify, hget, Option.map_some, Option.map_some,
    if_pos (decide_eq_true (Table.get_eq_some.1 hget).2)]

/-- Every other row is untouched. Together with `get_save` this is all that has to be known of a
save. -/
theorem get_save_ne (h : save t id accepted e = .ok t') {k : κ} (hk : k ≠ id) :
    t'.get k = t.get k := by
  obtain ⟨-, -, rfl⟩ := save_eq_ok h
  rw [Table.get_modify]
  cases hother : t.get k with
  | none => rfl
  | some q =>
      have hq : key q ≠ id := (Table.get_eq_some.1 hother).2 ▸ hk
      rw [Option.map_some, if_neg (by simpa using hq)]

/-- When an insert goes through. -/
theorem exists_insert {r : ρ} :
    (∃ t', insert t accepted r = .ok t') ↔ t.get (key r) = none ∧ accepted = true := by
  rw [← Table.exists_insert]
  unfold insert
  cases t.insert r with
  | none => simp
  | some t' => cases accepted <;> simp

/-- A successful insert found no row with the key. -/
theorem get_of_insert {r : ρ} (h : insert t accepted r = .ok t') : t.get (key r) = none :=
  (exists_insert.1 ⟨t', h⟩).1

/-- A successful insert adds the one row. -/
theorem get_insert {r : ρ} (h : insert t accepted r = .ok t') (k : κ) :
    t'.get k = if key r = k then some r else t.get k := by
  unfold insert at h
  cases hins : t.insert r with
  | none => rw [hins] at h; cases h
  | some u =>
      cases accepted with
      | false => rw [hins] at h; cases h
      | true =>
          rw [hins] at h
          obtain rfl := Except.ok.inj h
          exact Table.get_insert hins k

end Repository

end VetHealth
