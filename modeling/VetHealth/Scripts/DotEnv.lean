import Mathlib.Logic.Function.Basic
import VetHealth.Js.Number

/-!
# VetHealth.Scripts.DotEnv

**The env files of the scripts.** Every script has a `loadEnvFileIfExists` of its own. They read a
file alike, as assignments in the order of its lines, and differ in which of them count: the two
migrations assign to a variable that is absent or empty, the script that repairs content types only
to one that is absent.

So a file means the same to all of them unless it assigns something to a variable that is empty when
the assignment is reached (`env_files_agree_iff`).
-/

namespace VetHealth

open Js

/-! ### The environment of a process -/

/-- What the operating system keeps of a text: nothing from the first zero character on. -/
def cString (text : List Char) : List Char := text.takeWhile fun c => c.toNat ≠ 0

-- membership among the inherited names is decided by this instance
local instance lawfulNames : LawfulBEq (List Char) := inferInstance

/-- The variables of a process. -/
abbrev Environment := List Char → Option (List Char)

namespace Environment

/-- What `process.env` has from `Object.prototype`. These names count as present with `in`. -/
def inherited : List (List Char) :=
  ["constructor".toList, "__defineGetter__".toList, "__defineSetter__".toList,
    "hasOwnProperty".toList, "__lookupGetter__".toList, "__lookupSetter__".toList,
    "isPrototypeOf".toList, "propertyIsEnumerable".toList, "toString".toList, "valueOf".toList,
    "__proto__".toList, "toLocaleString".toList]

/-- `!!process.env[key]`. -/
def isTruthy (env : Environment) (key : List Char) : Bool :=
  match env (cString key) with
  | some value => value ≠ []
  | none => key ∈ inherited

/-- `key in process.env`. -/
def has (env : Environment) (key : List Char) : Bool :=
  (env (cString key)).isSome || key ∈ inherited

/-- `process.env[key] = value`, which does nothing for a name that is empty. Name and value are cut
as the operating system cuts them. -/
def set (env : Environment) (key value : List Char) : Environment :=
  if cString key = [] then env else Function.update env (cString key) (some (cString value))

/-- `process.env[key] || ''`. -/
def textOr (env : Environment) (key : List Char) : List Char := (env key).getD []

end Environment

/-! ### Reading a file -/

structure Assignment where
  key : List Char
  value : List Char

namespace Assignment

/-- The variable that is assigned to. -/
def name (assignment : Assignment) : List Char := cString assignment.key

/-- What the variable would be. -/
def text (assignment : Assignment) : List Char := cString assignment.value

end Assignment

/-- `text.startsWith(quote) && text.endsWith(quote)`. -/
def isQuoted (quote : Char) (text : List Char) : Bool :=
  text.head? = some quote && text.getLast? = some quote

/-- The assignment of a line, unless the line is blank, a comment, or has no `=`. -/
def readAssignment (line : List Char) : Option Assignment :=
  let trimmed := trim line
  if trimmed = [] ∨ trimmed.head? = some '#' then none
  else
    match cutAt (· = '=') trimmed with
    | (_, none) => none
    | (key, some rest) =>
        let value := trim rest
        -- a single quote is both ends of itself
        some ⟨trim key, if isQuoted '"' value || isQuoted (Char.ofNat 0x27) value then
          (value.drop 1).dropLast else value⟩

def readAssignments (raw : List Char) : List Assignment :=
  ((raw.filter (· ≠ '\r')).splitOn '\n').filterMap readAssignment

namespace MigrateToR2

def assign (env : Environment) (assignment : Assignment) : Environment :=
  if env.isTruthy assignment.key then env else env.set assignment.key assignment.value

/-- `loadEnvFileIfExists` of the two migrations. A value for `__proto__` is no property of
`values`. -/
def loadEnvFileIfExists (file : Option (List Char)) (env : Environment) : Bool × Environment :=
  match file with
  | none => (false, env)
  | some raw =>
      let values := readAssignments raw
      (values.any fun assignment => assignment.key ≠ "__proto__".toList, values.foldl assign env)

end MigrateToR2

namespace FixR2ContentTypes

def assign (env : Environment) (assignment : Assignment) : Environment :=
  if env.has assignment.key then env else env.set assignment.key assignment.value

/-- `loadEnvFileIfExists` of the script that repairs content types. -/
def loadEnvFileIfExists (file : Option (List Char)) (env : Environment) : Bool × Environment :=
  match file with
  | none => (false, env)
  | some raw => (true, (readAssignments raw).foldl assign env)

end FixR2ContentTypes

/-! ### What a variable becomes -/

section

variable {name : List Char}

theorem Environment.set_other {env : Environment} {key : List Char} (value : List Char)
    (h : cString key ≠ name) : env.set key value name = env name := by
  rw [Environment.set]
  split
  · rfl
  · exact Function.update_of_ne h.symm _ _

theorem Environment.set_same (env : Environment) {key : List Char} (value : List Char)
    (hname : name ≠ []) (h : cString key = name) :
    env.set key value name = some (cString value) := by
  subst h
  rw [Environment.set, if_neg hname, Function.update_self]

/-- No variable has an empty name. -/
theorem Environment.set_nil (env : Environment) (key value : List Char) :
    env.set key value [] = env [] := by
  by_cases hkey : cString key = []
  · rw [Environment.set, if_pos hkey]
  · exact Environment.set_other value hkey

/-- The assignments to a variable. -/
def textsFor (name : List Char) (assignments : List Assignment) : List Assignment :=
  assignments.filter fun assignment => assignment.name = name

/-- The texts that a variable may get: the one it has, or else those from the first assignment on
that `process.env` does not hide. Which of them it gets is what the two loaders differ in. -/
def candidates (env : Environment) (name : List Char) (assignments : List Assignment) :
    List (List Char) :=
  let texts := textsFor name assignments
  match env name with
  | some value => value :: texts.map Assignment.text
  | none => (texts.dropWhile fun assignment => assignment.key ∈ Environment.inherited).map
      Assignment.text

theorem textsFor_cons_other {assignment : Assignment} {assignments : List Assignment}
    (h : assignment.name ≠ name) : textsFor name (assignment :: assignments) = textsFor name assignments :=
  List.filter_cons_of_neg (by simpa using h)

theorem textsFor_cons_same {assignment : Assignment} {assignments : List Assignment}
    (h : assignment.name = name) :
    textsFor name (assignment :: assignments) = assignment :: textsFor name assignments :=
  List.filter_cons_of_pos (by simpa using h)

theorem candidates_of_some {env : Environment} {value : List Char} (h : env name = some value)
    (assignments : List Assignment) :
    candidates env name assignments = value :: (textsFor name assignments).map Assignment.text := by
  simp only [candidates, h]

theorem candidates_of_none {env : Environment} (h : env name = none)
    (assignments : List Assignment) :
    candidates env name assignments = ((textsFor name assignments).dropWhile fun assignment =>
      assignment.key ∈ Environment.inherited).map Assignment.text := by
  simp only [candidates, h]

theorem candidates_congr {env env' : Environment} (h : env' name = env name)
    {assignments assignments' : List Assignment}
    (hsame : textsFor name assignments' = textsFor name assignments) :
    candidates env' name assignments' = candidates env name assignments := by
  simp only [candidates, h, hsame]

/-- An assignment to a variable that is absent: hidden, or the first that counts. The step of both
inductions. -/
theorem candidates_cons_of_none {env : Environment} (h : env name = none) {assignment : Assignment}
    (hname : assignment.name = name) (assignments : List Assignment) :
    candidates env name (assignment :: assignments) =
      if assignment.key ∈ Environment.inherited then candidates env name assignments
      else assignment.text :: (textsFor name assignments).map Assignment.text := by
  rw [candidates_of_none h, textsFor_cons_same hname, List.dropWhile_cons, candidates_of_none h]
  by_cases hkey : assignment.key ∈ Environment.inherited
  · simp only [hkey, decide_true, if_true]
  · simp only [hkey, decide_false, if_false, Bool.false_eq_true, List.map_cons]

theorem MigrateToR2.assign_other {env : Environment} {assignment : Assignment}
    (h : assignment.name ≠ name) : MigrateToR2.assign env assignment name = env name := by
  rw [MigrateToR2.assign]
  by_cases htruthy : env.isTruthy assignment.key = true
  · rw [if_pos htruthy]
  · rw [if_neg htruthy]
    exact Environment.set_other _ h

theorem FixR2ContentTypes.assign_other {env : Environment} {assignment : Assignment}
    (h : assignment.name ≠ name) : FixR2ContentTypes.assign env assignment name = env name := by
  rw [FixR2ContentTypes.assign]
  by_cases hhas : env.has assignment.key = true
  · rw [if_pos hhas]
  · rw [if_neg hhas]
    exact Environment.set_other _ h

variable (hname : name ≠ [])

include hname

/-- To the script that repairs content types the first text counts, be it empty. -/
theorem FixR2ContentTypes.foldl_assign (assignments : List Assignment) (env : Environment) :
    assignments.foldl FixR2ContentTypes.assign env name =
      (candidates env name assignments).head? := by
  induction assignments generalizing env with
  | nil => cases hvalue : env name <;> simp [candidates, hvalue, textsFor]
  | cons assignment assignments ih =>
      rw [List.foldl_cons, ih]
      by_cases hother : assignment.name = name
      · have hkey : cString assignment.key = name := hother
        rw [FixR2ContentTypes.assign, Environment.has, hkey]
        cases hvalue : env name with
        | some value => simp [candidates_of_some hvalue]
        | none =>
            rw [candidates_cons_of_none hvalue hother]
            by_cases hhidden : assignment.key ∈ Environment.inherited
            · simp [hhidden]
            · have hset := Environment.set_same env assignment.value hname hkey
              simp [hhidden, candidates_of_some hset, Assignment.text]
      · exact congrArg List.head? (candidates_congr (FixR2ContentTypes.assign_other hother)
          (textsFor_cons_other hother).symm)

/-- To the migrations the first text that is not empty counts, and an empty one only when there is
no other. -/
theorem MigrateToR2.foldl_assign (assignments : List Assignment) (env : Environment) :
    assignments.foldl MigrateToR2.assign env name =
      ((candidates env name assignments).find? (· ≠ [])).or
        (candidates env name assignments).head? := by
  induction assignments generalizing env with
  | nil =>
      cases hvalue : env name with
      | none => simp [candidates, hvalue, textsFor]
      | some value => by_cases hempty : value = [] <;> simp [candidates, hvalue, textsFor, hempty]
  | cons assignment assignments ih =>
      rw [List.foldl_cons, ih]
      by_cases hother : assignment.name = name
      · have hkey : cString assignment.key = name := hother
        have hset := Environment.set_same env assignment.value hname hkey
        rw [MigrateToR2.assign, Environment.isTruthy, hkey]
        cases hvalue : env name with
        | some value =>
            rw [candidates_of_some hvalue, textsFor_cons_same hother, List.map_cons]
            by_cases hempty : value = []
            · -- the variable is empty and takes the text
              have htext : cString assignment.value = assignment.text := rfl
              by_cases htextEmpty : assignment.text = []
              · simp [hempty, candidates_of_some hset, htext, htextEmpty]
              · simp [hempty, candidates_of_some hset, htext, htextEmpty]
            · simp [hempty, candidates_of_some hvalue]
        | none =>
            rw [candidates_cons_of_none hvalue hother]
            by_cases hhidden : assignment.key ∈ Environment.inherited
            · simp [hhidden]
            · simp [hhidden, candidates_of_some hset, Assignment.text]
      · have hsame : candidates (MigrateToR2.assign env assignment) name assignments =
            candidates env name (assignment :: assignments) :=
          candidates_congr (MigrateToR2.assign_other hother) (textsFor_cons_other hother).symm
        rw [hsame]

end

theorem MigrateToR2.foldl_assign_nil (assignments : List Assignment) (env : Environment) :
    assignments.foldl MigrateToR2.assign env [] = env [] := by
  induction assignments generalizing env with
  | nil => rfl
  | cons assignment assignments ih =>
      rw [List.foldl_cons, ih, MigrateToR2.assign]
      by_cases htruthy : env.isTruthy assignment.key = true
      · rw [if_pos htruthy]
      · rw [if_neg htruthy, Environment.set_nil]

theorem FixR2ContentTypes.foldl_assign_nil (assignments : List Assignment) (env : Environment) :
    assignments.foldl FixR2ContentTypes.assign env [] = env [] := by
  induction assignments generalizing env with
  | nil => rfl
  | cons assignment assignments ih =>
      rw [List.foldl_cons, ih, FixR2ContentTypes.assign]
      by_cases hhas : env.has assignment.key = true
      · rw [if_pos hhas]
      · rw [if_neg hhas, Environment.set_nil]

/-- The first text that is not empty is the first text, unless that is empty and another is not. -/
theorem firstNonempty_eq_head_iff (texts : List (List Char)) :
    (texts.find? (· ≠ [])).or texts.head? = texts.head? ↔
      ∀ rest, texts = [] :: rest → ∀ text ∈ rest, text = [] := by
  cases texts with
  | nil => simp
  | cons first rest =>
      by_cases hfirst : first = []
      · subst hfirst
        rw [List.find?_cons_of_neg (by simp), List.head?_cons]
        cases hfind : rest.find? (· ≠ []) with
        | none =>
            have hall := List.find?_eq_none.1 hfind
            refine iff_of_true (by simp) fun others hothers text htext => ?_
            obtain rfl := (List.cons.inj hothers).2
            simpa using hall text htext
        | some found =>
            have hfound : found ≠ [] := by simpa using List.find?_some hfind
            refine iff_of_false (by simpa using hfound) fun hall => hfound ?_
            exact hall rest rfl found (List.mem_of_find?_eq_some hfind)
      · rw [List.find?_cons_of_pos (by simpa using hfirst)]
        simp [hfirst]

/-- **When an env file means the same to all scripts**: no variable whose first text is empty is
assigned anything else. -/
theorem env_files_agree_iff (raw : List Char) (env : Environment) :
    (∀ name, name ≠ [] →
      (FixR2ContentTypes.loadEnvFileIfExists (some raw) env).2 name =
          (candidates env name (readAssignments raw)).head? ∧
        (MigrateToR2.loadEnvFileIfExists (some raw) env).2 name =
          ((candidates env name (readAssignments raw)).find? (· ≠ [])).or
            (candidates env name (readAssignments raw)).head?) ∧
    ((MigrateToR2.loadEnvFileIfExists (some raw) env).2 =
        (FixR2ContentTypes.loadEnvFileIfExists (some raw) env).2 ↔
      ∀ name, name ≠ [] → ∀ rest, candidates env name (readAssignments raw) = [] :: rest →
        ∀ text ∈ rest, text = []) := by
  refine ⟨fun name hname => ⟨FixR2ContentTypes.foldl_assign hname _ env,
    MigrateToR2.foldl_assign hname _ env⟩, ?_⟩
  show (readAssignments raw).foldl MigrateToR2.assign env =
    (readAssignments raw).foldl FixR2ContentTypes.assign env ↔ _
  rw [funext_iff]
  refine forall_congr' fun name => ?_
  by_cases hname : name = []
  · subst hname
    rw [MigrateToR2.foldl_assign_nil, FixR2ContentTypes.foldl_assign_nil]
    exact iff_of_true rfl fun h => absurd rfl h
  · rw [MigrateToR2.foldl_assign hname, FixR2ContentTypes.foldl_assign hname,
      firstNonempty_eq_head_iff]
    exact ⟨fun h _ => h, fun h => h hname⟩

/-- An assignment that is repeated because the first is empty. -/
example :
    let raw := "FILE_S3_BUCKET=\nFILE_S3_BUCKET = \"images\" # x\n".toList
    (readAssignments raw).map Assignment.value = ["".toList, "\"images\" # x".toList] := by
  decide

end VetHealth
