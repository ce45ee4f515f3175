import VetHealth.Files.Migration
import VetHealth.Files.Normalising
import VetHealth.Files.PublicUrls
import VetHealth.Lib.Sweep
import VetHealth.Scripts.DotEnv

/-!
# VetHealth.Scripts.DbRefsMigration

**The script that rewrites the references in the database**, as a whole: its arguments, its
environment, the eight columns that it goes through one after the other, and its exit code. A run may
fail at any statement.

What a run makes of a row depends on the row alone, and a rewritten text is not rewritten again. A
path of a file is another matter: a path without a key loses one `uploads/` in every run. So a run
may be stopped and begun anew, and a run after it finds nothing to do, exactly if no path without a
key begins with it twice (`settles_iff`).
-/

namespace VetHealth

open Js Matching Matching.Regex ImageRefs Store

namespace MigrateDbRefs

/-! ### The arguments -/

structure Args where
  execute : Bool
  inspect : Bool
  dotenvFile : Path.Place
  publicUrl : String
  /-- `none` is what is no finite number. -/
  sample : Option ℚ

/-- How the script ends before it talks to the database. -/
inductive Stop
  | help
  | noValue
  | unknownArgument (token : String)
  | badSample
  | noPublicBase
  | badUrl
  | missingVariable (key : List Char)
  deriving DecidableEq

def defaults (cwd : Path.Place) : Args where
  execute := false
  inspect := false
  dotenvFile := Path.resolve cwd ".env".toList
  publicUrl := ""
  sample := some 10

/-- The loop of `parseArgs`. -/
def readTokens (cwd : Path.Place) : Args → List String → Except Stop Args
  | args, [] => .ok args
  | args, token :: rest =>
      if token = "--execute" then readTokens cwd { args with execute := true } rest
      else if token = "--inspect" then readTokens cwd { args with inspect := true } rest
      else if token = "--dotenv-file" then
        match rest with
        | [] => .error .noValue
        | value :: rest =>
            readTokens cwd { args with dotenvFile := Path.resolve cwd value.toList } rest
      else if token = "--public-url" then
        match rest with
        | [] => .error .noValue
        | value :: rest => readTokens cwd { args with publicUrl := trimSlashes value } rest
      else if token = "--sample" then
        match rest with
        | [] => .ok { args with sample := none }
        | value :: rest => readTokens cwd { args with sample := stringToNumber value } rest
      else if token = "-h" ∨ token = "--help" then .error .help
      else .error (.unknownArgument token)

/-- `!Number.isInteger(sample) || sample < 0` is false. -/
def isSampleSize (sample : Option ℚ) : Bool := sample.any fun n => n.den = 1 ∧ 0 ≤ n

def parseArgs (cwd : Path.Place) (argv : List String) : Except Stop Args :=
  (readTokens cwd (defaults cwd) argv).bind fun args =>
    if isSampleSize args.sample then .ok args else .error .badSample

/-! ### The environment -/

/-- The variables that the public base is derived from. -/
def fileVariables (env : Environment) : ProcessEnv where
  FILE_S3_BUCKET := (env "FILE_S3_BUCKET".toList).map .ofList
  FILE_S3_PUBLIC_URL := (env "FILE_S3_PUBLIC_URL".toList).map .ofList
  FILE_CDN_BASE_URL := (env "FILE_CDN_BASE_URL".toList).map .ofList
  FILE_CDN_INCLUDE_BUCKET_IN_PATH := (env "FILE_CDN_INCLUDE_BUCKET_IN_PATH".toList).map .ofList

/-- `args.publicUrl || derivePublicBase()`. -/
def publicBase (args : Args) (env : Environment) : String :=
  if args.publicUrl ≠ "" then args.publicUrl else derivePublicBase (fileVariables env)

/-- The checks of `buildDbConfig`; `isUrl` is what `new URL` and `decodeURIComponent` take. -/
def buildDbConfig (isUrl : List Char → Bool) (env : Environment) : Except Stop Unit :=
  if env.isTruthy "DATABASE_URL".toList then
    if isUrl (env.textOr "DATABASE_URL".toList) then .ok () else .error .badUrl
  else
    let required :=
      ["DATABASE_HOST".toList, "DATABASE_USERNAME".toList, "DATABASE_NAME".toList]
    match required.find? fun key => !env.isTruthy key with
    | some key => .error (.missingVariable key)
    | none => .ok ()

/-! ### The columns -/

/-- A column that holds texts with references; `urlFields`. -/
inductive UrlField
  | postsContent
  | postsFeaturedImageUrl
  | pagesContent
  | metadataOgImage
  | metadataTwitterImage
  | metadataCanonicalUrl
  | metadataStructuredData
  deriving DecidableEq

def urlFields : List UrlField :=
  [.postsContent, .postsFeaturedImageUrl, .pagesContent, .metadataOgImage, .metadataTwitterImage,
    .metadataCanonicalUrl, .metadataStructuredData]

inductive Column
  | filesPath
  | url (field : UrlField)
  deriving DecidableEq

/-- The columns in the order in which `main` goes through them. A failure in one leaves those after
it as they are. -/
def columns : List Column := .filesPath :: urlFields.map .url

/-- The ids and the values of a column. -/
abbrev Rows := Table UrlRow.id

abbrev Database := Column → Rows

/-- The change that `migrateFilesPath` finds for a row. A path that is `NULL` would be read as the
text `null`. -/
def pathChange (row : UrlRow) : Option UrlChange :=
  let before := row.value.getD "null"
  let after := normalizeFileKey before
  if before ≠ after then some ⟨row.id, before, after⟩ else none

section

variable [Collation]

def Column.change (publicBase : String) : Column → UrlRow → Option UrlChange
  | .filesPath => pathChange
  | .url _ => urlChange publicBase

/-! ### A run -/

/-- What a run meets. -/
structure World where
  cwd : Path.Place
  env : Environment
  /-- The file at a place. -/
  file : Path.Place → Option (List Char)
  isUrl : List Char → Bool
  connects : Bool
  /-- The order in which a query returns the rows of a column. -/
  select : Column → (rows : Rows) → Selection rows
  selectFails : Column → Bool
  updateFails : Column → UrlChange → Bool
  verifyFails : Column → Bool
  /-- `value REGEXP 'https?//'`. -/
  isMalformed : Column → String → Bool

/-- The updates of a column. Ids stay what they are, so that the rows stay a table. -/
def Rows.send (fails : UrlChange → Bool) (changes : List UrlChange) (rows : Rows) : Bool × Rows :=
  ((sendUpdates fails changes rows.rows).1, ⟨(sendUpdates fails changes rows.rows).2, by
    rw [map_id_sendUpdates]
    exact rows.nodup⟩)

/-- `migrateFilesPath` and `migrateUrlField`: the number of changes, unless a statement fails. -/
def migrateColumn (world : World) (execute : Bool) (publicBase : String) (column : Column)
    (rows : Rows) : Option Nat × Rows :=
  if world.selectFails column then (none, rows)
  else
    let changes := (world.select column rows).rows.filterMap (column.change publicBase)
    if execute then
      let (done, rows) := rows.send (world.updateFails column) changes
      (if done then some changes.length else none, rows)
    else (some changes.length, rows)

def Database.set (db : Database) (column : Column) (rows : Rows) : Database :=
  Function.update db column rows

/-- The calls for the columns one after the other, with the total so far. The first failure ends the
run. -/
def migrateColumns (world : World) (execute : Bool) (publicBase : String) :
    List Column → Nat → Database → Option Nat × Database
  | [], total, db => (some total, db)
  | column :: columns, total, db =>
      match migrateColumn world execute publicBase column (db column) with
      | (none, rows) => (none, db.set column rows)
      | (some changed, rows) =>
          migrateColumns world execute publicBase columns (total + changed) (db.set column rows)

/-- `verifyNoMalformedRefs`: the rows that it finds, unless a query fails. -/
def verifyNoMalformedRefs (world : World) (db : Database) : Option Nat :=
  if columns.any world.verifyFails then none
  else some (columns.map fun column => (db column).rows.countP fun row =>
    row.value.any (world.isMalformed column)).sum

inductive Ending
  | stopped (why : Stop)
  | inspected
  | failed
  | finished (total malformed : Nat) (execute : Bool)
  deriving DecidableEq

def Ending.exitCode : Ending → Nat
  | .stopped .help | .inspected => 0
  | .stopped _ | .failed => 1
  | .finished _ malformed execute => if execute = true ∧ malformed > 0 then 2 else 0

/-- What `main` does before it talks to the database. -/
def prepare (world : World) (argv : List String) : Except Stop (Args × Option String) :=
  (parseArgs world.cwd argv).bind fun args =>
    let env := (MigrateToR2.loadEnvFileIfExists (world.file args.dotenvFile) world.env).2
    if args.inspect then (buildDbConfig world.isUrl env).map fun _ => (args, none)
    else if publicBase args env = "" then .error .noPublicBase
    else (buildDbConfig world.isUrl env).map fun _ => (args, some (publicBase args env))

def main (world : World) (argv : List String) (db : Database) : Ending × Database :=
  match prepare world argv with
  | .error why => (.stopped why, db)
  -- `inspect` only reads
  | .ok (_, none) => (if world.connects then .inspected else .failed, db)
  | .ok (args, some base) =>
      if world.connects then
        match migrateColumns world args.execute base columns 0 db with
        | (none, db) => (.failed, db)
        | (some total, db) =>
            match verifyNoMalformedRefs world db with
            | none => (.failed, db)
            | some malformed => (.finished total malformed args.execute, db)
      else (.failed, db)

end

/-! ### Paths that settle -/

/-- `/^\/?uploads\//.test(value)`. -/
def beginsUploads (value : String) : Bool :=
  "/uploads/".toList <+: value.toList || "uploads/".toList <+: value.toList

theorem startsWith_iff_isPrefix {ws cs : List Char} :
    startsWith (fun a b : Char => decide (a = b)) ws cs = true ↔ ws <+: cs := by
  induction ws generalizing cs with
  | nil => simp [startsWith]
  | cons w ws ih =>
      cases cs with
      | nil => simp [startsWith]
      | cons c cs => simp [startsWith, ih, List.cons_prefix_cons]

/-- What the expression finds at the front of a path. -/
theorem exec_uploads (cs : List Char) :
    ((.seq (.opt (.text (· = ·) ['/'])) (.text (· = ·) "uploads/".toList) : Regex Char).exec cs) =
      if "/uploads/".toList <+: cs then some (cs.take 9, [])
      else if "uploads/".toList <+: cs then some (cs.take 8, []) else none := by
  have huploads : ∀ cs : List Char, (text (fun a b : Char => decide (a = b)) "uploads/".toList).exec cs =
      if "uploads/".toList <+: cs then some (cs.take 8, []) else none := by
    intro cs
    rw [exec, outcomes_text]
    by_cases h : "uploads/".toList <+: cs
    · rw [if_pos h, if_pos (startsWith_iff_isPrefix.2 h)]
      rfl
    · rw [if_neg h, if_neg fun hstarts => h (startsWith_iff_isPrefix.1 hstarts)]
      rfl
  have hsplit : "/uploads/".toList <+: cs ↔ ['/'] <+: cs ∧ "uploads/".toList <+: cs.drop 1 := by
    cases cs with
    | nil => simp
    | cons c cs =>
        rw [List.drop_one, List.tail_cons]
        constructor
        · intro h
          obtain ⟨hc, hrest⟩ := List.cons_prefix_cons.1 h
          exact ⟨List.cons_prefix_cons.2 ⟨hc, List.nil_prefix⟩, hrest⟩
        · rintro ⟨hc, hrest⟩
          exact List.cons_prefix_cons.2 ⟨(List.cons_prefix_cons.1 hc).1, hrest⟩
  rw [exec_opt_seq, exec_text_seq, huploads, huploads]
  -- With the slash the rest has to begin with the word, and the word alone does not begin with a
  -- slash.
  by_cases hslash : ['/'] <+: cs
  · rw [if_pos (startsWith_iff_isPrefix.2 hslash)]
    obtain ⟨rest, rfl⟩ := hslash
    have hdrop : (['/'] ++ rest).drop ['/'].length = rest := rfl
    rw [hdrop]
    by_cases hrest : "uploads/".toList <+: rest
    · have htake : (['/'] ++ rest).take ['/'].length ++ rest.take 8 = (['/'] ++ rest).take 9 := rfl
      rw [if_pos (hsplit.2 ⟨⟨rest, rfl⟩, hrest⟩), if_pos hrest, Option.map_some, Option.some_or, htake]
    · rw [if_neg fun h => hrest (hsplit.1 h).2, if_neg hrest, Option.map_none, Option.none_or]
  · rw [if_neg fun h => hslash (startsWith_iff_isPrefix.1 h), if_neg fun h => hslash (hsplit.1 h).1,
      Option.none_or]

theorem stripUploadsPrefix_isSuffix (value : String) :
    (stripUploadsPrefix value).toList <:+ value.toList := by
  rw [stripUploadsPrefix]
  split
  · rw [String.toList_ofList]
    exact List.drop_suffix _ _
  · exact List.suffix_refl _

/-- What is stripped of a path is there to be stripped. -/
theorem stripUploadsPrefix_eq_self {value : String} :
    stripUploadsPrefix value = value ↔ beginsUploads value = false := by
  rw [stripUploadsPrefix, exec_uploads, beginsUploads, Bool.or_eq_false_iff, decide_eq_false_iff_not,
    decide_eq_false_iff_not, ← String.toList_inj]
  have hshorter : ∀ n, n ≤ value.toList.length → 0 < n →
      value.toList.drop (value.toList.take n).length ≠ value.toList := by
    intro n hn hpos heq
    have hlength := congrArg List.length heq
    rw [List.length_drop, List.length_take] at hlength
    omega
  by_cases hslash : "/uploads/".toList <+: value.toList
  · rw [if_pos hslash]
    dsimp only
    rw [String.toList_ofList]
    exact iff_of_false (hshorter 9 hslash.length_le (by decide)) fun h => h.1 hslash
  · rw [if_neg hslash]
    by_cases huploads : "uploads/".toList <+: value.toList
    · rw [if_pos huploads]
      dsimp only
      rw [String.toList_ofList]
      exact iff_of_false (hshorter 8 huploads.length_le (by decide)) fun h => h.2 huploads
    · rw [if_neg huploads]
      exact iff_of_true rfl ⟨hslash, huploads⟩

/-- What is found in a path is a key, and is found in itself. So a path that has been collapsed to a
key settles. -/
theorem find_key_of_find {cs : List Char} {o : List Char × List (List Char)}
    (h : FILE_KEY_RE.find cs = some o) :
    ∃ key, o = (key, [key]) ∧ FILE_KEY_RE.find key = some (key, [key]) := by
  induction cs using words_induction isKeyChar with
  -- Within a word the key found is the rest of the word from its first key on, and that is its own
  -- first key.
  | word u hu =>
      rw [find_word hu, Option.map_eq_some_iff] at h
      obtain ⟨key, hfirst, rfl⟩ := h
      have hkey : isKey key = true := List.find?_some hfirst
      have hsuffix : key <:+ u := (List.mem_tails _ _).1 (List.mem_of_find?_eq_some hfirst)
      refine ⟨key, rfl, ?_⟩
      rw [find_word fun c hc => hu c (hsuffix.subset hc), firstKey_of_isKey hkey]
      rfl
  | cut u d v hu hd ih =>
      rw [find_append_cons FILE_KEY_RE_within (by decide) hd] at h
      cases hfind : FILE_KEY_RE.find u with
      | none =>
          rw [hfind, Option.none_or] at h
          exact ih h
      -- The word before the cut has the first key; what comes after the cut is not looked at.
      | some found =>
          rw [hfind, Option.some_or] at h
          obtain rfl := Option.some.inj h
          rw [find_word hu, Option.map_eq_some_iff] at hfind
          obtain ⟨key, hfirst, rfl⟩ := hfind
          have hkey : isKey key = true := List.find?_some hfirst
          have hsuffix : key <:+ u := (List.mem_tails _ _).1 (List.mem_of_find?_eq_some hfirst)
          refine ⟨key, rfl, ?_⟩
          rw [find_word fun c hc => hu c (hsuffix.subset hc), firstKey_of_isKey hkey]
          rfl

/-- A path that a second run leaves as the first has made it. -/
def Settles (value : String) : Prop :=
  normalizeFileKey (normalizeFileKey value) = normalizeFileKey value

/-- **The paths that settle** are those with a key, and those from which one `uploads/` is enough to
strip. -/
theorem settles_iff {value : String} :
    Settles value ↔ (FILE_KEY_RE.find value.toList).isSome = true ∨
      beginsUploads (stripUploadsPrefix value) = false := by
  rw [Settles]
  cases hfind : FILE_KEY_RE.find value.toList with
  | some o =>
      obtain ⟨key, rfl, hkey⟩ := find_key_of_find hfind
      have hnormal : normalizeFileKey value = .ofList key := by
        rw [normalizeFileKey, hfind]
        rfl
      refine iff_of_true ?_ (Or.inl rfl)
      rw [hnormal, normalizeFileKey, String.toList_ofList, hkey]
      rfl
  | none =>
      have hnormal : normalizeFileKey value = stripUploadsPrefix value := by
        rw [normalizeFileKey, hfind]
      have hagain : normalizeFileKey (stripUploadsPrefix value) =
          stripUploadsPrefix (stripUploadsPrefix value) := by
        rw [normalizeFileKey, find_none_of_suffix (stripUploadsPrefix_isSuffix value) hfind]
      rw [hnormal, hagain, stripUploadsPrefix_eq_self]
      simp

/-! ### What becomes of a row -/

section

variable [Collation]

/-- What an update makes of the row that it finds. -/
def setValue (after : String) : Edit UrlRow.id :=
  ⟨fun row => { row with value := some after }, fun _ => rfl⟩

/-- The update of a row, if there is one. With it a column is swept in the sense of the library, and
what is known of sweeps is known of columns. -/
def Column.edit (publicBase : String) (column : Column) (row : UrlRow) : Option (Edit UrlRow.id) :=
  (column.change publicBase row).map fun change => setValue change.after

/-- A row after a run. -/
def Column.rewritten (publicBase : String) (column : Column) (row : UrlRow) : UrlRow :=
  effect (column.edit publicBase row) row

omit [Collation] in
theorem pathChange_eq_some {row : UrlRow} {change : UrlChange} :
    pathChange row = some change ↔ row.value.getD "null" ≠ normalizeFileKey (row.value.getD "null") ∧
      change = ⟨row.id, row.value.getD "null", normalizeFileKey (row.value.getD "null")⟩ := by
  rw [pathChange]
  split
  · rename_i hne
    rw [Option.some.injEq, eq_comm]
    exact ⟨fun h => ⟨hne, h⟩, And.right⟩
  · rename_i hsame
    exact iff_of_false (fun h => by cases h) fun h => hsame h.1

/-- A change is for its row and changes it: no update is sent for nothing. -/
theorem change_spec {publicBase : String} {column : Column} {row : UrlRow} {change : UrlChange}
    (h : column.change publicBase row = some change) :
    change.id = row.id ∧ row.value ≠ some change.after := by
  cases column with
  | filesPath =>
      obtain ⟨hne, rfl⟩ := pathChange_eq_some.1 h
      refine ⟨rfl, fun hvalue => hne ?_⟩
      generalize normalizeFileKey (row.value.getD "null") = after at hvalue ⊢
      rw [hvalue, Option.getD_some]
  | url field =>
      obtain ⟨before, hvalue, -, hne, rfl⟩ := urlChange_eq_some.1 h
      exact ⟨rfl, fun hafter => hne (Option.some.inj (hvalue.symm.trans hafter))⟩

/-- The rows for which there is a change are those that a run would change. What is reported is then
a number of rows. -/
theorem rewritten_ne_iff {publicBase : String} {column : Column} {row : UrlRow} :
    column.rewritten publicBase row ≠ row ↔ (column.change publicBase row).isSome = true := by
  rw [Column.rewritten, Column.edit]
  cases hchange : column.change publicBase row with
  | none => exact iff_of_false (fun h => h rfl) (fun h => by cases h)
  | some change =>
      refine iff_of_true (fun heq => (change_spec hchange).2 ?_) rfl
      have hvalue : ({ row with value := some change.after } : UrlRow) = row := heq
      exact (congrArg UrlRow.value hvalue).symm

/-- A row that stays as a run has made it. For texts this is idempotence, for paths it can fail. -/
def Column.Stays (publicBase : String) (column : Column) (row : UrlRow) : Prop :=
  column.rewritten publicBase (column.rewritten publicBase row) = column.rewritten publicBase row

theorem rewritten_of_none {publicBase : String} {column : Column} {row : UrlRow}
    (h : column.change publicBase row = none) : column.rewritten publicBase row = row := by
  rw [Column.rewritten, Column.edit, h]
  rfl

theorem rewritten_of_some {publicBase : String} {column : Column} {row : UrlRow}
    {change : UrlChange} (h : column.change publicBase row = some change) :
    column.rewritten publicBase row = { row with value := some change.after } := by
  rw [Column.rewritten, Column.edit, h]
  rfl

theorem stays_iff {publicBase : String} {column : Column} {row : UrlRow} :
    column.Stays publicBase row ↔
      column.change publicBase (column.rewritten publicBase row) = none := by
  rw [Column.Stays, ← Option.not_isSome_iff_eq_none, ← rewritten_ne_iff, not_not]

/-- A rewritten text is not rewritten again. -/
theorem stays_url {publicBase : String} (h : IsPublicBase publicBase) (field : UrlField)
    (row : UrlRow) : (Column.url field).Stays publicBase row := by
  rw [stays_iff]
  cases hchange : (Column.url field).change publicBase row with
  | none => rw [rewritten_of_none hchange, hchange]
  | some change =>
      rw [rewritten_of_some hchange]
      obtain ⟨before, -, -, -, rfl⟩ := urlChange_eq_some.1 hchange
      exact urlChange_rewritten h rfl

/-- A path stays when it settles. -/
theorem stays_path {publicBase : String} {row : UrlRow} :
    Column.filesPath.Stays publicBase row ↔ Settles (row.value.getD "null") := by
  rw [stays_iff, Settles]
  cases hchange : Column.filesPath.change publicBase row with
  | none =>
      rw [rewritten_of_none hchange, hchange]
      have hsame : row.value.getD "null" = normalizeFileKey (row.value.getD "null") := by
        by_contra hne
        have hsome := pathChange_eq_some.2 ⟨hne, rfl⟩
        have hnone : pathChange row = none := hchange
        rw [hnone] at hsome
        cases hsome
      refine iff_of_true rfl ?_
      rw [← hsame, ← hsame]
  | some change =>
      rw [rewritten_of_some hchange]
      obtain ⟨-, rfl⟩ := pathChange_eq_some.1 hchange
      generalize normalizeFileKey (row.value.getD "null") = after
      rw [← Option.not_isSome_iff_eq_none, Option.isSome_iff_exists]
      constructor
      · intro hnone
        by_contra hne
        exact hnone ⟨_, pathChange_eq_some.2 ⟨fun h => hne h.symm, rfl⟩⟩
      · rintro hsame ⟨again, hagain⟩
        exact (pathChange_eq_some.1 hagain).1 hsame.symm

/-! ### The updates of a column -/

omit [Collation] in
/-- One update more is one statement more of a sweep. -/
theorem send_cons (fails : UrlChange → Bool) (change : UrlChange) (changes : List UrlChange)
    (rows : Rows) :
    rows.send fails (change :: changes) = if fails change = true then (false, rows)
      else Rows.send fails changes
        (rows.modify (fun row => row.id = change.id) (setValue change.after)) := by
  have hupdate : change.update rows.rows =
      (rows.modify (fun row => row.id = change.id) (setValue change.after)).rows := by
    refine List.map_congr_left fun row _ => ?_
    by_cases hid : row.id = change.id
    · rw [if_pos hid, if_pos (decide_eq_true hid)]
      rfl
    · rw [if_neg hid, if_neg (ne_true_of_eq_false (decide_eq_false hid))]
  by_cases hfails : fails change = true
  · simp only [Rows.send, sendUpdates, if_pos hfails]
  · simp only [Rows.send, sendUpdates, if_neg hfails, hupdate]

theorem send_spec (publicBase : String) (column : Column) (fails : UrlChange → Bool)
    (selected : List UrlRow) (rows : Rows) :
    let sent := rows.send fails (selected.filterMap (column.change publicBase))
    ∃ n, sent.2 = rows.sweep (column.edit publicBase) (selected.take n) ∧
      (sent.1 = true → selected.take n = selected) ∧
      ((∀ change, fails change = false) → sent.1 = true) := by
  induction selected generalizing rows with
  | nil => exact ⟨0, rfl, fun _ => rfl, fun _ => rfl⟩
  | cons row selected ih =>
      intro sent
      cases hchange : column.change publicBase row with
      | none =>
          obtain ⟨n, hrows, hdone, hall⟩ := ih rows
          have hsent : sent = rows.send fails (selected.filterMap (column.change publicBase)) :=
            congrArg (rows.send fails) (List.filterMap_cons_none hchange)
          have hedit : column.edit publicBase row = none := by rw [Column.edit, hchange]; rfl
          rw [hsent]
          refine ⟨n + 1, ?_, fun h => by rw [List.take_succ_cons, hdone h], hall⟩
          rw [hrows, List.take_succ_cons, Table.sweep, Table.sweep, List.foldl_cons, hedit]
          rfl
      | some change =>
          have hsent : sent =
              rows.send fails (change :: selected.filterMap (column.change publicBase)) :=
            congrArg (rows.send fails) (List.filterMap_cons_some hchange)
          rw [hsent, send_cons]
          by_cases hfails : fails change = true
          · -- the sweep ends before this row
            rw [if_pos hfails]
            refine ⟨0, rfl, fun h => ?_, fun h => ?_⟩
            · cases h
            · rw [h change] at hfails
              cases hfails
          · rw [if_neg hfails]
            obtain ⟨n, hrows, hdone, hall⟩ := ih (rows.modify (fun row => row.id = change.id)
              (setValue change.after))
            have hedit : column.edit publicBase row = some (setValue change.after) := by
              rw [Column.edit, hchange]
              rfl
            refine ⟨n + 1, ?_, fun h => by rw [List.take_succ_cons, hdone h], hall⟩
            rw [hrows, List.take_succ_cons, Table.sweep, Table.sweep, List.foldl_cons, hedit,
              (change_spec hchange).1]
            rfl

/-- A column of which some rows have been rewritten. -/
def Begun (publicBase : String) (column : Column) (rows rows' : Rows) : Prop :=
  ∀ id, rows'.get id = rows.get id ∨
    rows'.get id = (rows.get id).map (column.rewritten publicBase)

/-- A column of which all rows have been rewritten: what `Begun` comes to at the end. -/
def Done (publicBase : String) (column : Column) (rows rows' : Rows) : Prop :=
  ∀ id, rows'.get id = (rows.get id).map (column.rewritten publicBase)

/-- How many rows of a column a run would change. -/
def pending (publicBase : String) (column : Column) (rows : Rows) : Nat :=
  rows.rows.countP fun row => column.rewritten publicBase row ≠ row

theorem begun_sweep {publicBase : String} {column : Column} {rows : Rows} (selected : Selection rows)
    (n : Nat) :
    Begun publicBase column rows (rows.sweep (column.edit publicBase) (selected.rows.take n)) := by
  intro id
  cases hget : rows.get id with
  | none =>
      refine Or.inl ?_
      have hid : id ∉ (selected.rows.take n).map UrlRow.id := by
        intro hmem
        obtain ⟨row, hrow, hid⟩ := List.mem_map.1 hmem
        exact Table.get_eq_none.1 hget row (selected.mem.1 (List.mem_of_mem_take hrow)) hid
      rw [Table.get_sweep_of_not_mem _ hid, hget]
  | some row =>
      obtain ⟨hrow, rfl⟩ := Table.get_eq_some.1 hget
      exact (Table.get_sweep_take (column.edit publicBase) selected n hrow).symm

theorem length_changes (publicBase : String) (column : Column) {rows : Rows}
    (selected : Selection rows) :
    (selected.rows.filterMap (column.change publicBase)).length =
      pending publicBase column rows := by
  rw [List.length_filterMap_eq_countP, pending, ← selected.perm.countP_eq]
  refine List.countP_congr fun row _ => ?_
  rw [decide_eq_true_eq, rewritten_ne_iff]

/-- **What the script does to a column.** It begins it in any case, and does it when nothing fails;
what it counts are the rows that a run would change. -/
theorem migrateColumn_spec (world : World) (execute : Bool) (publicBase : String) (column : Column)
    (rows : Rows) :
    let migrated := migrateColumn world execute publicBase column rows
    Begun publicBase column rows migrated.2 ∧ (execute = false → migrated.2 = rows) ∧
      (∀ changed, migrated.1 = some changed → changed = pending publicBase column rows ∧
        (execute = true → Done publicBase column rows migrated.2)) ∧
      (world.selectFails column = false → (∀ change, world.updateFails column change = false) →
        migrated.1.isSome = true) := by
  intro migrated
  -- Whatever ends the column before its updates leaves it as it is.
  have hnothing : Begun publicBase column rows rows := fun id => Or.inl rfl
  by_cases hselect : world.selectFails column = true
  · have hmigrated : migrated = (none, rows) := if_pos hselect
    rw [hmigrated]
    refine ⟨hnothing, fun _ => rfl, fun changed h => (by cases h), fun h => ?_⟩
    rw [hselect] at h
    cases h
  have hlength := length_changes publicBase column (world.select column rows)
  cases execute with
  | false =>
      have hmigrated : migrated = (some (pending publicBase column rows), rows) := by
        rw [← hlength]
        exact if_neg hselect
      rw [hmigrated]
      exact ⟨hnothing, fun _ => rfl, fun changed h => ⟨(Option.some.inj h).symm,
        fun h => (by cases h)⟩, fun _ _ => rfl⟩
  | true =>
      -- The updates that were sent are a sweep over some of the selected rows, and over all when
      -- none fails.
      obtain ⟨n, hrows, hdone, hall⟩ := send_spec publicBase column
        (world.updateFails column) (world.select column rows).rows rows
      have hmigrated : migrated = (if (rows.send (world.updateFails column)
          ((world.select column rows).rows.filterMap (column.change publicBase))).1 = true
            then some (pending publicBase column rows) else none,
          rows.sweep (column.edit publicBase) ((world.select column rows).rows.take n)) := by
        rw [← hlength, ← hrows]
        exact if_neg hselect
      rw [hmigrated]
      refine ⟨begun_sweep _ n, fun h => (by cases h), fun changed h => ?_, fun _ h => ?_⟩
      · dsimp only at h ⊢
        split at h
        · rename_i hsent
          refine ⟨(Option.some.inj h).symm, fun _ id => ?_⟩
          rw [hdone hsent, Table.get_sweep_selection]
          rfl
        · cases h
      · dsimp only
        rw [if_pos (hall h)]
        rfl

/-! ### All columns -/

theorem Begun.refl {publicBase : String} {column : Column} {rows : Rows} :
    Begun publicBase column rows rows := fun _ => Or.inl rfl

omit [Collation] in
theorem mem_columns (column : Column) : column ∈ columns := by
  cases column with
  | filesPath => decide
  | url field => cases field <;> decide

omit [Collation] in
theorem nodup_columns : columns.Nodup := by decide

/-- How many rows a run would change. -/
def pendingAll (publicBase : String) (columns : List Column) (db : Database) : Nat :=
  (columns.map fun column => pending publicBase column (db column)).sum

theorem pendingAll_congr {publicBase : String} {columns : List Column} {db db' : Database}
    (h : ∀ column ∈ columns, db' column = db column) :
    pendingAll publicBase columns db' = pendingAll publicBase columns db :=
  congrArg List.sum (List.map_congr_left fun column hcolumn => by rw [h column hcolumn])

/-- **What the script does to the database**, column by column. The induction is on the columns;
each finds its rows as they were. -/
theorem migrateColumns_spec (world : World) (execute : Bool) (publicBase : String)
    {columns : List Column} (hnodup : columns.Nodup) (total : Nat) (db : Database) :
    let migrated := migrateColumns world execute publicBase columns total db
    (∀ column, Begun publicBase column (db column) (migrated.2 column)) ∧
      (∀ column, column ∉ columns → migrated.2 column = db column) ∧
      (execute = false → migrated.2 = db) ∧
      (∀ n, migrated.1 = some n → n = total + pendingAll publicBase columns db ∧
        (execute = true → ∀ column ∈ columns,
          Done publicBase column (db column) (migrated.2 column))) ∧
      ((∀ column, world.selectFails column = false) →
        (∀ column change, world.updateFails column change = false) → migrated.1.isSome = true) := by
  induction columns generalizing total db with
  | nil =>
      refine ⟨fun column => Begun.refl, fun _ _ => rfl, fun _ => rfl, fun n h => ⟨?_, ?_⟩,
        fun _ _ => rfl⟩
      · exact (Option.some.inj h).symm
      · exact fun _ column hcolumn => absurd hcolumn List.not_mem_nil
  | cons first columns ih =>
      intro migrated
      rw [List.nodup_cons] at hnodup
      obtain ⟨hbegun, hdry, hdone, hall⟩ :=
        migrateColumn_spec world execute publicBase first (db first)
      have hset : ∀ rows, (db.set first rows) first = rows := fun rows => Function.update_self _ _ _
      have hother : ∀ rows column, column ≠ first → (db.set first rows) column = db column :=
        fun rows column hne => Function.update_of_ne hne _ _
      cases hfirst : migrateColumn world execute publicBase first (db first) with
      -- The first column is done or stopped at; the others are still as they were.
      | mk changed rows =>
          rw [hfirst] at hbegun hdry hdone hall
          have hsame : execute = false → db.set first rows = db := by
            intro hexecute
            rw [show rows = db first from hdry hexecute]
            exact Function.update_eq_self _ _
          have hstarted : ∀ column, Begun publicBase column (db column) ((db.set first rows) column) := by
            intro column
            by_cases hcolumn : column = first
            · subst hcolumn
              rw [hset]
              exact hbegun
            · rw [hother rows column hcolumn]
              exact Begun.refl
          -- A failure ends the run here, with the other columns untouched.
          cases changed with
          | none =>
              have hmigrated : migrated = (none, db.set first rows) := by
                show migrateColumns _ _ _ _ _ _ = _
                rw [migrateColumns, hfirst]
              rw [hmigrated]
              refine ⟨hstarted, fun column hcolumn => hother rows column ?_, hsame,
                fun n h => (by cases h), fun hselect hupdate => ?_⟩
              · exact fun heq => hcolumn (heq ▸ List.mem_cons_self)
              · exact absurd (hall (hselect first) (hupdate first)) Bool.false_ne_true
          | some changed =>
              have hmigrated : migrated = migrateColumns world execute publicBase columns
                  (total + changed) (db.set first rows) := by
                show migrateColumns _ _ _ _ _ _ = _
                rw [migrateColumns, hfirst]
              obtain ⟨hbegun', hkept', hdry', hdone', hall'⟩ :=
                ih hnodup.2 (total + changed) (db.set first rows)
              rw [← hmigrated] at hbegun' hkept' hdry' hdone' hall'
              -- The later columns leave the first one alone, since it is not among them.
              have hfinal : migrated.2 first = rows := by rw [hkept' first hnodup.1, hset]
              refine ⟨?_, ?_, fun h => (hdry' h).trans (hsame h), ?_, hall'⟩
              · intro column
                by_cases hcolumn : column = first
                · subst hcolumn
                  rw [hfinal]
                  exact hbegun
                · have hlater := hbegun' column
                  rwa [hother rows column hcolumn] at hlater
              · intro column hcolumn
                rw [List.mem_cons, not_or] at hcolumn
                rw [hkept' column hcolumn.2, hother rows column hcolumn.1]
              · intro n hn
                obtain ⟨hcount, hrows⟩ := hdone changed rfl
                obtain ⟨htotal, hlater⟩ := hdone' n hn
                have hpending : pendingAll publicBase columns (db.set first rows) =
                    pendingAll publicBase columns db :=
                  pendingAll_congr fun column hcolumn => hother rows column fun heq =>
                    hnodup.1 (heq ▸ hcolumn)
                refine ⟨?_, fun hexecute => List.forall_mem_cons.2 ⟨?_, fun column hcolumn => ?_⟩⟩
                · rw [htotal, hpending, hcount]
                  simp only [pendingAll, List.map_cons, List.sum_cons]
                  omega
                · rw [hfinal]
                  exact hrows hexecute
                · have hdoneLater := hlater hexecute column hcolumn
                  rwa [hother rows column fun heq => hnodup.1 (heq ▸ hcolumn)] at hdoneLater

/-! ### A run of the script -/

/-- Every run that reaches the columns does to the database what the loop does; any other one leaves
it alone. -/
theorem main_database (world : World) (argv : List String) (db : Database) :
    (main world argv db).2 = db ∨ ∃ args base, prepare world argv = .ok (args, some base) ∧
      (main world argv db).2 = (migrateColumns world args.execute base columns 0 db).2 := by
  rw [main]
  cases hprepare : prepare world argv with
  | error why => exact Or.inl rfl
  | ok prepared =>
      obtain ⟨args, base⟩ := prepared
      cases base with
      | none => exact Or.inl rfl
      | some base =>
          dsimp only
          cases hconnects : world.connects with
          | false => exact Or.inl rfl
          | true =>
              refine Or.inr ⟨args, base, rfl, ?_⟩
              rw [if_pos rfl]
              cases migrateColumns world args.execute base columns 0 db with
              | mk total db' =>
                  cases total with
                  | none => rfl
                  | some total =>
                      dsimp only
                      cases verifyNoMalformedRefs world db' <;> rfl

/-- A run in which nothing fails: it gets as far as the columns with a base, and every statement that
it sends succeeds. What it reports is then about all rows, where a run that fails has rewritten the
rows up to the failure and reports nothing. -/
structure Completes (world : World) (argv : List String) (args : Args) (base : String) : Prop where
  prepared : prepare world argv = .ok (args, some base)
  connects : world.connects = true
  selects : ∀ column, world.selectFails column = false
  updates : ∀ column change, world.updateFails column change = false
  verifies : ∀ column, world.verifyFails column = false

section

variable {world : World} {argv : List String} {args : Args} {base : String}

theorem Completes.finished (h : Completes world argv args base) (db : Database) :
    ∃ malformed, (main world argv db).1 =
        .finished (pendingAll base columns db) malformed args.execute ∧
      verifyNoMalformedRefs world (main world argv db).2 = some malformed ∧
      (args.execute = false → (main world argv db).2 = db) ∧
      (args.execute = true → ∀ column, Done base column (db column) ((main world argv db).2 column)) := by
  obtain ⟨-, -, hdry, hdone, hall⟩ :=
    migrateColumns_spec world args.execute base nodup_columns 0 db
  -- No statement fails, so that there is a total, and the verification that follows has a result.
  obtain ⟨total, htotal⟩ := Option.isSome_iff_exists.1 (hall h.selects h.updates)
  obtain ⟨hcount, hrows⟩ := hdone total htotal
  obtain ⟨malformed, hmalformed⟩ : ∃ malformed, verifyNoMalformedRefs world
      (migrateColumns world args.execute base columns 0 db).2 = some malformed := by
    rw [verifyNoMalformedRefs, if_neg]
    · exact ⟨_, rfl⟩
    · rw [List.any_eq_true]
      rintro ⟨column, -, hfails⟩
      rw [h.verifies column] at hfails
      cases hfails
  have hmain : main world argv db = (.finished (pendingAll base columns db) malformed args.execute,
      (migrateColumns world args.execute base columns 0 db).2) := by
    have hmigrated : migrateColumns world args.execute base columns 0 db =
        (some total, (migrateColumns world args.execute base columns 0 db).2) :=
      Prod.ext htotal rfl
    rw [main, h.prepared]
    dsimp only
    rw [if_pos h.connects, hmigrated]
    dsimp only
    rw [hmalformed, hcount, Nat.zero_add]
  rw [hmain]
  exact ⟨malformed, rfl, hmalformed, hdry, fun hexecute column =>
    hrows hexecute column (mem_columns column)⟩

end

theorem pendingAll_eq_zero {base : String} {db : Database} :
    pendingAll base columns db = 0 ↔
      ∀ column, ∀ row ∈ db column, column.rewritten base row = row := by
  rw [pendingAll, List.sum_eq_zero_iff_forall_eq_nat]
  constructor
  · intro h column row hrow
    have hzero := h _ (List.mem_map_of_mem (mem_columns column))
    have hnot := List.countP_eq_zero.1 hzero row hrow
    simpa using hnot
  · intro h n hn
    obtain ⟨column, -, rfl⟩ := List.mem_map.1 hn
    exact List.countP_eq_zero.2 fun row hrow => by simp [h column row hrow]

/-- The rows of a column that is done stay exactly if they stay one by one. -/
theorem Done.stays_iff {base : String} {column : Column} {rows rows' : Rows}
    (h : Done base column rows rows') :
    (∀ row ∈ rows', column.rewritten base row = row) ↔ ∀ row ∈ rows, column.Stays base row := by
  constructor
  · intro hstays row hrow
    have hget : rows'.get row.id = some (column.rewritten base row) := by
      rw [h, Table.get_eq_some.2 ⟨hrow, rfl⟩, Option.map_some]
    exact hstays _ (Table.get_eq_some.1 hget).1
  · intro hstays row hrow
    have hget := h row.id
    rw [Table.get_eq_some.2 ⟨hrow, rfl⟩] at hget
    obtain ⟨before, hbefore, heq⟩ := Option.map_eq_some_iff.1 hget.symm
    rw [← heq]
    exact hstays before (Table.get_eq_some.1 hbefore).1

/-- **A run of the script**: what it reports is how many rows differ from what it makes of them, also
when it makes nothing of them, and it changes these rows alone. This is so for every base. When the
base is a public URL, nothing is left to report after an execution exactly if all paths of files
settle: such a base is found again in front of every key that the run has written. With a base that
has no scheme, say, the run would put the base before the key anew every time. -/
theorem db_refs_migrated {world : World} {argv : List String} {args : Args} {base : String}
    (h : Completes world argv args base) (db : Database) :
    ∃ malformed, (main world argv db).1 =
        .finished (pendingAll base columns db) malformed args.execute ∧
      (∀ column id, ((main world argv db).2 column).get id =
        if args.execute = true then ((db column).get id).map (column.rewritten base)
        else (db column).get id) ∧
      (args.execute = true → IsPublicBase base →
        (pendingAll base columns (main world argv db).2 = 0 ↔
          ∀ row ∈ db .filesPath, (FILE_KEY_RE.find (row.value.getD "null").toList).isSome = true ∨
            beginsUploads (stripUploadsPrefix (row.value.getD "null")) = false)) := by
  obtain ⟨malformed, hending, -, hdry, hdone⟩ := h.finished db
  refine ⟨malformed, hending, fun column id => ?_, fun hexecute hbase => ?_⟩
  · by_cases hexecute : args.execute = true
    · rw [if_pos hexecute]
      exact hdone hexecute column id
    · rw [if_neg hexecute, hdry (by simpa using hexecute)]
  · rw [pendingAll_eq_zero]
    constructor
    · intro hall row hrow
      have hstays := (hdone hexecute .filesPath).stays_iff.1 (hall .filesPath) row hrow
      exact settles_iff.1 (stays_path.1 hstays)
    · intro hpaths column
      refine (hdone hexecute column).stays_iff.2 fun row hrow => ?_
      cases column with
      | filesPath => exact stays_path.2 (settles_iff.2 (hpaths row hrow))
      | url field => exact stays_url hbase field row

/-! ### Beginning anew -/

section

variable {base : String} {column : Column} {rows rows' rows'' : Rows}

theorem Begun.trans (hstays : ∀ row ∈ rows, column.Stays base row)
    (h : Begun base column rows rows') (h' : Begun base column rows' rows'') :
    Begun base column rows rows'' := by
  intro id
  cases hget : rows.get id with
  | none =>
      have hnone : rows'.get id = none := by
        rcases h id with hid | hid <;> rw [hid, hget]
        rfl
      rcases h' id with hid | hid
      · exact Or.inl (hid.trans hnone)
      · rw [hnone] at hid
        exact Or.inl hid
  | some row =>
      have hrow : column.Stays base row := hstays row (Table.get_eq_some.1 hget).1
      have hid := h id
      have hid' := h' id
      rw [hget, Option.map_some] at hid
      rw [Option.map_some]
      rcases hid with hid | hid
      · rwa [hid, Option.map_some] at hid'
      · rw [hid, Option.map_some, hrow] at hid'
        exact Or.inr (or_self_iff.1 hid')

theorem Begun.done (hstays : ∀ row ∈ rows, column.Stays base row)
    (h : Begun base column rows rows') (h' : Done base column rows' rows'') :
    Done base column rows rows'' := by
  intro id
  rw [h']
  cases hget : rows.get id with
  | none =>
      rcases h id with hid | hid <;> rw [hid, hget]
      rfl
  | some row =>
      have hrow : column.Stays base row := hstays row (Table.get_eq_some.1 hget).1
      rcases h id with hid | hid
      · rw [hid, hget]
      · rw [hid, hget, Option.map_some, Option.map_some, hrow]

end

/-- A run that, if it writes at all, writes URLs with this base. -/
def WritesBase (base : String) (world : World) (argv : List String) : Prop :=
  ∀ args base', prepare world argv = .ok (args, some base') → args.execute = true → base' = base

omit [Collation] in
/-- Only one argument makes the script write. -/
theorem execute_eq_false {cwd : Path.Place} {argv : List String} {args args' : Args}
    (hargv : "--execute" ∉ argv) (hargs : args.execute = false)
    (h : readTokens cwd args argv = .ok args') : args'.execute = false := by
  fun_induction readTokens cwd args argv with
  | case1 args => exact Except.ok.inj h ▸ hargs
  | case2 args rest ih => exact absurd List.mem_cons_self hargv
  | case3 args rest _ ih => exact ih (List.not_mem_of_not_mem_cons hargv) hargs h
  | case4 => cases h
  | case5 args _ _ value rest ih =>
      exact ih (List.not_mem_of_not_mem_cons (List.not_mem_of_not_mem_cons hargv)) hargs h
  | case6 => cases h
  | case7 args _ _ _ value rest ih =>
      exact ih (List.not_mem_of_not_mem_cons (List.not_mem_of_not_mem_cons hargv)) hargs h
  | case8 args => exact Except.ok.inj h ▸ hargs
  | case9 args _ _ _ _ value rest ih =>
      exact ih (List.not_mem_of_not_mem_cons (List.not_mem_of_not_mem_cons hargv)) hargs h
  | case10 => cases h
  | case11 => cases h

omit [Collation] in
theorem read_of_prepare {world : World} {argv : List String} {args : Args} {base : Option String}
    (h : prepare world argv = .ok (args, base)) :
    readTokens world.cwd (defaults world.cwd) argv = .ok args := by
  rw [prepare, parseArgs] at h
  cases hread : readTokens world.cwd (defaults world.cwd) argv with
  | error why =>
      rw [hread] at h
      cases h
  | ok read =>
      rw [hread] at h
      dsimp only [Except.bind] at h
      -- The checks that come after the arguments are read may end the run, and do not change what
      -- was read.
      split at h
      · cases h
      · rename_i parsed hparsed
        split at hparsed
        · obtain rfl := Except.ok.inj hparsed
          split at h
          · cases hconfig : buildDbConfig world.isUrl _ with
            | error why =>
                rw [hconfig] at h
                cases h
            | ok config =>
                rw [hconfig] at h
                cases h
                rfl
          · split at h
            · cases h
            · cases hconfig : buildDbConfig world.isUrl _ with
              | error why =>
                  rw [hconfig] at h
                  cases h
              | ok config =>
                  rw [hconfig] at h
                  cases h
                  rfl
        · cases hparsed

/-- A run without `--execute` leaves the database as it is. -/
theorem main_dry {world : World} {argv : List String} (hargv : "--execute" ∉ argv) (db : Database) :
    (main world argv db).2 = db := by
  rcases main_database world argv db with hsame | ⟨args, base, hprepare, hrun⟩
  · exact hsame
  · have hdry := execute_eq_false hargv rfl (read_of_prepare hprepare)
    rw [hrun]
    exact (migrateColumns_spec world args.execute base nodup_columns 0 db).2.2.1 hdry

/-- What runs one after the other make of the database, the first of the list first. -/
def attempts (runs : List (World × List String)) (db : Database) : Database :=
  runs.foldl (fun db run => (main run.1 run.2 db).2) db

theorem WritesBase.begun {base : String} {world : World} {argv : List String}
    (h : WritesBase base world argv) (db : Database) (column : Column) :
    Begun base column (db column) ((main world argv db).2 column) := by
  rcases main_database world argv db with hsame | ⟨args, base', hprepare, hrun⟩
  · rw [hsame]
    exact Begun.refl
  · obtain ⟨hbegun, -, hdry, -, -⟩ :=
      migrateColumns_spec world args.execute base' nodup_columns 0 db
    rw [hrun]
    cases hexecute : args.execute with
    | false =>
        rw [hexecute] at hdry
        rw [hdry rfl]
        exact Begun.refl
    | true =>
        obtain rfl := h args base' hprepare hexecute
        rw [hexecute] at hbegun
        exact hbegun column

theorem begun_attempts {base : String} {column : Column} {runs : List (World × List String)}
    (hruns : ∀ run ∈ runs, WritesBase base run.1 run.2) {db : Database} {rows : Rows}
    (hstays : ∀ row ∈ rows, column.Stays base row) (h : Begun base column rows (db column)) :
    Begun base column rows (attempts runs db column) := by
  induction runs generalizing db with
  | nil => exact h
  | cons run runs ih =>
      rw [List.forall_mem_cons] at hruns
      exact ih hruns.2 (h.trans hstays (hruns.1.begun db column))

/-- Runs without `--execute` leave the database as it is. -/
theorem attempts_dry {runs : List (World × List String)}
    (h : ∀ run ∈ runs, "--execute" ∉ run.2) (db : Database) : attempts runs db = db := by
  induction runs generalizing db with
  | nil => rfl
  | cons run runs ih =>
      rw [List.forall_mem_cons] at h
      rw [attempts, List.foldl_cons, main_dry h.1]
      exact ih h.2 db

/-- **The script may be begun anew.** Without `--execute` nothing changes. Let all runs that write do
so with one public URL, and let all paths of files settle. Then every row is as it was or as it is to
be, however many runs were stopped and wherever, and an execution in which nothing fails leaves what
it would have left at first.

The conditions are those of a row that is finished: a resumed run meets such rows again, and it must
leave them alone. -/
theorem db_refs_restart (runs : List (World × List String)) (db : Database) :
    ((∀ run ∈ runs, "--execute" ∉ run.2) → attempts runs db = db) ∧
      ∀ base, IsPublicBase base → (∀ run ∈ runs, WritesBase base run.1 run.2) →
        (∀ row ∈ db .filesPath, Settles (row.value.getD "null")) →
          (∀ column, Begun base column (db column) (attempts runs db column)) ∧
            ∀ world argv args, Completes world argv args base → args.execute = true →
              ∀ column id, ((main world argv (attempts runs db)).2 column).get id =
                ((main world argv db).2 column).get id := by
  refine ⟨fun hdry => attempts_dry hdry db, fun base hbase hruns hpaths => ?_⟩
  have hstays : ∀ column, ∀ row ∈ db column, column.Stays base row := by
    intro column row hrow
    cases column with
    | filesPath => exact stays_path.2 (hpaths row hrow)
    | url field => exact stays_url hbase field row
  have hbegun := fun column => begun_attempts hruns (hstays column) Begun.refl
  refine ⟨hbegun, fun world argv args hlast hexecute column id => ?_⟩
  obtain ⟨-, -, -, -, hdone⟩ := hlast.finished db
  obtain ⟨-, -, -, -, hagain⟩ := hlast.finished (attempts runs db)
  rw [hdone hexecute column id]
  exact (hbegun column).done (hstays column) (hagain hexecute column) id

end

/-! ### A database with one file -/

section

attribute [local instance] Collation.ascii

def cdn : String := "https://cdn.vethealth.test"

/-- Everything is configured, and no statement fails. -/
def calm : World where
  cwd := .srv
  env := fun _ => some "mysql://localhost/vethealth".toList
  file := fun _ => none
  isUrl := fun _ => true
  connects := true
  select := fun _ rows => ⟨rows.rows, List.Perm.refl _⟩
  selectFails := fun _ => false
  updateFails := fun _ _ => false
  verifyFails := fun _ => false
  isMalformed := fun _ _ => false

def oneFile : Database
  | .filesPath => ⟨[⟨"1", some "/uploads/images/topics/cat.svg"⟩], by decide⟩
  | .url _ => Table.empty

def executing : Args :=
  { defaults calm.cwd with execute := true, publicUrl := trimSlashes cdn }

theorem completes_calm :
    Completes calm ["--execute", "--public-url", cdn] executing (trimSlashes cdn) where
  prepared := by rfl
  connects := rfl
  selects _ := rfl
  updates _ _ := rfl
  verifies _ := rfl

theorem isPublicBase_cdn : IsPublicBase (trimSlashes cdn) := by
  have hcdn : trimSlashes cdn = cdn := by decide
  rw [hcdn]
  exact ⟨by decide, by decide, by decide, by decide⟩

theorem settles_oneFile : ∀ row ∈ oneFile .filesPath, Settles (row.value.getD "null") := by
  intro row hrow
  rw [List.mem_singleton.1 (show row ∈ [_] from hrow)]
  exact settles_iff.2 (Or.inr (by decide))

theorem one_file_migrated :
    pendingAll (trimSlashes cdn) columns
      (main calm ["--execute", "--public-url", cdn] oneFile).2 = 0 := by
  obtain ⟨malformed, -, -, hsettles⟩ := db_refs_migrated completes_calm oneFile
  exact (hsettles rfl isPublicBase_cdn).2 fun row hrow => settles_iff.1 (settles_oneFile row hrow)

/-- The update of the file fails once. -/
theorem one_file_restarted :
    ((main calm ["--execute", "--public-url", cdn] (attempts [({ calm with
      updateFails := fun _ _ => true }, ["--execute", "--public-url", cdn])] oneFile)).2
        .filesPath).get "1" =
      ((main calm ["--execute", "--public-url", cdn] oneFile).2 .filesPath).get "1" := by
  have hruns : ∀ run ∈ [(({ calm with updateFails := fun _ _ => true } : World),
      ["--execute", "--public-url", cdn])], WritesBase (trimSlashes cdn) run.1 run.2 := by
    intro run hrun args base' hprepare _
    rw [List.mem_singleton.1 hrun] at hprepare
    have hsame := completes_calm.prepared.symm.trans hprepare
    cases hsame
    rfl
  obtain ⟨-, hanew⟩ := db_refs_restart [({ calm with updateFails := fun _ _ => true },
    ["--execute", "--public-url", cdn])] oneFile
  obtain ⟨-, hresumed⟩ := hanew _ isPublicBase_cdn hruns settles_oneFile
  exact hresumed calm _ _ completes_calm rfl .filesPath "1"

end

end MigrateDbRefs

end VetHealth
