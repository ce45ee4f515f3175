import VetHealth.Content.Tables
import VetHealth.Js.Stringify
import VetHealth.Lib.Sweep

/-!
# VetHealth.Pages.BuilderMigration

**The migration to the page builder.** A page's content used to be the state of an editor; it is now
a document of blocks. `up` wraps a content in a document with a single `richtext` block, and leaves
empty contents and documents alone. `down` unwraps every document that consists of one `richtext`
block, also one that was a document before `up`.

`up` recognises a document by `isBuilderDocument`, which asks for an array of blocks. `down` asks for
the version alone, takes the blocks for what they are, and writes back a value that is not known to
be a text. After `up` every content is empty or a document, and there the two agree.
-/

namespace VetHealth

open Js Store

abbrev PagesTable := Table PageRow.id

namespace PagesBuilderContent

/-- `tryParse`: the content's JSON, where that is an array or an object. -/
def tryParse (content : String) : Option Json := (JSON.parse content).filter fun j => !j.isScalar

def isBuilderDocument (content : String) : Bool :=
  let parsed := tryParse content
  (get? parsed "version").any (Json.eqNumber 1) && ((get? parsed "blocks").bind Json.asArray?).isSome

/-- The number `1` of a document's version. -/
def version1 : Number := ⟨1, "1", stringToNumber_one⟩

/-- The document that a content is wrapped in: a version, and one block that holds the old content
as a text. -/
def document (randomUUID content : String) : Json :=
  .obj [("version", .num version1),
    ("blocks", .arr [.obj [("id", .str randomUUID), ("type", .str "richtext"),
      ("data", .obj [("content", .str content)])]])]

/-- `UPDATE pages SET content = … WHERE id = …`. -/
def setContent (content : String) : Edit PageRow.id :=
  ⟨fun page => { page with content }, fun _ => rfl⟩

/-! ### Up -/

/-- What `up` does about a row; `randomUUID row.id` is drawn for it. An empty content and a document
are left alone. -/
def upRow (randomUUID : Uuid → String) (row : PageRow) : Option (Edit PageRow.id) :=
  if row.content = "" || isBuilderDocument row.content then none
  else some (setContent (JSON.stringify (document (randomUUID row.id) row.content)))

/-- `up`, which reads `rows` and then goes through them. -/
def up (pages : PagesTable) (rows : Selection pages) (randomUUID : Uuid → String) : PagesTable :=
  pages.sweep (upRow randomUUID) rows.rows

/-- `up`, stopped after `n` rows, as by a lost connection; every statement before it has been done.
-/
def upTo (n : Nat) (pages : PagesTable) (rows : Selection pages) (randomUUID : Uuid → String) :
    PagesTable :=
  pages.sweep (upRow randomUUID) (rows.rows.take n)

/-! ### Down -/

/-- `value.length === 1`. -/
def hasLengthOne : Json → Bool
  | .arr items => items.length = 1
  | .str s => (s.toList.flatMap utf16).length = 1
  | .obj fields => ((Json.obj fields).get "length").any (Json.eqNumber 1)
  | _ => false

/-- `value[0]`, where that has properties. -/
def first? : Json → Option Json
  | .arr items => items.head?
  | .obj fields => (Json.obj fields).get "0"
  | _ => none

/-- The value that `down` writes back for a content, if it does: what the one block of a document
holds. -/
def unwrapped (content : String) : Option Json :=
  let parsed := tryParse content
  let blocks := if (get? parsed "version").any (Json.eqNumber 1)
    then some (orElse (get? parsed "blocks") (.arr [])) else none
  let block := blocks.bind first?
  if blocks.any hasLengthOne && (get? block "type").any (Json.eqString "richtext")
    then some (orElse (get? (get? block "data") "content") (.str "")) else none

/-- What `down` does about a row; `none` when the database refuses the value. -/
def downRow [Mysql] (row : PageRow) : Option (Option (Edit PageRow.id)) :=
  match unwrapped row.content with
  | none => some none
  | some value => (Mysql.textOf value).map fun content => some (setContent content)

/-- `down`; `none` when one of its statements fails. -/
def down [Mysql] (pages : PagesTable) (rows : Selection pages) : Option PagesTable :=
  pages.sweep? downRow rows.rows

/-! ### How the two recognise a document -/

theorem version1_printable : version1.Printable := by
  show Number.isLiteral "1".toList = true
  decide

/-- **The document is read back from what is stored.** The content may be any text, since it is
written as a JSON string. -/
theorem parse_document (uuid content : String) :
    JSON.parse (JSON.stringify (document uuid content)) = some (document uuid content) := by
  have hkeys : (document uuid content).DistinctKeys := by
    simp [document, Json.DistinctKeys, Json.fieldsDistinct, Json.itemsDistinct]
  have hprint : (document uuid content).Printable := by
    simp [document, Json.Printable, Json.fieldsPrintable, Json.itemsPrintable, version1_printable]
  exact JSON.parse_stringify hkeys hprint

theorem tryParse_document (uuid content : String) :
    tryParse (JSON.stringify (document uuid content)) = some (document uuid content) := by
  rw [tryParse, parse_document]
  rfl

theorem isBuilderDocument_document (uuid content : String) :
    isBuilderDocument (JSON.stringify (document uuid content)) = true := by
  unfold isBuilderDocument
  rw [tryParse_document]
  rfl

theorem unwrapped_document (uuid content : String) :
    unwrapped (JSON.stringify (document uuid content)) = some (.str content) := by
  unfold unwrapped
  rw [tryParse_document]
  rfl

/-- An empty content is no JSON. -/
theorem unwrapped_empty : unwrapped "" = none := by decide +kernel

theorem upRow_eq_none {uuid : Uuid → String} {row : PageRow} :
    upRow uuid row = none ↔ row.content = "" ∨ isBuilderDocument row.content = true := by
  unfold upRow
  split
  · next h => simpa using h
  · next h => simpa using h

/-- The row that `up` leaves. -/
theorem effect_upRow (uuid : Uuid → String) (row : PageRow) :
    effect (upRow uuid row) row =
      if row.content = "" ∨ isBuilderDocument row.content = true then row
      else { row with content := JSON.stringify (document (uuid row.id) row.content) } := by
  by_cases h : row.content = "" ∨ isBuilderDocument row.content = true
  · rw [if_pos h, upRow_eq_none.2 h]
    rfl
  · rw [if_neg h, upRow, if_neg (by simpa using h)]
    rfl

/-- What `up` has wrapped it leaves alone, because it recognises the document. This is what makes it
restartable. -/
theorem upRow_settled {uuid uuid' : Uuid → String} {row : PageRow} {e : Edit PageRow.id}
    (h : upRow uuid row = some e) : upRow uuid' (e.apply row) = none := by
  unfold upRow at h
  split at h
  · cases h
  · obtain rfl := Option.some.inj h
    exact upRow_eq_none.2 (Or.inr (isBuilderDocument_document (uuid row.id) row.content))

/-! ### The migration -/

/-- Two rows that differ in nothing but the id of the block that wraps the content. The id is drawn
anew in every run. -/
def SameUpToIds (p q : PageRow) : Prop :=
  p = q ∨ ∃ content uuid uuid', q = { p with content := q.content } ∧
    p.content = JSON.stringify (document uuid content) ∧
    q.content = JSON.stringify (document uuid' content)

/-- Two runs of `up` wrap a row alike. -/
theorem sameUpToIds_upRow (uuid uuid' : Uuid → String) (row : PageRow) :
    SameUpToIds (effect (upRow uuid row) row) (effect (upRow uuid' row) row) := by
  rw [effect_upRow, effect_upRow]
  split
  · exact Or.inl rfl
  · exact Or.inr ⟨row.content, uuid row.id, uuid' row.id, rfl, rfl, rfl⟩

section

variable [Mysql] {pages : PagesTable} {rows : Selection pages} {randomUUID : Uuid → String}

omit [Mysql] in
theorem get_up (id : Uuid) :
    (up pages rows randomUUID).get id = (pages.get id).map fun page =>
      if page.content = "" ∨ isBuilderDocument page.content = true then page
      else { page with content := JSON.stringify (document (randomUUID page.id) page.content) } := by
  unfold up
  rw [Table.get_sweep_selection]
  simp only [effect_upRow]

/-- A row that `up` has left as it found it, and that is no document, is empty. -/
theorem effect_downRow {row : PageRow} (hrow : isBuilderDocument row.content = false)
    (uuid : Uuid → String) :
    ∃ e, downRow (effect (upRow uuid row) row) = some e ∧
      effect e (effect (upRow uuid row) row) = row := by
  rw [effect_upRow]
  by_cases hempty : row.content = ""
  · rw [if_pos (Or.inl hempty), downRow, hempty, unwrapped_empty]
    exact ⟨none, rfl, rfl⟩
  · rw [if_neg (by simp [hempty, hrow]), downRow, unwrapped_document]
    dsimp only
    rw [Mysql.text_str]
    exact ⟨_, rfl, rfl⟩

omit [Mysql] in
/-- Stopping after any number of rows and beginning anew comes to one run, up to the ids that are
drawn. -/
theorem up_upTo (n : Nat) (again : Selection (upTo n pages rows randomUUID)) (whole : Selection pages)
    (uuidAgain uuidWhole : Uuid → String) (id : Uuid) :
    Option.Rel SameUpToIds ((up (upTo n pages rows randomUUID) again uuidAgain).get id)
      ((up pages whole uuidWhole).get id) := by
  refine Table.restart (fun r e he => upRow_settled he) (fun r e he => ?_)
    (sameUpToIds_upRow uuidAgain uuidWhole) rows n again whole id
  have hrelated := sameUpToIds_upRow randomUUID uuidWhole r
  rw [he] at hrelated
  exact hrelated

/-- What `down` restores: the content that was wrapped, and the rows that `up` left alone unless
they were documents. -/
theorem get_down {back : Selection (up pages rows randomUUID)} {restored : PagesTable}
    (hdown : down (up pages rows randomUUID) back = some restored) {page : PageRow}
    (hpage : page ∈ pages) (hplain : isBuilderDocument page.content = false) :
    restored.get page.id = some page := by
  obtain ⟨-, rfl⟩ := Table.sweep?_eq_some.1 hdown
  obtain ⟨e, he, hrestored⟩ := effect_downRow hplain randomUUID
  rw [Table.get_sweep_selection, get_up, Table.get_eq_some.2 ⟨hpage, rfl⟩, Option.map_some,
    Option.map_some, ← effect_upRow, he, Option.getD_some, hrestored]

/-- When `down` runs to its end. -/
theorem isSome_down (back : Selection (up pages rows randomUUID))
    (haccepts : ∀ page ∈ pages, isBuilderDocument page.content = true →
      ∀ value, unwrapped page.content = some value → (Mysql.textOf value).isSome) :
    (down (up pages rows randomUUID) back).isSome := by
  rw [Option.isSome_iff_exists]
  refine ⟨_, Table.sweep?_eq_some.2 ⟨fun row hrow => ?_, rfl⟩⟩
  have hget : (up pages rows randomUUID).get row.id = some row :=
    Table.get_eq_some.2 ⟨back.mem.1 hrow, rfl⟩
  rw [get_up] at hget
  obtain ⟨page, hpage, hrow⟩ := Option.map_eq_some_iff.1 hget
  -- A page that was no builder's is left alone by both, and one that was is unwrapped again.
  cases hplain : isBuilderDocument page.content with
  | false =>
      obtain ⟨e, he, -⟩ := effect_downRow hplain randomUUID
      rw [effect_upRow, hrow] at he
      rw [he]
      rfl
  | true =>
      rw [if_pos (Or.inr hplain)] at hrow
      subst hrow
      rw [downRow]
      -- What cannot be unwrapped is not written, so that it cannot be refused either.
      cases hvalue : unwrapped page.content with
      | none => rfl
      | some value =>
          dsimp only
          rw [Option.isSome_map]
          exact haccepts page (Table.get_eq_some.1 hpage).1 hplain value hvalue

/-- **The migration is restartable and reversible**: `up` wraps the contents that are neither empty
nor documents, whether it runs through or is stopped and begun anew, and `down` restores them.
`down` runs to its end when the database takes what it unwraps of the documents that were there
before. -/
theorem restartable_and_reversible (pages : PagesTable) (rows : Selection pages)
    (randomUUID : Uuid → String) :
    (∀ id, (up pages rows randomUUID).get id = (pages.get id).map fun page =>
      if page.content = "" ∨ isBuilderDocument page.content = true then page
      else { page with content := JSON.stringify (document (randomUUID page.id) page.content) }) ∧
    (∀ (n : Nat) (again : Selection (upTo n pages rows randomUUID)) (whole : Selection pages)
      (uuidAgain uuidWhole : Uuid → String) (id : Uuid),
      Option.Rel SameUpToIds ((up (upTo n pages rows randomUUID) again uuidAgain).get id)
        ((up pages whole uuidWhole).get id)) ∧
    (∀ (back : Selection (up pages rows randomUUID)) (restored : PagesTable),
      down (up pages rows randomUUID) back = some restored →
      ∀ page ∈ pages, isBuilderDocument page.content = false → restored.get page.id = some page) ∧
    (∀ back : Selection (up pages rows randomUUID),
      (∀ page ∈ pages, isBuilderDocument page.content = true →
        ∀ value, unwrapped page.content = some value → (Mysql.textOf value).isSome) →
      (down (up pages rows randomUUID) back).isSome) := by
  refine ⟨get_up, up_upTo, ?_, isSome_down⟩
  intro back restored hdown page hpage hplain
  exact get_down hdown hpage hplain

end

end PagesBuilderContent

end VetHealth
