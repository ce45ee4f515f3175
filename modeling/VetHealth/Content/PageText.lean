import VetHealth.Content.Whitespace
import VetHealth.Files.ImageRefs
import VetHealth.Pages.BuilderMigration

/-!
# VetHealth.Content.PageText

**The text of a page.** A page is a document of blocks. Its text is made of all strings in the data
of its blocks, except those under a key that speaks of an address or a file; a string under the key
`content` is the state of an editor and gives the text of that. A page that is no such document is
read as the state of an editor itself, which is what pages were before the page builder.

`pageBlocksText_up` says that wrapping a page in a document leaves its text as it was. Running white
space together has no effect on a text that comes from `lexicalText` (`normalize_lexicalText`).
-/

namespace VetHealth

open Js Matching

/-- `/url|href|image|photo|src/i`. -/
def URLISH_KEYS : Regex Char :=
  .alt (ImageRefs.word "url") (.alt (ImageRefs.word "href") (.alt (ImageRefs.word "image")
    (.alt (ImageRefs.word "photo") (ImageRefs.word "src"))))

/-- `parseJson`; `none` is `undefined`. -/
def parseJson (content : String) : Option Json := if content = "" then none else JSON.parse content

/-- `lexicalContentText(content, structured)`; `none` is a `TypeError`. A content that is no
editor's state is read as HTML or as text. -/
def lexicalContentText (structured : Bool) (content : String) : Option String :=
  match parseJson content with
  | none => some ""
  | some parsed => lexicalText structured parsed

/-- The text of a string that is kept under `key`, where there is one. -/
def collectString (structured : Bool) (key : Option String) (s : String) : Option (List String) :=
  if key.any fun key => (URLISH_KEYS.find key.toList).isSome then some []
  else if key = some "content" then (lexicalContentText structured s).map fun text => [text]
  else some [s]

mutual

/-- `collect(value, key)`: the chunks that it pushes; `none` is a `TypeError`. The key goes down to
a value from the property around it, and an array passes none on. -/
def collect (structured : Bool) (key : Option String) : Json → Option (List String)
  | .str s => collectString structured key s
  | .arr items => collectItems structured items
  | .obj fields =>
      (collectFields structured fields).map fun chunks =>
        (entriesOrder chunks).flatMap Prod.snd
  | _ => some []

def collectItems (structured : Bool) : List Json → Option (List String)
  | [] => some []
  | item :: items => do
      let chunks ← collect structured none item
      let rest ← collectItems structured items
      return chunks ++ rest

/-- The chunks of each property. -/
def collectFields (structured : Bool) : List (String × Json) → Option (List (String × List String))
  | [] => some []
  | (name, value) :: fields => do
      let chunks ← collect structured (some name) value
      let rest ← collectFields structured fields
      return (name, chunks) :: rest

end

def normalize (chunks : List String) : String :=
  let trimmed := chunks.map fun chunk => String.ofList (trim chunk.toList)
  let joined := " ".intercalate (trimmed.filter fun chunk => chunk ≠ "")
  String.ofList (replaceRuns isSpace ' ' joined.toList)

/-- `collect(block?.data)`. -/
def collectBlock (structured : Bool) (block : Json) : Option (List String) :=
  match block.get "data" with
  | none => some []
  | some data => collect structured none data

/-- `pageBlocksText(content, structured)`; `none` is a `TypeError`. -/
def pageBlocksText (structured : Bool) (content : String) : Option String :=
  match parseJson content with
  | none => some ""
  | some parsed =>
      match (parsed.get "blocks").bind Json.asArray? with
      | none => lexicalText structured parsed
      | some blocks => do
          let chunks ← blocks.mapM (collectBlock structured)
          return if structured then "\n\n".intercalate (chunks.flatten.filter fun chunk => chunk ≠ "")
            else normalize chunks.flatten

/-! ### One chunk -/

/-- **The text of an editor's state is in normal form**: alone, it is not changed. So wrapping a
content into a page and reading the page gives the text of the content. -/
theorem normalize_lexicalText {parsed : Json} {text : String}
    (h : lexicalText false parsed = some text) : normalize [text] = text := by
  obtain ⟨htrim, hruns⟩ := lexicalText_normal h
  unfold normalize
  simp only [List.map_cons, List.map_nil, trim_eq_self htrim, String.ofList_toList]
  by_cases hempty : text = ""
  · rw [hempty]
    rfl
  · rw [List.filter_cons_of_pos (by simpa using hempty), List.filter_nil]
    show String.ofList (replaceRuns isSpace ' ' text.toList) = _
    rw [replaceRuns_eq_self hruns, String.ofList_toList]

/-- The text that one chunk gives. -/
theorem text_of_chunk {structured : Bool} {content text : String}
    (h : lexicalContentText structured content = some text) :
    (if structured then "\n\n".intercalate ([text].filter fun chunk => chunk ≠ "")
      else normalize [text]) = text := by
  cases structured with
  | true =>
      rw [if_pos rfl]
      by_cases hempty : text = ""
      · rw [hempty]
        rfl
      · rw [List.filter_cons_of_pos (by simpa using hempty)]
        rfl
  | false =>
      rw [if_neg Bool.false_ne_true]
      unfold lexicalContentText at h
      split at h
      · obtain rfl := Option.some.inj h
        rfl
      · exact normalize_lexicalText h

/-! ### The migration -/

theorem parseJson_of_parse {content : String} {parsed : Json}
    (h : JSON.parse content = some parsed) : parseJson content = some parsed := by
  rw [parseJson, if_neg]
  · exact h
  · rintro rfl
    cases h

/-- The block that wraps a content has one chunk. -/
theorem collectBlock_richtext (structured : Bool) (uuid content : String) :
    collectBlock structured (.obj [("id", .str uuid), ("type", .str "richtext"),
        ("data", .obj [("content", .str content)])]) =
      (lexicalContentText structured content).map fun text => [text] := by
  have hkey : (URLISH_KEYS.find "content".toList).isSome = false := by decide
  have hstring : collectString structured (some "content") content =
      (lexicalContentText structured content).map fun text => [text] := by
    rw [collectString, Option.any_some, hkey, if_neg Bool.false_ne_true, if_pos rfl]
  show collect structured none (.obj [("content", .str content)]) = _
  rw [collect, collectFields, collect, hstring]
  cases lexicalContentText structured content with
  | none => rfl
  | some text => simp [collectFields]

/-- **The text of a wrapped content** is the text that the content has as an editor's state. The
document of the page builder adds an id and types, and none of them is text. -/
theorem pageBlocksText_document (structured : Bool) (uuid content : String) :
    pageBlocksText structured (JSON.stringify (PagesBuilderContent.document uuid content)) =
      lexicalContentText structured content := by
  unfold pageBlocksText
  rw [parseJson_of_parse (PagesBuilderContent.parse_document uuid content)]
  show (([_].mapM (collectBlock structured)) >>= _) = _
  rw [List.mapM_cons, List.mapM_nil, collectBlock_richtext]
  cases hlexical : lexicalContentText structured content with
  | none => rfl
  | some text => exact congrArg some (text_of_chunk hlexical)

/-- A content without a list of blocks is read as an editor's state. -/
theorem pageBlocksText_of_no_blocks {structured : Bool} {content : String}
    (h : ∀ parsed, JSON.parse content = some parsed →
      (parsed.get "blocks").bind Json.asArray? = none) :
    pageBlocksText structured content = lexicalContentText structured content := by
  unfold pageBlocksText lexicalContentText
  cases hparse : parseJson content with
  | none => rfl
  | some parsed =>
      have hparsed : JSON.parse content = some parsed := by
        unfold parseJson at hparse
        split at hparse
        · cases hparse
        · exact hparse
      dsimp only
      rw [h parsed hparsed]

/-- **The migration preserves the visible text** of every page that has no list of blocks. The other
pages it does not touch, or they are pages already. -/
theorem pageBlocksText_up {pages : PagesTable} (rows : Store.Selection pages)
    (randomUUID : Uuid → String) (structured : Bool) {page : PageRow} (hpage : page ∈ pages)
    (hblocks : ∀ parsed, JSON.parse page.content = some parsed →
      (parsed.get "blocks").bind Json.asArray? = none) :
    ((PagesBuilderContent.up pages rows randomUUID).get page.id).map
        (fun migrated => pageBlocksText structured migrated.content) =
      some (pageBlocksText structured page.content) := by
  rw [PagesBuilderContent.get_up, Store.Table.get_eq_some.2 ⟨hpage, rfl⟩, Option.map_some,
    Option.map_some]
  split
  · rfl
  · rw [pageBlocksText_document, pageBlocksText_of_no_blocks hblocks]

/-- A page of before the page builder. -/
def legacyPage : PageRow :=
  { id := ⟨"p1", by decide⟩, title := "Parvo", slug := "parvo", status := none, metadata := none
    content := "\x7b\"root\":\x7b\"children\":[\x7b\"text\":\"Parvo in dogs\"\x7d]\x7d\x7d"
    deletedAt := false }

def legacyPages : PagesTable := ⟨[legacyPage], by decide⟩

theorem pageBlocksText_up_legacyPage :
    pageBlocksText false legacyPage.content = some "Parvo in dogs" ∧
      ((PagesBuilderContent.up legacyPages ⟨_, .refl _⟩ fun _ => "b1").get legacyPage.id).map
          (fun migrated => pageBlocksText false migrated.content) =
        some (pageBlocksText false legacyPage.content) := by
  refine ⟨by decide +kernel, pageBlocksText_up _ _ false (List.mem_singleton_self _) ?_⟩
  intro parsed hparsed
  have hall : (JSON.parse legacyPage.content).all fun parsed =>
      ((parsed.get "blocks").bind Json.asArray?).isNone := by decide +kernel
  rw [hparsed] at hall
  simpa using hall

end VetHealth
