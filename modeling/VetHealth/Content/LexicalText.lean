import VetHealth.Js.Parse

/-!
# VetHealth.Content.LexicalText

**The text of a document.** A text is stored as the JSON of an editor's state: a tree whose leaves
carry the text. `lexicalText` walks the tree. Formatting puts nothing between two leaves, and a block
ends with a line break; in the plain mode all white space is then run together.

The walk converts the `type` of a node to a text, which fails for an object with a property
`toString` of its own.
-/

namespace VetHealth

open Js

/-- The types of the leaves that carry text. -/
def TEXT_LEAF_TYPES : List String := ["text", "code-highlight", "hashtag", "keyword"]

/-! ### Text conversion -/

mutual

/-- `String(value)` returns. An object of a body may bring a `toString` of its own that is no
function, and then it throws. -/
def hasText : Json → Bool
  | .obj fields => fields.all fun field => field.1 ≠ "toString"
  | .arr items => itemsHaveText items
  | _ => true

def itemsHaveText : List Json → Bool
  | [] => true
  | item :: items => hasText item && itemsHaveText items

end

/-- Whether a node of some type carries its own text; `none` is a `TypeError`. -/
def isTextLeaf (type : Option Json) : Option Bool :=
  match type with
  | none => some true
  | some type =>
      if type.truthy then
        if hasText type then some (type.toString ∈ TEXT_LEAF_TYPES) else none
      else some true

/-! ### The walk -/

/-- What a node contributes that stands for no other; `children` is what its children contribute,
where it has any. The two modes differ here and nowhere else: a block ends with a line break or with
a space. -/
def nodeText (structured : Bool) (node : Json) (children : Option (Option (List Char))) :
    Option (List Char) :=
  let type := node.get "type"
  let isType (name : String) := type.any (Json.eqString name)
  if isType "linebreak" then some ['\n']
  else if isType "tab" then some ['\t']
  else do
    let leaf ← isTextLeaf type
    match leaf, node.get "text" with
    -- a leaf stands for its text, whatever its formatting
    | true, some (.str text) => return text.toList
    | _, _ =>
        match children with
        | none => return []
        | some text =>
            let text ← text
            if isType "link" || isType "autolink" || isType "mark" then return text
            else
              -- a block ends its line
              let heading := if structured && isType "heading" then "## ".toList else []
              return heading ++ text ++ ['\n']

mutual

def walk (structured : Bool) : Json → Option (List Char)
  | .obj fields =>
      match walkRoot structured fields with
      -- a node with a root stands for the root alone
      | some text => text
      | none => nodeText structured (.obj fields) (walkChildren structured fields)
  | _ => some []

/-- The text of the property `root`, where it is truthy. -/
def walkRoot (structured : Bool) : List (String × Json) → Option (Option (List Char))
  | [] => none
  | (name, value) :: fields =>
      if name = "root" then if value.truthy then some (walk structured value) else none
      else walkRoot structured fields

/-- The text of the property `children`, where it is an array. -/
def walkChildren (structured : Bool) : List (String × Json) → Option (Option (List Char))
  | [] => none
  | (name, value) :: fields =>
      if name = "children" then
        match value with
        | .arr items => some (walkItems structured items)
        | _ => none
      else walkChildren structured fields

def walkItems (structured : Bool) : List Json → Option (List Char)
  | [] => some []
  | item :: items => do
      let text ← walk structured item
      let rest ← walkItems structured items
      return text ++ rest

end

/-! ### White space -/

/-- Every run of the characters that `p` accepts becomes one `c`. It is what the expressions with a
`+` come to. -/
def replaceRuns (p : Char → Bool) (c : Char) : List Char → List Char
  | [] => []
  | d :: ds =>
      if p d then if ds.head?.any p then replaceRuns p c ds else c :: replaceRuns p c ds
      else d :: replaceRuns p c ds

/-- Spaces around a line break are dropped; `after` says that one was just read. -/
def stripLines (after : Bool) : List Char → List Char
  | [] => []
  | '\n' :: cs => '\n' :: stripLines true cs
  | ' ' :: cs =>
      if after || (cs.dropWhile fun c => c = ' ').head? = some '\n' then stripLines after cs
      else ' ' :: stripLines false cs
  | c :: cs => c :: stripLines false cs

/-- Of three line breaks or more in a row two stay; `read` have just been read. -/
def limitBreaks (read : Nat) : List Char → List Char
  | [] => []
  | '\n' :: cs => if read < 2 then '\n' :: limitBreaks (read + 1) cs else limitBreaks read cs
  | c :: cs => c :: limitBreaks 0 cs

/-- `lexicalText(value, structured)`; `none` is a `TypeError`. The text is collected first and its
white space put in order afterwards. -/
def lexicalText (structured : Bool) (value : Json) : Option String := do
  let text ← walk structured value
  return String.ofList <| trim <|
    if structured then
      limitBreaks 0 (stripLines false (replaceRuns (fun c => c = ' ' || c = '\t') ' ' text))
    else replaceRuns isSpace ' ' text

def extractLexicalText (json : Json) : Option String := lexicalText false json

end VetHealth
