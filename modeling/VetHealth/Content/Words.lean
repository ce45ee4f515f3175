import VetHealth.Content.PageText
import VetHealth.Lib.Words

/-!
# VetHealth.Content.Words

**Both modes give the same words.** The plain mode runs all white space together. The structured one
keeps line breaks and marks headings. None of its rewritings joins two words or parts one, and none
of the ways in which the chunks of a page are joined does.

So the structured text collapses to the plain one, once the marks of the headings are in the tree
that the latter is taken from.
-/

namespace VetHealth

open Js Words

/-! ### Rewriting white space -/

theorem words_trim (cs : List Char) : words isSpace (trim cs) = words isSpace cs :=
  (words_rdropWhile _).trans (words_dropWhile cs)

theorem sameWords_replaceRuns {q : Char → Bool} {c : Char} (hq : ∀ d, q d = true → isSpace d = true)
    (hc : isSpace c = true) (cs : List Char) : SameWords isSpace (replaceRuns q c cs) cs := by
  induction cs with
  | nil => exact .refl _
  | cons d ds ih =>
      rw [replaceRuns]
      cases hd : q d with
      | false => exact ih.cons d
      | true =>
          cases hnext : ds.head?.any q with
          | true =>
              refine ih.trans (.before_separator (hq d hd) fun e he => hq e ?_)
              rwa [Option.mem_def.1 he] at hnext
          | false => exact .separators hc (hq d hd) ih.words

/-- Before the first line break spaces are dropped before another separator only. -/
theorem sameWords_stripLines (after : Bool) (cs : List Char) :
    words isSpace (stripLines after cs) = words isSpace cs ∧
      (after = false → SameWords isSpace (stripLines after cs) cs) := by
  have hbreak : isSpace '\n' = true := by decide
  have hspace : isSpace ' ' = true := by decide
  fun_induction stripLines after cs with
  | case1 after => exact ⟨rfl, fun _ => .refl _⟩
  | case2 after cs ih =>
      have hsame : SameWords isSpace ('\n' :: stripLines true cs) ('\n' :: cs) :=
        .separators hbreak hbreak ih.1
      exact ⟨hsame.words, fun _ => hsame⟩
  -- A space is dropped next to a break, which parts the words without it.
  | case3 after cs hdrop ih =>
      refine ⟨ih.1.trans (words_cons hspace cs).symm, ?_⟩
      rintro rfl
      refine (ih.2 rfl).trans (.before_separator hspace fun d hd => ?_)
      cases cs with
      | nil => cases hd
      | cons e cs =>
          obtain rfl : e = d := Option.some.inj hd
          by_cases he : e = ' '
          · rw [he, hspace]
          · have hnext : e = '\n' := by simpa [he] using hdrop
            rw [hnext, hbreak]
  | case4 after cs hkeep ih =>
      have hsame := (ih.2 rfl).cons ' '
      exact ⟨hsame.words, fun _ => hsame⟩
  | case5 after c cs hc hc' ih =>
      have hsame := (ih.2 rfl).cons c
      exact ⟨hsame.words, fun _ => hsame⟩

theorem words_limitBreaks (read : Nat) (cs : List Char) :
    words isSpace (limitBreaks read cs) = words isSpace cs ∧
      (read = 0 → SameWords isSpace (limitBreaks read cs) cs) := by
  have hbreak : isSpace '\n' = true := by decide
  fun_induction limitBreaks read cs with
  | case1 read => exact ⟨rfl, fun _ => .refl _⟩
  | case2 read cs hread ih =>
      have hsame : SameWords isSpace ('\n' :: limitBreaks (read + 1) cs) ('\n' :: cs) :=
        .separators hbreak hbreak ih.1
      exact ⟨hsame.words, fun _ => hsame⟩
  | case3 read cs hread ih =>
      refine ⟨ih.1.trans (words_cons hbreak cs).symm, ?_⟩
      rintro rfl
      exact absurd (by decide) hread
  | case4 read c cs hc ih =>
      have hsame := (ih.2 rfl).cons c
      exact ⟨hsame.words, fun _ => hsame⟩

theorem words_trim_replaceRuns (cs : List Char) :
    words isSpace (trim (replaceRuns isSpace ' ' cs)) = words isSpace cs := by
  rw [words_trim, (sameWords_replaceRuns (fun _ h => h) (by decide) cs).words]

/-- A text whose white space is run together and trimmed is its words with single spaces between
them. -/
theorem trim_replaceRuns (cs : List Char) :
    trim (replaceRuns isSpace ' ' cs) = [' '].intercalate (words isSpace cs) := by
  have hspace : isSpace ' ' = true := by decide
  have hruns := (collapsed_replaceRuns hspace cs).part (trim_isInfix (replaceRuns isSpace ' ' cs))
  have htrim := trimmed_trim (replaceRuns isSpace ' ' cs)
  rw [← words_trim_replaceRuns]
  exact (intercalate_words hruns.same hruns.apart htrim.head htrim.last).symm

/-- Texts without white ends, joined by spaces. -/
theorem trimmed_intercalate {texts : List (List Char)}
    (h : ∀ text ∈ texts, Trimmed text ∧ text ≠ []) : Trimmed ([' '].intercalate texts) := by
  induction texts with
  | nil => exact ⟨fun c hc => (by cases hc), fun c hc => (by cases hc)⟩
  | cons text texts ih =>
      obtain ⟨htext, hne⟩ := h text List.mem_cons_self
      have htexts := fun text' htext' => h text' (List.mem_cons_of_mem _ htext')
      by_cases hnil : texts = []
      · rwa [hnil, List.intercalate_singleton]
      · have hrest : [' '].intercalate texts ≠ [] := fun hjoined =>
          hnil ((intercalate_eq_nil fun text' htext' => (htexts text' htext').2).1 hjoined)
        rw [List.intercalate_cons_of_ne_nil hnil]
        constructor
        · intro c hc
          rw [List.append_assoc, List.head?_append_of_ne_nil _ hne] at hc
          exact htext.head c hc
        · intro c hc
          rw [List.getLast?_append_of_ne_nil _ hrest] at hc
          exact (ih htexts).last c hc

/-- Every run of white space becomes one space, and the ends are trimmed. -/
def collapse (text : String) : String := .ofList (trim (replaceRuns isSpace ' ' text.toList))

/-- The words of a text. -/
def wordsOf (text : String) : List (List Char) := words isSpace text.toList

/-- A text of these words with single spaces between them. -/
def spaced (words : List (List Char)) : String := .ofList ([' '].intercalate words)

theorem wordsOf_spaced (cs : List Char) : wordsOf (spaced (words isSpace cs)) = words isSpace cs := by
  rw [wordsOf, spaced, String.toList_ofList, ← trim_replaceRuns, words_trim_replaceRuns]

theorem collapse_eq (text : String) : collapse text = spaced (wordsOf text) :=
  congrArg String.ofList (trim_replaceRuns text.toList)

theorem lexicalText_plain (value : Json) :
    lexicalText false value = (walk false value).map fun text => spaced (words isSpace text) := by
  unfold lexicalText
  cases walk false value with
  | none => rfl
  | some text => exact congrArg some (congrArg String.ofList (trim_replaceRuns text))

/-- The structured text has the words of the text that is walked: line breaks are put in order, and
none is lost between two words. -/
theorem wordsOf_structured (value : Json) :
    (lexicalText true value).map wordsOf = (walk true value).map (words isSpace) := by
  have hblank : ∀ c : Char, (c = ' ' || c = '\t') = true → isSpace c = true := by
    intro c hc
    rcases Bool.or_eq_true_iff.1 hc with hc | hc
    · rw [of_decide_eq_true hc]
      decide
    · rw [of_decide_eq_true hc]
      decide
  unfold lexicalText
  cases walk true value with
  | none => rfl
  | some text =>
      show some (words isSpace (String.ofList (trim _)).toList) = some (words isSpace text)
      rw [String.toList_ofList, words_trim]
      show some (words isSpace (limitBreaks 0 (stripLines false (replaceRuns _ ' ' text)))) = _
      rw [(words_limitBreaks 0 _).1, (sameWords_stripLines false _).1,
        (sameWords_replaceRuns hblank (by decide) text).words]

/-! ### Headings -/

/-- A text leaf `## `. -/
def headingMark : Json := .obj [("type", .str "text"), ("text", .str "## ")]

def isHeading (node : Json) : Bool := (node.get "type").any (Json.eqString "heading")

mutual

/-- The tree with a text leaf `## ` before the children of every heading. What structured extraction
writes for a heading is text of this tree. -/
def markHeadings : Json → Json
  | .obj fields => .obj (markFields (isHeading (.obj fields)) fields)
  | value => value

def markFields (heading : Bool) : List (String × Json) → List (String × Json)
  | [] => []
  | (name, value) :: fields =>
      let marked :=
        if name = "root" then markHeadings value
        else if name = "children" then markChildren heading value
        else value
      (name, marked) :: markFields heading fields

def markChildren (heading : Bool) : Json → Json
  | .arr items => .arr (if heading then headingMark :: markItems items else markItems items)
  | value => value

def markItems : List Json → List Json
  | [] => []
  | item :: items => markHeadings item :: markItems items

end

mutual

/-- No node of the tree is a heading. -/
def headingFree : Json → Bool
  | .obj fields => !isHeading (.obj fields) && fieldsHeadingFree fields
  | _ => true

def fieldsHeadingFree : List (String × Json) → Bool
  | [] => true
  | (name, value) :: fields =>
      let free :=
        if name = "root" then headingFree value
        else if name = "children" then childrenHeadingFree value
        else true
      free && fieldsHeadingFree fields

def childrenHeadingFree : Json → Bool
  | .arr items => itemsHeadingFree items
  | _ => true

def itemsHeadingFree : List Json → Bool
  | [] => true
  | item :: items => headingFree item && itemsHeadingFree items

end

/-- What the mark of a heading adds to the text of its children. -/
def headingText (heading : Bool) : List Char := if heading then "## ".toList else []

theorem walk_headingMark (structured : Bool) : walk structured headingMark = some "## ".toList := by
  cases structured <;> rfl

theorem truthy_markHeadings (value : Json) : (markHeadings value).truthy = value.truthy := by
  cases value <;> rfl

/-- Properties other than the children and the root stay. -/
theorem get_markFields (heading : Bool) {name : String} (hchildren : name ≠ "children")
    (hroot : name ≠ "root") (fields : List (String × Json)) :
    (Json.obj (markFields heading fields)).get name = (Json.obj fields).get name := by
  induction fields with
  | nil => rfl
  | cons field fields ih =>
      obtain ⟨key, value⟩ := field
      rw [markFields, Json.get_cons, Json.get_cons, ih]
      by_cases hkey : key = name
      · simp [hkey, hchildren, hroot]
      · simp [hkey]

/-- A node of formatting is no heading. Its type is another one, so that marks are put around it and
not into it. -/
theorem isHeading_of_inline {node : Json} (h : ((node.get "type").any (Json.eqString "link") ||
    (node.get "type").any (Json.eqString "autolink") ||
    (node.get "type").any (Json.eqString "mark")) = true) : isHeading node = false := by
  rw [isHeading]
  cases htype : node.get "type" with
  | none => rfl
  | some type =>
      simp only [htype, Option.any_some, Bool.or_eq_true, Json.eqString_eq_true] at h
      rcases h with (rfl | rfl) | rfl <;> decide

/-- The mark of a heading may stand before the node or in it. -/
theorem nodeText_mark {node node' : Json} (htype : node'.get "type" = node.get "type")
    (htext : node'.get "text" = node.get "text") (children : Option (Option (List Char))) :
    nodeText false node' (children.map fun text =>
        text.map fun text => headingText (isHeading node) ++ text) =
      nodeText true node children := by
  unfold nodeText
  simp only [htype, htext]
  split
  · rfl
  split
  · rfl
  refine congrArg (Option.bind (isTextLeaf (node.get "type"))) (funext fun leaf => ?_)
  split
  · rfl
  cases children with
  | none => rfl
  | some text =>
      cases text with
      | none => rfl
      | some text =>
          simp only [Option.map_some, Option.bind_eq_bind, Option.bind_some]
          split
          · rename_i hinline
            rw [isHeading_of_inline hinline]
            rfl
          · rw [Bool.false_and, Bool.true_and, if_neg Bool.false_ne_true, List.nil_append]
            rfl

theorem walkChildren_cons (structured : Bool) (name : String) (value : Json)
    (fields : List (String × Json)) : walkChildren structured ((name, value) :: fields) =
      if name = "children" then value.asArray?.map (walkItems structured)
      else walkChildren structured fields := by
  cases value <;> rfl

mutual

theorem walk_markHeadings : ∀ value, walk false (markHeadings value) = walk true value
  | .obj fields => by
      have hchildren := walkChildren_markFields (isHeading (.obj fields)) fields
      have hroot := walkRoot_markFields (isHeading (.obj fields)) fields
      rw [markHeadings, walk, walk, hroot, hchildren]
      cases walkRoot true fields with
      | some text => rfl
      | none =>
          exact nodeText_mark (get_markFields _ (by decide) (by decide) fields)
            (get_markFields _ (by decide) (by decide) fields) _
  | .null => rfl
  | .bool _ => rfl
  | .num _ => rfl
  | .str _ => rfl
  | .arr _ => rfl

theorem walkRoot_markFields (heading : Bool) :
    ∀ fields, walkRoot false (markFields heading fields) = walkRoot true fields
  | [] => rfl
  | (name, value) :: fields => by
      have hvalue := walk_markHeadings value
      have hfields := walkRoot_markFields heading fields
      rw [markFields, walkRoot, walkRoot, hfields]
      by_cases hname : name = "root"
      · simp only [hname, if_true, truthy_markHeadings, hvalue]
      · simp only [hname, if_false]

theorem walkChildren_markFields (heading : Bool) :
    ∀ fields, walkChildren false (markFields heading fields) =
      (walkChildren true fields).map fun text => text.map fun text => headingText heading ++ text
  | [] => rfl
  | (name, value) :: fields => by
      have hvalue := walkItems_markChildren heading value
      have hfields := walkChildren_markFields heading fields
      rw [markFields, walkChildren_cons, walkChildren_cons, hfields]
      by_cases hname : name = "children"
      · have hroot : name ≠ "root" := by
          rw [hname]
          decide
        simp only [if_pos hname, if_neg hroot, hvalue]
      · simp only [if_neg hname]

theorem walkItems_markChildren (heading : Bool) :
    ∀ value, (markChildren heading value).asArray?.map (walkItems false) =
      (value.asArray?.map (walkItems true)).map fun text =>
        text.map fun text => headingText heading ++ text
  | .arr items => by
      have hitems := walkItems_markItems items
      cases heading with
      | true =>
          show some (walkItems false (headingMark :: markItems items)) = _
          rw [walkItems, walk_headingMark, hitems]
          show some ((walkItems true items).bind _) = some ((walkItems true items).map _)
          cases walkItems true items <;> rfl
      | false =>
          show some (walkItems false (markItems items)) = some ((walkItems true items).map _)
          rw [hitems]
          cases walkItems true items <;> rfl
  | .obj _ => rfl
  | .null => rfl
  | .bool _ => rfl
  | .num _ => rfl
  | .str _ => rfl

theorem walkItems_markItems : ∀ items, walkItems false (markItems items) = walkItems true items
  | [] => rfl
  | item :: items => by
      rw [markItems, walkItems, walkItems, walk_markHeadings item, walkItems_markItems items]

end

mutual

/-- Without headings there is nothing to mark. -/
theorem markHeadings_eq_self : ∀ value, headingFree value = true → markHeadings value = value
  | .obj fields, h => by
      rw [headingFree, Bool.and_eq_true, Bool.not_eq_true'] at h
      rw [markHeadings, h.1, markFields_eq_self fields h.2]
  | .null, _ => rfl
  | .bool _, _ => rfl
  | .num _, _ => rfl
  | .str _, _ => rfl
  | .arr _, _ => rfl

theorem markFields_eq_self :
    ∀ fields, fieldsHeadingFree fields = true → markFields false fields = fields
  | [], _ => rfl
  | (name, value) :: fields, h => by
      rw [fieldsHeadingFree, Bool.and_eq_true] at h
      rw [markFields, markFields_eq_self fields h.2]
      have hvalue := h.1
      by_cases hroot : name = "root"
      · rw [if_pos hroot] at hvalue
        rw [if_pos hroot, markHeadings_eq_self value hvalue]
      · rw [if_neg hroot] at hvalue
        rw [if_neg hroot]
        by_cases hchildren : name = "children"
        · rw [if_pos hchildren] at hvalue
          rw [if_pos hchildren, markChildren_eq_self value hvalue]
        · rw [if_neg hchildren]

theorem markChildren_eq_self :
    ∀ value, childrenHeadingFree value = true → markChildren false value = value
  | .arr items, h => by
      rw [markChildren, if_neg Bool.false_ne_true, markItems_eq_self items h]
  | .obj _, _ => rfl
  | .null, _ => rfl
  | .bool _, _ => rfl
  | .num _, _ => rfl
  | .str _, _ => rfl

theorem markItems_eq_self : ∀ items, itemsHeadingFree items = true → markItems items = items
  | [], _ => rfl
  | item :: items, h => by
      rw [itemsHeadingFree, Bool.and_eq_true] at h
      rw [markItems, markHeadings_eq_self item h.1, markItems_eq_self items h.2]

end

/-- The structured text of a tree collapses to the plain text of the tree with marks. The induction
is on the tree, and the words are compared whatever comes before them. -/
theorem collapse_structured (value : Json) :
    (lexicalText true value).map collapse = lexicalText false (markHeadings value) := by
  have hcollapse : collapse = spaced ∘ wordsOf := funext collapse_eq
  rw [lexicalText_plain, walk_markHeadings, hcollapse, ← Option.map_map, wordsOf_structured,
    Option.map_map]
  rfl

/-! ### Pages -/

theorem wordsOf_plain (value : Json) :
    (lexicalText false value).map wordsOf = (walk false value).map (words isSpace) := by
  rw [lexicalText_plain, Option.map_map]
  exact congrArg (fun f => (walk false value).map f) (funext wordsOf_spaced)

/-- The words of a state without headings are the same in both modes. -/
theorem wordsOf_lexicalText {value : Json} (h : headingFree value = true) :
    (lexicalText true value).map wordsOf = (lexicalText false value).map wordsOf := by
  rw [wordsOf_structured, wordsOf_plain, ← walk_markHeadings, markHeadings_eq_self value h]

/-- The order in which an object is enumerated depends on the names. -/
theorem entriesOrder_map {α β : Type} (f : α → β) (fields : List (String × α)) :
    entriesOrder (fields.map fun field => (field.1, f field.2)) =
      (entriesOrder fields).map fun field => (field.1, f field.2) := by
  have hsort : ∀ fields : List (String × α),
      ((fields.map fun field => (field.1, f field.2)).mergeSort fun a b =>
        (arrayIndex? a.1).getD 0 ≤ (arrayIndex? b.1).getD 0) =
      (fields.mergeSort fun a b => (arrayIndex? a.1).getD 0 ≤ (arrayIndex? b.1).getD 0).map
        fun field => (field.1, f field.2) := by
    intro fields
    symm
    apply List.map_mergeSort
    intro a _ b _
    rfl
  simp only [entriesOrder, List.partition_eq_filter_filter, List.filter_map, List.map_append, hsort]
  rfl

mutual

/-- The editors' states in a value: what the strings under `content` are parsed to. -/
def contentStates (key : Option String) : Json → List Json
  | .str s => if key = some "content" then (parseJson s).toList else []
  | .arr items => itemsStates items
  | .obj fields => fieldsStates fields
  | _ => []

def itemsStates : List Json → List Json
  | [] => []
  | item :: items => contentStates none item ++ itemsStates items

def fieldsStates : List (String × Json) → List Json
  | [] => []
  | (name, value) :: fields => contentStates (some name) value ++ fieldsStates fields

end

/-- The editors' states of a page: the page itself, or those in the data of its blocks. Only these
are walked as trees. -/
def lexicalStates (content : String) : List Json :=
  match parseJson content with
  | none => []
  | some parsed =>
      match (parsed.get "blocks").bind Json.asArray? with
      | none => [parsed]
      | some blocks => blocks.flatMap fun block => (block.get "data").elim [] (contentStates none)

/-- Two parts that agree under `f` and `g` give wholes that agree under `h`. -/
theorem map_bind_congr {α β γ α' β' γ' : Type} {op : α → β → γ} {f : α → α'} {g : β → β'}
    {h : γ → γ'} (hop : ∀ {a a' b b'}, f a = f a' → g b = g b' → h (op a b) = h (op a' b'))
    {x x' : Option α} {y y' : Option β} (hx : x.map f = x'.map f) (hy : y.map g = y'.map g) :
    (x.bind fun a => y.bind fun b => some (op a b)).map h =
      (x'.bind fun a => y'.bind fun b => some (op a b)).map h := by
  cases x with
  | none =>
      obtain rfl : x' = none := by simpa using hx.symm
      rfl
  | some a =>
      obtain ⟨a', rfl, ha⟩ := Option.map_eq_some_iff.1 hx.symm
      cases y with
      | none =>
          obtain rfl : y' = none := by simpa using hy.symm
          rfl
      | some b =>
          obtain ⟨b', rfl, hb⟩ := Option.map_eq_some_iff.1 hy.symm
          exact congrArg some (hop ha.symm hb.symm)

theorem collectString_words (key : Option String) (s : String)
    (h : ∀ state ∈ contentStates key (.str s), headingFree state = true) :
    (collectString true key s).map (List.map wordsOf) =
      (collectString false key s).map (List.map wordsOf) := by
  unfold collectString
  split
  · rfl
  split
  · rename_i hkey
    have hchunk : (lexicalContentText true s).map wordsOf = (lexicalContentText false s).map wordsOf := by
      unfold lexicalContentText
      cases hparse : parseJson s with
      | none => rfl
      | some parsed =>
          refine wordsOf_lexicalText (h parsed ?_)
          simp [contentStates, hkey, hparse]
    have hsingle : ∀ chunk : Option String, (chunk.map fun text => [text]).map (List.map wordsOf) =
        (chunk.map wordsOf).map fun words => [words] := by
      intro chunk
      cases chunk <;> rfl
    rw [hsingle, hsingle, hchunk]
  · rfl

mutual

/-- The chunks of a value have the same words in both modes. The induction goes along `collect`,
whose order of properties does not depend on the mode. -/
theorem collect_words (key : Option String) :
    ∀ value, (∀ state ∈ contentStates key value, headingFree state = true) →
      (collect true key value).map (List.map wordsOf) =
        (collect false key value).map (List.map wordsOf)
  | .str s, h => collectString_words key s h
  | .arr items, h => collectItems_words items h
  | .obj fields, h => by
      have hfields := collectFields_words fields h
      have hchunks : ∀ chunks : Option (List (String × List String)),
          (chunks.map fun chunks => (entriesOrder chunks).flatMap Prod.snd).map (List.map wordsOf) =
            (chunks.map (List.map fun field => (field.1, field.2.map wordsOf))).map fun chunks =>
              (entriesOrder chunks).flatMap Prod.snd := by
        intro chunks
        cases chunks with
        | none => rfl
        | some chunks =>
            simp only [Option.map_some, entriesOrder_map, List.map_flatMap, List.flatMap_map]
      rw [collect, collect, hchunks, hchunks, hfields]
  | .null, _ => rfl
  | .bool _, _ => rfl
  | .num _, _ => rfl

theorem collectItems_words : ∀ items, (∀ state ∈ itemsStates items, headingFree state = true) →
    (collectItems true items).map (List.map wordsOf) =
      (collectItems false items).map (List.map wordsOf)
  | [], _ => rfl
  | item :: items, h => by
      rw [itemsStates] at h
      have hitem := collect_words none item fun state hstate =>
        h state (List.mem_append_left _ hstate)
      have hitems := collectItems_words items fun state hstate =>
        h state (List.mem_append_right _ hstate)
      rw [collectItems, collectItems]
      refine map_bind_congr (fun hchunks hrest => ?_) hitem hitems
      rw [List.map_append, List.map_append, hchunks, hrest]

theorem collectFields_words : ∀ fields, (∀ state ∈ fieldsStates fields, headingFree state = true) →
    (collectFields true fields).map (List.map fun field => (field.1, field.2.map wordsOf)) =
      (collectFields false fields).map (List.map fun field => (field.1, field.2.map wordsOf))
  | [], _ => rfl
  | (name, value) :: fields, h => by
      rw [fieldsStates] at h
      have hvalue := collect_words (some name) value fun state hstate =>
        h state (List.mem_append_left _ hstate)
      have hfields := collectFields_words fields fun state hstate =>
        h state (List.mem_append_right _ hstate)
      rw [collectFields, collectFields]
      refine map_bind_congr (fun hchunks hrest => ?_) hvalue hfields
      rw [List.map_cons, List.map_cons, hchunks, hrest]

end

theorem collectBlock_words (block : Json)
    (h : ∀ state ∈ (block.get "data").elim [] (contentStates none), headingFree state = true) :
    (collectBlock true block).map (List.map wordsOf) =
      (collectBlock false block).map (List.map wordsOf) := by
  unfold collectBlock
  cases hdata : block.get "data" with
  | none => rfl
  | some data =>
      rw [hdata] at h
      exact collect_words none data h

theorem collectBlocks_words (blocks : List Json)
    (h : ∀ state ∈ blocks.flatMap fun block => (block.get "data").elim [] (contentStates none),
      headingFree state = true) :
    (blocks.mapM (collectBlock true)).map (fun chunks => chunks.flatten.map wordsOf) =
      (blocks.mapM (collectBlock false)).map fun chunks => chunks.flatten.map wordsOf := by
  induction blocks with
  | nil => rfl
  | cons block blocks ih =>
      rw [List.flatMap_cons] at h
      have hblock := collectBlock_words block fun state hstate =>
        h state (List.mem_append_left _ hstate)
      have hblocks := ih fun state hstate => h state (List.mem_append_right _ hstate)
      rw [List.mapM_cons, List.mapM_cons]
      refine map_bind_congr (fun hchunks hrest => ?_) hblock hblocks
      rw [List.flatten_cons, List.map_append, List.flatten_cons, List.map_append, hchunks, hrest]

/-- Empty chunks have no words. -/
theorem flatMap_wordsOf_filter (chunks : List String) :
    (chunks.filter fun chunk => chunk ≠ "").flatMap wordsOf = chunks.flatMap wordsOf := by
  induction chunks with
  | nil => rfl
  | cons chunk chunks ih =>
      by_cases hempty : chunk = ""
      · rw [List.filter_cons_of_neg (by simpa using hempty), ih, hempty, List.flatMap_cons]
        rfl
      · rw [List.filter_cons_of_pos (by simpa using hempty), List.flatMap_cons, ih,
          List.flatMap_cons]

theorem wordsOf_intercalate {separator : String} (hne : separator.toList ≠ [])
    (h : ∀ c ∈ separator.toList, isSpace c = true) (chunks : List String) :
    wordsOf (separator.intercalate (chunks.filter fun chunk => chunk ≠ "")) =
      chunks.flatMap wordsOf := by
  rw [wordsOf, String.toList_intercalate, words_intercalate hne h, List.flatMap_map,
    ← flatMap_wordsOf_filter]
  rfl

/-- The plain text of chunks is made of their words, whichever chunks they stand in. -/
theorem normalize_eq (chunks : List String) :
    normalize chunks = spaced (chunks.flatMap wordsOf) := by
  have htrimmed : ∀ text ∈ (chunks.map fun chunk => String.ofList (trim chunk.toList)).filter
      (fun chunk => chunk ≠ ""), Trimmed text.toList ∧ text.toList ≠ [] := by
    intro text htext
    obtain ⟨hmem, hne⟩ := List.mem_filter.1 htext
    obtain ⟨chunk, -, rfl⟩ := List.mem_map.1 hmem
    rw [String.toList_ofList]
    refine ⟨trimmed_trim chunk.toList, fun hnil => ?_⟩
    rw [hnil] at hne
    cases hne
  have hjoined : Trimmed (" ".intercalate ((chunks.map fun chunk =>
      String.ofList (trim chunk.toList)).filter fun chunk => chunk ≠ "")).toList := by
    rw [String.toList_intercalate]
    refine trimmed_intercalate fun text htext => ?_
    obtain ⟨chunk, hchunk, rfl⟩ := List.mem_map.1 htext
    exact htrimmed chunk hchunk
  have hwords : (chunks.map fun chunk => String.ofList (trim chunk.toList)).flatMap wordsOf =
      chunks.flatMap wordsOf := by
    rw [List.flatMap_map]
    refine congrArg (fun f => chunks.flatMap f) (funext fun chunk => ?_)
    rw [wordsOf, String.toList_ofList, words_trim]
    rfl
  rw [normalize, spaced, ← trim_eq_self hjoined.replaceRuns, trim_replaceRuns]
  refine congrArg (fun words => String.ofList ([' '].intercalate words)) ?_
  rw [← hwords]
  exact wordsOf_intercalate (by decide) (by decide) _

/-- The structured text of a page without headings collapses to its plain text. -/
theorem collapse_pageBlocksText (content : String)
    (h : ∀ state ∈ lexicalStates content, headingFree state = true) :
    (pageBlocksText true content).map collapse = pageBlocksText false content := by
  unfold lexicalStates at h
  unfold pageBlocksText
  cases hparse : parseJson content with
  | none => rfl
  | some parsed =>
      rw [hparse] at h
      dsimp only at h ⊢
      cases hblocks : (parsed.get "blocks").bind Json.asArray? with
      | none =>
          rw [hblocks] at h
          dsimp only
          rw [collapse_structured, markHeadings_eq_self parsed (h parsed (List.mem_singleton_self _))]
      | some blocks =>
          rw [hblocks] at h
          have hwords := congrArg (Option.map fun words : List (List (List Char)) =>
            spaced words.flatten) (collectBlocks_words blocks h)
          have hstructured : ∀ chunks : List (List String),
              collapse ("\n\n".intercalate (chunks.flatten.filter fun chunk => chunk ≠ "")) =
                spaced (chunks.flatten.map wordsOf).flatten := by
            intro chunks
            rw [collapse_eq, wordsOf_intercalate (by decide) (by decide), List.flatMap_def]
          have hplain : ∀ chunks : List (List String),
              normalize chunks.flatten = spaced (chunks.flatten.map wordsOf).flatten := by
            intro chunks
            rw [normalize_eq, List.flatMap_def]
          show ((blocks.mapM (collectBlock true)).bind fun chunks =>
              some ("\n\n".intercalate (chunks.flatten.filter fun chunk => chunk ≠ ""))).map collapse =
            (blocks.mapM (collectBlock false)).bind fun chunks => some (normalize chunks.flatten)
          -- The two readings fail together, as the words of the one are those of the other.
          cases htrue : blocks.mapM (collectBlock true) with
          | none =>
              cases hfalse : blocks.mapM (collectBlock false) with
              | none => rfl
              | some chunks => simp [htrue, hfalse] at hwords
          | some chunks =>
              cases hfalse : blocks.mapM (collectBlock false) with
              | none => simp [htrue, hfalse] at hwords
              | some chunks' =>
                  simp only [htrue, hfalse, Option.map_some, Option.some.injEq] at hwords
                  simp only [Option.bind_some, Option.map_some, hstructured, hplain, hwords]

/-- **Structured and plain extraction carry the same words**: the structured text, collapsed, is the
plain one, for the tree with marked headings and for pages without headings. -/
theorem modes_carry_same_words :
    (∀ value, (lexicalText true value).map collapse = lexicalText false (markHeadings value)) ∧
      ∀ content, (∀ state ∈ lexicalStates content, headingFree state = true) →
        (pageBlocksText true content).map collapse = pageBlocksText false content :=
  ⟨collapse_structured, collapse_pageBlocksText⟩

/-- A page with a caption and a paragraph. -/
def parvoPage : String :=
  "\x7b\"blocks\":[\x7b\"data\":\x7b\"caption\":\" In  dogs\",\"content\":" ++
    "\"\x7b\\\"children\\\":[\x7b\\\"text\\\":\\\"Rest\\\"\x7d]\x7d\"\x7d\x7d]\x7d"

def parvoHeading : Json :=
  .obj [("type", .str "heading"),
    ("children", .arr [.obj [("type", .str "text"), ("text", .str "Parvo")]])]

theorem parvo_words :
    (lexicalText true parvoHeading).map collapse = some "## Parvo" ∧
      (lexicalStates parvoPage).length = 1 ∧
      (pageBlocksText true parvoPage).map collapse = pageBlocksText false parvoPage := by
  refine ⟨?_, by decide +kernel, modes_carry_same_words.2 parvoPage (by decide +kernel)⟩
  rw [modes_carry_same_words.1]
  decide +kernel

end VetHealth
