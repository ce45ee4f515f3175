import VetHealth.Content.Words

/-!
# VetHealth.Content.Formatting

**Only blocks separate visible text.** An editor may keep one word in several leaves, of which some are
formatted or stand in a link. How the text of a block is divided into leaves, and which of its parts
stand in links and marks, does not show in the extracted text (`Reformatted`).

Blocks do separate: the words of one are never run into those of the next, and the plain text of a
node whose children are blocks is what its blocks have, joined by spaces.
-/

namespace VetHealth

open Js Words

/-! ### Nodes -/

/-- A leaf that stands for its text. -/
structure TextLeaf (type : Option Json) (text : String) (node : Json) : Prop where
  isObject : node.isObject = true
  noRoot : truthy (node.get "root") = false
  type_eq : node.get "type" = type
  isLeaf : isTextLeaf type = some true
  text_eq : node.get "text" = some (.str text)

/-- A node that stands for its children. -/
structure Container (items : List Json) (node : Json) : Prop where
  isObject : node.isObject = true
  noRoot : truthy (node.get "root") = false
  noBreak : (node.get "type").any (Json.eqString "linebreak") = false
  noTab : (node.get "type").any (Json.eqString "tab") = false
  noText : ∃ leaf, isTextLeaf (node.get "type") = some leaf ∧
    (leaf = true → ∀ text, node.get "text" ≠ some (.str text))
  children : node.get "children" = some (.arr items)

/-- A node that puts nothing around its children. -/
def isInline (node : Json) : Bool :=
  (node.get "type").any (Json.eqString "link") || (node.get "type").any (Json.eqString "autolink") ||
    (node.get "type").any (Json.eqString "mark")

/-- A node that ends with a line break, and so ends the word before it. Only nodes of this kind
separate words. -/
def IsBlock (node : Json) : Prop := isInline node = false ∧ ∃ items, Container items node

/-- A link, an autolink or a mark around some nodes. -/
structure Wraps (run : List Json) (node : Json) : Prop where
  isObject : node.isObject = true
  noRoot : truthy (node.get "root") = false
  type : node.get "type" = some (.str "link") ∨ node.get "type" = some (.str "autolink") ∨
    node.get "type" = some (.str "mark")
  children : node.get "children" = some (.arr run)

/-! ### Other formatting of the same text -/

/-- A leaf is split in two, or some neighbours are wrapped. Every change of the formatting is made
of such steps. -/
inductive Regrouped : List Json → List Json → Prop
  | split {type : Option Json} {text text' : String} {leaf first second : Json}
      (before after : List Json) (hleaf : TextLeaf type (text ++ text') leaf)
      (hfirst : TextLeaf type text first) (hsecond : TextLeaf type text' second) :
      Regrouped (before ++ leaf :: after) (before ++ first :: second :: after)
  | wrap {run : List Json} {node : Json} (before after : List Json) (h : Wraps run node) :
      Regrouped (before ++ run ++ after) (before ++ node :: after)

/-- The children of some node of a tree are regrouped, at any depth. The text of the tree is the
same, as the induction on the depth shows. -/
inductive Reformatted : Json → Json → Prop
  | here {items items' : List Json} (front back : List (String × Json))
      (h : Regrouped items items') :
      Reformatted (.obj (front ++ ("children", .arr items) :: back))
        (.obj (front ++ ("children", .arr items') :: back))
  | child {node node' : Json} (front back : List (String × Json)) (before after : List Json)
      (h : Reformatted node node') :
      Reformatted (.obj (front ++ ("children", .arr (before ++ node :: after)) :: back))
        (.obj (front ++ ("children", .arr (before ++ node' :: after)) :: back))
  | root {node node' : Json} (front back : List (String × Json)) (h : Reformatted node node') :
      Reformatted (.obj (front ++ ("root", node) :: back))
        (.obj (front ++ ("root", node') :: back))

/-! ### The walk, node by node -/

theorem walkRoot_eq (structured : Bool) (fields : List (String × Json)) :
    walkRoot structured fields =
      (((Json.obj fields).get "root").filter Json.truthy).map (walk structured) := by
  induction fields with
  | nil => rfl
  | cons field fields ih =>
      obtain ⟨name, value⟩ := field
      rw [walkRoot, Json.get_cons, ih]
      by_cases hname : name = "root"
      · rw [if_pos hname, if_pos hname]
        cases hvalue : value.truthy <;> simp [hvalue]
      · rw [if_neg hname, if_neg hname]

theorem walkChildren_eq (structured : Bool) (fields : List (String × Json)) :
    walkChildren structured fields =
      (((Json.obj fields).get "children").bind Json.asArray?).map (walkItems structured) := by
  induction fields with
  | nil => rfl
  | cons field fields ih =>
      obtain ⟨name, value⟩ := field
      rw [walkChildren_cons, Json.get_cons, ih]
      by_cases hname : name = "children"
      · rw [if_pos hname, if_pos hname]
        rfl
      · rw [if_neg hname, if_neg hname]

/-- What a node without a root contributes. -/
theorem walk_of_no_root {node : Json} (hobject : node.isObject = true)
    (hroot : truthy (node.get "root") = false) (structured : Bool) :
    walk structured node = nodeText structured node
      (((node.get "children").bind Json.asArray?).map (walkItems structured)) := by
  cases node with
  | obj fields =>
      have hnone : ((Json.obj fields).get "root").filter Json.truthy = none := by
        cases hget : (Json.obj fields).get "root" with
        | none => rfl
        | some value =>
            rw [hget] at hroot
            have hvalue : value.truthy = false := hroot
            simp [hvalue]
      rw [walk, walkRoot_eq, hnone, walkChildren_eq]
      rfl
  | _ => cases hobject

theorem walkItems_append (structured : Bool) (items items' : List Json) :
    walkItems structured (items ++ items') =
      (walkItems structured items).bind fun text =>
        (walkItems structured items').map fun rest => text ++ rest := by
  induction items with
  | nil => simp [walkItems]
  | cons item items ih =>
      rw [List.cons_append, walkItems, walkItems, ih]
      cases walk structured item <;> cases walkItems structured items <;>
        cases walkItems structured items' <;> simp

/-- A node of a type that carries no text is none of the leaves. -/
theorem any_of_isTextLeaf {type : Option Json} {name : String} {leaf : Bool}
    (hname : isTextLeaf (some (.str name)) = some (!leaf)) (h : isTextLeaf type = some leaf) :
    type.any (Json.eqString name) = false := by
  rw [Option.any_eq_false]
  rintro value rfl
  refine Bool.eq_false_iff.2 fun hvalue => ?_
  rw [Json.eqString_eq_true.1 hvalue, hname] at h
  cases leaf <;> cases h

theorem TextLeaf.walk {type : Option Json} {text : String} {node : Json}
    (h : TextLeaf type text node) (structured : Bool) :
    walk structured node = some text.toList := by
  have hbreak := @any_of_isTextLeaf _ "linebreak" _ rfl h.isLeaf
  have htab := @any_of_isTextLeaf _ "tab" _ rfl h.isLeaf
  rw [walk_of_no_root h.isObject h.noRoot]
  unfold nodeText
  simp only [h.type_eq, h.text_eq, h.isLeaf, hbreak, htab, Bool.false_eq_true, if_false]
  rfl

/-- A container puts a line break behind its children, or nothing. That it is one of the two depends
on its type alone. -/
theorem Container.walk {items : List Json} {node : Json} (h : Container items node)
    (structured : Bool) :
    walk structured node = (walkItems structured items).map fun text =>
      if isInline node = true then text
      else headingText (structured && isHeading node) ++ text ++ ['\n'] := by
  obtain ⟨leaf, hleaf, htext⟩ := h.noText
  have hchildren : (node.get "children").bind Json.asArray? = some items := by
    rw [h.children]
    rfl
  rw [walk_of_no_root h.isObject h.noRoot, hchildren]
  unfold nodeText
  simp only [hleaf, h.noBreak, h.noTab, Bool.false_eq_true, if_false, Option.bind_eq_bind,
    Option.bind_some, Option.map_some]
  split
  · rename_i htype
    exact absurd htype (htext rfl _)
  · cases walkItems structured items with
    | none => rfl
    | some text =>
        show (if isInline node = true then some text
          else some (headingText (structured && isHeading node) ++ text ++ ['\n'])) = _
        exact (apply_ite some _ _ _).symm

/-- A link stands for what it is wrapped around. -/
theorem Wraps.walk {run : List Json} {node : Json} (h : Wraps run node) (structured : Bool) :
    walk structured node = walkItems structured run := by
  have hinline : isInline node = true := by
    rcases h.type with htype | htype | htype <;> simp [isInline, htype, Json.eqString]
  have hcontainer : Container run node := by
    refine ⟨h.isObject, h.noRoot, ?_, ?_, ?_, h.children⟩
    · rcases h.type with htype | htype | htype <;> simp [htype, Json.eqString]
    · rcases h.type with htype | htype | htype <;> simp [htype, Json.eqString]
    · refine ⟨false, ?_, fun hfalse => by cases hfalse⟩
      rcases h.type with htype | htype | htype <;> rw [htype] <;> rfl
  rw [hcontainer.walk]
  simp [hinline]

/-! ### Reformatting -/

theorem Regrouped.walkItems {items items' : List Json} (h : Regrouped items items')
    (structured : Bool) : walkItems structured items' = walkItems structured items := by
  cases h with
  | split before after hleaf hfirst hsecond =>
      rw [walkItems_append, walkItems_append, VetHealth.walkItems, VetHealth.walkItems,
        VetHealth.walkItems, hleaf.walk, hfirst.walk, hsecond.walk]
      cases VetHealth.walkItems structured before <;>
        cases VetHealth.walkItems structured after <;> simp
  | wrap before after hwraps =>
      rw [walkItems_append, walkItems_append, walkItems_append, VetHealth.walkItems, hwraps.walk]
      cases VetHealth.walkItems structured before <;> cases VetHealth.walkItems structured _ <;>
        cases VetHealth.walkItems structured after <;> simp

/-- What a node contributes depends on its type, its text and its children. So other properties,
such as the format of a text, can be changed freely. -/
theorem nodeText_congr {structured : Bool} {node node' : Json}
    (htype : node'.get "type" = node.get "type") (htext : node'.get "text" = node.get "text")
    (children : Option (Option (List Char))) :
    nodeText structured node' children = nodeText structured node children := by
  unfold nodeText
  simp only [htype, htext]

/-- A node whose children have the same text has the same text. -/
theorem walk_children_congr {structured : Bool} {items items' : List Json}
    (h : walkItems structured items' = walkItems structured items) (front back : List (String × Json)) :
    walk structured (.obj (front ++ ("children", .arr items') :: back)) =
      walk structured (.obj (front ++ ("children", .arr items) :: back)) := by
  have hsame : ∀ name, "children" ≠ name →
      (Json.obj (front ++ ("children", .arr items') :: back)).get name =
        (Json.obj (front ++ ("children", .arr items) :: back)).get name :=
    fun name hname => Json.get_of_ne hname _ _ front back
  have hchildren : walkChildren structured (front ++ ("children", .arr items') :: back) =
      walkChildren structured (front ++ ("children", .arr items) :: back) := by
    rw [walkChildren_eq, walkChildren_eq, Json.get_append, Json.get_append, if_pos rfl, if_pos rfl]
    cases (Json.obj front).get "children" with
    | none => exact congrArg some h
    | some value => rfl
  rw [walk, walk, walkRoot_eq, walkRoot_eq, hchildren, hsame "root" (by decide),
    nodeText_congr (hsame "type" (by decide)) (hsame "text" (by decide))]

/-- A node whose root has the same text has the same text. -/
theorem walk_root_congr {structured : Bool} {node node' : Json}
    (h : walk structured node' = walk structured node) (htruthy : node.truthy = true)
    (htruthy' : node'.truthy = true) (front back : List (String × Json)) :
    walk structured (.obj (front ++ ("root", node') :: back)) =
      walk structured (.obj (front ++ ("root", node) :: back)) := by
  have hsame : ∀ name, "root" ≠ name →
      (Json.obj (front ++ ("root", node') :: back)).get name =
        (Json.obj (front ++ ("root", node) :: back)).get name :=
    fun name hname => Json.get_of_ne hname _ _ front back
  have hroot : walkRoot structured (front ++ ("root", node') :: back) =
      walkRoot structured (front ++ ("root", node) :: back) := by
    rw [walkRoot_eq, walkRoot_eq, Json.get_append, Json.get_append, if_pos rfl, if_pos rfl]
    cases (Json.obj front).get "root" with
    | none =>
        rw [Option.none_or, Option.none_or, Option.filter_some_pos htruthy,
          Option.filter_some_pos htruthy']
        exact congrArg some h
    | some value => rfl
  rw [walk, walk, hroot, walkChildren_eq, walkChildren_eq, hsame "children" (by decide),
    nodeText_congr (hsame "type" (by decide)) (hsame "text" (by decide))]

theorem Reformatted.truthy {tree tree' : Json} (h : Reformatted tree tree') :
    tree.truthy = true ∧ tree'.truthy = true := by
  cases h <;> exact ⟨rfl, rfl⟩

/-- How a text is formatted does not show in what is extracted, in either mode. -/
theorem Reformatted.walk {tree tree' : Json} (h : Reformatted tree tree') (structured : Bool) :
    walk structured tree' = walk structured tree := by
  induction h with
  | here front back h => exact walk_children_congr (h.walkItems structured) front back
  | child front back before after h ih =>
      refine walk_children_congr ?_ front back
      rw [walkItems_append, walkItems_append, walkItems, walkItems, ih]
  | root front back h ih => exact walk_root_congr ih h.truthy.1 h.truthy.2 front back

/-! ### Blocks -/

/-- Plain text is its words. -/
theorem spaced_wordsOf {value : Json} {text : String} (h : lexicalText false value = some text) :
    spaced (wordsOf text) = text := by
  rw [lexicalText_plain] at h
  obtain ⟨walked, -, rfl⟩ := Option.map_eq_some_iff.1 h
  rw [wordsOf_spaced]

/-- A line break at the end adds no word. -/
theorem words_break (text : List Char) :
    Words.words isSpace (text ++ ['\n']) = Words.words isSpace text :=
  words_append_separators text (by decide)

/-- A container has the words of its children. -/
theorem Container.words {items : List Json} {node : Json} (h : Container items node) :
    (VetHealth.walk false node).map (Words.words isSpace) =
      (walkItems false items).map (Words.words isSpace) := by
  rw [h.walk, Option.map_map]
  refine congrArg (fun f => (walkItems false items).map f) (funext fun text => ?_)
  show Words.words isSpace (if isInline node = true then text else [] ++ text ++ ['\n']) = _
  split
  · rfl
  · exact words_break text

/-- A block ends its last word: what comes after it begins another one. -/
theorem IsBlock.walk {node : Json} (h : IsBlock node) :
    ∃ inner : Option (List Char), VetHealth.walk false node = inner.map fun text => text ++ ['\n'] := by
  obtain ⟨hinline, items, hcontainer⟩ := h
  refine ⟨walkItems false items, ?_⟩
  rw [hcontainer.walk, hinline]
  rfl

/-- The words of blocks are those of each. -/
theorem walkItems_words {items : List Json} (h : ∀ item ∈ items, IsBlock item) :
    (walkItems false items).map (words isSpace) =
      (items.mapM (lexicalText false)).map (List.flatMap wordsOf) := by
  induction items with
  | nil => rfl
  | cons item items ih =>
      have hitems := ih fun other hother => h other (List.mem_cons_of_mem _ hother)
      obtain ⟨inner, hwalk⟩ := (h item List.mem_cons_self).walk
      rw [walkItems, List.mapM_cons, lexicalText_plain, hwalk]
      cases inner with
      | none => rfl
      | some text =>
          have hbreak : isSpace '\n' = true := by decide
          -- A break after a text parts its words from those that follow, in both readings.
          have hrest : ∀ rest, words isSpace (text ++ ['\n'] ++ rest) =
              words isSpace text ++ words isSpace rest := by
            intro rest
            rw [List.append_assoc, List.singleton_append, words_append_cons hbreak]
          have hleft : ∀ rest : Option (List Char),
              (rest.bind fun rest => some (text ++ ['\n'] ++ rest)).map (words isSpace) =
                (rest.map (words isSpace)).map fun rest => words isSpace text ++ rest := by
            intro rest
            cases rest with
            | none => rfl
            | some rest => exact congrArg some (hrest rest)
          have hright : ∀ rest : Option (List String),
              (rest.bind fun rest => some (spaced (words isSpace (text ++ ['\n'])) :: rest)).map
                  (List.flatMap wordsOf) =
                (rest.map (List.flatMap wordsOf)).map fun rest => words isSpace text ++ rest := by
            intro rest
            cases rest with
            | none => rfl
            | some rest =>
                rw [words_break]
                simp [wordsOf_spaced]
          -- The first item, and then the others by induction.
          calc _ = _ := hleft _
            _ = _ := by rw [hitems]
            _ = _ := (hright _).symm

theorem mapM_mem {α β : Type} {f : α → Option β} {items : List α} {values : List β}
    (h : items.mapM f = some values) : ∀ value ∈ values, ∃ item, f item = some value := by
  induction items generalizing values with
  | nil =>
      obtain rfl := Option.some.inj h
      exact fun value hvalue => absurd hvalue List.not_mem_nil
  | cons item items ih =>
      rw [List.mapM_cons] at h
      obtain ⟨value, hvalue, hrest⟩ := Option.bind_eq_some_iff.1 h
      obtain ⟨values', hvalues, hcons⟩ := Option.bind_eq_some_iff.1 hrest
      obtain rfl := Option.some.inj hcons
      intro other hother
      rcases List.mem_cons.1 hother with rfl | hother
      · exact ⟨item, hvalue⟩
      · exact ih hvalues other hother

/-- Joining plain texts with single spaces joins their words. -/
theorem intercalate_plain {texts : List String} (h : ∀ text ∈ texts, spaced (wordsOf text) = text) :
    " ".intercalate (texts.filter fun text => text ≠ "") = spaced (texts.flatMap wordsOf) := by
  have hself : (texts.map String.toList).map (fun cs => [' '].intercalate (words isSpace cs)) =
      texts.map String.toList := by
    rw [List.map_map]
    refine List.map_congr_left fun text htext => ?_
    have hchars := congrArg String.toList (h text htext)
    rwa [spaced, String.toList_ofList] at hchars
  have hempty : ∀ text : String, decide (text ≠ "") = !text.toList.isEmpty := by
    intro text
    by_cases hnil : text = ""
    · rw [hnil]
      rfl
    · have hchars : text.toList ≠ [] := fun hchars => hnil (String.toList_inj.1 hchars)
      simp [hnil, hchars]
  have hfilter : (texts.filter fun text => text ≠ "").map String.toList =
      (texts.map String.toList).filter fun cs => !cs.isEmpty := by
    rw [List.filter_map]
    exact congrArg (fun p => (texts.filter p).map String.toList) (funext hempty)
  have hjoined := intercalate_flatMap (p := isSpace) ' ' (texts.map String.toList)
  rw [hself, ← hfilter, List.flatMap_map] at hjoined
  refine String.toList_inj.1 ?_
  have hspace : " ".toList = [' '] := by decide
  have hspaced : (spaced (texts.flatMap wordsOf)).toList =
      [' '].intercalate (texts.flatMap wordsOf) := String.toList_ofList
  rw [String.toList_intercalate, hspace, hspaced]
  exact hjoined

/-- The plain text of a node whose children are blocks. -/
theorem lexicalText_blocks {items : List Json} {node : Json} (h : Container items node)
    (hblocks : ∀ item ∈ items, IsBlock item) :
    lexicalText false node = (items.mapM (lexicalText false)).map fun texts =>
      " ".intercalate (texts.filter fun text => text ≠ "") := by
  have hwords : lexicalText false node =
      (items.mapM (lexicalText false)).map fun texts => spaced (texts.flatMap wordsOf) := by
    have hnode := h.words
    rw [walkItems_words hblocks] at hnode
    have hspaced := congrArg (Option.map spaced) hnode
    rw [Option.map_map, Option.map_map] at hspaced
    rw [lexicalText_plain]
    exact hspaced
  rw [hwords]
  cases htexts : items.mapM (lexicalText false) with
  | none => rfl
  | some texts =>
      refine congrArg some (intercalate_plain fun text htext => ?_).symm
      obtain ⟨item, hitem⟩ := mapM_mem htexts text htext
      exact spaced_wordsOf hitem

/-- **Only blocks separate visible text**: other formatting of a tree leaves its text, plain text
has single spaces between its words, and blocks next to each other share no word. -/
theorem only_blocks_separate :
    (∀ structured tree tree', Reformatted tree tree' →
        lexicalText structured tree' = lexicalText structured tree) ∧
      (∀ value text, lexicalText false value = some text →
        Trimmed text.toList ∧ Collapsed isSpace ' ' text.toList) ∧
      ∀ items node, Container items node → (∀ item ∈ items, IsBlock item) →
        lexicalText false node = (items.mapM (lexicalText false)).map fun texts =>
          " ".intercalate (texts.filter fun text => text ≠ "") := by
  refine ⟨fun structured tree tree' h => ?_, fun _ _ => lexicalText_normal,
    fun _ _ => lexicalText_blocks⟩
  unfold lexicalText
  rw [h.walk]

def textNode (text : String) : Json := .obj [("type", .str "text"), ("text", .str text)]

theorem textLeaf_textNode (text : String) : TextLeaf (some (.str "text")) text (textNode text) :=
  ⟨rfl, rfl, rfl, by decide, rfl⟩

def linkNode (items : List Json) : Json :=
  .obj [("type", .str "link"), ("url", .str "/parvo"), ("children", .arr items)]

def paragraph (items : List Json) : Json :=
  .obj [("type", .str "paragraph"), ("children", .arr items)]

theorem container_paragraph (items : List Json) : Container items (paragraph items) :=
  ⟨rfl, rfl, rfl, rfl, ⟨false, rfl, fun hleaf => by cases hleaf⟩, rfl⟩

/-- A word, half of it in a link, and two paragraphs. -/
theorem parvo_formatted :
    lexicalText true (paragraph [textNode "Par", linkNode [textNode "vo"]]) = some "Parvo" ∧
      lexicalText false (paragraph [paragraph [textNode " In"], paragraph [textNode "dogs "]]) =
        some "In dogs" := by
  constructor
  · have hsplit : Reformatted (paragraph [textNode ("Par" ++ "vo")])
        (paragraph [textNode "Par", textNode "vo"]) :=
      .here [("type", .str "paragraph")] [] (.split [] [] (textLeaf_textNode _)
        (textLeaf_textNode "Par") (textLeaf_textNode "vo"))
    have hwrap : Reformatted (paragraph [textNode "Par", textNode "vo"])
        (paragraph [textNode "Par", linkNode [textNode "vo"]]) :=
      .here [("type", .str "paragraph")] [] (@Regrouped.wrap [textNode "vo"] _ [textNode "Par"] []
        ⟨rfl, rfl, Or.inl rfl, rfl⟩)
    rw [only_blocks_separate.1 true _ _ hwrap, only_blocks_separate.1 true _ _ hsplit]
    decide +kernel
  · rw [only_blocks_separate.2.2 _ _ (container_paragraph _)]
    · decide +kernel
    · intro item hitem
      rcases List.mem_pair.1 hitem with rfl | rfl
      · exact ⟨rfl, _, container_paragraph _⟩
      · exact ⟨rfl, _, container_paragraph _⟩

end VetHealth
