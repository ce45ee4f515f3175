import VetHealth.Content.Words
import VetHealth.Js.Masks

/-!
# VetHealth.Content.UrlKeys

**Addresses and file names in the text of a page.** A string under a key of `URLISH_KEYS` is no text,
and `collect` drops it. But it hands the key on to the value of a property alone, not to the elements
of an array, so a list of addresses is collected like a list of texts. `urls_hidden_iff` says that
this is all that can bring one into the text.
-/

namespace VetHealth

open Js Matching Words

/-- The key speaks of an address or a file. The expression is not anchored, so that a key needs only
to contain one of the words. -/
def isUrlish (key : String) : Bool := (URLISH_KEYS.find key.toList).isSome

mutual

/-- A string is an element of an array whose nearest key speaks of an address or a file. Such a
string is shown: the key is not handed on to the elements. -/
def hasUrlItem (key : Option String) : Json → Bool
  | .arr items => itemsHaveUrl key items
  | .obj fields => fieldsHaveUrlItem fields
  | _ => false

def itemsHaveUrl (key : Option String) : List Json → Bool
  | [] => false
  | item :: items =>
      (key.any isUrlish && item.asString?.isSome) || hasUrlItem key item || itemsHaveUrl key items

def fieldsHaveUrlItem : List (String × Json) → Bool
  | [] => false
  | (name, value) :: fields => hasUrlItem (some name) value || fieldsHaveUrlItem fields

end

/-- Such a string is in the data of one of the blocks. -/
def blocksHaveUrlItem (blocks : List Json) : Bool :=
  blocks.any fun block => (block.get "data").any (hasUrlItem (some "data"))

theorem isUrlish_content : isUrlish "content" = false := by decide

theorem isUrlish_data : isUrlish "data" = false := by decide

theorem collectString_eq (structured : Bool) (key : Option String) (s : String) :
    collectString structured key s =
      if key.any isUrlish then some []
      else if key = some "content" then (lexicalContentText structured s).map fun text => [text]
      else some [s] := rfl

/-- A string of its own is collected as it is. -/
theorem collect_string_none (structured : Bool) (s : String) :
    collect structured none (.str s) = some [s] := by
  rw [collect]
  rfl

/-- Where a value stands makes a difference to a string only. Objects bring keys of their own, and
arrays none. -/
theorem collect_key {structured : Bool} (key key' : Option String) {j : Json}
    (h : j.asString? = none) : collect structured key j = collect structured key' j := by
  cases j with
  | str s => cases h
  | _ => simp only [collect]

theorem contentStates_key (key key' : Option String) {j : Json} (h : j.asString? = none) :
    contentStates key j = contentStates key' j := by
  cases j with
  | str s => cases h
  | _ => simp only [contentStates]

/-- A string, or what stands under no key as it does under any. -/
theorem string_or_not (j : Json) : (∃ s, j = .str s) ∨ j.asString? = none := by
  cases j with
  | str s => exact Or.inl ⟨s, rfl⟩
  | _ => exact Or.inr rfl

/-! ### Without such a string -/

section

variable (structured : Bool)

mutual

theorem collect_alike (key : Option String) : ∀ {j j' : Json}, Json.Alike isUrlish key j j' →
    hasUrlItem key j = false → collect structured key j' = collect structured key j
  | .str s, j', h, _ => by
      rw [Json.Alike] at h
      obtain ⟨t, rfl, ht⟩ := h
      rw [collect, collect, collectString_eq, collectString_eq]
      cases hkey : key.any isUrlish with
      | true => rfl
      | false => rw [ht hkey]
  | .arr items, j', h, hno => by
      rw [Json.Alike] at h
      obtain ⟨items', rfl, hitems⟩ := h
      rw [hasUrlItem] at hno
      rw [collect, collect]
      exact collectItems_alike key hitems hno
  | .obj fields, j', h, hno => by
      rw [Json.Alike] at h
      obtain ⟨fields', rfl, hfields⟩ := h
      rw [hasUrlItem] at hno
      rw [collect, collect, collectFields_alike hfields hno]
  | .null, j', h, _ | .bool _, j', h, _ | .num _, j', h, _ => by
      simp only [Json.Alike] at h
      rw [h]

theorem collectItems_alike (key : Option String) : ∀ {items items' : List Json},
    Json.itemsAlike isUrlish key items items' → itemsHaveUrl key items = false →
      collectItems structured items' = collectItems structured items
  | [], items', h, _ => by
      rw [Json.itemsAlike] at h
      rw [h]
  | item :: items, others, h, hno => by
      rw [Json.itemsAlike] at h
      obtain ⟨item', items', rfl, hitem, hitems⟩ := h
      rw [itemsHaveUrl, Bool.or_eq_false_iff, Bool.or_eq_false_iff] at hno
      have hchunks : collect structured none item' = collect structured none item := by
        rcases string_or_not item with ⟨s, rfl⟩ | hstring
        · -- a string that is not hidden is the same in both
          rw [Json.Alike] at hitem
          obtain ⟨t, rfl, ht⟩ := hitem
          rw [ht (by simpa [Json.asString?] using hno.1.1)]
        · rw [collect_key none key hstring, collect_key none key (hitem.asString? hstring)]
          exact collect_alike key hitem hno.1.2
      rw [collectItems, collectItems, hchunks, collectItems_alike key hitems hno.2]

theorem collectFields_alike : ∀ {fields fields' : List (String × Json)},
    Json.fieldsAlike isUrlish fields fields' → fieldsHaveUrlItem fields = false →
      collectFields structured fields' = collectFields structured fields
  | [], fields', h, _ => by
      rw [Json.fieldsAlike] at h
      rw [h]
  | (name, value) :: fields, others, h, hno => by
      rw [Json.fieldsAlike] at h
      obtain ⟨value', fields', rfl, hvalue, hfields⟩ := h
      rw [fieldsHaveUrlItem, Bool.or_eq_false_iff] at hno
      rw [collectFields, collectFields, collect_alike (some name) hvalue hno.1,
        collectFields_alike hfields hno.2]

end

end

/-! ### The editors' states -/

mutual

/-- No editor's state is hidden. -/
theorem contentStates_alike (key : Option String) : ∀ {j j' : Json},
    Json.Alike isUrlish key j j' → contentStates key j' = contentStates key j
  | .str s, j', h => by
      rw [Json.Alike] at h
      obtain ⟨t, rfl, ht⟩ := h
      rw [contentStates, contentStates]
      by_cases hkey : key = some "content"
      · rw [ht (by rw [hkey]; exact isUrlish_content)]
      · rw [if_neg hkey, if_neg hkey]
  | .arr items, j', h => by
      rw [Json.Alike] at h
      obtain ⟨items', rfl, hitems⟩ := h
      rw [contentStates, contentStates]
      exact itemsStates_alike key hitems
  | .obj fields, j', h => by
      rw [Json.Alike] at h
      obtain ⟨fields', rfl, hfields⟩ := h
      rw [contentStates, contentStates]
      exact fieldsStates_alike hfields
  | .null, j', h | .bool _, j', h | .num _, j', h => by
      simp only [Json.Alike] at h
      rw [h]

theorem itemsStates_alike (key : Option String) : ∀ {items items' : List Json},
    Json.itemsAlike isUrlish key items items' → itemsStates items' = itemsStates items
  | [], items', h => by
      rw [Json.itemsAlike] at h
      rw [h]
  | item :: items, others, h => by
      rw [Json.itemsAlike] at h
      obtain ⟨item', items', rfl, hitem, hitems⟩ := h
      have hstates : contentStates none item' = contentStates none item := by
        rcases string_or_not item with ⟨s, rfl⟩ | hstring
        · rw [Json.Alike] at hitem
          obtain ⟨t, rfl, -⟩ := hitem
          rw [contentStates, contentStates]
          rfl
        · rw [contentStates_key none key hstring,
            contentStates_key none key (hitem.asString? hstring)]
          exact contentStates_alike key hitem
      rw [itemsStates, itemsStates, hstates, itemsStates_alike key hitems]

theorem fieldsStates_alike : ∀ {fields fields' : List (String × Json)},
    Json.fieldsAlike isUrlish fields fields' → fieldsStates fields' = fieldsStates fields
  | [], fields', h => by
      rw [Json.fieldsAlike] at h
      rw [h]
  | (name, value) :: fields, others, h => by
      rw [Json.fieldsAlike] at h
      obtain ⟨value', fields', rfl, hvalue, hfields⟩ := h
      rw [fieldsStates, fieldsStates, contentStates_alike (some name) hvalue,
        fieldsStates_alike hfields]

end

section

variable (structured : Bool)

theorem collectString_eq_none (key : Option String) (s : String) :
    collectString structured key s = none ↔
      ∃ state ∈ contentStates key (.str s), lexicalText structured state = none := by
  rw [collectString_eq, contentStates]
  by_cases hkey : key = some "content"
  · have hurlish : key.any isUrlish = false := by rw [hkey]; exact isUrlish_content
    rw [hurlish, if_neg Bool.false_ne_true, if_pos hkey, if_pos hkey, Option.map_eq_none_iff]
    unfold lexicalContentText
    cases parseJson s <;> simp
  · rw [if_neg hkey, if_neg hkey]
    split <;> simp

mutual

/-- The walk over a value throws where the text of an editor's state does. -/
theorem collect_eq_none (key : Option String) : ∀ j : Json, collect structured key j = none ↔
    ∃ state ∈ contentStates key j, lexicalText structured state = none
  | .str s => by
      rw [collect]
      exact collectString_eq_none structured key s
  | .arr items => by
      rw [collect, contentStates]
      exact collectItems_eq_none items
  | .obj fields => by
      rw [collect, contentStates, Option.map_eq_none_iff]
      exact collectFields_eq_none fields
  | .null | .bool _ | .num _ => by simp [collect, contentStates]

theorem collectItems_eq_none : ∀ items : List Json, collectItems structured items = none ↔
    ∃ state ∈ itemsStates items, lexicalText structured state = none
  | [] => by simp [collectItems, itemsStates]
  | item :: items => by
      have hitem := collect_eq_none none item
      have hitems := collectItems_eq_none items
      rw [collectItems, itemsStates]
      simp only [List.mem_append, or_and_right, exists_or, ← hitem, ← hitems]
      cases collect structured none item <;> cases collectItems structured items <;> simp

theorem collectFields_eq_none : ∀ fields : List (String × Json),
    collectFields structured fields = none ↔
      ∃ state ∈ fieldsStates fields, lexicalText structured state = none
  | [] => by simp [collectFields, fieldsStates]
  | (name, value) :: fields => by
      have hvalue := collect_eq_none (some name) value
      have hfields := collectFields_eq_none fields
      rw [collectFields, fieldsStates]
      simp only [List.mem_append, or_and_right, exists_or, ← hvalue, ← hfields]
      cases collect structured (some name) value <;> cases collectFields structured fields <;> simp

end

/-! ### With such a string -/

variable {structured} {t : String}

mutual

/-- What takes the place of the hidden strings is collected, if one of them is in an array. So the
text shows it. -/
theorem mem_collect_mask (key : Option String) : ∀ {j : Json} {chunks : List String},
    hasUrlItem key j = true → collect structured key (j.mask isUrlish t key) = some chunks →
      t ∈ chunks
  | .arr items, chunks, hurl, h => by
      rw [hasUrlItem] at hurl
      rw [Json.mask, collect] at h
      exact mem_collectItems_mask key hurl h
  | .obj fields, chunks, hurl, h => by
      rw [hasUrlItem] at hurl
      rw [Json.mask, collect, Option.map_eq_some_iff] at h
      obtain ⟨named, hnamed, rfl⟩ := h
      obtain ⟨field, hfield, ht⟩ := mem_collectFields_mask hurl hnamed
      exact List.mem_flatMap.2 ⟨field, mem_entriesOrder.2 hfield, ht⟩
  | .str _, _, hurl, _ | .null, _, hurl, _ | .bool _, _, hurl, _ | .num _, _, hurl, _ => by
      simp [hasUrlItem] at hurl

theorem mem_collectItems_mask (key : Option String) : ∀ {items : List Json} {chunks : List String},
    itemsHaveUrl key items = true →
      collectItems structured (Json.maskItems isUrlish t key items) = some chunks → t ∈ chunks
  | [], _, hurl, _ => by simp [itemsHaveUrl] at hurl
  | item :: items, chunks, hurl, h => by
      rw [itemsHaveUrl, Bool.or_eq_true, Bool.or_eq_true, Bool.and_eq_true] at hurl
      simp only [Json.maskItems, collectItems, Option.pure_def, Option.bind_eq_bind,
        Option.bind_eq_some_iff, Option.some.injEq] at h
      obtain ⟨first, hfirst, rest, hrest, rfl⟩ := h
      rcases hurl with (⟨hkey, hstring⟩ | hitem) | hitems
      · obtain ⟨s, rfl⟩ := (string_or_not item).resolve_right (Option.ne_none_iff_isSome.2 hstring)
        rw [Json.mask, hkey, if_pos rfl, collect_string_none] at hfirst
        obtain rfl := Option.some.inj hfirst
        exact List.mem_append_left _ List.mem_cons_self
      · have hnot : item.asString? = none := by
          cases item with
          | str s => simp [hasUrlItem] at hitem
          | _ => rfl
        rw [collect_key none key ((Json.alike_mask key item).asString? hnot)] at hfirst
        exact List.mem_append_left _ (mem_collect_mask key hitem hfirst)
      · exact List.mem_append_right _ (mem_collectItems_mask key hitems hrest)

theorem mem_collectFields_mask : ∀ {fields : List (String × Json)}
    {named : List (String × List String)}, fieldsHaveUrlItem fields = true →
      collectFields structured (Json.maskFields isUrlish t fields) = some named →
        ∃ field ∈ named, t ∈ field.2
  | [], _, hurl, _ => by simp [fieldsHaveUrlItem] at hurl
  | (name, value) :: fields, named, hurl, h => by
      rw [fieldsHaveUrlItem, Bool.or_eq_true] at hurl
      simp only [Json.maskFields, collectFields, Option.pure_def, Option.bind_eq_bind,
        Option.bind_eq_some_iff, Option.some.injEq] at h
      obtain ⟨first, hfirst, rest, hrest, rfl⟩ := h
      rcases hurl with hvalue | hfields
      · exact ⟨_, List.mem_cons_self, mem_collect_mask (some name) hvalue hfirst⟩
      · obtain ⟨field, hfield, ht⟩ := mem_collectFields_mask hfields hrest
        exact ⟨field, List.mem_cons_of_mem _ hfield, ht⟩

end

end

/-! ### Blocks -/

/-- The text that is made of the chunks of a page. -/
def joinChunks (structured : Bool) (chunks : List String) : String :=
  if structured then "\n\n".intercalate (chunks.filter fun chunk => chunk ≠ "")
  else normalize chunks

/-- The editors' states in the data of a block. -/
def blockStates (block : Json) : List Json := (block.get "data").elim [] (contentStates none)

theorem pageBlocksText_of_blocks {content : String} {document : Json} {blocks : List Json}
    (structured : Bool) (hparse : JSON.parse content = some document)
    (hblocks : document.get "blocks" = some (.arr blocks)) :
    pageBlocksText structured content =
      (blocks.mapM (collectBlock structured)).map fun chunks =>
        joinChunks structured chunks.flatten := by
  unfold pageBlocksText
  rw [parseJson_of_parse hparse]
  dsimp only
  rw [hblocks]
  show (blocks.mapM (collectBlock structured)).bind _ = _
  cases blocks.mapM (collectBlock structured) <;> rfl

theorem lexicalStates_of_blocks {content : String} {document : Json} {blocks : List Json}
    (hparse : JSON.parse content = some document)
    (hblocks : document.get "blocks" = some (.arr blocks)) :
    lexicalStates content = blocks.flatMap blockStates := by
  unfold lexicalStates
  rw [parseJson_of_parse hparse]
  dsimp only
  rw [hblocks]
  rfl

/-- The words of a page are those of its chunks, in both modes, whatever stands between the chunks.
-/
theorem wordsOf_joinChunks (structured : Bool) (chunks : List String) :
    wordsOf (joinChunks structured chunks) = chunks.flatMap wordsOf := by
  have hjoined : wordsOf ("\n\n".intercalate (chunks.filter fun chunk => chunk ≠ "")) =
      chunks.flatMap wordsOf := wordsOf_intercalate (by decide) (by decide) chunks
  cases structured with
  | true => exact hjoined
  | false =>
      show wordsOf (normalize chunks) = _
      rw [normalize_eq, ← hjoined]
      exact wordsOf_spaced _

section

variable {structured : Bool}

/-- The data of a block is collected as what stands under its name. -/
theorem collectBlock_eq (block : Json) : collectBlock structured block =
    (block.get "data").elim (some []) (collect structured (some "data")) := by
  unfold collectBlock
  cases block.get "data" with
  | none => rfl
  | some data =>
      show collect structured none data = collect structured (some "data") data
      rcases string_or_not data with ⟨s, rfl⟩ | hstring
      · rw [collect_string_none, collect, collectString_eq, Option.any_some, isUrlish_data]
        rfl
      · exact collect_key none (some "data") hstring

theorem blockStates_eq (block : Json) :
    blockStates block = (block.get "data").elim [] (contentStates (some "data")) := by
  unfold blockStates
  cases block.get "data" with
  | none => rfl
  | some data =>
      show contentStates none data = contentStates (some "data") data
      rcases string_or_not data with ⟨s, rfl⟩ | hstring
      · rw [contentStates, contentStates]
        rfl
      · exact contentStates_key none (some "data") hstring

theorem collectBlock_alike {key : Option String} {block block' : Json}
    (h : Json.Alike isUrlish key block block')
    (hno : (block.get "data").any (hasUrlItem (some "data")) = false) :
    collectBlock structured block' = collectBlock structured block := by
  have hdata := h.get "data"
  rw [collectBlock_eq, collectBlock_eq]
  generalize block.get "data" = data at hdata hno
  generalize block'.get "data" = data' at hdata
  cases hdata with
  | none => rfl
  | some hvalue => exact collect_alike structured (some "data") hvalue hno

theorem blockStates_alike {key : Option String} {block block' : Json}
    (h : Json.Alike isUrlish key block block') : blockStates block' = blockStates block := by
  have hdata := h.get "data"
  rw [blockStates_eq, blockStates_eq]
  generalize block.get "data" = data at hdata
  generalize block'.get "data" = data' at hdata
  cases hdata with
  | none => rfl
  | some hvalue => exact contentStates_alike (some "data") hvalue

theorem collectBlock_eq_none (block : Json) : collectBlock structured block = none ↔
    ∃ state ∈ blockStates block, lexicalText structured state = none := by
  rw [collectBlock_eq, blockStates_eq]
  cases block.get "data" with
  | none => simp
  | some data => exact collect_eq_none structured (some "data") data

/-! ### Lists of blocks -/

theorem collectBlocks_alike {key : Option String} {blocks blocks' : List Json}
    (h : Json.itemsAlike isUrlish key blocks blocks') (hno : blocksHaveUrlItem blocks = false) :
    blocks'.mapM (collectBlock structured) = blocks.mapM (collectBlock structured) := by
  induction blocks generalizing blocks' with
  | nil =>
      rw [Json.itemsAlike] at h
      rw [h]
  | cons block blocks ih =>
      rw [Json.itemsAlike] at h
      obtain ⟨block', rest, rfl, hblock, hrest⟩ := h
      rw [blocksHaveUrlItem, List.any_cons, Bool.or_eq_false_iff] at hno
      rw [List.mapM_cons, List.mapM_cons, collectBlock_alike hblock hno.1, ih hrest hno.2]

theorem states_alike {key : Option String} {blocks blocks' : List Json}
    (h : Json.itemsAlike isUrlish key blocks blocks') :
    blocks'.flatMap blockStates = blocks.flatMap blockStates := by
  induction blocks generalizing blocks' with
  | nil =>
      rw [Json.itemsAlike] at h
      rw [h]
  | cons block blocks ih =>
      rw [Json.itemsAlike] at h
      obtain ⟨block', rest, rfl, hblock, hrest⟩ := h
      rw [List.flatMap_cons, List.flatMap_cons, blockStates_alike hblock, ih hrest]

theorem collectBlocks_eq_none (blocks : List Json) :
    blocks.mapM (collectBlock structured) = none ↔
      ∃ state ∈ blocks.flatMap blockStates, lexicalText structured state = none := by
  induction blocks with
  | nil => simp
  | cons block blocks ih =>
      simp only [List.mapM_cons, List.flatMap_cons, List.mem_append, or_and_right, exists_or, ← ih,
        ← collectBlock_eq_none block]
      cases collectBlock structured block <;> cases blocks.mapM (collectBlock structured) <;> simp

theorem mem_collectBlocks_mask {t : String} {key : Option String} {blocks : List Json}
    {chunks : List (List String)} (hurl : blocksHaveUrlItem blocks = true)
    (h : (Json.maskItems isUrlish t key blocks).mapM (collectBlock structured) = some chunks) :
    t ∈ chunks.flatten := by
  induction blocks generalizing chunks with
  | nil => simp [blocksHaveUrlItem] at hurl
  | cons block blocks ih =>
      rw [blocksHaveUrlItem, List.any_cons, Bool.or_eq_true] at hurl
      simp only [Json.maskItems, List.mapM_cons, Option.pure_def, Option.bind_eq_bind,
        Option.bind_eq_some_iff, Option.some.injEq] at h
      obtain ⟨first, hfirst, rest, hrest, rfl⟩ := h
      rw [List.flatten_cons]
      rcases hurl with hblock | hblocks
      · rw [collectBlock_eq, Json.get_mask] at hfirst
        cases hdata : block.get "data" with
        | none => simp [hdata] at hblock
        | some data =>
            rw [hdata] at hblock hfirst
            exact List.mem_append_left _ (mem_collect_mask (some "data") hblock hfirst)
      · exact List.mem_append_right _ (ih hblocks hrest)

end

/-! ### Documents -/

/-- A text of one word that is longer than `text`. If the text of a page were the same after such a
word was put in, it would have to contain it. -/
def longWord (text : String) : String := String.ofList (List.replicate (text.length + 1) 'x')

theorem wordsOf_longWord (text : String) : wordsOf (longWord text) = [(longWord text).toList] := by
  rw [wordsOf, longWord, String.toList_ofList]
  refine words_of_letters (by simp) fun c hc => ?_
  rw [(List.mem_replicate.1 hc).2]
  decide

/-- The text of a page has no word that is longer than the text. -/
theorem longWord_not_mem {structured : Bool} {chunks : List String} :
    longWord (joinChunks structured chunks) ∉ chunks := by
  intro hmem
  have hword : (longWord (joinChunks structured chunks)).toList ∈
      wordsOf (joinChunks structured chunks) := by
    rw [wordsOf_joinChunks]
    exact List.mem_flatMap.2 ⟨_, hmem, by rw [wordsOf_longWord]; exact List.mem_cons_self⟩
  have hlength := length_le_of_mem_words hword
  rw [longWord, String.toList_ofList, List.length_replicate, String.length_toList] at hlength
  exact absurd hlength (Nat.not_succ_le_self _)

/-- **When addresses and file names are hidden from the text of a page.** Whatever takes the place of
the strings under their keys, the text is the same, exactly when no such string is an element of an
array, or the text of some editor's state of the page throws. -/
theorem urls_hidden_iff {content : String} {document : Json} {blocks : List Json}
    (hparse : JSON.parse content = some document)
    (hblocks : document.get "blocks" = some (.arr blocks)) (structured : Bool) :
    (∀ content' document', JSON.parse content' = some document' →
      Json.Alike isUrlish none document document' →
        pageBlocksText structured content' = pageBlocksText structured content) ↔
    blocksHaveUrlItem blocks = false ∨
      ∃ state ∈ lexicalStates content, lexicalText structured state = none := by
  rw [lexicalStates_of_blocks hparse hblocks, ← collectBlocks_eq_none,
    pageBlocksText_of_blocks structured hparse hblocks]
  constructor
  · intro h
    by_contra hneither
    rw [not_or, Bool.not_eq_false] at hneither
    obtain ⟨hurl, hsome⟩ := hneither
    obtain ⟨chunks, hchunks⟩ := Option.ne_none_iff_exists'.1 hsome
    -- a document with a word for every address that is longer than the text of the page
    obtain ⟨t, ht⟩ : ∃ t, t = longWord (joinChunks structured chunks.flatten) := ⟨_, rfl⟩
    have hparse' : JSON.parse (JSON.stringify (document.mask isUrlish t none)) =
        some (document.mask isUrlish t none) := Json.parse_mask hparse none
    have hmasked : (document.mask isUrlish t none).get "blocks" =
        some (.arr (Json.maskItems isUrlish t (some "blocks") blocks)) := by
      rw [Json.get_mask, hblocks, Option.map_some, Json.mask]
    have hsame := h _ _ hparse' (Json.alike_mask none document)
    rw [pageBlocksText_of_blocks structured hparse' hmasked, hchunks, Option.map_some,
      Option.map_eq_some_iff] at hsame
    obtain ⟨chunks', hchunks', htext⟩ := hsame
    have hmem := mem_collectBlocks_mask hurl hchunks'
    rw [ht, ← htext] at hmem
    exact longWord_not_mem hmem
  · intro h content' document' hparse' halike
    have hget := halike.get "blocks"
    rw [hblocks] at hget
    generalize hblocks' : document'.get "blocks" = value at hget
    cases hget with
    | some hvalue =>
        rw [Json.Alike] at hvalue
        obtain ⟨blocks', rfl, hitems⟩ := hvalue
        rw [pageBlocksText_of_blocks structured hparse' hblocks']
        rcases h with hno | hthrows
        · rw [collectBlocks_alike hitems hno]
        · have hthrows' := hthrows
          rw [collectBlocks_eq_none, ← states_alike hitems, ← collectBlocks_eq_none] at hthrows'
          rw [hthrows, hthrows']

/-- A page with one block. -/
def pageOf (data : List (String × Json)) : Json := .obj [("blocks", .arr [.obj [("data", .obj data)]])]

/-- A card with a title and a picture. -/
def card : Json := pageOf [("title", .str "Parvo"), ("imageUrl", .str "a.png")]

/-- A list of pictures. -/
def galleryBlocks (file : String) : Json := pageOf [("images", .arr [.str file])]

theorem parse_card : JSON.parse (JSON.stringify card) = some card :=
  JSON.parse_stringify
    (by simp [card, pageOf, Json.DistinctKeys, Json.itemsDistinct, Json.fieldsDistinct])
    (by simp [card, pageOf, Json.Printable, Json.itemsPrintable, Json.fieldsPrintable])

theorem parse_gallery (file : String) :
    JSON.parse (JSON.stringify (galleryBlocks file)) = some (galleryBlocks file) :=
  JSON.parse_stringify
    (by simp [galleryBlocks, pageOf, Json.DistinctKeys, Json.itemsDistinct, Json.fieldsDistinct])
    (by simp [galleryBlocks, pageOf, Json.Printable, Json.itemsPrintable, Json.fieldsPrintable])

/-- The picture of the card is hidden. -/
theorem card_hides_picture :
    pageBlocksText true (JSON.stringify (card.mask isUrlish "b.png" none)) =
        pageBlocksText true (JSON.stringify card) ∧
      pageBlocksText false (JSON.stringify (card.mask isUrlish "b.png" none)) =
        pageBlocksText false (JSON.stringify card) := by
  have hmasked : JSON.parse (JSON.stringify (card.mask isUrlish "b.png" none)) =
      some (card.mask isUrlish "b.png" none) := Json.parse_mask parse_card none
  have halike : Json.Alike isUrlish none card (card.mask isUrlish "b.png" none) :=
    Json.alike_mask none card
  exact ⟨(urls_hidden_iff parse_card rfl true).2 (Or.inl (by decide)) _ _ hmasked halike,
    (urls_hidden_iff parse_card rfl false).2 (Or.inl (by decide)) _ _ hmasked halike⟩

theorem pageBlocksText_gallery (file : String) :
    pageBlocksText false (JSON.stringify (galleryBlocks file)) = some (normalize [file]) := by
  have hitems : collect false (some "images") (.arr [.str file]) = some [file] := by
    rw [collect, collectItems, collect_string_none]
    rfl
  have hblock : collectBlock false (.obj [("data", .obj [("images", .arr [.str file])])]) =
      some [file] := by
    show collect false none (.obj [("images", .arr [.str file])]) = _
    rw [collect, collectFields, hitems]
    simp [collectFields]
  rw [pageBlocksText_of_blocks false (parse_gallery file) rfl, List.mapM_cons, hblock]
  rfl

/-- The pictures of the list are not. -/
theorem gallery_shows_picture :
    ¬ ∀ content' document', JSON.parse content' = some document' →
      Json.Alike isUrlish none (galleryBlocks "a.png") document' →
        pageBlocksText false content' = pageBlocksText false (JSON.stringify (galleryBlocks "a.png")) := by
  intro h
  have hkey : isUrlish "images" = true := by decide
  have halike : Json.Alike isUrlish none (galleryBlocks "a.png") (galleryBlocks "b.png") := by
    simp [galleryBlocks, pageOf, Json.Alike, Json.itemsAlike, Json.fieldsAlike, hkey]
  have hsame := h _ _ (parse_gallery "b.png") halike
  rw [pageBlocksText_gallery, pageBlocksText_gallery, Option.some.injEq] at hsame
  revert hsame
  decide +kernel

end VetHealth
