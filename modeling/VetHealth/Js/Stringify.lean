import Mathlib.Data.List.TakeDrop
import VetHealth.Js.Parse

/-!
# VetHealth.Js.Stringify

**Writing JSON texts.** `JSON.stringify` puts no white space between tokens, and escapes in a string
the quote, the backslash and the control characters. A number is written as the text it is kept with.

`JSON.parse_stringify` says that `JSON.parse` reads a value back from what was written, when no
object of it has two properties of one name and each of its numbers is kept with a literal. The two
passes of the parser are treated on their own: `Json.tokens` are the tokens that the scan finds in
the written text, and from which the second pass builds the value.
-/

namespace Js

/-! ### Strings -/

/-- A digit in base 16, in lower case. -/
def hexDigit (n : Nat) : Char := if n < 10 then Char.ofNat (0x30 + n) else Char.ofNat (0x57 + n)

/-- What is written for a character of a string: itself, or an escape where JSON asks for one. -/
def quoteChar (c : Char) : List Char :=
  if c = '"' then ['\\', '"']
  else if c = '\\' then ['\\', '\\']
  else if c.toNat = 0x8 then ['\\', 'b']
  else if c.toNat = 0xc then ['\\', 'f']
  else if c.toNat = 0xa then ['\\', 'n']
  else if c.toNat = 0xd then ['\\', 'r']
  else if c.toNat = 0x9 then ['\\', 't']
  else if c.toNat < 0x20 then
    ['\\', 'u', '0', '0', hexDigit (c.toNat / 16), hexDigit (c.toNat % 16)]
  else [c]

def quote (s : String) : List Char := '"' :: s.toList.flatMap quoteChar ++ ['"']

/-! ### Values -/

namespace Json

mutual

/-- The text of a value. -/
def print : Json → List Char
  | .null => "null".toList
  | .bool b => if b then "true".toList else "false".toList
  | .num x => x.text.toList
  | .str s => quote s
  | .arr [] => "[]".toList
  | .arr (item :: items) => '[' :: print item ++ printItems items ++ [']']
  | .obj [] => "\x7b\x7d".toList
  | .obj ((name, value) :: fields) =>
      '{' :: quote name ++ ':' :: print value ++ printFields fields ++ ['}']

/-- The items after the first. -/
def printItems : List Json → List Char
  | [] => []
  | item :: items => ',' :: print item ++ printItems items

/-- The properties after the first. -/
def printFields : List (String × Json) → List Char
  | [] => []
  | (name, value) :: fields => ',' :: quote name ++ ':' :: print value ++ printFields fields

end

end Json

/-- `JSON.stringify(value)`. -/
def JSON.stringify (j : Json) : String := String.ofList j.print

/-! ### What the scan finds -/

namespace Json

mutual

/-- The tokens of a written value. The proof of the round trip goes through them: writing is shown
to give these tokens, and reading to take them. -/
def tokens : Json → List Token
  | .arr [] => [.punct '[', .punct ']']
  | .arr (item :: items) => .punct '[' :: tokens item ++ tokensItems items ++ [.punct ']']
  | .obj [] => [.punct '{', .punct '}']
  | .obj ((name, value) :: fields) =>
      .punct '{' :: .scalar (.str name) :: .punct ':' :: tokens value ++ tokensFields fields ++
        [.punct '}']
  | j => [.scalar j]

def tokensItems : List Json → List Token
  | [] => []
  | item :: items => .punct ',' :: tokens item ++ tokensItems items

def tokensFields : List (String × Json) → List Token
  | [] => []
  | (name, value) :: fields =>
      .punct ',' :: .scalar (.str name) :: .punct ':' :: tokens value ++ tokensFields fields

end

end Json

/-- The number is kept with a literal, which is how `String` prints it; no number of a parsed text
is kept otherwise. -/
def Number.Printable (x : Number) : Prop := Number.isLiteral x.text.toList = true

namespace Json

mutual

/-- All numbers of the value are kept with literals. -/
def Printable : Json → Prop
  | .num x => x.Printable
  | .arr items => itemsPrintable items
  | .obj fields => fieldsPrintable fields
  | _ => True

def itemsPrintable : List Json → Prop
  | [] => True
  | item :: items => Printable item ∧ itemsPrintable items

def fieldsPrintable : List (String × Json) → Prop
  | [] => True
  | (_, value) :: fields => Printable value ∧ fieldsPrintable fields

end

end Json

namespace Scan

/-- A character that ends no token leads the scan on and leaves the tokens that come as they are. -/
theorem tokens_cons (next : Scan) {scan : Scan} {c : Char} (h : scan.step c = some ([], next))
    {cs : List Char} : tokens scan (c :: cs) = tokens next cs := by
  simp [tokens, h]

/-- A sign outside all tokens. -/
theorem tokens_punct {c : Char} (h : c ∈ ['{', '}', '[', ']', ',', ':']) (cs : List Char) :
    tokens .between (c :: cs) = (tokens .between cs).map (.punct c :: ·) := by
  have hspace : c ∉ [' ', '\t', '\n', '\r'] := by
    revert c
    decide
  have hstep : Scan.between.step c = some ([.punct c], .between) := by
    rw [step, start, if_neg hspace, if_pos h]
  cases htokens : tokens .between cs with
  | none => simp [tokens, hstep, htokens]
  | some rest => simp [tokens, hstep, htokens]

/-- A code unit that was escaped by four digits. -/
theorem tokens_code {n : Nat} (hn : n < 0x20) (read : List Nat) (cs : List Char) :
    tokens (.escape read) ('u' :: '0' :: '0' :: hexDigit (n / 16) :: hexDigit (n % 16) :: cs) =
      tokens (.string (n :: read)) cs := by
  have hdigit : ∀ d : Fin 16, digitValue 16 (hexDigit d.val) = some d.val := by decide
  have hhigh := hdigit ⟨n / 16, by omega⟩
  have hlow := hdigit ⟨n % 16, by omega⟩
  have hzero : digitValue 16 '0' = some 0 := by decide
  rw [tokens_cons (.code read 0 0) rfl]
  rw [tokens_cons (.code read 1 0) (by rw [step, hzero]; rfl)]
  rw [tokens_cons (.code read 2 0) (by rw [step, hzero]; rfl)]
  rw [tokens_cons (.code read 3 (n / 16)) (by rw [step, hhigh]; simp)]
  rw [tokens_cons (.string (n :: read)) ?_]
  rw [step, hlow]
  simp only [Option.map_some, if_true, Option.some.injEq, Prod.mk.injEq, string.injEq,
    List.cons.injEq, true_and, and_true]
  omega

/-- A written character of a string is read back. -/
theorem tokens_quoteChar (c : Char) (read : List Nat) (cs : List Char) :
    tokens (.string read) (quoteChar c ++ cs) =
      tokens (.string ((utf16 c).reverse ++ read)) cs := by
  have hunit : ∀ {u : Nat}, c.toNat = u → u < 0x20 → (utf16 c).reverse = [u] := by
    intro u hc hu
    rw [utf16, if_pos (by omega), hc]
    rfl
  -- an escape by a letter
  have hescape : ∀ {d : Char} {u : Nat}, c.toNat = u → u < 0x20 → d ≠ 'u' → escaped d = some u →
      tokens (.string read) (['\\', d] ++ cs) = tokens (.string ((utf16 c).reverse ++ read)) cs := by
    intro d u hc hu hd hescaped
    rw [hunit hc hu]
    show tokens (.string read) ('\\' :: d :: cs) = _
    rw [tokens_cons (.escape read) rfl, tokens_cons (.string (u :: read))]
    · rfl
    · rw [step, if_neg hd, hescaped]
      rfl
  unfold quoteChar
  split
  · next hc =>
      subst hc
      show tokens (.string read) ('\\' :: '"' :: cs) = _
      rw [tokens_cons (.escape read) rfl, tokens_cons _ rfl]
      rfl
  split
  · next hc =>
      subst hc
      show tokens (.string read) ('\\' :: '\\' :: cs) = _
      rw [tokens_cons (.escape read) rfl, tokens_cons _ rfl]
      rfl
  split
  · next hc => exact hescape hc (by decide) (by decide) rfl
  split
  · next hc => exact hescape hc (by decide) (by decide) rfl
  split
  · next hc => exact hescape hc (by decide) (by decide) rfl
  split
  · next hc => exact hescape hc (by decide) (by decide) rfl
  split
  · next hc => exact hescape hc (by decide) (by decide) rfl
  split
  · next hcontrol =>
      rw [hunit rfl hcontrol]
      show tokens (.string read) ('\\' :: _) = _
      rw [tokens_cons (.escape read) rfl]
      exact tokens_code hcontrol read cs
  · next hquote hbackslash _ _ _ _ _ hcontrol =>
      show tokens (.string read) (c :: cs) = _
      rw [tokens_cons (.string ((utf16 c).reverse ++ read))]
      rw [step, if_neg hquote, if_neg hbackslash, if_neg hcontrol]

theorem tokens_string (cs : List Char) (read : List Nat) (rest : List Char) :
    tokens (.string read) (cs.flatMap quoteChar ++ '"' :: rest) =
      (tokens .between rest).map
        (.scalar (.str (String.ofList (ofUtf16 (read.reverse ++ cs.flatMap utf16)))) :: ·) := by
  induction cs generalizing read with
  | nil =>
      have hstep : (Scan.string read).step '"' =
          some ([.scalar (.str (String.ofList (ofUtf16 read.reverse)))], .between) := rfl
      cases htokens : tokens .between rest with
      | none => simp [tokens, hstep, htokens]
      | some out => simp [tokens, hstep, htokens]
  | cons c cs ih =>
      rw [List.flatMap_cons, List.append_assoc, tokens_quoteChar, ih, List.reverse_append,
        List.reverse_reverse, List.append_assoc, List.flatMap_cons]

/-- **A written string is one token.** The induction is on its characters, each of which is read
back from its escape. -/
theorem tokens_quote (s : String) (rest : List Char) :
    tokens .between (quote s ++ rest) = (tokens .between rest).map (.scalar (.str s) :: ·) := by
  show tokens .between ('"' :: (s.toList.flatMap quoteChar ++ ['"']) ++ rest) = _
  rw [List.cons_append, tokens_cons (.string []) rfl, List.append_assoc]
  show tokens (.string []) (s.toList.flatMap quoteChar ++ '"' :: rest) = _
  rw [tokens_string, List.reverse_nil, List.nil_append, ofUtf16_utf16, String.ofList_toList]

/-- A text that does not go on with a word. After a number or `true` the next character has to end
the word, as a comma or a bracket does. -/
def EndsWord (rest : List Char) : Prop := ∀ c ∈ rest.head?, isWordChar c = false

theorem endsWord_cons {c : Char} {rest : List Char} (h : isWordChar c = false) :
    EndsWord (c :: rest) := by
  intro d hd
  rwa [← Option.some.inj hd]

theorem tokens_word {word : List Char} (hword : ∀ c ∈ word, isWordChar c = true) {read : List Char}
    {j : Json} (hj : scalarOf (read.reverse ++ word) = some j) {rest : List Char}
    (hrest : EndsWord rest) :
    tokens (.word read) (word ++ rest) = (tokens .between rest).map (.scalar j :: ·) := by
  induction word generalizing read with
  | nil =>
      rw [List.append_nil] at hj
      cases rest with
      | nil => simp [tokens, hj]
      | cons c cs =>
          have hc : isWordChar c = false := hrest c rfl
          have hstep : (Scan.word read).step c =
              (start c).map fun out => (.scalar j :: out.1, out.2) := by
            rw [step, if_neg (by simp [hc]), hj]
            cases start c <;> rfl
          have hbetween : Scan.between.step c = start c := rfl
          cases hstart : start c with
          | none => simp [tokens, hstep, hbetween, hstart]
          | some out =>
              cases htokens : tokens out.2 cs with
              | none => simp [tokens, hstep, hbetween, hstart, htokens]
              | some more => simp [tokens, hstep, hbetween, hstart, htokens]
  | cons c word ih =>
      have hc := hword c List.mem_cons_self
      rw [List.cons_append, tokens_cons (.word (c :: read)) (by rw [step, if_pos hc])]
      refine ih (fun d hd => hword d (List.mem_cons_of_mem _ hd)) ?_
      rwa [List.reverse_cons, List.append_assoc]

/-! ### Numbers -/

/-- A property of the two parts of a text and of what separates them is one of the text. -/
theorem forall_of_cutAt {p q : Char → Bool} {cs : List Char} (hp : ∀ c, p c = true → q c = true)
    (hbefore : ∀ c ∈ (cutAt p cs).1, q c = true)
    (hafter : ∀ rest, (cutAt p cs).2 = some rest → ∀ c ∈ rest, q c = true) :
    ∀ c ∈ cs, q c = true := by
  have hspan : (cs.span fun c => !p c) = (cs.takeWhile fun c => !p c, cs.dropWhile fun c => !p c) :=
    List.span_eq_takeWhile_dropWhile _ cs
  intro c hc
  rw [← List.takeWhile_append_dropWhile (p := fun c => !p c) (l := cs)] at hc
  unfold cutAt at hbefore hafter
  rw [hspan] at hbefore hafter
  cases hdrop : cs.dropWhile fun c => !p c with
  | nil =>
      rw [hdrop] at hc hbefore
      rw [List.append_nil] at hc
      exact hbefore c hc
  | cons d rest =>
      rw [hdrop] at hc hbefore hafter
      have hd : p d = true := by
        have hhead := List.head?_dropWhile_not (fun c => !p c) cs
        rw [hdrop] at hhead
        simpa using hhead
      rcases List.mem_append.1 hc with hc | hc
      · exact hbefore c hc
      · rcases List.mem_cons.1 hc with rfl | hc
        · exact hp c hd
        · exact hafter rest rfl c hc

theorem isWordChar_of_isDigits {cs : List Char} (h : Number.isDigits cs = true) :
    ∀ c ∈ cs, isWordChar c = true := by
  intro c hc
  rw [Number.isDigits, Bool.and_eq_true, List.all_eq_true] at h
  simp [isWordChar, Char.isAlphanum, h.2 c hc]

/-- A literal is one word. -/
theorem isWordChar_of_isLiteral {cs : List Char} (h : Number.isLiteral cs = true) :
    ∀ c ∈ cs, isWordChar c = true := by
  -- The parts of a literal: its point, its exponent with a sign, and digits.
  have hpoint : ∀ c : Char, decide (c = '.') = true → isWordChar c = true := by
    intro c hc
    rw [of_decide_eq_true hc]
    decide
  have hexponent : ∀ c : Char, (c = 'e' || c = 'E') = true → isWordChar c = true := by
    intro c hc
    rcases (by simpa using hc : c = 'e' ∨ c = 'E') with rfl | rfl
    · decide
    · decide
  have hsigned : ∀ e, Number.isDigits (readSign e).2 = true → ∀ c ∈ e, isWordChar c = true := by
    intro e he c hc
    unfold readSign at he
    split at he
    · rcases List.mem_cons.1 hc with rfl | hc
      · decide
      · exact isWordChar_of_isDigits he c hc
    · rcases List.mem_cons.1 hc with rfl | hc
      · decide
      · exact isWordChar_of_isDigits he c hc
    · exact isWordChar_of_isDigits he c hc
  have hunsigned : ∀ ds, (let number := cutAt (fun c => c = 'e' || c = 'E') ds
      let parts := cutAt (fun c => c = '.') number.1
      Number.isDigits parts.1 && (parts.1 = ['0'] || parts.1.head? ≠ some '0') &&
        parts.2.all Number.isDigits &&
        number.2.all fun e => Number.isDigits (readSign e).2) = true →
      ∀ c ∈ ds, isWordChar c = true := by
    intro ds hds
    simp only [Bool.and_eq_true, Option.all_eq_true] at hds
    obtain ⟨⟨⟨hwhole, -⟩, hfraction⟩, hexp⟩ := hds
    refine forall_of_cutAt hexponent (forall_of_cutAt hpoint ?_ ?_) ?_
    · exact isWordChar_of_isDigits hwhole
    · exact fun rest hrest => isWordChar_of_isDigits (hfraction rest hrest)
    · exact fun rest hrest => hsigned rest (hexp rest hrest)
  unfold Number.isLiteral at h
  split at h
  · next ds =>
      intro c hc
      rcases List.mem_cons.1 hc with rfl | hc
      · decide
      · exact hunsigned ds h c hc
  · exact hunsigned _ h

/-- A number is the one of the literal that it is kept with. -/
theorem scalarOf_text {x : Number} (h : x.Printable) : scalarOf x.text.toList = some (.num x) := by
  have hliteral : Number.ofLiteral x.text = x := by
    unfold Number.ofLiteral
    split
    · next value hvalue =>
        have heq : x.value = value := Option.some.inj (x.reads_back.symm.trans hvalue)
        subst heq
        rfl
    · next hnone =>
        rw [x.reads_back] at hnone
        cases hnone
  have hne : ∀ word ∈ ["null".toList, "true".toList, "false".toList], x.text.toList ≠ word := by
    have hno : ∀ word ∈ ["null".toList, "true".toList, "false".toList],
        Number.isLiteral word = false := by decide
    rintro word hword rfl
    rw [Number.Printable, hno _ hword] at h
    cases h
  simp only [List.forall_mem_cons] at hne
  have hprint : Number.isLiteral x.text.toList = true := h
  rw [scalarOf, if_neg hne.1, if_neg hne.2.1, if_neg hne.2.2.1, if_pos hprint, String.ofList_toList,
    hliteral]

/-- **A written scalar that is no string is one token.** -/
theorem tokens_scalarOf {word : List Char} (hword : ∀ c ∈ word, isWordChar c = true) {j : Json}
    (hj : scalarOf word = some j) {rest : List Char} (hrest : EndsWord rest) :
    tokens .between (word ++ rest) = (tokens .between rest).map (.scalar j :: ·) := by
  cases word with
  | nil => cases hj
  | cons c word =>
      have hc := hword c List.mem_cons_self
      have hother : ∀ d ∈ [' ', '\t', '\n', '\r', '{', '}', '[', ']', ',', ':', '"'],
          isWordChar d = false := by decide
      have hne : ∀ d ∈ [' ', '\t', '\n', '\r', '{', '}', '[', ']', ',', ':', '"'], c ≠ d := by
        rintro d hd rfl
        rw [hother c hd] at hc
        cases hc
      have hstart : Scan.between.step c = some ([], .word [c]) := by
        simp only [List.forall_mem_cons] at hne
        simp [step, start, hne, hc]
      rw [List.cons_append, tokens_cons (.word [c]) hstart]
      exact @tokens_word word (fun d hd => hword d (List.mem_cons_of_mem _ hd)) [c] j hj rest hrest

theorem endsWord_printItems {rest : List Char} (h : EndsWord rest) :
    ∀ items, EndsWord (Json.printItems items ++ rest)
  | [] => h
  | _ :: _ => endsWord_cons (by decide)

theorem endsWord_printFields {rest : List Char} (h : EndsWord rest) :
    ∀ fields, EndsWord (Json.printFields fields ++ rest)
  | [] => h
  | (_, _) :: _ => endsWord_cons (by decide)

mutual

/-- The scan of a written value. The induction is on the value; items and properties go on with a
bracket or a comma, so that words end. -/
theorem tokens_print : ∀ {j : Json}, j.Printable → ∀ {rest : List Char}, EndsWord rest →
    tokens .between (j.print ++ rest) = (tokens .between rest).map (j.tokens ++ ·)
  | .null, _, _, hrest => tokens_scalarOf (by decide) rfl hrest
  | .bool true, _, _, hrest => tokens_scalarOf (by decide) rfl hrest
  | .bool false, _, _, hrest => tokens_scalarOf (by decide) rfl hrest
  | .num _, hprint, _, hrest =>
      tokens_scalarOf (isWordChar_of_isLiteral hprint) (scalarOf_text hprint) hrest
  | .str s, _, rest, _ => tokens_quote s rest
  | .arr [], _, rest, _ => by
      show tokens .between ('[' :: ']' :: rest) = _
      rw [tokens_punct (by decide), tokens_punct (by decide), Option.map_map]
      rfl
  | .arr (item :: items), hprint, rest, _ => by
      -- What follows a value of a list ends a word: a comma or the bracket.
      have hclose : EndsWord (']' :: rest) := endsWord_cons (by decide)
      rw [Json.print]
      simp only [List.cons_append, List.append_assoc, List.nil_append]
      rw [tokens_punct (by decide), tokens_print hprint.1 (endsWord_printItems hclose items),
        tokens_printItems hprint.2 hclose, tokens_punct (by decide)]
      simp [Option.map_map, Function.comp_def, Json.tokens]
  | .obj [], _, rest, _ => by
      show tokens .between ('{' :: '}' :: rest) = _
      rw [tokens_punct (by decide), tokens_punct (by decide), Option.map_map]
      rfl
  | .obj ((name, value) :: fields), hprint, rest, _ => by
      have hclose : EndsWord ('}' :: rest) := endsWord_cons (by decide)
      rw [Json.print]
      simp only [List.cons_append, List.append_assoc, List.nil_append]
      rw [tokens_punct (by decide), tokens_quote, tokens_punct (by decide),
        tokens_print hprint.1 (endsWord_printFields hclose fields),
        tokens_printFields hprint.2 hclose, tokens_punct (by decide)]
      simp [Option.map_map, Function.comp_def, Json.tokens]

theorem tokens_printItems : ∀ {items : List Json}, Json.itemsPrintable items →
    ∀ {rest : List Char}, EndsWord rest →
      tokens .between (Json.printItems items ++ rest) =
        (tokens .between rest).map (Json.tokensItems items ++ ·)
  | [], _, rest, _ => by simp [Json.printItems, Json.tokensItems]
  | item :: items, hprint, rest, hrest => by
      rw [Json.printItems]
      simp only [List.cons_append, List.append_assoc]
      rw [tokens_punct (by decide), tokens_print hprint.1 (endsWord_printItems hrest items),
        tokens_printItems hprint.2 hrest]
      simp [Option.map_map, Function.comp_def, Json.tokensItems]

theorem tokens_printFields : ∀ {fields : List (String × Json)}, Json.fieldsPrintable fields →
    ∀ {rest : List Char}, EndsWord rest →
      tokens .between (Json.printFields fields ++ rest) =
        (tokens .between rest).map (Json.tokensFields fields ++ ·)
  | [], _, rest, _ => by simp [Json.printFields, Json.tokensFields]
  | (name, value) :: fields, hprint, rest, hrest => by
      rw [Json.printFields]
      simp only [List.cons_append, List.append_assoc]
      rw [tokens_punct (by decide), tokens_quote, tokens_punct (by decide),
        tokens_print hprint.1 (endsWord_printFields hrest fields), tokens_printFields hprint.2 hrest]
      simp [Option.map_map, Function.comp_def, Json.tokensFields]

end

end Scan

/-! ### What is built from the tokens -/

theorem setField_of_new {name : String} {j : Json} {read : List (String × Json)}
    (h : name ∉ read.map Prod.fst) : setField name j read = read ++ [(name, j)] := by
  rw [setField, if_neg]
  intro hany
  obtain ⟨field, hfield, hname⟩ := List.any_eq_true.1 hany
  exact h (List.mem_map.2 ⟨field, hfield, of_decide_eq_true hname⟩)

namespace State

/-- The state after some tokens. -/
def run (state : State) (tokens : List Token) : Option State := tokens.foldlM step state

theorem run_cons (next : State) {state : State} {token : Token}
    (h : state.step token = some next) {rest : List Token} : state.run (token :: rest) = next.run rest := by
  rw [run, List.foldlM_cons, h]
  rfl

/-- The first item of an array begins as a later one does, although the array might have been empty.
-/
theorem run_first (j : Json) (stack : List Frame) (rest : List Token) :
    (valueOrClose stack).run (j.tokens ++ rest) =
      (value (.items [] :: stack)).run (j.tokens ++ rest) := by
  cases j with
  | arr items => cases items <;> rfl
  | obj fields => cases fields <;> rfl
  | _ => rfl

mutual

theorem run_value : ∀ {j : Json}, j.DistinctKeys → ∀ (stack : List Frame) (rest : List Token),
    (value stack).run (j.tokens ++ rest) = (separator j stack).run rest
  | .null, _, _, _ => rfl
  | .bool _, _, _, _ => rfl
  | .num _, _, _, _ => rfl
  | .str _, _, _, _ => rfl
  | .arr [], _, _, _ => rfl
  | .arr (item :: items), hkeys, stack, rest => by
      rw [Json.DistinctKeys, Json.itemsDistinct] at hkeys
      rw [Json.tokens]
      simp only [List.cons_append, List.append_assoc, List.nil_append]
      rw [run_cons (.valueOrClose stack) rfl, run_first, run_value hkeys.1,
        run_items hkeys.2]
      rfl
  | .obj [], _, _, _ => rfl
  | .obj ((name, j) :: fields), hkeys, stack, rest => by
      rw [Json.DistinctKeys, Json.fieldsDistinct] at hkeys
      rw [Json.tokens]
      simp only [List.cons_append, List.append_assoc, List.nil_append]
      rw [run_cons (.keyOrClose stack) rfl, run_cons (.colon [] name stack) rfl,
        run_cons (.value (.field [] name :: stack)) rfl, run_value hkeys.2.1,
        run_fields hkeys.2.2 (by simpa [setField] using hkeys.1)]
      rfl

theorem run_items : ∀ {items : List Json}, Json.itemsDistinct items →
    ∀ (j : Json) (read : List Json) (stack : List Frame) (rest : List Token),
      (separator j (.items read :: stack)).run (Json.tokensItems items ++ .punct ']' :: rest) =
        (separator (.arr ((j :: read).reverse ++ items)) stack).run rest
  | [], _, j, read, stack, rest => by
      rw [List.append_nil]
      rfl
  | item :: items, hkeys, j, read, stack, rest => by
      rw [Json.itemsDistinct] at hkeys
      rw [Json.tokensItems]
      simp only [List.cons_append, List.append_assoc]
      rw [run_cons (.value (.items (j :: read) :: stack)) rfl, run_value hkeys.1,
        run_items hkeys.2]
      simp

theorem run_fields : ∀ {fields : List (String × Json)}, Json.fieldsDistinct fields →
    ∀ {j : Json} {read : List (String × Json)} {name : String},
      ((setField name j read ++ fields).map Prod.fst).Nodup →
      ∀ (stack : List Frame) (rest : List Token),
        (separator j (.field read name :: stack)).run (Json.tokensFields fields ++ .punct '}' :: rest) =
          (separator (.obj (setField name j read ++ fields)) stack).run rest
  | [], _, j, read, name, _, stack, rest => by
      rw [List.append_nil]
      rfl
  | (other, i) :: fields, hkeys, j, read, name, hnodup, stack, rest => by
      rw [Json.fieldsDistinct] at hkeys
      have hnew : setField other i (setField name j read) =
          setField name j read ++ [(other, i)] := by
        refine setField_of_new fun hmem => ?_
        rw [List.map_append, List.nodup_append] at hnodup
        exact hnodup.2.2 other hmem other (by simp) rfl
      rw [Json.tokensFields]
      simp only [List.cons_append, List.append_assoc]
      rw [run_cons (.key (setField name j read) stack) rfl,
        run_cons (.colon (setField name j read) other stack) rfl,
        run_cons (.value (.field (setField name j read) other :: stack)) rfl,
        run_value hkeys.1, run_fields hkeys.2 (by rw [hnew]; simpa using hnodup), hnew]
      simp

end

end State

/-- **A written value is read back.** The two conditions hold of whatever was read before, so that a
migration may read, change and write a content. -/
theorem JSON.parse_stringify {j : Json} (hkeys : j.DistinctKeys) (hprint : j.Printable) :
    JSON.parse (JSON.stringify j) = some j := by
  have hscan := @Scan.tokens_print j hprint [] (by simp [Scan.EndsWord])
  rw [List.append_nil] at hscan
  have hrun : j.tokens.foldlM State.step (.value []) = some (.separator j []) := by
    have h := State.run_value hkeys [] []
    rwa [List.append_nil] at h
  rw [JSON.parse, JSON.stringify, String.toList_ofList, hscan]
  simp [Scan.tokens, hrun]

/-! ### What was read can be written -/

namespace Json

theorem itemsPrintable_iff {items : List Json} :
    itemsPrintable items ↔ ∀ j ∈ items, Printable j := by
  induction items with
  | nil => simp [itemsPrintable]
  | cons j items ih => simp [itemsPrintable, ih]

theorem fieldsPrintable_iff {fields : List (String × Json)} :
    fieldsPrintable fields ↔ ∀ field ∈ fields, Printable field.2 := by
  induction fields with
  | nil => simp [fieldsPrintable]
  | cons field fields ih =>
      obtain ⟨name, j⟩ := field
      rw [fieldsPrintable, ih, List.forall_mem_cons]

theorem inductive_printable : Json.Inductive Json.Printable where
  arr items h := by
    rw [Printable, itemsPrintable_iff]
    exact h
  obj fields h := by
    rw [Printable, fieldsPrintable_iff]
    exact h.2

/-- The number of a word is kept with a literal. -/
theorem IsToken.printable {j : Json} (h : j.IsToken) : j.Printable := by
  rcases h with ⟨s, rfl⟩ | ⟨word, hword⟩
  · simp [Printable]
  · unfold scalarOf at hword
    split at hword
    · cases hword; simp [Printable]
    split at hword
    · cases hword; simp [Printable]
    split at hword
    · cases hword; simp [Printable]
    split at hword
    · next hliteral =>
        cases hword
        rw [Printable, Number.Printable, Number.ofLiteral]
        split
        · rwa [String.toList_ofList]
        · decide
    · cases hword

end Json

/-- The numbers that are read are kept with literals. -/
theorem JSON.parse_printable {text : String} {j : Json} (h : JSON.parse text = some j) :
    j.Printable :=
  JSON.parse_inductive Json.inductive_printable (fun _ hj => hj.printable) h

end Js
