import VetHealth.Js.Json

/-!
# VetHealth.Js.Parse

**Reading JSON texts.** `JSON.parse` runs in two passes. `Scan` cuts a text into tokens, one
character at a time; a string is collected as UTF-16 code units, since an escape may name half of a
character. `State` builds the value from the tokens, with a stack of the arrays and objects that are
still open.

Two values of the language are not in the model: half of a surrogate pair is read as the replacement
character, and a number beyond the doubles as the largest of them. A number keeps the text it was
written as.
-/

namespace Js

/-! ### UTF-16 -/

/-- The code units of a character. -/
def utf16 (c : Char) : List Nat :=
  if c.toNat < 0x10000 then [c.toNat]
  else [0xd800 + (c.toNat - 0x10000) / 0x400, 0xdc00 + (c.toNat - 0x10000) % 0x400]

/-- The character of a code unit on its own. Half a pair is no character; it becomes the replacement
character when the text is written. -/
def ofUnit (u : Nat) : Char := if 0xd800 ≤ u ∧ u < 0xe000 then Char.ofNat 0xfffd else Char.ofNat u

/-- The characters of a text of code units. -/
def ofUtf16 : List Nat → List Char
  | [] => []
  | [u] => [ofUnit u]
  | high :: low :: us =>
      if (0xd800 ≤ high ∧ high < 0xdc00) ∧ 0xdc00 ≤ low ∧ low < 0xe000 then
        Char.ofNat (0x10000 + (high - 0xd800) * 0x400 + (low - 0xdc00)) :: ofUtf16 us
      else ofUnit high :: ofUtf16 (low :: us)

/-- A code unit that is no first half of a pair stands for itself. -/
theorem ofUtf16_cons {u : Nat} (h : ¬(0xd800 ≤ u ∧ u < 0xdc00)) (us : List Nat) :
    ofUtf16 (u :: us) = ofUnit u :: ofUtf16 us := by
  cases us with
  | nil => rfl
  | cons low us =>
      rw [ofUtf16, if_neg]
      rintro ⟨hhigh, -⟩
      exact h hhigh

theorem ofUnit_toNat (c : Char) : ofUnit c.toNat = c := by
  have hvalid : c.toNat < 0xd800 ∨ 0xdfff < c.toNat ∧ c.toNat < 0x110000 := c.valid
  rw [ofUnit, if_neg (by omega), Char.ofNat_toNat]

/-- A text is read back from its code units: the halves of a pair stand side by side and are joined
again. -/
theorem ofUtf16_utf16 (cs : List Char) : ofUtf16 (cs.flatMap utf16) = cs := by
  induction cs with
  | nil => rfl
  | cons c cs ih =>
      have hvalid : c.toNat < 0xd800 ∨ 0xdfff < c.toNat ∧ c.toNat < 0x110000 := c.valid
      rw [List.flatMap_cons, utf16]
      split
      · rw [List.singleton_append, ofUtf16_cons (by omega), ofUnit_toNat, ih]
      · show ofUtf16 (_ :: _ :: cs.flatMap utf16) = _
        have hsum : 0x10000 + (0xd800 + (c.toNat - 0x10000) / 0x400 - 0xd800) * 0x400 +
            (0xdc00 + (c.toNat - 0x10000) % 0x400 - 0xdc00) = c.toNat := by omega
        rw [ofUtf16, if_pos (by omega), hsum, Char.ofNat_toNat, ih]

/-! ### Scalars -/

namespace Number

/-- At least one digit, and nothing else. -/
def isDigits (cs : List Char) : Bool := !cs.isEmpty && cs.all Char.isDigit

/-- The number literals of JSON. -/
def isLiteral (cs : List Char) : Bool :=
  let unsigned := match cs with
    | '-' :: ds => ds
    | ds => ds
  let (mantissa, exponent) := cutAt (fun c => c = 'e' || c = 'E') unsigned
  let (whole, fraction) := cutAt (fun c => c = '.') mantissa
  isDigits whole && (whole = ['0'] || whole.head? ≠ some '0') && fraction.all isDigits &&
    exponent.all fun e => isDigits (readSign e).2

/-- The largest double. -/
def largest : Number := ⟨(2 ^ 53 - 1) * 2 ^ 971, "1.7976931348623157e308", by decide +kernel⟩

/-- The number of a literal. -/
def ofLiteral (text : String) : Number :=
  match h : stringToNumber text with
  | some value => ⟨value, text, h⟩
  | none => largest

end Number

/-- The value of a run of letters, digits, signs and points. -/
def scalarOf (word : List Char) : Option Json :=
  if word = "null".toList then some .null
  else if word = "true".toList then some (.bool true)
  else if word = "false".toList then some (.bool false)
  else if Number.isLiteral word then some (.num (Number.ofLiteral (String.ofList word)))
  else none

/-- The value is a string, or that of a word. These are the values that a token stands for, before
any brackets are looked at. -/
def Json.IsToken (j : Json) : Prop := (∃ s, j = .str s) ∨ ∃ word, scalarOf word = some j

theorem scalarOf_isScalar {word : List Char} {j : Json} (h : scalarOf word = some j) :
    j.isScalar = true := by
  unfold scalarOf at h
  split at h
  · cases h; rfl
  split at h
  · cases h; rfl
  split at h
  · cases h; rfl
  split at h
  · cases h; rfl
  · cases h

theorem Json.IsToken.isScalar {j : Json} (h : j.IsToken) : j.isScalar = true := by
  rcases h with ⟨s, rfl⟩ | ⟨word, hword⟩
  · rfl
  · exact scalarOf_isScalar hword

/-! ### Tokens -/

inductive Token
  /-- One of `{`, `}`, `[`, `]`, `,` and `:`. -/
  | punct (c : Char)
  | scalar (value : Json)

/-- Where the scan of a text stands; what has been read of a token is kept in reverse. The scan is a
machine on characters, so that its facts are proved one character at a time. -/
inductive Scan
  | between
  | word (read : List Char)
  | string (read : List Nat)
  | escape (read : List Nat)
  | code (read : List Nat) (count unit : Nat)

namespace Scan

def isWordChar (c : Char) : Bool := c.isAlphanum || c = '+' || c = '-' || c = '.'

/-- The character after a backslash. -/
def escaped (c : Char) : Option Nat :=
  match c with
  | '"' | '\\' | '/' => some c.toNat
  | 'b' => some 0x8
  | 'f' => some 0xc
  | 'n' => some 0xa
  | 'r' => some 0xd
  | 't' => some 0x9
  | _ => none

/-- Read a character outside all tokens. -/
def start (c : Char) : Option (List Token × Scan) :=
  if c ∈ [' ', '\t', '\n', '\r'] then some ([], .between)
  else if c ∈ ['{', '}', '[', ']', ',', ':'] then some ([.punct c], .between)
  else if c = '"' then some ([], .string [])
  else if isWordChar c then some ([], .word [c])
  else none

/-- Read a character: the tokens that it ends, and where the scan stands then. A word ends before
the character that ends it, which is then read as the first of the next token. -/
def step (scan : Scan) (c : Char) : Option (List Token × Scan) :=
  match scan with
  | .between => start c
  | .word read =>
      if isWordChar c then some ([], .word (c :: read))
      else do
        let value ← scalarOf read.reverse
        let (tokens, next) ← start c
        return (.scalar value :: tokens, next)
  | .string read =>
      if c = '"' then some ([.scalar (.str (String.ofList (ofUtf16 read.reverse)))], .between)
      else if c = '\\' then some ([], .escape read)
      else if c.toNat < 0x20 then none
      else some ([], .string ((utf16 c).reverse ++ read))
  | .escape read =>
      if c = 'u' then some ([], .code read 0 0)
      else (escaped c).map fun u => ([], .string (u :: read))
  | .code read count unit =>
      (digitValue 16 c).map fun digit =>
        if count = 3 then ([], .string ((unit * 16 + digit) :: read))
        else ([], .code read (count + 1) (unit * 16 + digit))

/-- The tokens of a text. -/
def tokens : Scan → List Char → Option (List Token)
  | .between, [] => some []
  | .word read, [] => (scalarOf read.reverse).map fun value => [.scalar value]
  | _, [] => none
  | scan, c :: cs => do
      let (read, next) ← scan.step c
      return read ++ (← tokens next cs)

theorem start_scalar {c : Char} {out : List Token} {next : Scan} (h : start c = some (out, next)) :
    ∀ j, .scalar j ∉ out := by
  unfold start at h
  split at h
  · cases h; simp
  split at h
  · cases h; simp
  split at h
  · cases h; simp
  split at h
  · cases h; simp
  · cases h

/-- The value of a token is a string, or that of a word. -/
theorem step_scalar {scan next : Scan} {c : Char} {out : List Token}
    (h : scan.step c = some (out, next)) {j : Json} (hj : .scalar j ∈ out) : j.IsToken := by
  cases scan with
  | between => exact absurd hj (start_scalar h j)
  -- A word ends with the character after it, which may begin something itself.
  | word read =>
      rw [step] at h
      split at h
      · cases h; cases hj
      · simp only [Option.bind_eq_bind, Option.bind_eq_some_iff] at h
        obtain ⟨value, hvalue, ⟨started, next'⟩, hstart, hout⟩ := h
        cases hout
        rcases List.mem_cons.1 hj with hj | hj
        · cases hj
          exact Or.inr ⟨_, hvalue⟩
        · exact absurd hj (start_scalar hstart j)
  | string read =>
      rw [step] at h
      split at h
      · cases h
        cases List.mem_singleton.1 hj
        exact Or.inl ⟨_, rfl⟩
      · split at h
        · cases h; cases hj
        split at h
        · cases h
        · cases h; cases hj
  | escape read =>
      rw [step] at h
      split at h
      · cases h; cases hj
      · obtain ⟨u, -, hout⟩ := Option.map_eq_some_iff.1 h
        cases hout; cases hj
  | code read count unit =>
      obtain ⟨digit, -, hout⟩ := Option.map_eq_some_iff.1 h
      split at hout
      · cases hout; cases hj
      · cases hout; cases hj

theorem tokens_scalar {scan : Scan} {cs : List Char} {out : List Token}
    (h : tokens scan cs = some out) {j : Json} (hj : .scalar j ∈ out) : j.IsToken := by
  induction cs generalizing scan out with
  | nil =>
      cases scan with
      | between => cases h; cases hj
      | word read =>
          obtain ⟨value, hvalue, rfl⟩ := Option.map_eq_some_iff.1 h
          cases List.mem_singleton.1 hj
          exact Or.inr ⟨_, hvalue⟩
      | _ => cases h
  | cons c cs ih =>
      simp only [tokens, Option.bind_eq_bind, Option.bind_eq_some_iff] at h
      obtain ⟨⟨read, next⟩, hstep, rest, hrest, hout⟩ := h
      cases hout
      rcases List.mem_append.1 hj with hj | hj
      · exact step_scalar hstep hj
      · exact ih hrest hj

end Scan

/-! ### Values -/

/-- Give a property its value: the last of several properties of one name counts, at the place of
the first. -/
def setField (key : String) (value : Json) (fields : List (String × Json)) : List (String × Json) :=
  if fields.any fun field => field.1 = key then
    fields.map fun field => if field.1 = key then (key, value) else field
  else fields ++ [(key, value)]

theorem mem_setField {name : String} {j : Json} {fields : List (String × Json)}
    {field : String × Json} (h : field ∈ setField name j fields) :
    field = (name, j) ∨ field ∈ fields := by
  unfold setField at h
  split at h
  · obtain ⟨old, hold, rfl⟩ := List.mem_map.1 h
    split
    · exact Or.inl rfl
    · exact Or.inr hold
  · rcases List.mem_append.1 h with h | h
    · exact Or.inr h
    · exact Or.inl (List.mem_singleton.1 h)

theorem nodup_setField {name : String} {j : Json} {fields : List (String × Json)}
    (h : (fields.map Prod.fst).Nodup) : ((setField name j fields).map Prod.fst).Nodup := by
  unfold setField
  split
  · have hkeys : (fields.map fun field => if field.1 = name then (name, j) else field).map Prod.fst =
        fields.map Prod.fst := by
      rw [List.map_map]
      refine List.map_congr_left fun field _ => ?_
      by_cases hname : field.1 = name
      · simp [hname]
      · simp [hname]
    rwa [hkeys]
  · next hnone =>
      rw [List.map_append, List.nodup_append]
      refine ⟨h, by simp, ?_⟩
      rintro key hkey other hother rfl
      obtain ⟨field, hfield, rfl⟩ := List.mem_map.1 hkey
      refine hnone (List.any_eq_true.2 ⟨field, hfield, ?_⟩)
      simpa using hother

/-- An open array with its items in reverse, or an open object whose property `name` is being read.
The stack of frames takes the place of the parser's recursion. -/
inductive Frame
  | items (read : List Json)
  | field (read : List (String × Json)) (name : String)

/-- What may come next. A text is refused at the first token that has no place there. -/
inductive State
  | value (stack : List Frame)
  | valueOrClose (stack : List Frame)
  | keyOrClose (stack : List Frame)
  | key (read : List (String × Json)) (stack : List Frame)
  | colon (read : List (String × Json)) (name : String) (stack : List Frame)
  | separator (j : Json) (stack : List Frame)

namespace State

/-- A value begins. -/
def open? (token : Token) (stack : List Frame) : Option State :=
  match token with
  | .scalar j => some (.separator j stack)
  | .punct '[' => some (.valueOrClose stack)
  | .punct '{' => some (.keyOrClose stack)
  | .punct _ => none

def step (state : State) (token : Token) : Option State :=
  match state, token with
  | .value stack, token => open? token stack
  | .valueOrClose stack, .punct ']' => some (.separator (.arr []) stack)
  | .valueOrClose stack, token => open? token (.items [] :: stack)
  | .keyOrClose stack, .punct '}' => some (.separator (.obj []) stack)
  | .keyOrClose stack, .scalar (.str name) => some (.colon [] name stack)
  | .key read stack, .scalar (.str name) => some (.colon read name stack)
  | .colon read name stack, .punct ':' => some (.value (.field read name :: stack))
  | .separator j (.items read :: stack), .punct ',' => some (.value (.items (j :: read) :: stack))
  | .separator j (.items read :: stack), .punct ']' =>
      some (.separator (.arr (j :: read).reverse) stack)
  | .separator j (.field read name :: stack), .punct ',' =>
      some (.key (setField name j read) stack)
  | .separator j (.field read name :: stack), .punct '}' =>
      some (.separator (.obj (setField name j read)) stack)
  | _, _ => none

end State

/-- `JSON.parse(text)`; `none` is a `SyntaxError`. The whole text is one value, with nothing after
it but white space. -/
def JSON.parse (text : String) : Option Json := do
  let tokens ← Scan.tokens .between text.toList
  match ← tokens.foldlM State.step (.value []) with
  | .separator j [] => some j
  | _ => none

/-! ### What is read -/

namespace Json

mutual

/-- No object in the value has two properties of one name. It is what a lookup by name relies on. -/
def DistinctKeys : Json → Prop
  | .arr items => itemsDistinct items
  | .obj fields => (fields.map Prod.fst).Nodup ∧ fieldsDistinct fields
  | _ => True

def itemsDistinct : List Json → Prop
  | [] => True
  | j :: items => DistinctKeys j ∧ itemsDistinct items

def fieldsDistinct : List (String × Json) → Prop
  | [] => True
  | (_, j) :: fields => DistinctKeys j ∧ fieldsDistinct fields

end

theorem itemsDistinct_iff {items : List Json} :
    itemsDistinct items ↔ ∀ j ∈ items, DistinctKeys j := by
  induction items with
  | nil => simp [itemsDistinct]
  | cons j items ih => simp [itemsDistinct, ih]

theorem fieldsDistinct_iff {fields : List (String × Json)} :
    fieldsDistinct fields ↔ ∀ field ∈ fields, DistinctKeys field.2 := by
  induction fields with
  | nil => simp [fieldsDistinct]
  | cons field fields ih =>
      obtain ⟨name, j⟩ := field
      rw [fieldsDistinct, ih, List.forall_mem_cons]

theorem DistinctKeys.of_isScalar {j : Json} (h : j.isScalar = true) : DistinctKeys j := by
  cases j with
  | arr items => cases h
  | obj fields => cases h
  | _ => simp [DistinctKeys]

end Json

section

variable {P : Json → Prop}

/-- The properties read so far of an object. -/
def FieldsRead (P : Json → Prop) (read : List (String × Json)) : Prop :=
  (read.map Prod.fst).Nodup ∧ ∀ field ∈ read, P field.2

theorem FieldsRead.nil : FieldsRead P [] := ⟨List.nodup_nil, by simp⟩

theorem FieldsRead.setField {name : String} {j : Json} {read : List (String × Json)}
    (h : FieldsRead P read) (hj : P j) : FieldsRead P (setField name j read) := by
  refine ⟨nodup_setField h.1, fun field hfield => ?_⟩
  rcases mem_setField hfield with rfl | hold
  · exact hj
  · exact h.2 field hold

/-- What holds of the items of an array holds of the array, and what holds of the properties of an
object, of distinct names, holds of the object. -/
structure Json.Inductive (P : Json → Prop) : Prop where
  arr : ∀ items : List Json, (∀ j ∈ items, P j) → P (.arr items)
  obj : ∀ fields : List (String × Json), FieldsRead P fields → P (.obj fields)

theorem Json.inductive_distinctKeys : Json.Inductive Json.DistinctKeys where
  arr items h := by
    rw [Json.DistinctKeys, Json.itemsDistinct_iff]
    exact h
  obj fields h := by
    rw [Json.DistinctKeys, Json.fieldsDistinct_iff]
    exact h

def Frame.All (P : Json → Prop) : Frame → Prop
  | .items read => ∀ j ∈ read, P j
  | .field read _ => FieldsRead P read

namespace State

/-- `P` holds of all values that a state has read. -/
def All (P : Json → Prop) : State → Prop
  | .value stack | .valueOrClose stack | .keyOrClose stack => ∀ frame ∈ stack, frame.All P
  | .key read stack | .colon read _ stack => FieldsRead P read ∧ ∀ frame ∈ stack, frame.All P
  | .separator j stack => P j ∧ ∀ frame ∈ stack, frame.All P

theorem All.open? {token : Token} {stack : List Frame} {next : State}
    (hstack : ∀ frame ∈ stack, frame.All P) (htoken : ∀ j, token = .scalar j → P j)
    (h : State.open? token stack = some next) : next.All P := by
  unfold State.open? at h
  split at h
  · cases h
    exact ⟨htoken _ rfl, hstack⟩
  · cases h
    exact hstack
  · cases h
    exact hstack
  · cases h

theorem All.step (hP : Json.Inductive P) {state next : State} {token : Token}
    (hstate : state.All P) (htoken : ∀ j, token = .scalar j → P j)
    (h : state.step token = some next) : next.All P := by
  unfold State.step at h
  split at h
  -- The cases are those of the machine: what stands on the stack, and the token.
  · exact All.open? hstate htoken h
  · cases h
    exact ⟨hP.arr [] (by simp), hstate⟩
  · refine All.open? ?_ htoken h
    exact List.forall_mem_cons.2 ⟨by simp [Frame.All], hstate⟩
  · cases h
    exact ⟨hP.obj [] FieldsRead.nil, hstate⟩
  · cases h
    exact ⟨FieldsRead.nil, hstate⟩
  · cases h
    exact hstate
  · cases h
    exact List.forall_mem_cons.2 hstate
  · cases h
    obtain ⟨hframe, hstack⟩ := List.forall_mem_cons.1 hstate.2
    exact List.forall_mem_cons.2 ⟨List.forall_mem_cons.2 ⟨hstate.1, hframe⟩, hstack⟩
  · cases h
    obtain ⟨hframe, hstack⟩ := List.forall_mem_cons.1 hstate.2
    refine ⟨hP.arr _ fun i hi => ?_, hstack⟩
    exact List.forall_mem_cons.2 ⟨hstate.1, hframe⟩ i (List.mem_reverse.1 hi)
  · cases h
    obtain ⟨hframe, hstack⟩ := List.forall_mem_cons.1 hstate.2
    exact ⟨FieldsRead.setField hframe hstate.1, hstack⟩
  · cases h
    obtain ⟨hframe, hstack⟩ := List.forall_mem_cons.1 hstate.2
    exact ⟨hP.obj _ (FieldsRead.setField hframe hstate.1), hstack⟩
  · cases h

theorem All.foldlM (hP : Json.Inductive P) {tokens : List Token} {state next : State}
    (hstate : state.All P) (htokens : ∀ j, .scalar j ∈ tokens → P j)
    (h : tokens.foldlM State.step state = some next) : next.All P := by
  induction tokens generalizing state with
  | nil =>
      cases h
      exact hstate
  | cons token tokens ih =>
      rw [List.foldlM_cons] at h
      obtain ⟨middle, hstep, hrest⟩ := Option.bind_eq_some_iff.1 h
      refine ih (hstate.step hP ?_ hstep) (fun j hj => htokens j (List.mem_cons_of_mem _ hj)) hrest
      rintro j rfl
      exact htokens j List.mem_cons_self

end State

/-- **The rule for what is read**: what holds of the scalars of a text, and goes from the parts of a
value to the value, holds of the value. The induction is on the tokens, and the invariant speaks of
all frames that are open. -/
theorem JSON.parse_inductive (hP : Json.Inductive P) (hscalar : ∀ j : Json, j.IsToken → P j)
    {text : String} {j : Json} (h : JSON.parse text = some j) : P j := by
  simp only [JSON.parse, Option.bind_eq_bind, Option.bind_eq_some_iff] at h
  obtain ⟨tokens, htokens, state, hstate, hlast⟩ := h
  have hall : state.All P := by
    refine @State.All.foldlM P hP _ (.value []) _ (by simp [State.All]) ?_ hstate
    exact fun j hj => hscalar j (Scan.tokens_scalar htokens hj)
  split at hlast
  · cases hlast
    exact hall.1
  · cases hlast

end

/-- **What is read is well formed**: no object of it has two properties of one name. -/
theorem JSON.parse_distinctKeys {text : String} {j : Json} (h : JSON.parse text = some j) :
    j.DistinctKeys :=
  JSON.parse_inductive Json.inductive_distinctKeys (fun _ hj => .of_isScalar hj.isScalar) h

end Js
