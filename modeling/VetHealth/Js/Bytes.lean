import Mathlib.Data.List.Infix

/-!
# VetHealth.Js.Bytes

**Texts in a buffer.** `toString('ascii')` drops the highest bit of each byte. `toString('utf8')` puts
a character together as long as the next byte can belong to it. Bytes that belong to no character
are read as U+FFFD, and so is the rest of a character that the buffer cuts off.

A text of ASCII is read back by both, whatever follows it (`toUtf8_ascii_append`). Only the first reads
it out of other bytes too (`ascii_isPrefix_iff`).
-/

namespace Js.Bytes

/-- The bytes of an ASCII text. -/
def ascii (text : List Char) : List UInt8 := text.map fun c => UInt8.ofNat c.toNat

/-- A byte without its highest bit. `toString('ascii')` drops that bit and refuses no byte, so that
two buffers may read alike. -/
def asciiChar (b : UInt8) : Char := Char.ofNat (b.toNat % 128)

/-- `toString('ascii')`. -/
def toAscii (bytes : List UInt8) : List Char := bytes.map asciiChar

/-! ### UTF-8 -/

/-- A character that is not complete: its number so far, how many bytes it lacks, and between which
bounds the next of them must lie. The bounds rule out overlong forms and surrogates. -/
structure Lead where
  code : Nat
  lacks : Nat
  lower : UInt8
  upper : UInt8

/-- The first byte of a character. -/
def start (b : UInt8) : List Char × Option Lead :=
  if b ≤ 0x7F then ([Char.ofNat b.toNat], none)
  else if 0xC2 ≤ b ∧ b ≤ 0xDF then ([], some ⟨b.toNat % 32, 1, 0x80, 0xBF⟩)
  -- no overlong forms, no surrogates and nothing beyond U+10FFFF
  else if b = 0xE0 then ([], some ⟨0, 2, 0xA0, 0xBF⟩)
  else if b = 0xED then ([], some ⟨13, 2, 0x80, 0x9F⟩)
  else if 0xE1 ≤ b ∧ b ≤ 0xEF then ([], some ⟨b.toNat % 16, 2, 0x80, 0xBF⟩)
  else if b = 0xF0 then ([], some ⟨0, 3, 0x90, 0xBF⟩)
  else if b = 0xF4 then ([], some ⟨4, 3, 0x80, 0x8F⟩)
  else if 0xF1 ≤ b ∧ b ≤ 0xF3 then ([], some ⟨b.toNat % 8, 3, 0x80, 0xBF⟩)
  else ([Char.ofNat 0xFFFD], none)

/-- One more byte, when `lead` has been read. A byte that does not go on with the character ends it
as a replacement character and is read anew. -/
def read (lead : Option Lead) (b : UInt8) : List Char × Option Lead :=
  match lead with
  | none => start b
  | some lead =>
      if lead.lower ≤ b ∧ b ≤ lead.upper then
        let code := lead.code * 64 + b.toNat % 64
        if lead.lacks = 1 then ([Char.ofNat code], none)
        else ([], some ⟨code, lead.lacks - 1, 0x80, 0xBF⟩)
      -- the byte is the first of another character
      else (Char.ofNat 0xFFFD :: (start b).1, (start b).2)

def decode (lead : Option Lead) : List UInt8 → List Char
  | [] => if lead.isSome then [Char.ofNat 0xFFFD] else []
  | b :: bytes => (read lead b).1 ++ decode (read lead b).2 bytes

/-- `toString('utf8')`. No buffer is refused: what is no UTF-8 becomes replacement characters. -/
def toUtf8 (bytes : List UInt8) : List Char := decode none bytes

example : toUtf8 [0xC3, 0xA9, 0xE2, 0x82, 0xC3, 0xA9, 0xE2] =
    [0xE9, 0xFFFD, 0xE9, 0xFFFD].map Char.ofNat := by decide

/-! ### ASCII texts -/

/-- A text of ASCII is decoded to itself, whatever comes after it, since no ASCII byte is part of a
longer character. -/
theorem toUtf8_ascii_append {text : List Char} (h : ∀ c ∈ text, c.toNat < 128)
    (rest : List UInt8) : toUtf8 (ascii text ++ rest) = text ++ toUtf8 rest := by
  induction text with
  | nil => rfl
  | cons c text ih =>
      have hc : c.toNat < 128 := h c List.mem_cons_self
      have hbyte : (UInt8.ofNat c.toNat).toNat = c.toNat := by
        rw [UInt8.toNat_ofNat']
        omega
      have hlow : UInt8.ofNat c.toNat ≤ 0x7F := by
        rw [UInt8.le_iff_toNat_le, hbyte]
        exact Nat.le_of_lt_succ hc
      have hread : read none (UInt8.ofNat c.toNat) = ([c], none) := by
        rw [read, start, if_pos hlow, hbyte, Char.ofNat_toNat]
      have hrest := ih fun d hd => h d (List.mem_cons_of_mem _ hd)
      rw [toUtf8] at hrest ⊢
      rw [ascii, List.map_cons, List.cons_append, decode, hread]
      exact congrArg (c :: ·) hrest

theorem ofNat_asciiChar {b : UInt8} (h : b < 128) : UInt8.ofNat (asciiChar b).toNat = b := by
  have hlt : b.toNat < 128 := h
  have hchar : (Char.ofNat b.toNat).toNat = b.toNat := by
    have hvalid : b.toNat.isValidChar := Or.inl (by omega)
    rw [Char.ofNat, dif_pos hvalid]
    rfl
  rw [asciiChar, Nat.mod_eq_of_lt hlt, hchar, UInt8.ofNat_toNat]

theorem asciiChar_ofNat {c : Char} (h : c.toNat < 128) :
    asciiChar (UInt8.ofNat c.toNat) = c ∧ UInt8.ofNat c.toNat < 128 := by
  have hbyte : (UInt8.ofNat c.toNat).toNat = c.toNat := by
    rw [UInt8.toNat_ofNat']
    omega
  constructor
  · rw [asciiChar, hbyte, Nat.mod_eq_of_lt h, Char.ofNat_toNat]
  · rw [UInt8.lt_iff_toNat_lt, hbyte]
    exact h

/-- Bytes are those of a text when they are read as it and have no highest bit. The second half is
what a comparison by `toString('ascii')` leaves out. -/
theorem eq_ascii_iff {text : List Char} (h : ∀ c ∈ text, c.toNat < 128) {bytes : List UInt8} :
    ascii text = bytes ↔ toAscii bytes = text ∧ ∀ b ∈ bytes, b < 128 := by
  constructor
  · rintro rfl
    constructor
    · have hmap : ∀ c ∈ text, asciiChar (UInt8.ofNat c.toNat) = c :=
        fun c hc => (asciiChar_ofNat (h c hc)).1
      rw [toAscii, ascii, List.map_map]
      exact (List.map_congr_left hmap).trans (List.map_id _)
    · simp only [ascii, List.forall_mem_map]
      exact fun c hc => (asciiChar_ofNat (h c hc)).2
  · intro ⟨htext, hlow⟩
    rw [← htext, ascii, toAscii, List.map_map]
    exact (List.map_congr_left fun b hb => ofNat_asciiChar (hlow b hb)).trans (List.map_id _)

/-- What `toString('ascii')` finds at the front of a buffer and what is there. -/
theorem ascii_isPrefix_iff {text : List Char} (h : ∀ c ∈ text, c.toNat < 128)
    {bytes : List UInt8} :
    ascii text <+: bytes ↔
      toAscii (bytes.take text.length) = text ∧ ∀ b ∈ bytes.take text.length, b < 128 := by
  rw [← eq_ascii_iff h, List.prefix_iff_eq_take, ascii, List.length_map]

/-! ### What stands at a place -/

theorem append_isPrefix_iff {α : Type} {u v cs : List α} :
    u ++ v <+: cs ↔ u <+: cs ∧ v <+: cs.drop u.length := by
  constructor
  · intro ⟨rest, hrest⟩
    subst hrest
    exact ⟨⟨v ++ rest, by simp⟩, by simp⟩
  · intro ⟨⟨rest, hrest⟩, hv⟩
    subst hrest
    simpa using hv

theorem singleton_isPrefix_drop {α : Type} {a : α} {cs : List α} {offset : Nat} :
    [a] <+: cs.drop offset ↔ cs[offset]? = some a := by
  rw [List.singleton_prefix_iff_head?_eq_some, List.head?_drop]

end Js.Bytes
