import VetHealth.Common.Domain
import VetHealth.Js.Number
import Mathlib.Data.List.Basic
import Mathlib.Data.List.Infix

/-!
# VetHealth.Common.Collation

**Texts without regard to case.** A comparison in the database and `LIKE` treat a text character by
character: `lower` is what a character is compared as, which may be several. Beyond ASCII only this
much is known of it, that it is not empty and holds no wildcard. The language's own `toLowerCase()`
sees whole words; the database takes a text and its lower case for equal.

`like` is the pattern matching of the database: `%` stands for any text, `_` for any character, and
a backslash makes the next character stand for itself.
-/

namespace VetHealth

/-- The lower case of characters, and the order in which the database sorts texts. Which texts a
real collation takes for equal is a matter of the database; what the backend relies on is stated
here. -/
class Collation where
  lower : Char → List Char
  le : String → String → Bool
  lower_ne_nil : ∀ c, lower c ≠ []
  lower_ascii : ∀ c, c.toNat < 128 → lower c = [c.toLower]
  lower_wildcard : ∀ c, ∀ d ∈ lower c, d ∈ ['%', '_', '\\'] → d = c
  le_total : ∀ s t, le s t = true ∨ le t s = true
  le_trans : ∀ s t u, le s t = true → le t u = true → le s u = true

namespace Collation

section

variable [Collation]

/-- What a text is compared as. A case-insensitive collation compares texts by it, and `LIKE`
matches it. -/
def fold (s : String) : List Char := s.toList.flatMap lower

/-- `column = text`. Two texts may be equal for the database that are not equal for the language, so
that a lookup by a title may find another title. -/
def eq (s t : String) : Bool := fold s = fold t

@[simp] theorem eq_self (s : String) : eq s s = true := by simp [eq]

theorem eq_symm {s t : String} (h : eq s t = true) : eq t s = true := by
  simpa [eq, eq_comm] using h

theorem fold_append (s t : String) : fold (s ++ t) = fold s ++ fold t := by
  simp [fold, String.toList_append]

/-- An ASCII text is folded letter by letter, so that the patterns of the backend, which are ASCII,
keep their shape. -/
theorem fold_ascii {s : String} (h : ∀ c ∈ s.toList, c.toNat < 128) :
    fold s = s.toList.map Char.toLower := by
  rw [fold, ← List.flatMap_singleton' (s.toList.map Char.toLower), List.flatMap_map]
  exact List.flatMap_congr fun c hc => lower_ascii c (h c hc)

/-- A folded text is at least as long as the text. -/
theorem length_le_fold (s : String) : s.toList.length ≤ (fold s).length := by
  unfold fold
  induction s.toList with
  | nil => simp
  | cons c cs ih =>
      rw [List.flatMap_cons, List.length_append, List.length_cons]
      have hpos := List.length_pos_of_ne_nil (lower_ne_nil c)
      omega

/-- There is a text that none of finitely many texts is equal to: a table can always take one more
title. -/
theorem exists_fresh (texts : List String) : ∃ s, s ≠ "" ∧ ∀ t ∈ texts, eq t s = false := by
  obtain ⟨n, hn⟩ : ∃ n, ∀ t ∈ texts, (fold t).length < n := by
    induction texts with
    | nil => exact ⟨0, by simp⟩
    | cons t texts ih =>
        obtain ⟨n, hn⟩ := ih
        refine ⟨max n ((fold t).length + 1), ?_⟩
        rintro u (_ | ⟨_, hu⟩)
        · omega
        · exact Nat.lt_of_lt_of_le (hn u hu) (Nat.le_max_left _ _)
  refine ⟨String.ofList (List.replicate (n + 1) 'a'), ?_, fun t ht => ?_⟩
  · intro h
    have := congrArg (fun s : String => s.toList.length) h
    simp at this
  · have hlength := length_le_fold (String.ofList (List.replicate (n + 1) 'a'))
    have hne : fold t ≠ fold (String.ofList (List.replicate (n + 1) 'a')) := by
      intro h
      have hlt := hn t ht
      rw [← h] at hlength
      simp at hlength
      omega
    simpa [eq] using hne

end

/-! ### `LIKE` -/

/-- Put a backslash before the characters that a pattern does not take literally:
`text.replace(/[\\%_]/g, '\\$&')`. Without it a search for `%` would find everything. -/
def escape (cs : List Char) : List Char :=
  cs.flatMap fun c => if c ∈ ['\\', '%', '_'] then ['\\', c] else [c]

/-- The text matches the pattern; both are folded. -/
def likeMatches : List Char → List Char → Bool
  | [], cs => cs.isEmpty
  | '%' :: ps, cs => cs.tails.any (likeMatches ps)
  | '_' :: ps, cs =>
      match cs with
      | _ :: cs => likeMatches ps cs
      | [] => false
  | '\\' :: p :: ps, cs =>
      match cs with
      | c :: cs => c = p && likeMatches ps cs
      | [] => false
  | p :: ps, cs =>
      match cs with
      | c :: cs => c = p && likeMatches ps cs
      | [] => false

/-- `column LIKE pattern`. -/
def like [Collation] (pattern s : String) : Bool := likeMatches (fold pattern) (fold s)

/-- A character of a pattern that is no wildcard stands for itself. -/
theorem likeMatches_literal {p : Char} (h : p ∉ ['\\', '%', '_']) (ps cs : List Char) :
    likeMatches (p :: ps) cs = true ↔ ∃ rest, cs = p :: rest ∧ likeMatches ps rest = true := by
  simp only [List.mem_cons, List.not_mem_nil, or_false, not_or] at h
  obtain ⟨hslash, hpercent, hunder⟩ := h
  cases cs with
  | nil => simp [likeMatches, hslash]
  | cons c cs => simp [likeMatches, hslash]

/-- An escaped text at the head of a pattern stands for itself. The induction is on the text; an
escaped character is read as the one after the backslash. -/
theorem likeMatches_escape_append (q ps cs : List Char) :
    likeMatches (escape q ++ ps) cs = true ↔ ∃ rest, cs = q ++ rest ∧ likeMatches ps rest = true := by
  induction q generalizing cs with
  | nil => simp [escape]
  | cons c q ih =>
      have hcons : likeMatches (escape (c :: q) ++ ps) cs = true ↔
          ∃ rest, cs = c :: rest ∧ likeMatches (escape q ++ ps) rest = true := by
        rw [escape, List.flatMap_cons, List.append_assoc]
        split
        · show likeMatches ('\\' :: c :: (escape q ++ ps)) cs = true ↔ _
          cases cs with
          | nil => simp [likeMatches]
          | cons d cs => simp [likeMatches]
        · next hplain => exact likeMatches_literal hplain _ cs
      rw [hcons]
      constructor
      · rintro ⟨cs, rfl, hmatch⟩
        obtain ⟨rest, rfl, hrest⟩ := (ih cs).1 hmatch
        exact ⟨rest, rfl, hrest⟩
      · rintro ⟨rest, rfl, hrest⟩
        exact ⟨q ++ rest, rfl, (ih _).2 ⟨rest, rfl, hrest⟩⟩

/-- `%text%` with the text escaped matches the texts that contain it. -/
theorem likeMatches_infix (q cs : List Char) :
    likeMatches ('%' :: (escape q ++ ['%'])) cs = true ↔ q <:+: cs := by
  rw [likeMatches, List.any_eq_true]
  constructor
  · rintro ⟨tail, htail, hmatch⟩
    obtain ⟨rest, rfl, -⟩ := (likeMatches_escape_append q ['%'] tail).1 hmatch
    obtain ⟨front, rfl⟩ := (List.mem_tails _ _).1 htail
    exact ⟨front, rest, by rw [List.append_assoc]⟩
  · rintro ⟨front, rest, rfl⟩
    refine ⟨q ++ rest, (List.mem_tails _ _).2 ⟨front, by rw [List.append_assoc]⟩, ?_⟩
    refine (likeMatches_escape_append q ['%'] _).2 ⟨rest, rfl, ?_⟩
    rw [likeMatches, List.any_eq_true]
    exact ⟨[], (List.mem_tails _ _).2 (List.nil_suffix), rfl⟩

/-- Folding a text keeps its escapes in place. -/
theorem flatMap_lower_escape [Collation] (cs : List Char) :
    (escape cs).flatMap lower = escape (cs.flatMap lower) := by
  induction cs with
  | nil => rfl
  | cons c cs ih =>
      have hchar : (if c ∈ ['\\', '%', '_'] then ['\\', c] else [c]).flatMap lower =
          escape (lower c) := by
        split
        · next hwild =>
            have hascii : ∀ d ∈ ['\\', '%', '_'], d.toNat < 128 ∧ d.toLower = d := by decide
            have hc := hascii c hwild
            have hb : lower '\\' = ['\\'] := lower_ascii _ (by decide)
            have hlower : lower c = [c] := by rw [lower_ascii c hc.1, hc.2]
            rw [hlower, escape, List.flatMap_singleton, if_pos hwild]
            simp [hb, hlower]
        · next hplain =>
            have hlower : ∀ d ∈ lower c, d ∉ ['\\', '%', '_'] := by
              intro d hd hwild
              have hdc : d = c := lower_wildcard c d hd (by simpa [or_comm, or_left_comm] using hwild)
              exact hplain (hdc ▸ hwild)
            rw [List.flatMap_singleton, escape]
            refine (List.flatMap_singleton' _).symm.trans ?_
            exact List.flatMap_congr fun d hd => (if_neg (hlower d hd)).symm
      have hcons : escape (c :: cs) = (if c ∈ ['\\', '%', '_'] then ['\\', c] else [c]) ++ escape cs :=
        List.flatMap_cons
      rw [hcons, List.flatMap_append, hchar, ih, List.flatMap_cons, escape, escape, escape,
        List.flatMap_append]

/-- The pattern `%text%` of an escaped text, over a column. -/
theorem like_contains [Collation] (q s : String) :
    like ("%" ++ String.ofList (escape q.toList) ++ "%") s = true ↔ fold q <:+: fold s := by
  have hpercent : fold "%" = ['%'] := fold_ascii (by decide)
  have hescaped : fold (String.ofList (escape q.toList)) = escape (fold q) := by
    rw [fold, String.toList_ofList, flatMap_lower_escape, fold]
  rw [like, fold_append, fold_append, hpercent, hescaped]
  exact likeMatches_infix (fold q) (fold s)

/-! ### Lower case -/

/-- `text.toLowerCase()`. The language and the database lower texts by tables of their own; what is
relied on is that the language joins no texts that the database keeps apart. -/
class LowerCase [Collation] where
  toLowerCase : String → String
  fold_toLowerCase : ∀ s, fold (toLowerCase s) = fold s

/-- What contains a text in lower case contains it for the database. -/
theorem LowerCase.fold_infix [Collation] [LowerCase] {s t : String}
    (h : (toLowerCase s).toList <:+: (toLowerCase t).toList) : fold s <:+: fold t := by
  obtain ⟨front, rest, h⟩ := h
  refine ⟨front.flatMap lower, rest.flatMap lower, ?_⟩
  rw [← fold_toLowerCase s, ← fold_toLowerCase t, fold, fold, ← h, List.flatMap_append,
    List.flatMap_append]

/-! ### A collation to compute with -/

/-- Texts that differ in the case of ASCII letters alone are equal. -/
@[reducible] def ascii : Collation where
  lower c := [c.toLower]
  le s t := s.toLower ≤ t.toLower
  lower_ne_nil c := by simp
  lower_ascii _ _ := rfl
  lower_wildcard c d hd hwild := by
    obtain rfl := List.mem_singleton.1 hd
    by_cases hupper : c.val ≥ 'A'.val ∧ c.val ≤ 'Z'.val
    · have hall : ∀ n : Fin 26, (Char.ofNat (65 + n.val)).toLower ∉ ['%', '_', '\\'] := by decide
      have hlow : 65 ≤ c.toNat := hupper.1
      have hhigh : c.toNat ≤ 90 := hupper.2
      have hc : Char.ofNat (65 + (c.toNat - 65)) = c := by
        rw [Nat.add_sub_cancel' hlow, Char.ofNat_toNat]
      exact absurd (hc ▸ hwild) (hall ⟨c.toNat - 65, by omega⟩)
    · exact dif_neg hupper
  le_total s t := by simpa using String.le_total s.toLower t.toLower
  le_trans s t u h h' := by simpa using String.le_trans (by simpa using h) (by simpa using h')

theorem toLower_toLower (c : Char) : c.toLower.toLower = c.toLower := by
  by_cases hupper : c.val ≥ 'A'.val ∧ c.val ≤ 'Z'.val
  · have hall : ∀ n : Fin 26, (Char.ofNat (65 + n.val)).toLower.toLower =
        (Char.ofNat (65 + n.val)).toLower := by decide
    have hlow : 65 ≤ c.toNat := hupper.1
    have hhigh : c.toNat ≤ 90 := hupper.2
    have hc : Char.ofNat (65 + (c.toNat - 65)) = c := by
      rw [Nat.add_sub_cancel' hlow, Char.ofNat_toNat]
    exact hc ▸ hall ⟨c.toNat - 65, by omega⟩
  · have hsame : c.toLower = c := dif_neg hupper
    rw [hsame, hsame]

/-- The lower case of ASCII letters. -/
@[reducible] def asciiLowerCase : @LowerCase ascii :=
  letI := ascii
  { toLowerCase s := String.ofList (s.toList.map Char.toLower)
    fold_toLowerCase s := by
      rw [fold, fold, String.toList_ofList, List.flatMap_map]
      refine List.flatMap_congr fun c _ => ?_
      show [c.toLower.toLower] = [c.toLower]
      rw [toLower_toLower] }

end Collation

end VetHealth
