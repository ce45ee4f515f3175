import Mathlib.Data.List.DropRight
import VetHealth.Js.Parse

/-!
# VetHealth.Js.Units

**Texts as the language counts them.** The length of a text, and the places at which it is cut, are counted
in code units of UTF-16. A cut may part a character of two units, so what is cut is a list of
units and no text of characters.
-/

namespace Js

/-- A text, by its code units. The length of a text and the places in it are counted in units, so
that a cut may go through a character. -/
abbrev Units := List Nat

namespace Units

def ofString (s : String) : Units := s.toList.flatMap utf16

/-- All white space is below the units that come in pairs, so that it can be told unit by unit. -/
def isSpace (u : Nat) : Bool := Js.isSpace (Char.ofNat u)

def trim (text : Units) : Units := (text.dropWhile isSpace).rdropWhile isSpace

/-- A place in a text of some length; a negative one is counted from the end. -/
def place (length : Nat) (index : ℤ) : Nat :=
  if index < 0 then (length + index).toNat else min index.toNat length

/-- `text.slice(start, stop)`. -/
def slice (text : Units) (start : ℤ) (stop : Option ℤ) : Units :=
  let first := place text.length start
  let after := (stop.map (place text.length)).getD text.length
  (text.drop first).take (after - first)

/-- `text.split(/(?=...)/)`: a part begins where `cut` accepts the unit before and the rest. Nothing
is dropped, as the expression matches no character. -/
def splitBefore (cut : Nat → Units → Bool) : Units → List Units
  | [] => [[]]
  | [u] => [[u]]
  | u :: v :: text =>
      if cut u (v :: text) then [u] :: splitBefore cut (v :: text)
      else (splitBefore cut (v :: text)).modifyHead (u :: ·)

/-! ### Slices -/

theorem slice_front (text : Units) {k : ℤ} (h : 0 ≤ k) :
    slice text 0 (some k) = text.take k.toNat := by
  simp [slice, place, Int.not_lt.2 h]

theorem slice_from_to (text : Units) {i j : ℤ} (hi : 0 ≤ i) (hij : i ≤ j) (hj : j ≤ text.length) :
    slice text i (some j) = (text.drop i.toNat).take (j.toNat - i.toNat) := by
  have hi' : i.toNat ≤ text.length := by omega
  have hj' : j.toNat ≤ text.length := by omega
  simp [slice, place, Int.not_lt.2 hi, Int.not_lt.2 (Int.le_trans hi hij), Nat.min_eq_left hi',
    Nat.min_eq_left hj']

theorem slice_back (text : Units) {k : ℤ} (hpos : 0 < k) (hk : k ≤ text.length) :
    slice text (-k) none = text.drop (text.length - k.toNat) := by
  have hneg : -k < 0 := by omega
  have hplace : (text.length + -k).toNat = text.length - k.toNat := by omega
  have hall : text.length - (text.length - k.toNat) = (text.drop (text.length - k.toNat)).length := by
    rw [List.length_drop]
  simp only [slice, place, if_pos hneg, hplace, Option.map_none, Option.getD_none]
  rw [hall, List.take_length]

/-! ### Splitting -/

theorem splitBefore_ne_nil (cut : Nat → Units → Bool) (text : Units) : splitBefore cut text ≠ [] := by
  fun_induction splitBefore cut text with
  | case1 => simp
  | case2 => simp
  | case3 => simp
  | case4 u v text hcut ih =>
      intro hnil
      exact ih (by simpa using hnil)

theorem flatten_splitBefore (cut : Nat → Units → Bool) (text : Units) :
    (splitBefore cut text).flatten = text := by
  fun_induction splitBefore cut text with
  | case1 => rfl
  | case2 => rfl
  | case3 u v text hcut ih => simp [ih]
  | case4 u v text hcut ih =>
      obtain ⟨part, parts, hparts⟩ := List.exists_cons_of_ne_nil (splitBefore_ne_nil cut (v :: text))
      rw [hparts] at ih ⊢
      simpa using ih

/-- The first part begins like the text, and the others where `cut` accepts. -/
theorem splitBefore_cons {cut : Nat → Units → Bool} {p : Nat → Prop}
    (hcut : ∀ u v text, cut u (v :: text) = true → p v) (u : Nat) (text : Units) :
    ∃ rest parts, splitBefore cut (u :: text) = (u :: rest) :: parts ∧
      ∀ part ∈ parts, ∃ v rest, part = v :: rest ∧ p v := by
  induction text generalizing u with
  | nil => exact ⟨[], [], rfl, fun part hpart => absurd hpart List.not_mem_nil⟩
  | cons v text ih =>
      obtain ⟨rest, parts, hparts, hrest⟩ := ih v
      rw [splitBefore, hparts]
      split
      · rename_i haccepted
        refine ⟨[], (v :: rest) :: parts, rfl, fun part hpart => ?_⟩
        rcases List.mem_cons.1 hpart with rfl | hpart
        · exact ⟨v, rest, rfl, hcut u v text haccepted⟩
        · exact hrest part hpart
      · exact ⟨v :: rest, parts, rfl, hrest⟩

/-! ### White ends -/

theorem trim_ne_nil {u : Nat} (h : isSpace u = false) (text : Units) : trim (u :: text) ≠ [] := by
  rw [trim, List.dropWhile_cons_of_neg (by simp [h])]
  intro hnil
  have hall := List.rdropWhile_eq_nil_iff.1 hnil u List.mem_cons_self
  rw [h] at hall
  cases hall

theorem head_trim {text : Units} {u : Nat} {rest : Units} (h : trim text = u :: rest) :
    isSpace u = false := by
  obtain ⟨back, hback⟩ : trim text <+: text.dropWhile isSpace := List.rdropWhile_prefix isSpace _
  have hhead := List.head?_dropWhile_not isSpace text
  rw [← hback, h] at hhead
  exact hhead

end Units

end Js
