import VetHealth.Lib.Regex

/-!
# VetHealth.Js.Replace

**Replacement templates.** The second argument of `text.replace(regex, template)` is no plain text:
a dollar sign in it may begin a directive, which stands for a part of the match. A template without
directives stands for itself (`getSubstitution_of_isPlain`).
-/

namespace Js

open Matching

/-- What a directive stands for. -/
inductive Directive
  | dollar
  | matched
  | before
  | after
  | capture (n : Nat)
  deriving DecidableEq, Repr

namespace Directive

/-- The directive after a dollar sign and its length, for an expression with `groups` groups. Two
digits name a group only if there are so many groups; else the first digit does, if it can. -/
def read (groups : Nat) : List Char → Option (Directive × Nat)
  | [] => none
  | c :: rest =>
      let value (d : Char) : Nat := d.toNat - '0'.toNat
      let named (n : Nat) : Bool := 1 ≤ n && n ≤ groups
      let two := (rest.head?.filter Char.isDigit).map fun d => 10 * value c + value d
      if c = '$' then some (.dollar, 1)
      else if c = '&' then some (.matched, 1)
      else if c.toNat = 0x60 then some (.before, 1)
      else if c.toNat = 0x27 then some (.after, 1)
      else if c.isDigit && two.any named then some (.capture (two.getD 0), 2)
      else if c.isDigit && named (value c) then some (.capture (value c), 1)
      else none

def text (m : Match Char) : Directive → List Char
  | dollar => ['$']
  | matched => m.matched
  | before => m.before
  | after => m.after
  | capture n => m.captures.getD (n - 1) []

end Directive

/-- `GetSubstitution`, for a template whose first `skip` characters are part of a directive. -/
def getSubstitution (groups : Nat) (m : Match Char) : Nat → List Char → List Char
  | _, [] => []
  | skip + 1, _ :: t => getSubstitution groups m skip t
  | 0, c :: t =>
      match if c = '$' then Directive.read groups t else none with
      | some (directive, length) => directive.text m ++ getSubstitution groups m length t
      | none => c :: getSubstitution groups m 0 t

/-- The template has no directive. A dollar sign that begins none stands for itself, so that a
template may have one and still be plain. -/
def isPlain (groups : Nat) : List Char → Bool
  | [] => true
  | c :: t => (if c = '$' then Directive.read groups t else none).isNone && isPlain groups t

/-- A template without a dollar sign has no directive. -/
theorem isPlain_of_not_mem {groups : Nat} {template : List Char} (h : '$' ∉ template) :
    isPlain groups template = true := by
  induction template with
  | nil => rfl
  | cons c t ih =>
      rw [List.mem_cons, not_or] at h
      rw [isPlain, if_neg (Ne.symm h.1), ih h.2]
      rfl

/-- A directive does not reach over a slash: it is a dollar sign and one character, two digits, or a
name in brackets. -/
theorem Directive.read_append_slash (groups : Nat) (u v : List Char) :
    Directive.read groups (u ++ '/' :: v) = Directive.read groups u := by
  cases u with
  | nil => simp [Directive.read]
  | cons c u =>
      cases u with
      | nil =>
          have hslash : (some '/').filter Char.isDigit = none := by decide
          simp [Directive.read, hslash]
      | cons d u => rfl

/-- A directive takes characters of the template, and names a group that there is. -/
theorem Directive.read_spec {groups length : Nat} {t : List Char} {directive : Directive}
    (h : Directive.read groups t = some (directive, length)) :
    0 < length ∧ length ≤ t.length ∧ ∀ n, directive = .capture n → 0 < n ∧ n ≤ groups := by
  cases t with
  | nil => cases h
  | cons c t =>
      simp only [Directive.read] at h
      split at h
      · cases h; simp
      split at h
      · cases h; simp
      split at h
      · cases h; simp
      split at h
      · cases h; simp
      split at h
      -- two digits: the template goes on after the first one
      · next htwo =>
          cases h
          obtain ⟨k, hk, hnamed⟩ := (Option.any_eq_true _ _).1 (Bool.and_eq_true_iff.1 htwo).2
          refine ⟨by decide, ?_, fun n hn => ?_⟩
          · cases t with
            | nil => cases hk
            | cons d t => simp
          · rw [hk] at hn
            obtain rfl := Directive.capture.inj hn
            simpa [Nat.succ_le_iff] using hnamed
      split at h
      · next hone =>
          cases h
          refine ⟨by decide, by simp, fun n hn => ?_⟩
          obtain rfl := Directive.capture.inj hn
          simpa [Nat.succ_le_iff] using (Bool.and_eq_true_iff.1 hone).2
      · cases h

/-- What stands before a slash and what stands after it are replaced on their own. A base and the
key after it are told apart by this. -/
theorem getSubstitution_append_slash (groups : Nat) (m : Match Char) (u v : List Char) {skip : Nat}
    (hskip : skip ≤ u.length) :
    getSubstitution groups m skip (u ++ '/' :: v) =
      getSubstitution groups m skip u ++ '/' :: getSubstitution groups m 0 v := by
  induction u generalizing skip with
  | nil =>
      obtain rfl : skip = 0 := Nat.le_zero.1 hskip
      simp [getSubstitution]
  | cons c u ih =>
      cases skip with
      | succ skip => exact ih (Nat.le_of_succ_le_succ hskip)
      | zero =>
          rw [List.cons_append]
          simp only [getSubstitution, Directive.read_append_slash]
          split
          · next directive length hread =>
              have hlength := (Directive.read_spec (Option.ite_none_right_eq_some.1 hread).2).2.1
              rw [ih hlength, List.append_assoc]
          · rw [ih (Nat.zero_le _), List.cons_append]

/-- A template without directives stands for itself. -/
theorem getSubstitution_of_isPlain {groups : Nat} (m : Match Char) {template : List Char}
    (h : isPlain groups template = true) : getSubstitution groups m 0 template = template := by
  induction template with
  | nil => rfl
  | cons c t ih =>
      rw [isPlain, Bool.and_eq_true, Option.isNone_iff_eq_none] at h
      simp only [getSubstitution, h.1, ih h.2]

section

variable {groups long : Nat} {m : Match Char} (hbefore : m.before = []) (hafter : m.after = [])
  (hmatched : long ≤ m.matched.length)
  (hcaptures : ∀ n < groups, long ≤ (m.captures.getD n []).length)

include hbefore hafter hmatched hcaptures

/-- Where nothing surrounds the match and all that the match holds is long, a directive stands for a
long text, or for one character at most. -/
theorem Directive.length_text {directive : Directive}
    (hcapture : ∀ n, directive = .capture n → 0 < n ∧ n ≤ groups) :
    long ≤ (directive.text m).length ∨ (directive.text m).length ≤ 1 := by
  cases directive with
  | dollar => exact Or.inr le_rfl
  | matched => exact Or.inl hmatched
  | before => simp [Directive.text, hbefore]
  | after => simp [Directive.text, hafter]
  | capture n =>
      obtain ⟨hn, hgroups⟩ := hcapture n rfl
      exact Or.inl (hcaptures (n - 1) (by omega))

/-- A template with directives does not stand for itself there: a directive stands for less than it
takes, or for too much. It is why a base with a directive meets the claim for no text. -/
theorem length_getSubstitution {skip : Nat} {template : List Char} (hskip : skip ≤ template.length) :
    long ≤ (getSubstitution groups m skip template).length ∨
      (getSubstitution groups m skip template).length + skip ≤ template.length ∧
        (skip = 0 → isPlain groups template = false →
          (getSubstitution groups m skip template).length < template.length) := by
  induction template generalizing skip with
  | nil =>
      obtain rfl : skip = 0 := Nat.le_zero.1 hskip
      exact Or.inr ⟨by simp [getSubstitution], fun _ h => by cases h⟩
  | cons c t ih =>
      cases skip with
      -- What a directive has read is skipped and gives nothing.
      | succ skip =>
          rcases ih (Nat.le_of_succ_le_succ hskip) with hlong | ⟨hshort, -⟩
          · exact Or.inl hlong
          · refine Or.inr ⟨?_, by simp⟩
            rw [getSubstitution, List.length_cons]
            omega
      | zero =>
          cases hread : (if c = '$' then Directive.read groups t else none) with
          | none =>
              simp only [getSubstitution, isPlain, hread, List.length_cons]
              rcases ih (Nat.zero_le _) with hlong | ⟨hshort, hplain⟩
              · exact Or.inl (Nat.le_succ_of_le hlong)
              · refine Or.inr ⟨by omega, fun _ hnot => Nat.succ_lt_succ (hplain rfl ?_)⟩
                simpa using hnot
          -- A directive gives a text that is as long as the match, or one that is shorter than what
          -- was read.
          | some found =>
              obtain ⟨directive, length⟩ := found
              obtain ⟨hpos, hlength, hcapture⟩ :=
                Directive.read_spec (Option.ite_none_right_eq_some.1 hread).2
              simp only [getSubstitution, hread, List.length_append, List.length_cons]
              rcases ih hlength with hlong | ⟨hshort, -⟩
              · exact Or.inl (Nat.le_add_left_of_le hlong)
              · rcases Directive.length_text hbefore hafter hmatched hcaptures hcapture with
                  hlong | hone
                · exact Or.inl (Nat.le_add_right_of_le hlong)
                · exact Or.inr ⟨by omega, fun _ _ => by omega⟩

end

end Js
