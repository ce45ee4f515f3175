import Mathlib.Data.List.Basic
import Mathlib.Data.List.GetD

/-!
# VetHealth.Lib.Excerpts

**Excerpts of a list.** `Excerpts parts text` says that the parts stand in the text one after another, do
not overlap, and that the text begins with the first of them and ends with the last. `Sample` says the
same of single elements.

Excerpts of the elements of a sample, put together, are excerpts of the whole (`Sample.flatMap`).
-/

namespace Excerpting

variable {α : Type}

inductive Excerpts : List (List α) → List α → Prop
  | last (part : List α) : Excerpts [part] part
  | cons (part gap : List α) {parts : List (List α)} {text : List α} :
      Excerpts parts text → Excerpts (part :: parts) (part ++ gap ++ text)

inductive Sample : List α → List α → Prop
  | last (x : α) : Sample [x] [x]
  | cons (x : α) (skipped : List α) {chosen xs : List α} :
      Sample chosen xs → Sample (x :: chosen) (x :: (skipped ++ xs))

namespace Excerpts

variable {parts parts' : List (List α)} {text text' : List α}

theorem ne_nil (h : Excerpts parts text) : parts ≠ [] := by
  cases h <;> exact List.cons_ne_nil _ _

theorem head (h : Excerpts parts text) : ∃ part, parts.head? = some part ∧ part <+: text := by
  cases h with
  | last => exact ⟨text, rfl, List.prefix_rfl⟩
  | cons part gap h =>
      refine ⟨part, rfl, ?_⟩
      rw [List.append_assoc]
      exact List.prefix_append _ _

theorem getLast (h : Excerpts parts text) : ∃ part, parts.getLast? = some part ∧ part <:+ text := by
  induction h with
  | last part => exact ⟨part, rfl, List.suffix_rfl⟩
  | cons part gap h ih =>
      obtain ⟨last, hlast, hsuffix⟩ := ih
      refine ⟨last, ?_, hsuffix.trans (List.suffix_append _ _)⟩
      rw [List.getLast?_cons_of_ne_nil h.ne_nil, hlast]

/-- Excerpts of a text, and then excerpts of one that comes later. -/
theorem append (h : Excerpts parts text) (gap : List α) (h' : Excerpts parts' text') :
    Excerpts (parts ++ parts') (text ++ gap ++ text') := by
  induction h with
  | last part => exact .cons part gap h'
  | cons part between h ih =>
      have hrest := Excerpts.cons part between ih
      simpa [List.append_assoc] using hrest

/-- The beginning of a text, and excerpts of what comes later. -/
theorem cons_take {i j : Nat} (h : i ≤ j) (hparts : Excerpts parts (text.drop j)) :
    Excerpts (text.take i :: parts) text := by
  have hsplit : text.take i ++ (text.drop i).take (j - i) ++ text.drop j = text := by
    have hdrop : text.drop j = (text.drop i).drop (j - i) := by
      rw [List.drop_drop, Nat.add_sub_cancel' h]
    rw [hdrop, List.append_assoc, List.take_append_drop, List.take_append_drop]
  have hcons := Excerpts.cons (text.take i) ((text.drop i).take (j - i)) hparts
  rwa [hsplit] at hcons

end Excerpts

namespace Sample

variable {chosen xs : List α}

theorem ne_nil (h : Sample chosen xs) : xs ≠ [] := by
  cases h <;> exact List.cons_ne_nil _ _

theorem subset (h : Sample chosen xs) : chosen ⊆ xs := by
  induction h with
  | last x => exact List.Subset.refl _
  | cons x skipped h ih =>
      exact List.cons_subset_cons x (List.Subset.trans ih (List.subset_append_right skipped _))

theorem self {xs : List α} (h : xs ≠ []) : Sample xs xs := by
  induction xs with
  | nil => exact absurd rfl h
  | cons x xs ih =>
      cases xs with
      | nil => exact .last x
      | cons y ys => exact .cons x [] (ih (List.cons_ne_nil _ _))

/-- Excerpts of each element of a sample are excerpts of all elements together: what lies between
two of them is skipped as a whole. -/
theorem flatMap {xs : List (List α)} {chosen : List (List α)} (h : Sample chosen xs)
    {f : List α → List (List α)} (hf : ∀ x, Excerpts (f x) x) :
    Excerpts (chosen.flatMap f) xs.flatten := by
  induction h with
  | last x => simpa using hf x
  | cons x skipped h ih =>
      have hboth := (hf x).append skipped.flatten ih
      simpa [List.append_assoc] using hboth

/-- The elements at increasing places, the first and the last among them. The induction is on how
many are left to be chosen, and what is chosen is a sample of what the first place leaves. -/
theorem of_indices (d : α) {f : Nat → Nat} {xs : List α} (start m : Nat)
    (hmono : ∀ i < start + m, f i < f (i + 1)) (hlast : f (start + m) + 1 = xs.length) :
    Sample ((List.range' start (m + 1)).map fun i => xs.getD (f i) d) (xs.drop (f start)) := by
  induction m generalizing start with
  | zero =>
      have hlt : f start < xs.length := by
        rw [← hlast]
        exact Nat.lt_succ_self _
      have hdrop : xs.drop (f start) = [xs.getD (f start) d] := by
        have hend : xs.drop (f start + 1) = [] := List.drop_of_length_le (Nat.le_of_eq hlast.symm)
        rw [List.drop_eq_getElem_cons hlt, hend, List.getD_eq_getElem _ _ hlt]
      rw [hdrop]
      exact .last _
  -- what lies between one place and the next is dropped
  | succ m ih =>
      have hnext := hmono start (by omega)
      have hrest := ih (start + 1) (fun i hi => hmono i (by omega))
        (by rwa [Nat.add_assoc, Nat.add_comm 1 m])
      have hlt : f start < xs.length := by
        have hlt' : f (start + 1) < xs.length := by
          by_contra hle
          exact hrest.ne_nil (List.drop_of_length_le (Nat.le_of_not_lt hle))
        exact Nat.lt_trans hnext hlt'
      have hdrop : xs.drop (f start) = xs.getD (f start) d ::
          ((xs.drop (f start + 1)).take (f (start + 1) - (f start + 1)) ++ xs.drop (f (start + 1))) := by
        have hskip : xs.drop (f (start + 1)) =
            (xs.drop (f start + 1)).drop (f (start + 1) - (f start + 1)) := by
          rw [List.drop_drop, Nat.add_sub_cancel' hnext]
        rw [hskip, List.take_append_drop, List.getD_eq_getElem _ _ hlt]
        exact List.drop_eq_getElem_cons hlt
      rw [hdrop, List.range'_succ, List.map_cons]
      exact .cons _ _ hrest

end Sample

end Excerpting
