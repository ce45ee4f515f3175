import Mathlib.Data.List.Chain
import Mathlib.Data.List.DropRight
import VetHealth.Content.LexicalText

/-!
# VetHealth.Content.Whitespace

**Normal forms of white space.** Running white space together leaves a text in which no two white
characters stand next to each other (`Collapsed`); trimming leaves one that neither begins nor ends
with a white character (`Trimmed`). A text of both kinds is not changed by doing either again, which
is what makes the text extraction idempotent.
-/

namespace VetHealth

open Js

/-! ### Runs -/

/-- No two characters that `p` accepts are neighbours, and each of them is `c`: the form in which
the replacement of runs leaves a text. -/
structure Collapsed (p : Char → Bool) (c : Char) (cs : List Char) : Prop where
  apart : cs.IsChain fun a b => ¬(p a = true ∧ p b = true)
  same : ∀ d ∈ cs, p d = true → d = c

variable {p : Char → Bool} {c : Char} {cs : List Char}

theorem Collapsed.part {ds : List Char} (h : Collapsed p c cs) (hds : ds <:+: cs) :
    Collapsed p c ds :=
  ⟨ List.IsChain.infix h.apart hds, fun d hd => h.same d (hds.subset hd)⟩

/-- Runs of length one that are the right character stay. -/
theorem replaceRuns_eq_self (h : Collapsed p c cs) : replaceRuns p c cs = cs := by
  induction cs with
  | nil => rfl
  | cons d ds ih =>
      have hrest : replaceRuns p c ds = ds := ih (h.part (List.suffix_cons d ds).isInfix)
      rw [replaceRuns, hrest]
      cases hd : p d with
      | false => rfl
      | true =>
          have hnext : ds.head?.any p = false := by
            cases ds with
            | nil => rfl
            | cons e es =>
                have hapart := (List.isChain_cons_cons.1 h.apart).1
                simpa [hd] using hapart
          rw [if_pos rfl, hnext, if_neg Bool.false_ne_true, h.same d List.mem_cons_self hd]

theorem head_replaceRuns (hc : p c = true) (cs : List Char) :
    (replaceRuns p c cs).head?.any p = cs.head?.any p := by
  induction cs with
  | nil => rfl
  | cons d ds ih =>
      rw [replaceRuns]
      cases hd : p d with
      | false => rfl
      | true =>
          cases hnext : ds.head?.any p with
          | true => simp [ih, hnext, hd]
          | false => simp [hd, hc]

theorem replaceRuns_append_singleton {e : Char} (he : p e = false) (cs : List Char) :
    replaceRuns p c (cs ++ [e]) = replaceRuns p c cs ++ [e] := by
  induction cs with
  | nil => simp [replaceRuns, he]
  | cons d ds ih =>
      have hnext : (ds ++ [e]).head?.any p = ds.head?.any p := by
        cases ds with
        | nil => exact he
        | cons f fs => rfl
      rw [List.cons_append, replaceRuns, replaceRuns, hnext, ih]
      split
      · split <;> rfl
      · rfl

theorem collapsed_replaceRuns (hc : p c = true) (cs : List Char) :
    Collapsed p c (replaceRuns p c cs) := by
  induction cs with
  | nil => exact ⟨List.IsChain.nil, fun d hd => absurd hd List.not_mem_nil⟩
  | cons d ds ih =>
      have hhead := head_replaceRuns hc ds
      -- Whether a character of the class is left depends on the next one: only the last of a run
      -- is.
      rw [replaceRuns]
      cases hd : p d with
      | false =>
          rw [if_neg Bool.false_ne_true]
          refine ⟨List.isChain_cons.2 ⟨fun e _ hpair => ?_, ih.apart⟩, fun e he hpe => ?_⟩
          · rw [hd] at hpair
            cases hpair.1
          · rcases List.mem_cons.1 he with rfl | he
            · rw [hd] at hpe
              cases hpe
            · exact ih.same e he hpe
      | true =>
          -- The run goes on, and this character is dropped.
          cases hnext : ds.head?.any p with
          | true => exact ih
          | false =>
              rw [if_pos rfl, if_neg Bool.false_ne_true]
              rw [hnext] at hhead
              refine ⟨List.isChain_cons.2 ⟨fun e he hpair => ?_, ih.apart⟩, fun e he hpe => ?_⟩
              · rw [Option.mem_def.1 he, Option.any_some, hpair.2] at hhead
                cases hhead
              · rcases List.mem_cons.1 he with rfl | he
                · rfl
                · exact ih.same e he hpe

/-! ### Ends -/

/-- Neither the first character nor the last is white. -/
structure Trimmed (cs : List Char) : Prop where
  head : ∀ c ∈ cs.head?, isSpace c = false
  last : ∀ c ∈ cs.getLast?, isSpace c = false

theorem trim_isInfix (cs : List Char) : trim cs <:+: cs :=
  (List.rdropWhile_prefix isSpace _).isInfix.trans ( List.dropWhile_suffix isSpace).isInfix

theorem trimmed_trim (cs : List Char) : Trimmed (trim cs) := by
  have hprefix : trim cs <+: cs.dropWhile isSpace := List.rdropWhile_prefix isSpace _
  constructor
  · intro c hc
    obtain ⟨rest, hrest⟩ := hprefix
    have hhead := List.head?_dropWhile_not isSpace cs
    cases htrim : trim cs with
    | nil =>
        rw [htrim] at hc
        cases hc
    | cons d ds =>
        rw [htrim] at hrest hc
        rw [← hrest] at hhead
        obtain rfl := Option.some.inj hc
        exact hhead
  · intro c hc
    have hhead := List.head?_dropWhile_not isSpace (cs.dropWhile isSpace).reverse
    have hlast : (trim cs).getLast? = ((cs.dropWhile isSpace).reverse.dropWhile isSpace).head? :=
      List.getLast?_reverse
    rw [← hlast, Option.mem_def.1 hc] at hhead
    exact hhead

/-- Running white space together leaves the ends of a text without white ends, since a run there
would have been white. -/
theorem Trimmed.replaceRuns (h : Trimmed cs) : Trimmed (replaceRuns isSpace ' ' cs) := by
  rcases List.eq_nil_or_concat cs with rfl | ⟨ds, e, rfl⟩
  · exact h
  · rw [List.concat_eq_append] at h ⊢
    have he : isSpace e = false := h.last e (by simp)
    have hhead := head_replaceRuns (p := isSpace) (c := ' ') (by decide) (ds ++ [e])
    constructor
    · intro d hd
      rw [Option.mem_def.1 hd, Option.any_some] at hhead
      rw [hhead]
      cases hfirst : (ds ++ [e]).head? with
      | none => rfl
      | some f => exact h.head f hfirst
    · intro d hd
      rw [replaceRuns_append_singleton he] at hd
      simp only [List.getLast?_append, List.getLast?_singleton, Option.some_or, Option.mem_def,
        Option.some.injEq] at hd
      exact hd ▸ he

/-- A text without white ends stays. -/
theorem trim_eq_self (h : Trimmed cs) : trim cs = cs := by
  have hdrop : ∀ ds : List Char, (∀ c ∈ ds.head?, isSpace c = false) → ds.dropWhile isSpace = ds := by
    intro ds hds
    cases ds with
    | nil => rfl
    | cons d ds => rw [List.dropWhile_cons, hds d rfl, if_neg Bool.false_ne_true]
  have hlast : ∀ c ∈ cs.reverse.head?, isSpace c = false := by
    rw [List.head?_reverse]
    exact h.last
  rw [trim, hdrop cs h.head, hdrop cs.reverse hlast, List.reverse_reverse]

/-! ### Plain text -/

/-- White space in plain text stands between words only, as a single space. It is the last step of
the extraction that makes it so. -/
theorem lexicalText_normal {value : Json} {text : String} (h : lexicalText false value = some text) :
    Trimmed text.toList ∧ Collapsed isSpace ' ' text.toList := by
  obtain ⟨walked, -, htext⟩ := Option.bind_eq_some_iff.1 h
  obtain rfl : String.ofList (trim (replaceRuns isSpace ' ' walked)) = text := by
    simpa using htext
  rw [String.toList_ofList]
  exact ⟨trimmed_trim _, (collapsed_replaceRuns (by decide) walked).part (trim_isInfix _)⟩

end VetHealth
