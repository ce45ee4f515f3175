import Mathlib.Data.List.Infix
import Mathlib.Data.List.TakeDrop
import Mathlib.Data.List.TakeWhile

/-!
# VetHealth.Lib.Regex

**Backtracking regular expressions.** `outcomes r cs` lists the ways in which `r` matches at the
front of `cs`, in the order in which a backtracking matcher tries them, so that `exec` is the first
of them. `find` looks for the leftmost match, and `replaceAll` replaces the matches from left to
right, each search beginning where the last match ended.

An expression is `Within p` when all it reads satisfies `p`. It then never matches across an element
that does not, so that `replaceAll` treats what such an element separates on its own
(`replaceAll_append_cons`).
-/

namespace Matching

universe u

/-- A regular expression over an alphabet. A group keeps what it matched; groups are not optional. -/
inductive Regex (α : Type u)
  | empty
  | one (p : α → Bool)
  | seq (r s : Regex α)
  | alt (r s : Regex α)
  | opt (r : Regex α)
  | many (isLazy : Bool) (p : α → Bool)
  | group (r : Regex α)

/-- A match in a text, and what the groups matched. The three parts make up the text, which a
replacement may refer to. -/
structure Match (α : Type u) where
  before : List α
  matched : List α
  after : List α
  captures : List (List α)

variable {α : Type u}

namespace Regex

/-- A text begins with some elements, up to an equivalence, such as the equality of letters without
regard to case. -/
def startsWith (eq : α → α → Bool) : List α → List α → Bool
  | [], _ => true
  | _ :: _, [] => false
  | w :: ws, c :: cs => eq w c && startsWith eq ws cs

/-- One element after the other. -/
def text (eq : α → α → Bool) : List α → Regex α
  | [] => .empty
  | w :: ws => .seq (.one (eq w)) (text eq ws)

/-- At least one. -/
def many1 (p : α → Bool) : Regex α := .seq (.one p) (.many false p)

/-- The matches at the front of a text with what their groups matched, the preferred one first. The
order is that of a backtracking matcher: an option is tried before it is left out, a greedy run
longest first. -/
def outcomes : Regex α → List α → List (List α × List (List α))
  | .empty, _ => [([], [])]
  | .one p, cs =>
      match cs with
      | c :: _ => if p c then [([c], [])] else []
      | [] => []
  | .seq r s, cs =>
      (r.outcomes cs).flatMap fun first =>
        (s.outcomes (cs.drop first.1.length)).map fun second =>
          (first.1 ++ second.1, first.2 ++ second.2)
  | .alt r s, cs => r.outcomes cs ++ s.outcomes cs
  | .opt r, cs => r.outcomes cs ++ [([], [])]
  | .many isLazy p, cs =>
      let runs := (cs.takeWhile p).inits.map fun run => (run, [])
      if isLazy then runs else runs.reverse
  | .group r, cs => (r.outcomes cs).map fun o => (o.1, o.1 :: o.2)

/-- The match at the front of a text: the one that a backtracking matcher comes to first. -/
def exec (r : Regex α) (cs : List α) : Option (List α × List (List α)) := (r.outcomes cs).head?

/-- The leftmost match in a text. The search goes from the left and takes the first place that has a
match at all. -/
def find (r : Regex α) : List α → Option (List α × List (List α))
  | [] => r.exec []
  | c :: cs => (r.exec (c :: cs)).or (r.find cs)

/-- Replace the matches in a text of which `before` is what has been read and the first `skip`
elements belong to the last match. No match may be empty. -/
def replaceFrom (r : Regex α) (subst : Match α → List α) (before : List α) :
    Nat → List α → List α
  | _, [] => []
  | skip + 1, c :: cs => r.replaceFrom subst (before ++ [c]) skip cs
  | 0, c :: cs =>
      match r.exec (c :: cs) with
      | some (matched, captures) =>
          subst ⟨before, matched, (c :: cs).drop matched.length, captures⟩ ++
            r.replaceFrom subst (before ++ [c]) (matched.length - 1) cs
      | none => c :: r.replaceFrom subst (before ++ [c]) 0 cs

def replaceAll (r : Regex α) (subst : Match α → List α) (cs : List α) : List α :=
  r.replaceFrom subst [] 0 cs

/-! ### Where matches lie -/

theorem matched_isPrefix {r : Regex α} {cs : List α} {o : List α × List (List α)}
    (h : o ∈ r.outcomes cs) : o.1 <+: cs := by
  induction r generalizing cs o with
  | empty =>
      rw [List.mem_singleton.1 h]
      exact List.nil_prefix
  | one p =>
      cases cs with
      | nil => cases h
      | cons c cs =>
          rw [outcomes] at h
          split at h
          · rw [List.mem_singleton.1 h]
            exact ⟨cs, rfl⟩
          · cases h
  | seq r s ihr ihs =>
      obtain ⟨first, hfirst, h⟩ := List.mem_flatMap.1 h
      obtain ⟨second, hsecond, rfl⟩ := List.mem_map.1 h
      obtain ⟨rest, hrest⟩ := ihr hfirst
      -- The second part is matched where the first one has ended.
      have hdrop := ihs hsecond
      rw [← hrest, List.drop_left] at hdrop
      obtain ⟨rest', rfl⟩ := hdrop
      exact ⟨rest', by rw [← hrest, List.append_assoc]⟩
  | alt r s ihr ihs =>
      rcases List.mem_append.1 h with h | h
      · exact ihr h
      · exact ihs h
  | opt r ih =>
      rcases List.mem_append.1 h with h | h
      · exact ih h
      · rw [List.mem_singleton.1 h]
        exact List.nil_prefix
  | many isLazy p =>
      -- A run is some beginning of the longest one, in whichever order they are tried.
      have hrun : o ∈ (cs.takeWhile p).inits.map fun run => (run, ([] : List (List α))) := by
        cases isLazy with
        | true => exact h
        | false => exact List.mem_reverse.1 h
      obtain ⟨run, hmem, rfl⟩ := List.mem_map.1 hrun
      exact ((List.mem_inits _ _).1 hmem).trans ( List.takeWhile_prefix p)
  | group r ih =>
      obtain ⟨inner, hinner, rfl⟩ := List.mem_map.1 h
      exact @ih cs inner hinner

theorem exec_isPrefix {r : Regex α} {cs matched : List α} {captures : List (List α)}
    (h : r.exec cs = some (matched, captures)) : matched <+: cs :=
  matched_isPrefix (List.mem_of_mem_head? h)

/-- All that the expression reads satisfies `p`. Such an expression never reads over an element that
does not, which is what cuts a text into words. -/
def Within (p : α → Bool) : Regex α → Prop
  | .empty => True
  | .one q | .many _ q => ∀ c, q c = true → p c = true
  | .seq r s | .alt r s => r.Within p ∧ s.Within p
  | .opt r | .group r => r.Within p

theorem Within.text {p : α → Bool} {eq : α → α → Bool} {ws : List α}
    (h : ∀ w ∈ ws, ∀ c, eq w c = true → p c = true) : (Regex.text eq ws).Within p := by
  induction ws with
  | nil => trivial
  | cons w ws ih => exact ⟨h w List.mem_cons_self, ih fun v hv => h v (List.mem_cons_of_mem _ hv)⟩

/-- A text satisfies `p` throughout, or is cut at the first element that does not. It is the case
split behind `words_induction`. -/
theorem forall_or_cut (p : α → Bool) (cs : List α) :
    (∀ c ∈ cs, p c = true) ∨
      ∃ u d v, cs = u ++ d :: v ∧ (∀ c ∈ u, p c = true) ∧ p d = false := by
  induction cs with
  | nil => exact Or.inl fun c hc => absurd hc List.not_mem_nil
  | cons c cs ih =>
      cases hc : p c with
      | false => exact Or.inr ⟨[], c, cs, rfl, fun e he => absurd he List.not_mem_nil, hc⟩
      | true =>
          rcases ih with hall | ⟨u, d, v, rfl, hu, hd⟩
          · exact Or.inl (List.forall_mem_cons.2 ⟨hc, hall⟩)
          · exact Or.inr ⟨c :: u, d, v, rfl, List.forall_mem_cons.2 ⟨hc, hu⟩, hd⟩

/-- Induction over the words of a text: what holds of words, and of a word, a cut and a text of
which it holds, holds of all texts. -/
@[elab_as_elim] theorem words_induction (p : α → Bool) {motive : List α → Prop}
    (word : ∀ u, (∀ c ∈ u, p c = true) → motive u)
    (cut : ∀ u d v, (∀ c ∈ u, p c = true) → p d = false → motive v → motive (u ++ d :: v))
    (cs : List α) : motive cs := by
  induction hn : cs.length using Nat.strong_induction_on generalizing cs with
  | _ n ih =>
      rcases forall_or_cut p cs with hall | ⟨u, d, v, rfl, hu, hd⟩
      · exact word cs hall
      · have hlength : v.length < n := by
          rw [← hn, List.length_append, List.length_cons]
          omega
        exact cut u d v hu hd (ih v.length hlength v rfl)

/-- An element that an expression does not read ends all its matches, as the end of a text does. So
the matches of a word do not depend on what comes after it. -/
theorem outcomes_append_cons {p : α → Bool} {r : Regex α} (h : r.Within p) {d : α}
    (hd : p d = false) (u v : List α) : r.outcomes (u ++ d :: v) = r.outcomes u := by
  induction r generalizing u with
  | empty => rfl
  | one q =>
      cases u with
      | nil =>
          have hq : q d = false := by
            by_contra hq
            rw [h d (by simpa using hq)] at hd
            cases hd
          simp [outcomes, hq]
      | cons c u => rfl
  | seq r s ihr ihs =>
      rw [outcomes, outcomes, ihr h.1]
      refine List.flatMap_congr fun first hfirst => ?_
      -- The first part has ended within `u`, so that the second one begins there.
      have hlength := (matched_isPrefix hfirst).length_le
      rw [List.drop_append_of_le_length hlength, ihs h.2]
  | alt r s ihr ihs => rw [outcomes, outcomes, ihr h.1, ihs h.2]
  | opt r ih => rw [outcomes, outcomes, ih h]
  | many isLazy q =>
      -- The run stops at `d` at the latest.
      have hq : q d = false := by
        by_contra hq
        rw [h d (by simpa using hq)] at hd
        cases hd
      have hrun : (u ++ d :: v).takeWhile q = u.takeWhile q := by
        induction u with
        | nil => simp [hq]
        | cons c u ih => simp [List.takeWhile_cons, ih]
      rw [outcomes, outcomes, hrun]
  | group r ih => rw [outcomes, outcomes, ih h]

/-! ### Texts -/

/-- The text is matched in one way, or not at all. -/
theorem outcomes_text (eq : α → α → Bool) (ws cs : List α) :
    (text eq ws).outcomes cs =
      if startsWith eq ws cs = true then [(cs.take ws.length, [])] else [] := by
  induction ws generalizing cs with
  | nil => simp [text, outcomes, startsWith]
  | cons w ws ih =>
      cases cs with
      | nil => simp [text, outcomes, startsWith]
      | cons c cs =>
          rw [text, outcomes, startsWith]
          by_cases hc : eq w c = true
          · by_cases hrest : startsWith eq ws cs = true
            · simp [outcomes, ih, hc, hrest]
            · simp [outcomes, ih, hc, hrest]
          · simp [outcomes, hc]

theorem startsWith_length {eq : α → α → Bool} {ws cs : List α} (h : startsWith eq ws cs = true) :
    ws.length ≤ cs.length := by
  induction ws generalizing cs with
  | nil => simp
  | cons w ws ih =>
      cases cs with
      | nil => cases h
      | cons c cs =>
          rw [startsWith, Bool.and_eq_true] at h
          exact Nat.succ_le_succ (ih h.2)

theorem startsWith_append {eq : α → α → Bool} (ws vs cs : List α) :
    startsWith eq (ws ++ vs) cs = (startsWith eq ws cs && startsWith eq vs (cs.drop ws.length)) := by
  induction ws generalizing cs with
  | nil => simp [startsWith]
  | cons w ws ih =>
      cases cs with
      | nil => rfl
      | cons c cs =>
          rw [List.cons_append, startsWith, startsWith, ih, Bool.and_assoc]
          rfl

theorem startsWith_of_append {eq : α → α → Bool} (ws u v : List α) :
    startsWith eq ws (u ++ v) =
      (startsWith eq (ws.take u.length) u && startsWith eq (ws.drop u.length) v) := by
  induction u generalizing ws with
  | nil => simp [startsWith]
  | cons c u ih =>
      cases ws with
      | nil => rfl
      | cons w ws =>
          rw [List.cons_append, startsWith, ih, ← Bool.and_assoc]
          rfl

theorem startsWith_mono {eq : α → α → Bool} {ws u : List α} (h : startsWith eq ws u = true)
    (v : List α) : startsWith eq ws (u ++ v) = true := by
  have hlength := startsWith_length h
  rw [startsWith_of_append, List.take_of_length_le hlength, List.drop_of_length_le hlength, h]
  rfl

/-- An element that none of the expected ones is ends the text. -/
theorem startsWith_append_cons {eq : α → α → Bool} {ws : List α} {d : α}
    (hd : ∀ w ∈ ws, eq w d = false) (u v : List α) :
    startsWith eq ws (u ++ d :: v) = startsWith eq ws u := by
  rw [startsWith_of_append]
  by_cases hlength : ws.length ≤ u.length
  · rw [List.take_of_length_le hlength, List.drop_of_length_le hlength, startsWith, Bool.and_true]
  · have hshort : startsWith eq ws u = false := by
      by_contra hnot
      exact hlength (startsWith_length (by simpa using hnot))
    rw [hshort]
    cases hdrop : ws.drop u.length with
    | nil => exact absurd (List.drop_eq_nil_iff.1 hdrop) hlength
    | cons w rest =>
        have hw : w ∈ ws := List.mem_of_mem_drop (hdrop ▸ List.mem_cons_self)
        rw [startsWith, hd w hw, Bool.false_and, Bool.and_false]

/-! ### The preferred match -/

/-- Nothing is found where no place has a match. -/
theorem find_eq_none {r : Regex α} {cs : List α} :
    r.find cs = none ↔ ∀ t, t <:+ cs → r.exec t = none := by
  induction cs with
  | nil => simp [find]
  | cons c cs ih =>
      rw [find, Option.or_eq_none_iff, ih]
      constructor
      · rintro ⟨hhere, hrest⟩ t ht
        rcases List.suffix_cons_iff.1 ht with rfl | ht
        · exact hhere
        · exact hrest t ht
      · intro h
        exact ⟨h _ List.suffix_rfl, fun t ht => h t (ht.trans (List.suffix_cons c cs))⟩

/-- What an element separates that the expression does not read is searched on its own, the part on
the left first. -/
theorem find_append_cons {p : α → Bool} {r : Regex α} (h : r.Within p) (hempty : r.exec [] = none)
    {d : α} (hd : p d = false) (u v : List α) :
    r.find (u ++ d :: v) = (r.find u).or (r.find v) := by
  have hexec : ∀ u, r.exec (u ++ d :: v) = r.exec u := by
    intro u
    rw [exec, outcomes_append_cons h hd, exec]
  induction u with
  | nil =>
      rw [find, hempty, Option.none_or, List.nil_append, find, ← List.nil_append (d :: v), hexec,
        hempty, Option.none_or]
  | cons c u ih => rw [List.cons_append, find, find, ih, Option.or_assoc, ← List.cons_append, hexec]

theorem exec_seq (r s : Regex α) (cs : List α) :
    (seq r s).exec cs = (r.outcomes cs).findSome? fun first =>
      (s.exec (cs.drop first.1.length)).map fun second =>
        (first.1 ++ second.1, first.2 ++ second.2) := by
  rw [exec, outcomes, List.head?_flatMap]
  simp only [List.head?_map, exec]

theorem outcomes_seq_assoc (r s t : Regex α) (cs : List α) :
    (seq (seq r s) t).outcomes cs = (seq r (seq s t)).outcomes cs := by
  rw [outcomes, outcomes, outcomes, List.flatMap_assoc]
  refine List.flatMap_congr fun first _ => ?_
  rw [List.flatMap_map, outcomes, List.map_flatMap]
  refine List.flatMap_congr fun second _ => ?_
  rw [List.length_append, ← List.drop_drop, List.map_map]
  simp only [Function.comp_def, List.append_assoc]

theorem exec_seq_assoc (r s t : Regex α) (cs : List α) :
    (seq (seq r s) t).exec cs = (seq r (seq s t)).exec cs := by
  rw [exec, outcomes_seq_assoc, exec]

theorem exec_alt_seq (r s t : Regex α) (cs : List α) :
    (seq (alt r s) t).exec cs = ((seq r t).exec cs).or ((seq s t).exec cs) := by
  rw [exec_seq, outcomes, List.findSome?_append, exec_seq, exec_seq]

theorem exec_opt_seq (r t : Regex α) (cs : List α) :
    (seq (opt r) t).exec cs = ((seq r t).exec cs).or (t.exec cs) := by
  rw [exec_seq, outcomes, List.findSome?_append, exec_seq]
  simp

/-- Where a sequence matches, its second part does somewhere. -/
theorem exists_exec_of_seq {r s : Regex α} {cs : List α} {o : List α × List (List α)}
    (h : (seq r s).exec cs = some o) : ∃ t, t <:+ cs ∧ (s.exec t).isSome = true := by
  rw [exec_seq] at h
  obtain ⟨first, -, hfirst⟩ := List.exists_of_findSome?_eq_some h
  obtain ⟨second, hsecond, -⟩ := Option.map_eq_some_iff.1 hfirst
  exact ⟨_, List.drop_suffix _ _, by rw [hsecond]; rfl⟩

theorem exec_group (r : Regex α) (cs : List α) :
    (group r).exec cs = (r.exec cs).map fun o => (o.1, o.1 :: o.2) := by
  rw [exec, outcomes, List.head?_map, exec]

/-- A text, and what comes after it. -/
theorem exec_text_seq (eq : α → α → Bool) (ws : List α) (s : Regex α) (cs : List α) :
    (seq (text eq ws) s).exec cs =
      if startsWith eq ws cs = true then
        (s.exec (cs.drop ws.length)).map fun o => (cs.take ws.length ++ o.1, o.2)
      else none := by
  rw [exec_seq, outcomes_text]
  by_cases h : startsWith eq ws cs = true
  · have hlength : (cs.take ws.length).length = ws.length := by
      rw [List.length_take, Nat.min_eq_left (startsWith_length h)]
    simp [h, hlength]
  · simp [h]

/-- A run that the end of the text ends: there is no longer one, and a greedy run prefers it. -/
theorem exec_many1 {p : α → Bool} {cs : List α} (h : ∀ c ∈ cs, p c = true) :
    (many1 p).exec cs = if cs = [] then none else some (cs, []) := by
  cases cs with
  | nil => rfl
  | cons c cs =>
      have hrun : cs.takeWhile p = cs :=
        List.takeWhile_eq_self_iff.2 fun d hd => h d (List.mem_cons_of_mem _ hd)
      have hlast : (cs.inits.map fun run => (run, ([] : List (List α)))).reverse.head? =
          some (cs, []) := by
        rw [List.head?_reverse, List.getLast?_map, List.getLast?_eq_getElem?, List.length_inits,
          Nat.add_sub_cancel, List.getElem?_eq_getElem (by simp), List.getElem_inits,
          List.take_length]
        rfl
      rw [many1, exec_seq]
      simp only [outcomes, if_pos (h c List.mem_cons_self), List.findSome?_cons,
        List.length_singleton, List.drop_succ_cons, List.drop_zero, exec, hrun]
      rw [if_neg (by simp), hlast]
      rfl

/-! ### Replacing -/

/-- Nothing is left of a text that a match has used up. The elements of a match are skipped, one by
one. -/
theorem replaceFrom_eq_nil {r : Regex α} {subst : Match α → List α} (before : List α) {skip : Nat}
    {cs : List α} (h : cs.length ≤ skip) : r.replaceFrom subst before skip cs = [] := by
  induction cs generalizing before skip with
  | nil => cases skip <;> rfl
  | cons c cs ih =>
      cases skip with
      | zero => simp at h
      | succ skip => exact ih (before ++ [c]) (Nat.le_of_succ_le_succ h)

/-- A match of the whole of a text. -/
theorem replaceAll_of_exec {r : Regex α} {subst : Match α → List α} {c : α} {cs : List α}
    {captures : List (List α)} (h : r.exec (c :: cs) = some (c :: cs, captures)) :
    r.replaceAll subst (c :: cs) = subst ⟨[], c :: cs, [], captures⟩ := by
  rw [replaceAll, replaceFrom, h]
  show subst ⟨[], c :: cs, (c :: cs).drop (c :: cs).length, captures⟩ ++ _ = _
  rw [List.drop_length, replaceFrom_eq_nil _ (by simp), List.append_nil]

/-- A text in which nothing matches stays as it is. -/
theorem replaceFrom_of_none {r : Regex α} {subst : Match α → List α} (before : List α)
    {cs : List α} (h : ∀ t, t <:+ cs → t ≠ [] → r.exec t = none) :
    r.replaceFrom subst before 0 cs = cs := by
  induction cs generalizing before with
  | nil => rfl
  | cons c cs ih =>
      simp only [replaceFrom, h _ List.suffix_rfl (List.cons_ne_nil c cs)]
      rw [ih _ fun t ht => h t (ht.trans (List.suffix_cons c cs))]

section

variable {r : Regex α} {out : List (List α) → List α}

/-- A replacement that depends on the groups alone does not see what was read before, so that the
text may be cut and each part treated alone. -/
theorem replaceFrom_before (before before' : List α) (skip : Nat) (cs : List α) :
    r.replaceFrom (fun m => out m.captures) before skip cs =
      r.replaceFrom (fun m => out m.captures) before' skip cs := by
  induction cs generalizing before before' skip with
  | nil => cases skip <;> rfl
  | cons c cs ih =>
      cases skip with
      | succ skip => exact ih _ _ skip
      | zero =>
          rw [replaceFrom, replaceFrom]
          split
          · rw [ih (before ++ [c]) (before' ++ [c])]
          · rw [ih (before ++ [c]) (before' ++ [c])]

theorem replaceFrom_append_cons {p : α → Bool} (h : r.Within p) (hempty : r.exec [] = none) {d : α}
    (hd : p d = false) (before u v : List α) {skip : Nat} (hskip : skip ≤ u.length) :
    r.replaceFrom (fun m => out m.captures) before skip (u ++ d :: v) =
      r.replaceFrom (fun m => out m.captures) before skip u ++
        d :: r.replaceAll (fun m => out m.captures) v := by
  induction u generalizing before skip with
  | nil =>
      obtain rfl : skip = 0 := Nat.le_zero.1 hskip
      -- Nothing is matched at `d` itself, since the empty text is not matched.
      have hnone : r.exec (d :: v) = none := by
        rw [exec, ← List.nil_append (d :: v), outcomes_append_cons h hd]
        exact hempty
      simp only [List.nil_append, replaceFrom, hnone]
      exact congrArg _ (replaceFrom_before _ _ _ _)
  | cons c u ih =>
      cases skip with
      | succ skip => exact ih (before ++ [c]) (Nat.le_of_succ_le_succ hskip)
      | zero =>
          have hexec : r.exec (c :: (u ++ d :: v)) = r.exec (c :: u) := by
            rw [exec, ← List.cons_append, outcomes_append_cons h hd]
            rfl
          rw [List.cons_append, replaceFrom, replaceFrom, hexec]
          cases hmatch : r.exec (c :: u) with
          | none =>
              show c :: _ = c :: _ ++ _
              rw [ih (before ++ [c]) (Nat.zero_le _)]
              rfl
          | some o =>
              obtain ⟨matched, captures⟩ := o
              have hlength := (exec_isPrefix hmatch).length_le
              show out captures ++ _ = out captures ++ _ ++ _
              rw [ih (before ++ [c]) (by rw [List.length_cons] at hlength; omega),
                List.append_assoc]

/-- What an element separates that the expression does not read is treated on its own. The induction
over words uses this at every cut. -/
theorem replaceAll_append_cons {p : α → Bool} (h : r.Within p) (hempty : r.exec [] = none) {d : α}
    (hd : p d = false) (u v : List α) :
    r.replaceAll (fun m => out m.captures) (u ++ d :: v) =
      r.replaceAll (fun m => out m.captures) u ++ d :: r.replaceAll (fun m => out m.captures) v :=
  replaceFrom_append_cons h hempty hd [] u v (Nat.zero_le _)

theorem replaceAll_of_exec_none {c : α} {cs : List α} (h : r.exec (c :: cs) = none) :
    r.replaceAll (fun m => out m.captures) (c :: cs) =
      c :: r.replaceAll (fun m => out m.captures) cs := by
  rw [replaceAll, replaceFrom, h]
  exact congrArg _ (replaceFrom_before _ _ _ _)

end

end Regex

end Matching
