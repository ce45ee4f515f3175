import Mathlib.Data.List.DropRight
import Mathlib.Data.List.Induction
import Mathlib.Data.List.Infix

/-!
# VetHealth.Lib.Words

**The words of a text** are the runs of what is no separator. Where two texts are joined at a separator,
the words of the one are followed by those of the other (`words_append_cons`).

Rewriting the separators of a text keeps its words. For an induction over the text that says too
little: with one more letter before it, the first word grows only if the text begins with it.
`SameWords` compares two texts behind every front, and can be carried through.
-/

namespace Words

variable {α : Type} (p : α → Bool)

/-- The runs of what `p` does not accept. A text that is shown to a model is compared by its words,
since white space is normalised on the way. -/
def words (cs : List α) : List (List α) := (cs.splitOnP p).filter fun word => !word.isEmpty

/-- Two texts have the same words, whatever comes before them. Without the text before them the
first word would not be comparable: it may go on there. -/
def SameWords (a b : List α) : Prop := ∀ front, words p (front ++ a) = words p (front ++ b)

variable {p}

@[simp] theorem words_nil : words p [] = [] := rfl

theorem words_append_cons {c : α} (hc : p c = true) (a b : List α) :
    words p (a ++ c :: b) = words p a ++ words p b := by
  rw [words, List.splitOnP_append_cons _ _ hc, List.filter_append]
  rfl

theorem words_cons {c : α} (hc : p c = true) (cs : List α) : words p (c :: cs) = words p cs :=
  words_append_cons hc [] cs

/-- A text without separators is a word. -/
theorem words_of_letters {cs : List α} (hne : cs ≠ []) (h : ∀ c ∈ cs, p c = false) :
    words p cs = [cs] := by
  rw [words, List.splitOnP_eq_singleton h]
  simp [hne]

/-- A letter before a text that begins with a letter belongs to its first word. -/
theorem words_cons_letter {c d : α} (hc : p c = false) (hd : p d = false) (cs : List α) :
    ∃ word rest, words p (d :: cs) = word :: rest ∧ words p (c :: d :: cs) = (c :: word) :: rest := by
  obtain ⟨word, rest, hsplit⟩ := List.exists_cons_of_ne_nil ( List.splitOnP_ne_nil p cs)
  refine ⟨d :: word, rest.filter fun word => !word.isEmpty, ?_, ?_⟩
  · simp [words, List.splitOnP_cons_eq_if_modifyHead, hd, hsplit]
  · simp [words, List.splitOnP_cons_eq_if_modifyHead, hc, hd, hsplit]

/-- A word is no longer than its text. -/
theorem length_le_of_mem_words {word cs : List α} (h : word ∈ words p cs) :
    word.length ≤ cs.length := by
  have hparts : ∀ part ∈ cs.splitOnP p, part.length ≤ cs.length := by
    clear h
    induction cs with
    | nil => simp
    | cons c cs ih =>
        obtain ⟨first, rest, hsplit⟩ := List.exists_cons_of_ne_nil (List.splitOnP_ne_nil p cs)
        rw [hsplit, List.forall_mem_cons] at ih
        rw [List.splitOnP_cons_eq_if_modifyHead]
        split
        · rw [hsplit, List.forall_mem_cons, List.forall_mem_cons]
          exact ⟨Nat.zero_le _, Nat.le_succ_of_le ih.1, fun part hpart =>
            Nat.le_succ_of_le (ih.2 part hpart)⟩
        · rw [hsplit, List.modifyHead_cons, List.forall_mem_cons]
          exact ⟨Nat.succ_le_succ ih.1, fun part hpart => Nat.le_succ_of_le (ih.2 part hpart)⟩
  exact hparts word (List.mem_of_mem_filter h)

/-! ### Separators at the ends -/

theorem words_dropWhile (cs : List α) : words p (cs.dropWhile p) = words p cs := by
  induction cs with
  | nil => rfl
  | cons c cs ih =>
      cases hc : p c with
      | true => rw [List.dropWhile_cons_of_pos hc, ih, words_cons hc]
      | false => rw [List.dropWhile_cons_of_neg (by simp [hc])]

theorem words_append_separators (cs : List α) {ds : List α} (h : ∀ d ∈ ds, p d = true) :
    words p (cs ++ ds) = words p cs := by
  induction ds generalizing cs with
  | nil => rw [List.append_nil]
  | cons d ds ih =>
      have hds := ih [] fun e he => h e (List.mem_cons_of_mem _ he)
      rw [words_append_cons (h d List.mem_cons_self), ← List.nil_append ds, hds, words_nil,
        List.append_nil]

theorem words_rdropWhile (cs : List α) : words p (cs.rdropWhile p) = words p cs := by
  have hsplit : cs.rdropWhile p ++ (cs.reverse.takeWhile p).reverse = cs := by
    rw [List.rdropWhile, ← List.reverse_append, List.takeWhile_append_dropWhile,
      List.reverse_reverse]
  conv_rhs => rw [← hsplit]
  refine (words_append_separators _ fun d hd => ?_).symm
  exact List.mem_takeWhile_imp (List.mem_reverse.1 hd)

/-! ### Rewriting -/

namespace SameWords

variable {a b : List α}

theorem words (h : SameWords p a b) : words p a = words p b := h []

theorem refl (a : List α) : SameWords p a a := fun _ => rfl

theorem trans {c : List α} (h : SameWords p a b) (h' : SameWords p b c) : SameWords p a c :=
  fun front => (h front).trans (h' front)

theorem cons (c : α) (h : SameWords p a b) : SameWords p (c :: a) (c :: b) := by
  intro front
  have hfront := h (front ++ [c])
  rwa [List.append_assoc, List.append_assoc] at hfront

/-- After a separator it is enough to compare the words, because no word reaches over the separator.
-/
theorem separators {c d : α} (hc : p c = true) (hd : p d = true)
    (h : Words.words p a = Words.words p b) : SameWords p (c :: a) (d :: b) := by
  intro front
  rw [words_append_cons hc, words_append_cons hd, h]

/-- Before a separator, or at the end, a separator may stand or not: it only makes a gap wider. -/
theorem before_separator {c : α} (hc : p c = true) (h : ∀ d ∈ a.head?, p d = true) :
    SameWords p a (c :: a) := by
  intro front
  cases a with
  | nil => rw [words_append_cons hc, words_nil, List.append_nil, List.append_nil]
  | cons d a =>
      have hd : p d = true := h d rfl
      rw [words_append_cons hc, words_append_cons hd, words_cons hd]

end SameWords

/-! ### Joining words -/

/-- A text in which single separators stand, and only between words, is its words joined. So a
normalised text can be recovered from its words. -/
theorem intercalate_words {c : α} {cs : List α} (hsame : ∀ d ∈ cs, p d = true → d = c)
    (hapart : cs.IsChain fun a b => ¬(p a = true ∧ p b = true))
    (hhead : ∀ d ∈ cs.head?, p d = false) (hlast : ∀ d ∈ cs.getLast?, p d = false) :
    [c].intercalate (words p cs) = cs := by
  induction cs using List.twoStepInduction with
  | nil => rfl
  | singleton d =>
      have hd := hhead d rfl
      rw [words_of_letters (List.cons_ne_nil _ _) (by simpa using hd), List.intercalate_singleton]
  | cons_cons d e cs ih ih' =>
      have hd := hhead d rfl
      have hsame' : ∀ f ∈ e :: cs, p f = true → f = c := fun f hf => hsame f (List.mem_cons_of_mem _ hf)
      have hlast' : ∀ f ∈ (e :: cs).getLast?, p f = false := by
        rwa [List.getLast?_cons_cons] at hlast
      have hapart' := (List.isChain_cons_cons.1 hapart).2
      cases he : p e with
      | false =>
          -- the word goes on
          obtain ⟨word, rest, hwords, hmore⟩ := words_cons_letter hd he cs
          have hjoined := ih' e hsame' hapart' (by simpa using he) hlast'
          rw [hwords] at hjoined
          rw [hmore]
          cases rest with
          | nil => simpa using hjoined
          | cons next rest => simpa [List.intercalate_cons_cons] using hjoined
      | true =>
          -- the word is `[d]`, and the next one begins after the separator
          obtain rfl := hsame' e List.mem_cons_self he
          cases cs with
          | nil => simp [he] at hlast'
          | cons f cs =>
              have hf : p f = false := by
                have hpair := (List.isChain_cons_cons.1 hapart').1
                simpa [he] using hpair
              have hjoined := ih (fun g hg => hsame' g (List.mem_cons_of_mem _ hg))
                (List.isChain_cons_cons.1 hapart').2 (by simpa using hf)
                (by rwa [List.getLast?_cons_cons] at hlast')
              have hne : words p (f :: cs) ≠ [] := by
                intro hnil
                rw [hnil] at hjoined
                cases hjoined
              have hsplit : words p (d :: e :: f :: cs) = [d] :: words p (f :: cs) := by
                have happend := words_append_cons he [d] (f :: cs)
                rwa [words_of_letters (List.cons_ne_nil _ _) (by simpa using hd)] at happend
              rw [hsplit, List.intercalate_cons_of_ne_nil hne, hjoined]
              rfl

theorem words_separators_append {ds : List α} (h : ∀ d ∈ ds, p d = true) (cs : List α) :
    words p (ds ++ cs) = words p cs := by
  induction ds with
  | nil => rfl
  | cons d ds ih =>
      rw [List.cons_append, words_cons (h d List.mem_cons_self),
        ih fun e he => h e (List.mem_cons_of_mem _ he)]

/-- The words of texts that are joined with separators. -/
theorem words_intercalate {separator : List α} (hne : separator ≠ [])
    (h : ∀ c ∈ separator, p c = true) (texts : List (List α)) :
    words p (separator.intercalate texts) = texts.flatMap (words p) := by
  obtain ⟨c, cs, rfl⟩ := List.exists_cons_of_ne_nil hne
  induction texts with
  | nil => rfl
  | cons text texts ih =>
      cases texts with
      | nil => simp
      | cons next texts =>
          rw [List.intercalate_cons_cons, List.append_assoc, List.cons_append,
            words_append_cons (h c List.mem_cons_self),
            words_separators_append fun d hd => h d (List.mem_cons_of_mem _ hd), ih]
          rfl

theorem intercalate_append (separator : List α) {xs ys : List (List α)} (hx : xs ≠ [])
    (hy : ys ≠ []) : separator.intercalate (xs ++ ys) =
      separator.intercalate xs ++ separator ++ separator.intercalate ys := by
  induction xs with
  | nil => exact absurd rfl hx
  | cons x xs ih =>
      cases xs with
      | nil => simp [List.intercalate_cons_of_ne_nil hy]
      | cons next xs =>
          have hrest := ih (List.cons_ne_nil _ _)
          simp only [List.cons_append, List.intercalate_cons_cons] at hrest ⊢
          simp [hrest]

/-- What is joined of joined parts is joined of all parts. -/
theorem intercalate_map_intercalate (separator : List α) {β : Type} {f : β → List (List α)}
    (h : ∀ x, f x ≠ []) (xs : List β) :
    separator.intercalate (xs.map fun x => separator.intercalate (f x)) =
      separator.intercalate (xs.flatMap f) := by
  induction xs with
  | nil => rfl
  | cons x xs ih =>
      by_cases hnil : xs = []
      · simp [hnil]
      · have hrest : xs.flatMap f ≠ [] := by
          obtain ⟨y, ys, rfl⟩ := List.exists_cons_of_ne_nil hnil
          exact List.append_ne_nil_of_left_ne_nil (h y) _
        rw [List.map_cons, List.flatMap_cons, List.intercalate_cons_of_ne_nil (by simpa using hnil), ih,
          intercalate_append separator (h x) hrest]

theorem length_intercalate_le {separator : List α} {k : Nat} {parts : List (List α)}
    (hne : parts ≠ []) (h : ∀ part ∈ parts, part.length ≤ k) :
    (separator.intercalate parts).length + separator.length ≤
      parts.length * (k + separator.length) := by
  induction parts with
  | nil => exact absurd rfl hne
  | cons part parts ih =>
      have hpart := h part List.mem_cons_self
      by_cases hnil : parts = []
      · simpa [hnil] using hpart
      · have hrest := ih hnil fun other hother => h other (List.mem_cons_of_mem _ hother)
        rw [List.intercalate_cons_of_ne_nil hnil, List.length_cons, Nat.succ_mul]
        simp only [List.length_append]
        omega

theorem intercalate_eq_nil {c : α} {texts : List (List α)} (h : ∀ text ∈ texts, text ≠ []) :
    [c].intercalate texts = [] ↔ texts = [] := by
  cases texts with
  | nil => simp
  | cons text texts =>
      have htext := h text List.mem_cons_self
      cases texts with
      | nil => simp [htext]
      | cons next texts => simp [List.intercalate_cons_cons, htext]

/-- The words of all texts can be joined text by text, if the texts without words are left out. -/
theorem intercalate_flatMap (c : α) (texts : List (List α)) :
    [c].intercalate ((texts.map fun text => [c].intercalate (words p text)).filter
        fun text => !text.isEmpty) =
      [c].intercalate (texts.flatMap (words p)) := by
  have hword : ∀ text, ∀ word ∈ words p text, word ≠ [] := by
    intro text word hword hnil
    have hkept := (List.mem_filter.1 hword).2
    rw [hnil] at hkept
    cases hkept
  induction texts with
  | nil => rfl
  | cons text texts ih =>
      rw [List.map_cons, List.flatMap_cons]
      by_cases hnone : words p text = []
      · rw [hnone, List.filter_cons_of_neg (by simp), ih, List.nil_append]
      · have hjoined : [c].intercalate (words p text) ≠ [] :=
          fun hnil => hnone ((intercalate_eq_nil (hword text)).1 hnil)
        rw [List.filter_cons_of_pos (by simpa using hjoined)]
        by_cases hrest : texts.flatMap (words p) = []
        · -- nothing comes after the text, on either side
          have hno : (texts.map fun text => [c].intercalate (words p text)).filter
              (fun text => !text.isEmpty) = [] := by
            rw [← intercalate_eq_nil (c := c), ih, hrest, List.intercalate_nil]
            intro text htext hnil
            have hkept := (List.mem_filter.1 htext).2
            rw [hnil] at hkept
            cases hkept
          rw [hno, hrest, List.intercalate_singleton, List.append_nil]
        · have hsome : (texts.map fun text => [c].intercalate (words p text)).filter
              (fun text => !text.isEmpty) ≠ [] := by
            intro hno
            rw [hno, List.intercalate_nil] at ih
            refine hrest ((intercalate_eq_nil fun word hmem => ?_).1 ih.symm)
            obtain ⟨text, -, htext⟩ := List.mem_flatMap.1 hmem
            exact hword text word htext
          rw [List.intercalate_cons_of_ne_nil hsome, ih, intercalate_append [c] hnone hrest]

end Words
