import VetHealth.Js.Number
import VetHealth.Js.Replace

/-!
# VetHealth.Files.ImageRefs

**References to images.** An uploaded image is stored under a key that begins with `images/posts/` or
`images/topics/`. The scripts that move the images to an object storage find these keys by a regular
expression, without regard to case: in a path of a file, and in a text together with what precedes
the key there.

Neither expression matches across a quote, white space, a backslash or a closing parenthesis, so a
text is rewritten word by word (`replaceRefs_append_cons`). In a word the text before the first
key is kept up to its first scheme, or up to a slash right before the key (`rewriteWord`).
-/

namespace VetHealth

open Js Matching Matching.Regex

namespace ImageRefs

/-! ### The expressions -/

/-- The class `[^"'\s\\)]`. -/
def isKeyChar (c : Char) : Bool :=
  !(c = '"' || c.toNat = 0x27 || isSpace c || c = '\\' || c = ')')

/-- A letter of an expression with the flag `i`, and a character of the text. -/
def ignoreCase (w c : Char) : Bool := c.toLower = w.toLower

def word (s : String) : Regex Char := .text ignoreCase s.toList

/-- `FILE_KEY_RE`, which is also the group of `IMG_KEY_RE`. -/
def FILE_KEY_RE : Regex Char :=
  .group (.seq (word "images/") (.seq (.alt (word "posts") (word "topics"))
    (.seq (word "/") (.many1 isKeyChar))))

/-- `https?:?\/\/`. -/
def scheme : Regex Char :=
  .seq (word "http") (.seq (.opt (word "s")) (.seq (.opt (word ":")) (word "//")))

def IMG_KEY_RE : Regex Char :=
  .seq (.opt (.seq scheme (.many true isKeyChar))) (.seq (.opt (word "/")) FILE_KEY_RE)

/-- Replace the references of a text by the base and the key. The base is part of a replacement
pattern, in which `$` has a meaning. -/
def replaceRefs (publicBase value : List Char) : List Char :=
  IMG_KEY_RE.replaceAll (fun m => getSubstitution 1 m 0 (publicBase ++ "/$1".toList)) value

def rewriteImageRefs (value publicBase : String) : String :=
  .ofList (replaceRefs publicBase.toList value.toList)

/-- `value.replace(/^\/?uploads\//, '')`. -/
def stripUploadsPrefix (value : String) : String :=
  let expression : Regex Char := .seq (.opt (.text (· = ·) ['/'])) (.text (· = ·) "uploads/".toList)
  match expression.exec value.toList with
  | some o => .ofList (value.toList.drop o.1.length)
  | none => value

def normalizeFileKey (value : String) : String :=
  match FILE_KEY_RE.find value.toList with
  | some o => .ofList (o.2.getD 0 [])
  | none => stripUploadsPrefix value

/-! ### Letters -/

/-- A character is in lower case already, or its lower case is one of twenty-six letters. What
`ignoreCase` accepts can then be checked letter by letter. -/
theorem toLower_cases (c : Char) :
    c.toLower = c ∨ ∃ n : Fin 26, c = Char.ofNat (65 + n.val) ∧ c.toLower = Char.ofNat (97 + n.val) := by
  by_cases hupper : c.val ≥ 'A'.val ∧ c.val ≤ 'Z'.val
  · have hall : ∀ n : Fin 26, (Char.ofNat (65 + n.val)).toLower = Char.ofNat (97 + n.val) := by
      decide
    have hlow : 65 ≤ c.toNat := hupper.1
    have hhigh : c.toNat ≤ 90 := hupper.2
    have hc : c = Char.ofNat (65 + (c.toNat - 65)) := by
      rw [Nat.add_sub_cancel' hlow, Char.ofNat_toNat]
    refine Or.inr ⟨⟨c.toNat - 65, by omega⟩, hc, ?_⟩
    rw [← hall ⟨c.toNat - 65, by omega⟩, ← hc]
  · exact Or.inl (dif_neg hupper)

/-- What the letters of the expressions match may stand in a key. -/
theorem isKeyChar_of_ignoreCase {w c : Char} (hw : isKeyChar w.toLower = true)
    (h : ignoreCase w c = true) : isKeyChar c = true := by
  have hlower : c.toLower = w.toLower := by simpa [ignoreCase] using h
  rcases toLower_cases c with hc | ⟨n, rfl, -⟩
  · rw [← hc, hlower]
    exact hw
  · clear h hlower
    revert n
    decide

/-- A sign of the expressions is matched by itself alone. -/
theorem ignoreCase_sign {w c : Char} (hw : ∀ n : Fin 26, Char.ofNat (97 + n.val) ≠ w.toLower)
    (hlower : w.toLower = w) : ignoreCase w c = decide (c = w) := by
  rw [ignoreCase, decide_eq_decide]
  constructor
  · intro h
    rcases toLower_cases c with hc | ⟨n, -, hn⟩
    · rw [← hc, h, hlower]
    · exact absurd (hn.symm.trans h) (hw n)
  · rintro rfl
    rfl

@[simp] theorem ignoreCase_slash (c : Char) : ignoreCase '/' c = decide (c = '/') :=
  ignoreCase_sign (by decide) (by decide)

theorem word_within {s : String} (h : ∀ w ∈ s.toList, isKeyChar w.toLower = true) :
    (word s).Within isKeyChar :=
  Within.text fun w hw _ => isKeyChar_of_ignoreCase (h w hw)

theorem FILE_KEY_RE_within : FILE_KEY_RE.Within isKeyChar :=
  ⟨word_within (by decide), ⟨word_within (by decide), word_within (by decide)⟩,
    word_within (by decide), fun _ h => h, fun _ h => h⟩

theorem IMG_KEY_RE_within : IMG_KEY_RE.Within isKeyChar :=
  ⟨⟨⟨word_within (by decide), word_within (by decide), word_within (by decide),
    word_within (by decide)⟩, fun _ h => h⟩, word_within (by decide), FILE_KEY_RE_within⟩

/-! ### Matches in a word -/

/-- The text begins with one of the words, without regard to case. From here on the expressions are
replaced by tests on the front of a word. -/
def begins (s : String) (cs : List Char) : Bool := startsWith ignoreCase s.toList cs

/-- A word that is a key: one of the two directories, and at least one character after it. -/
def isKey (cs : List Char) : Bool :=
  (begins "images/posts/" cs && 13 < cs.length) || (begins "images/topics/" cs && 14 < cs.length)

/-- What follows `:?\/\/` at the front of a word. -/
def afterColon (cs : List Char) : Option (List Char) :=
  if begins "://" cs then some (cs.drop 3) else if begins "//" cs then some (cs.drop 2) else none

/-- What follows a scheme at the front of a word. -/
def afterScheme (cs : List Char) : Option (List Char) :=
  if begins "http" cs then
    if begins "s" (cs.drop 4) then afterColon (cs.drop 5) else afterColon (cs.drop 4)
  else none

/-- The part of a word from its first key on, wherever in the word that key begins. -/
def firstKey (cs : List Char) : Option (List Char) := cs.tails.find? isKey

/-- A word that is a key, or a slash and a key. -/
def keyHere (cs : List Char) : Option (List Char) :=
  if isKey cs then some cs
  else if begins "/" cs && isKey (cs.drop 1) then some (cs.drop 1)
  else none

/-- The key that a match at the front of a word captures. -/
def refAt (cs : List Char) : Option (List Char) := ((afterScheme cs).bind firstKey).or (keyHere cs)

def rewriteWord (base : List Char) : List Char → List Char
  | [] => []
  | c :: cs =>
      match refAt (c :: cs) with
      | some key => base ++ '/' :: key
      | none => c :: rewriteWord base cs

/-- A directory and a name in it: the name is the rest of the word, as the run is greedy. -/
theorem exec_directory (directory : String) {cs : List Char} (h : ∀ c ∈ cs, isKeyChar c = true) :
    (seq (word directory) (.seq (word "/") (.many1 isKeyChar))).exec cs =
      if startsWith ignoreCase (directory.toList ++ ['/']) cs &&
          directory.toList.length + 1 < cs.length then some (cs, [])
      else none := by
  have hslash : ("/".toList : List Char) = ['/'] := by decide
  rw [word, word, exec_text_seq, exec_text_seq, startsWith_append, hslash, exec_many1]
  · by_cases hdirectory : startsWith ignoreCase directory.toList cs = true
    · by_cases hsep : startsWith ignoreCase ['/'] (cs.drop directory.toList.length) = true
      · simp only [hdirectory, hsep, if_true, Bool.and_true, Bool.true_and, List.drop_drop,
          List.length_singleton, decide_eq_true_eq, List.drop_eq_nil_iff]
        by_cases hlength : directory.toList.length + 1 < cs.length
        · rw [if_neg (by omega), if_pos hlength]
          simp only [Option.map_some]
          rw [← List.drop_drop, List.take_append_drop, List.take_append_drop]
        · rw [if_pos (by omega), if_neg hlength]
          rfl
      · simp [hdirectory, hsep]
    · simp [hdirectory]
  · exact fun c hc => h c (List.mem_of_mem_drop (List.mem_of_mem_drop hc))

theorem begins_directory (directory : String) (cs : List Char) :
    startsWith ignoreCase ("images/".toList ++ (directory.toList ++ ['/'])) cs =
      (begins "images/" cs &&
        startsWith ignoreCase (directory.toList ++ ['/']) (cs.drop 7)) :=
  startsWith_append _ _ cs

theorem exec_FILE_KEY_RE {cs : List Char} (h : ∀ c ∈ cs, isKeyChar c = true) :
    FILE_KEY_RE.exec cs = if isKey cs then some (cs, [cs]) else none := by
  have hdrop : ∀ c ∈ cs.drop 7, isKeyChar c = true := fun c hc => h c (List.mem_of_mem_drop hc)
  have himages : "images/".toList.length = 7 := by decide
  have hposts : "posts".toList.length + 1 = 6 := by decide
  have htopics : "topics".toList.length + 1 = 7 := by decide
  have hkey : isKey cs = (begins "images/" cs &&
      (startsWith ignoreCase ("posts".toList ++ ['/']) (cs.drop 7) && 6 < (cs.drop 7).length ||
        startsWith ignoreCase ("topics".toList ++ ['/']) (cs.drop 7) && 7 < (cs.drop 7).length)) := by
    have hlength : ∀ n, decide (n < (cs.drop 7).length) = decide (7 + n < cs.length) := by
      intro n
      rw [List.length_drop, decide_eq_decide]
      omega
    rw [hlength, hlength, Bool.and_or_distrib_left, ← Bool.and_assoc, ← Bool.and_assoc,
      ← begins_directory, ← begins_directory]
    rfl
  rw [FILE_KEY_RE, exec_group, word, exec_text_seq, exec_alt_seq, himages,
    exec_directory "posts" hdrop, exec_directory "topics" hdrop, hposts, htopics, hkey, begins]
  -- the name behind a directory is not empty, which is what the two lengths say
  cases startsWith ignoreCase "images/".toList cs with
  | false => rfl
  | true =>
      cases startsWith ignoreCase ("posts".toList ++ ['/']) (cs.drop 7) &&
          decide (6 < (cs.drop 7).length) with
      | true => simp
      | false =>
          cases startsWith ignoreCase ("topics".toList ++ ['/']) (cs.drop 7) &&
              decide (7 < (cs.drop 7).length) with
          | true => simp
          | false => rfl

/-- Within a word, an expression matches the rest of the word or nothing, and `key` tells what its
group keeps. This composes along the expression. -/
def Captures (r : Regex Char) (key : List Char → Option (List Char)) : Prop :=
  ∀ cs, (∀ c ∈ cs, isKeyChar c = true) → r.exec cs = (key cs).map fun k => (cs, [k])

namespace Captures

variable {r : Regex Char} {key : List Char → Option (List Char)}

theorem file_key : Captures FILE_KEY_RE fun cs => if isKey cs then some cs else none := by
  intro cs hcs
  rw [exec_FILE_KEY_RE hcs]
  dsimp only
  cases isKey cs <;> rfl

theorem word_seq (h : Captures r key) (s : String) :
    Captures (.seq (word s) r) fun cs =>
      if begins s cs then key (cs.drop s.toList.length) else none := by
  intro cs hcs
  have hexec : (seq (word s) r).exec cs = if begins s cs = true then
      (r.exec (cs.drop s.toList.length)).map fun o => (cs.take s.toList.length ++ o.1, o.2)
    else none := exec_text_seq ignoreCase s.toList r cs
  rw [hexec, h _ fun c hc => hcs c (List.mem_of_mem_drop hc)]
  dsimp only
  cases begins s cs with
  | true => simp [Function.comp_def]
  | false => rfl

theorem opt_word_seq (h : Captures r key) (s : String) :
    Captures (.seq (.opt (word s)) r) fun cs =>
      (if begins s cs then key (cs.drop s.toList.length) else none).or (key cs) := by
  intro cs hcs
  rw [exec_opt_seq, h.word_seq s cs hcs, h cs hcs, Option.map_or]

theorem seq_assoc {s t : Regex Char} (h : Captures (.seq r (.seq s t)) key) :
    Captures (.seq (.seq r s) t) key := by
  intro cs hcs
  rw [exec_seq_assoc, h cs hcs]

theorem opt_seq {t : Regex Char} {key' : List Char → Option (List Char)}
    (h : Captures (.seq r t) key) (h' : Captures t key') :
    Captures (.seq (.opt r) t) fun cs => (key cs).or (key' cs) := by
  intro cs hcs
  rw [exec_opt_seq, h cs hcs, h' cs hcs, Option.map_or]

theorem findSome_inits (key : List Char → Option (List Char)) (read cs : List Char) :
    (cs.inits.findSome? fun run => (key (cs.drop run.length)).map fun k =>
      (read ++ (run ++ cs.drop run.length), [k])) =
      (cs.tails.findSome? key).map fun k => (read ++ cs, [k]) := by
  induction cs generalizing read with
  | nil => cases hkey : key [] <;> simp [hkey]
  | cons c cs ih =>
      have hrest := ih (read ++ [c])
      rw [List.inits_cons, List.tails_cons, List.findSome?_cons, List.findSome?_cons,
        List.findSome?_map]
      cases hkey : key (c :: cs) with
      | some k => simp [hkey]
      | none => simpa [hkey, Function.comp_def] using hrest

/-- A lazy run stops at the first place from which the rest matches. It never has to go back within
a word. -/
theorem lazy_seq (h : Captures r key) :
    Captures (.seq (.many true isKeyChar) r) fun cs => cs.tails.findSome? key := by
  intro cs hcs
  have hrun : cs.takeWhile isKeyChar = cs := List.takeWhile_eq_self_iff.2 hcs
  have hrest : ∀ run : List Char, r.exec (cs.drop run.length) =
      (key (cs.drop run.length)).map fun k => (cs.drop run.length, [k]) :=
    fun run => h _ fun c hc => hcs c (List.mem_of_mem_drop hc)
  rw [exec_seq]
  simp only [outcomes, hrun, if_true, List.findSome?_map, Function.comp_def, hrest,
    Option.map_map, List.nil_append]
  simpa using findSome_inits key [] cs

end Captures

/-- Words whose first letters differ do not begin the same text. -/
theorem begins_exclusive {w v : Char} {ws vs cs : List Char}
    (h : startsWith ignoreCase (w :: ws) cs = true) (hne : w.toLower ≠ v.toLower) :
    startsWith ignoreCase (v :: vs) cs = false := by
  cases cs with
  | nil => cases h
  | cons c cs =>
      rw [startsWith, Bool.and_eq_true, ignoreCase, decide_eq_true_eq] at h
      rw [startsWith, ignoreCase, h.1, decide_eq_false hne, Bool.false_and]

theorem isKey_begins {cs : List Char} (h : isKey cs = true) :
    startsWith ignoreCase "images/".toList cs = true := by
  rw [isKey, Bool.or_eq_true, Bool.and_eq_true, Bool.and_eq_true] at h
  rcases h with ⟨h, -⟩ | ⟨h, -⟩
  · have hposts := @startsWith_append _ ignoreCase "images/".toList "posts/".toList cs
    exact (Bool.and_eq_true_iff.1 (hposts.symm.trans h)).1
  · have htopics := @startsWith_append _ ignoreCase "images/".toList "topics/".toList cs
    exact (Bool.and_eq_true_iff.1 (htopics.symm.trans h)).1

theorem firstKey_of_isKey {cs : List Char} (h : isKey cs = true) : firstKey cs = some cs := by
  cases cs with
  | nil => cases h
  | cons c cs => rw [firstKey, List.tails_cons, List.find?_cons, h]

theorem firstKey_cons_of_not {c : Char} {cs : List Char} (h : isKey (c :: cs) = false) :
    firstKey (c :: cs) = firstKey cs := by
  rw [firstKey, List.tails_cons, List.find?_cons, h, firstKey]

/-- The first key is the first one that stands alone or after a slash. -/
theorem findSome_keyHere (cs : List Char) : cs.tails.findSome? keyHere = firstKey cs := by
  induction cs with
  | nil => rfl
  | cons c cs ih =>
      rw [List.tails_cons, List.findSome?_cons, ih, keyHere]
      cases hkey : isKey (c :: cs) with
      | true => exact (firstKey_of_isKey hkey).symm
      | false =>
          rw [firstKey_cons_of_not hkey]
          cases hslash : begins "/" (c :: cs) && isKey ((c :: cs).drop 1) with
          | true => exact (firstKey_of_isKey (Bool.and_eq_true_iff.1 hslash).2).symm
          | false => rfl

theorem captures_keyHere : Captures (.seq (.opt (word "/")) FILE_KEY_RE) keyHere := by
  intro cs hcs
  rw [Captures.file_key.opt_word_seq "/" cs hcs]
  refine congrArg _ ?_
  dsimp only [keyHere]
  cases hkey : isKey cs with
  | true =>
      have hslash : begins "/" cs = false := begins_exclusive (isKey_begins hkey) (by decide)
      rw [hslash]
      rfl
  | false =>
      have hlength : "/".toList.length = 1 := by decide
      rw [hlength]
      cases begins "/" cs <;> cases isKey (cs.drop 1) <;> rfl

theorem begins_append (s t : String) (cs : List Char) :
    begins (s ++ t) cs = (begins s cs && begins t (cs.drop s.toList.length)) := by
  rw [begins, String.toList_append, startsWith_append]
  rfl

theorem captures_afterColon {r : Regex Char} {key : List Char → Option (List Char)}
    (h : Captures r key) :
    Captures (.seq (.seq (.opt (word ":")) (word "//")) r) fun cs => (afterColon cs).bind key := by
  refine Captures.seq_assoc fun cs hcs => ?_
  rw [(h.word_seq "//").opt_word_seq ":" cs hcs]
  refine congrArg _ ?_
  have hcolon : ":".toList.length = 1 := by decide
  have hslashes : "//".toList.length = 2 := by decide
  have hboth : begins "://" cs = (begins ":" cs && begins "//" (cs.drop 1)) :=
    begins_append ":" "//" cs
  dsimp only [afterColon]
  rw [hcolon, hslashes, hboth]
  cases hc : begins ":" cs with
  | true =>
      have hnone : begins "//" cs = false := begins_exclusive hc (by decide)
      rw [hnone]
      cases begins "//" (cs.drop 1) <;> simp
  | false => cases begins "//" cs <;> simp

theorem captures_afterScheme {r : Regex Char} {key : List Char → Option (List Char)}
    (h : Captures r key) :
    Captures (.seq scheme r) fun cs => (afterScheme cs).bind key := by
  refine Captures.seq_assoc fun cs hcs => ?_
  rw [(((captures_afterColon h).opt_word_seq "s").seq_assoc.word_seq "http") cs hcs]
  refine congrArg _ ?_
  have hhttp : "http".toList.length = 4 := by decide
  have hs : "s".toList.length = 1 := by decide
  dsimp only [afterScheme]
  rw [hhttp, hs, List.drop_drop]
  cases begins "http" cs with
  | false => rfl
  | true =>
      cases hsecure : begins "s" (cs.drop 4) with
      | true =>
          have hcolon : begins "://" (cs.drop 4) = false := begins_exclusive hsecure (by decide)
          have hslashes : begins "//" (cs.drop 4) = false := begins_exclusive hsecure (by decide)
          simp [afterColon, hcolon, hslashes]
      | false => simp

/-- What the expression captures in a word. With this the matcher is not unfolded any more. -/
theorem captures_refAt : Captures IMG_KEY_RE refAt := by
  have hlazy : Captures (.seq (.many true isKeyChar) (.seq (.opt (word "/")) FILE_KEY_RE)) firstKey := by
    intro cs hcs
    rw [captures_keyHere.lazy_seq cs hcs]
    exact congrArg _ (findSome_keyHere cs)
  exact Captures.opt_seq (captures_afterScheme hlazy).seq_assoc captures_keyHere

/-! ### Rewriting a text -/

/-- A text that no key occurs in is left alone, since every reference has a key in it. -/
theorem replaceRefs_of_find_none (base : List Char) {cs : List Char}
    (h : FILE_KEY_RE.find cs = none) : replaceRefs base cs = cs := by
  refine replaceFrom_of_none _ fun t ht _ => ?_
  have hnone := find_eq_none.1 h
  have hkey : ∀ u, u <:+ cs → (seq (.opt (word "/")) FILE_KEY_RE).exec u = none := by
    intro u hu
    rw [exec_opt_seq, hnone u hu, Option.or_none]
    cases hslash : (seq (word "/") FILE_KEY_RE).exec u with
    | none => rfl
    | some o =>
        obtain ⟨v, hv, hsome⟩ := exists_exec_of_seq hslash
        rw [hnone v (hv.trans hu)] at hsome
        cases hsome
  rw [IMG_KEY_RE, exec_opt_seq, hkey t ht, Option.or_none]
  cases hscheme : (seq (.seq scheme (.many true isKeyChar))
      (.seq (.opt (word "/")) FILE_KEY_RE)).exec t with
  | none => rfl
  | some o =>
      obtain ⟨v, hv, hsome⟩ := exists_exec_of_seq hscheme
      rw [hkey v (hv.trans ht)] at hsome
      cases hsome

section

variable {base : List Char} (hplain : isPlain 1 base = true)

include hplain

/-- A base without directives stands before every key, and the text is otherwise as it was. -/
theorem replaceRefs_eq (cs : List Char) :
    replaceRefs base cs =
      IMG_KEY_RE.replaceAll (fun m => base ++ '/' :: m.captures.getD 0 []) cs := by
  refine congrArg (IMG_KEY_RE.replaceAll · cs) (funext fun m => ?_)
  have htemplate : "/$1".toList = ['/', '$', '1'] := by decide
  have hread : Directive.read 1 ['1'] = some (.capture 1, 1) := by decide
  rw [htemplate, getSubstitution_append_slash _ _ _ _ (Nat.zero_le _),
    getSubstitution_of_isPlain m hplain]
  simp only [getSubstitution, if_true, hread, Directive.text, List.append_nil, Nat.sub_self]

/-- What stands before and what stands after a character that no key holds is rewritten on its
own. -/
theorem replaceRefs_append_cons {d : Char} (hd : isKeyChar d = false) (u v : List Char) :
    replaceRefs base (u ++ d :: v) = replaceRefs base u ++ d :: replaceRefs base v := by
  simp only [replaceRefs_eq hplain]
  exact @replaceAll_append_cons _ _ (fun captures => base ++ '/' :: captures.getD 0 []) _
    IMG_KEY_RE_within (captures_refAt [] (by simp)) _ hd u v

theorem replaceRefs_word {cs : List Char} (h : ∀ c ∈ cs, isKeyChar c = true) :
    replaceRefs base cs = rewriteWord base cs := by
  rw [replaceRefs_eq hplain]
  induction cs with
  | nil => rfl
  | cons c cs ih =>
      have hexec := captures_refAt (c :: cs) h
      rw [rewriteWord]
      cases hkey : refAt (c :: cs) with
      | some key =>
          rw [hkey] at hexec
          exact replaceAll_of_exec hexec
      | none =>
          rw [hkey] at hexec
          have hrest := ih fun d hd => h d (List.mem_cons_of_mem _ hd)
          have hstep := @replaceAll_of_exec_none _ _
            (fun captures => base ++ '/' :: captures.getD 0 []) _ _ hexec
          rw [hstep, hrest]

end

end ImageRefs

end VetHealth
