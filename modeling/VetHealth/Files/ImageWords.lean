import VetHealth.Files.ImageRefs

/-!
# VetHealth.Files.ImageWords

**Rewriting one word.** Which keys and which schemes a word has, when it is put together from parts:
what stands before a key is dropped from the first scheme on (`IsUrl.refAt`). A text that names no
directory of the keys has no key that reaches over its end, since a key goes on with `posts/` or
`topics/` where another one begins with `images/` (`firstKey_before_key`).
-/

namespace VetHealth

open Js Matching Matching.Regex

namespace ImageRefs

/-! ### Where keys begin -/

/-- No directory of the keys is named in a text. A base that named one would be taken for a
reference itself. -/
def NoDirectory (cs : List Char) : Prop :=
  ∀ t, t <:+ cs → begins "images/posts/" t = false ∧ begins "images/topics/" t = false

instance (cs : List Char) : Decidable (NoDirectory cs) :=
  decidable_of_iff (∀ t ∈ cs.tails, begins "images/posts/" t = false ∧
    begins "images/topics/" t = false) (by simp only [List.mem_tails, NoDirectory])

theorem NoDirectory.suffix {cs t : List Char} (h : NoDirectory cs) (ht : t <:+ cs) : NoDirectory t :=
  fun u hu => h u (hu.trans ht)

/-- A text does not begin with what it does not begin with when it goes on: the longer text is the
easier one to match. -/
theorem begins_of_append {s : String} {cs v : List Char} (h : begins s (cs ++ v) = false) :
    begins s cs = false := by
  by_contra hbegins
  rw [begins, startsWith_mono (by simpa [begins] using hbegins)] at h
  cases h

theorem isKey_eq_false {cs : List Char} (hposts : begins "images/posts/" cs = false)
    (htopics : begins "images/topics/" cs = false) : isKey cs = false := by
  rw [isKey, hposts, htopics]
  rfl

/-- A directory that is named across a slash is named before it, or its last part stands after
it. -/
theorem begins_across {q v : List Char} (ws : List Char) (hslash : ∀ n < ws.length - 1,
      startsWith ignoreCase ((ws.take (n + 1)).drop n) ['/'] = true → n = 6)
    (h : startsWith ignoreCase ws (q ++ '/' :: v) = true) :
    startsWith ignoreCase ws (q ++ ['/']) = true ∨ startsWith ignoreCase (ws.drop 7) v = true := by
  have hsplit : q ++ '/' :: v = (q ++ ['/']) ++ v := by simp
  rw [hsplit, startsWith_of_append, Bool.and_eq_true] at h
  obtain ⟨hu, hv⟩ := h
  rw [List.length_append, List.length_singleton] at hu hv
  by_cases hlength : ws.length ≤ q.length + 1
  · rw [List.take_of_length_le hlength] at hu
    exact Or.inl hu
  · rw [startsWith_of_append, Bool.and_eq_true] at hu
    have hsix := hslash q.length (by omega) hu.2
    rw [hsix] at hv
    exact Or.inr hv

/-- A text that names no directory begins no directory with what stands behind its last slash, where
this does not begin with the second part of one. -/
theorem NoDirectory.begins_append {q r : List Char} (hq : NoDirectory (q ++ ['/']))
    (hposts : begins "posts/" r = false) (htopics : begins "topics/" r = false) :
    begins "images/posts/" (q ++ '/' :: r) = false ∧
      begins "images/topics/" (q ++ '/' :: r) = false := by
  have hacross : ∀ ws second : List Char, ws.drop 7 = second →
      (∀ n < ws.length - 1,
        startsWith ignoreCase ((ws.take (n + 1)).drop n) ['/'] = true → n = 6) →
      startsWith ignoreCase ws (q ++ ['/']) = false → startsWith ignoreCase second r = false →
        startsWith ignoreCase ws (q ++ '/' :: r) = false := by
    rintro ws second rfl hslash hbefore hafter
    by_contra hnot
    rcases begins_across ws hslash (by simpa only [Bool.not_eq_false] using hnot) with h | h
    · rw [h] at hbefore
      cases hbefore
    · rw [h] at hafter
      cases hafter
  obtain ⟨hfirst, hsecond⟩ := hq _ List.suffix_rfl
  exact ⟨hacross "images/posts/".toList "posts/".toList (by decide) (by decide) hfirst hposts,
    hacross "images/topics/".toList "topics/".toList (by decide) (by decide) hsecond htopics⟩

theorem NoDirectory.append {q r : List Char} (hq : NoDirectory (q ++ ['/']))
    (hr : NoDirectory ('/' :: r)) (hposts : begins "posts/" r = false)
    (htopics : begins "topics/" r = false) : NoDirectory (q ++ '/' :: r) := by
  induction q with
  | nil => exact hr
  | cons c q ih =>
      intro t ht
      rcases List.suffix_cons_iff.1 ht with rfl | ht
      · exact hq.begins_append hposts htopics
      · exact ih (hq.suffix (List.suffix_cons c _)) t ht

/-- No key begins before the key at the end, where the text before it names no directory and ends
with a slash. -/
theorem isKey_before_key {q key : List Char} (hkey : isKey key = true)
    (hno : NoDirectory (q ++ ['/'])) : isKey (q ++ '/' :: key) = false := by
  have himages := isKey_begins hkey
  obtain ⟨hposts, htopics⟩ := hno.begins_append
    (@begins_exclusive 'i' 'p' _ "osts/".toList _ himages (by decide))
    (@begins_exclusive 'i' 't' _ "opics/".toList _ himages (by decide))
  exact isKey_eq_false hposts htopics

theorem firstKey_before_key {q key : List Char} (hkey : isKey key = true)
    (hno : NoDirectory (q ++ ['/'])) : firstKey (q ++ '/' :: key) = some key := by
  induction q with
  | nil =>
      rw [List.nil_append, firstKey_cons_of_not, firstKey_of_isKey hkey]
      exact isKey_before_key hkey hno
  | cons c q ih =>
      rw [List.cons_append, firstKey_cons_of_not, ih (hno.suffix (List.suffix_cons c _))]
      exact isKey_before_key hkey hno

/-- A name in a directory of the keys. -/
theorem isKey_topics {name : List Char} (h : name ≠ []) :
    isKey ("images/topics/".toList ++ name) = true := by
  have hpos := List.length_pos_of_ne_nil h
  have hbegins : begins "images/topics/" ("images/topics/".toList ++ name) = true :=
    startsWith_mono (by decide) _
  have hlength : "images/topics/".toList.length = 14 := by decide
  rw [isKey, hbegins, List.length_append, hlength, decide_eq_true (by omega : 14 < 14 + name.length)]
  exact Bool.or_true _

theorem isKey_posts {name : List Char} (h : name ≠ []) :
    isKey ("images/posts/".toList ++ name) = true := by
  have hpos := List.length_pos_of_ne_nil h
  have hbegins : begins "images/posts/" ("images/posts/".toList ++ name) = true :=
    startsWith_mono (by decide) _
  have hlength : "images/posts/".toList.length = 13 := by decide
  rw [isKey, hbegins, List.length_append, hlength, decide_eq_true (by omega : 13 < 13 + name.length)]
  exact Bool.true_or _

/-! ### Schemes -/

/-- What follows a text does not change how it begins. -/
theorem begins_append_of {s : String} {cs : List Char} (n : Nat) (hn : s.toList.length = n)
    (h : begins s cs = true) (v : List Char) :
    begins s (cs ++ v) = true ∧ (cs ++ v).drop n = cs.drop n ++ v :=
  ⟨startsWith_mono h v, List.drop_append_of_le_length (hn ▸ startsWith_length h)⟩

theorem afterColon_eq_some {cs r : List Char} (h : afterColon cs = some r) :
    r <:+ cs ∧ ∀ v, begins "s" (cs ++ v) = false ∧ afterColon (cs ++ v) = some (r ++ v) := by
  unfold afterColon at h
  split at h
  · next hcolon =>
      cases h
      refine ⟨List.drop_suffix _ _, fun v => ?_⟩
      obtain ⟨hbegins, hdrop⟩ := begins_append_of 3 (by decide) hcolon v
      refine ⟨begins_exclusive hbegins (by decide), ?_⟩
      rw [afterColon, if_pos hbegins, hdrop]
  split at h
  · next hslashes =>
      cases h
      refine ⟨List.drop_suffix _ _, fun v => ?_⟩
      obtain ⟨hbegins, hdrop⟩ := begins_append_of 2 (by decide) hslashes v
      refine ⟨begins_exclusive hbegins (by decide), ?_⟩
      have hcolon : begins "://" (cs ++ v) = false := begins_exclusive hbegins (by decide)
      rw [afterColon, hcolon, if_neg (by simp), if_pos hbegins, hdrop]
  · cases h

/-- What follows a text does not undo its scheme. -/
theorem afterScheme_eq_some {cs r : List Char} (h : afterScheme cs = some r) :
    r <:+ cs ∧ ∀ v, afterScheme (cs ++ v) = some (r ++ v) := by
  unfold afterScheme at h
  split at h
  · next hhttp =>
      split at h
      · next hsecure =>
          obtain ⟨hsuffix, happend⟩ := afterColon_eq_some h
          refine ⟨hsuffix.trans (List.drop_suffix _ _), fun v => ?_⟩
          obtain ⟨hbegins, hdrop⟩ := begins_append_of 4 (by decide) hhttp v
          obtain ⟨hs, hone⟩ := begins_append_of 1 (by decide) hsecure v
          have hfive : (cs ++ v).drop 5 = cs.drop 5 ++ v := by
            rw [← hdrop, List.drop_drop, List.drop_drop] at hone
            exact hone
          rw [afterScheme, if_pos hbegins, hdrop, if_pos hs, hfive, (happend v).2]
      · obtain ⟨hsuffix, happend⟩ := afterColon_eq_some h
        refine ⟨hsuffix.trans (List.drop_suffix _ _), fun v => ?_⟩
        obtain ⟨hbegins, hdrop⟩ := begins_append_of 4 (by decide) hhttp v
        rw [afterScheme, if_pos hbegins, hdrop, (happend v).1, if_neg (by simp), (happend v).2]
  · cases h

theorem begins_append_h {s : String} (hs : ∀ w ∈ s.toList, ignoreCase w 'h' = false)
    (u v : List Char) : begins s (u ++ 'h' :: v) = begins s u :=
  startsWith_append_cons hs u v

theorem afterColon_append_h (u v : List Char) :
    afterColon (u ++ 'h' :: v) = (afterColon u).map (· ++ 'h' :: v) := by
  unfold afterColon
  rw [begins_append_h (by decide), begins_append_h (by decide)]
  split
  · next hcolon =>
      rw [(begins_append_of 3 (by decide) hcolon _).2]
      rfl
  split
  · next hslashes =>
      rw [(begins_append_of 2 (by decide) hslashes _).2]
      rfl
  · rfl

/-- No scheme goes on in a text that begins with `h`. -/
theorem afterScheme_append_h (c : Char) (u v : List Char) :
    afterScheme (c :: u ++ 'h' :: v) = (afterScheme (c :: u)).map (· ++ 'h' :: v) := by
  have hhttp : begins "http" (c :: u ++ 'h' :: v) = begins "http" (c :: u) := by
    show (ignoreCase 'h' c && startsWith ignoreCase "ttp".toList (u ++ 'h' :: v)) =
      (ignoreCase 'h' c && startsWith ignoreCase "ttp".toList u)
    rw [startsWith_append_cons (by decide)]
  unfold afterScheme
  rw [hhttp]
  split
  · next hbegins =>
      have hfour := (begins_append_of 4 (by decide) hbegins ('h' :: v)).2
      rw [hfour, begins_append_h (by decide)]
      split
      · next hsecure =>
          have hone := (begins_append_of 1 (by decide) hsecure ('h' :: v)).2
          rw [← hfour, List.drop_drop, List.drop_drop] at hone
          rw [hone, afterColon_append_h]
      · rw [afterColon_append_h]
  · rfl

/-! ### Rewriting a word -/

/-- A match captures a key at the end of the word: nothing of the word is left behind the key. -/
theorem refAt_eq_some {cs key : List Char} (h : refAt cs = some key) :
    isKey key = true ∧ key <:+ cs := by
  rcases Option.or_eq_some_iff.1 h with h | ⟨-, h⟩
  · obtain ⟨r, hr, hkey⟩ := Option.bind_eq_some_iff.1 h
    exact ⟨List.find?_some hkey, ((List.mem_tails _ _).1 (List.mem_of_find?_eq_some hkey)).trans
      (afterScheme_eq_some hr).1⟩
  · unfold keyHere at h
    split at h
    · next hkey =>
        cases h
        exact ⟨hkey, List.suffix_rfl⟩
    split at h
    · next hkey =>
        cases h
        exact ⟨(Bool.and_eq_true_iff.1 hkey).2, List.drop_suffix _ _⟩
    · cases h

theorem isKey_ne_nil {key : List Char} (h : isKey key = true) : key ≠ [] := by
  rintro rfl
  cases h

theorem begins_of_first {s : String} {c : Char} (w : Char) (hs : s.toList.head? = some w)
    (h : ignoreCase w c = false) (cs : List Char) : begins s (c :: cs) = false := by
  obtain ⟨ws, hws⟩ := List.head?_eq_some_iff.1 hs
  rw [begins, hws, startsWith, h, Bool.false_and]

theorem isKey_of_first {c : Char} (hi : ignoreCase 'i' c = false) (cs : List Char) :
    isKey (c :: cs) = false :=
  isKey_eq_false (begins_of_first 'i' (by decide) hi cs) (begins_of_first 'i' (by decide) hi cs)

/-- Nothing matches at a letter with which neither a scheme nor a key begins. The search goes on at
the next one. -/
theorem refAt_of_letter {c : Char} (cs : List Char) (hh : ignoreCase 'h' c = false)
    (hi : ignoreCase 'i' c = false) (hslash : ignoreCase '/' c = false) :
    refAt (c :: cs) = none := by
  have hhttp : begins "http" (c :: cs) = false := begins_of_first 'h' (by decide) hh cs
  have hkey : isKey (c :: cs) = false := isKey_of_first hi cs
  have hsep : begins "/" (c :: cs) = false := begins_of_first '/' (by decide) hslash cs
  rw [refAt, afterScheme, hhttp, keyHere, hkey, hsep]
  rfl

theorem rewriteWord_of_letter {c : Char} (base cs : List Char) (hh : ignoreCase 'h' c = false)
    (hi : ignoreCase 'i' c = false) (hslash : ignoreCase '/' c = false) :
    rewriteWord base (c :: cs) = c :: rewriteWord base cs := by
  rw [rewriteWord, refAt_of_letter cs hh hi hslash]

theorem rewriteWord_of_refAt {cs key : List Char} (base : List Char) (h : refAt cs = some key) :
    rewriteWord base cs = base ++ '/' :: key := by
  cases cs with
  | nil => cases h
  | cons c cs => rw [rewriteWord, h]

/-- A key alone, or after a slash. -/
theorem refAt_key {key : List Char} (h : isKey key = true) : refAt key = some key := by
  have hhttp : begins "http" key = false := begins_exclusive (isKey_begins h) (by decide)
  rw [refAt, afterScheme, hhttp, keyHere, h]
  rfl

theorem refAt_slash {key : List Char} (h : isKey key = true) : refAt ('/' :: key) = some key := by
  have hhttp : begins "http" ('/' :: key) = false :=
    begins_of_first 'h' (by decide) (by decide) key
  have hslash : isKey ('/' :: key) = false := isKey_of_first (by decide) key
  have hbegins : begins "/" ('/' :: key) = true := by
    have hsingle : "/".toList = ['/'] := by decide
    rw [begins, hsingle, startsWith, startsWith]
    decide
  rw [refAt, afterScheme, hhttp, keyHere, hslash, hbegins, List.drop_one, List.tail_cons, h]
  rfl

theorem refAt_slash_letter {c : Char} (hi : ignoreCase 'i' c = false) (cs : List Char) :
    refAt ('/' :: c :: cs) = none := by
  have hhttp : begins "http" ('/' :: c :: cs) = false :=
    begins_of_first 'h' (by decide) (by decide) _
  have hslash : isKey ('/' :: c :: cs) = false := isKey_of_first (by decide) _
  have hletter : isKey (c :: cs) = false := isKey_of_first hi cs
  rw [refAt, afterScheme, hhttp, keyHere, hslash, List.drop_one, List.tail_cons, hletter,
    Bool.and_false]
  rfl

/-- A URL before a key: it begins with a scheme, ends with a slash, and names no directory of the
keys. -/
structure IsUrl (text : List Char) : Prop where
  scheme : (afterScheme text).isSome = true
  slash : ∃ q, text = q ++ ['/']
  noDirectory : NoDirectory text

theorem IsUrl.refAt {text key : List Char} (h : IsUrl text) (hkey : isKey key = true) :
    refAt (text ++ key) = some key := by
  obtain ⟨r, hr⟩ := Option.isSome_iff_exists.1 h.scheme
  obtain ⟨q, rfl⟩ := h.slash
  obtain ⟨hsuffix, happend⟩ := afterScheme_eq_some hr
  have hfirst : firstKey (r ++ key) = some key := by
    rcases List.eq_nil_or_concat r with rfl | ⟨front, d, rfl⟩
    · exact firstKey_of_isKey hkey
    · obtain ⟨read, hread⟩ := hsuffix
      rw [List.concat_eq_append, ← List.append_assoc] at hread
      obtain ⟨-, hd⟩ := List.append_inj' hread rfl
      cases hd
      rw [List.concat_eq_append, List.append_assoc]
      refine firstKey_before_key hkey (h.noDirectory.suffix ⟨read, ?_⟩)
      rw [← List.append_assoc, hread]
  rw [ImageRefs.refAt, happend key, Option.bind_some, hfirst]
  rfl

end ImageRefs

end VetHealth
