import VetHealth.Files.ImageWords

/-!
# VetHealth.Files.Normalising

**Which references are repaired.** A document is a text in which references stand between quotes or
white space. A reference is a key with something before it: nothing, a slash, a path `uploads/`, a
URL, or two URLs run into one.

The script is to put the public base before the key, whatever was there. It keeps `uploads` where no
domain stands before it; and a base with a dollar sign may be taken for a template. Both ways to
fail are exact (`normalises_iff`).
-/

namespace VetHealth

open Js Matching Matching.Regex

namespace ImageRefs

/-! ### References -/

/-- The directories of the keys. -/
inductive Directory
  | topics
  | featured
  | content
  deriving DecidableEq, Repr

def Directory.text : Directory → List Char
  | topics => "images/topics/".toList
  | featured => "images/posts/featured/".toList
  | content => "images/posts/content/".toList

/-- A key of the object storage. -/
structure Key where
  directory : Directory
  name : List Char
  name_ne_nil : name ≠ []
  name_chars : ∀ c ∈ name, isKeyChar c = true

def Key.text (key : Key) : List Char := key.directory.text ++ key.name

/-- A scheme and a domain; `colon` is lost in a mangled URL. -/
structure Origin where
  secure : Bool
  colon : Bool
  host : List Char
  host_chars : ∀ c ∈ host, isKeyChar c = true ∧ c ≠ '/'

/-- The scheme up to its slashes. -/
def Origin.scheme (origin : Origin) : List Char :=
  ['h', 't', 't', 'p'] ++ (if origin.secure then ['s'] else []) ++
    if origin.colon then [':'] else []

def Origin.text (origin : Origin) : List Char := origin.scheme ++ '/' :: '/' :: origin.host

/-- What stands between a domain and a key: a path of the backend, or nothing but the slash. -/
inductive Path
  | root
  | uploads
  deriving DecidableEq, Repr

def Path.text : Path → List Char
  | root => ['/']
  | uploads => "/uploads/".toList

/-- What stands between two URLs that were run into one: nothing, a slash, or the path of the
backend. -/
inductive Seam
  | nothing
  | slash
  | uploads
  | uploadsSlash
  deriving DecidableEq, Repr

def Seam.text : Seam → List Char
  | nothing => []
  | slash => ['/']
  | uploads => "/uploads".toList
  | uploadsSlash => "/uploads/".toList

/-- What stands before a key: nothing, a path of the backend, or one of the URLs, whole or mangled.
-/
inductive Lead
  | bare
  | slash
  | uploads
  | slashUploads
  | domain (origin : Origin) (path : Path)
  | doubled (first : Origin) (seam : Seam) (second : Origin) (path : Path)

namespace Lead

def text : Lead → List Char
  | bare => []
  | slash => ['/']
  | uploads => "uploads/".toList
  | slashUploads => "/uploads/".toList
  | domain origin path => origin.text ++ path.text
  | doubled first seam second path => first.text ++ seam.text ++ second.text ++ path.text

/-- The path `uploads/` without a domain. -/
def isLocal : Lead → Bool
  | uploads | slashUploads => true
  | _ => false

/-- What is left of it by the rewriting. Only the local paths leave anything, since the pattern asks
for a scheme or for the key itself. -/
def kept : Lead → List Char
  | uploads => "uploads".toList
  | slashUploads => "/uploads".toList
  | _ => []

end Lead

structure Reference where
  lead : Lead
  key : Key

def Reference.text (reference : Reference) : List Char := reference.lead.text ++ reference.key.text

/-! ### Documents -/

/-- References are delimited by quotes or white space. The other characters that no key holds may
stand in a gap, too. -/
def isDelimiter (c : Char) : Bool := c = '"' || c.toNat = 0x27 || isSpace c

def opens (gap : List Char) : Prop := ∃ d rest, gap = d :: rest ∧ isDelimiter d = true

def closes (gap : List Char) : Prop := ∃ rest d, gap = rest ++ [d] ∧ isDelimiter d = true

/-- Every reference ends the text or has a delimiter after it, and the next one has a delimiter
before it. -/
def Delimited : List (Reference × List Char) → Prop
  | [] => True
  | [(_, gap)] => gap = [] ∨ opens gap
  | (_, gap) :: next => opens gap ∧ closes gap ∧ Delimited next

/-- A text with references in it, and after each of them the text up to the next one. No key stands
in the text between them. -/
structure Document where
  first : List Char
  items : List (Reference × List Char)
  free : ∀ gap ∈ first :: items.map Prod.snd, FILE_KEY_RE.find gap = none
  delimited : (items ≠ [] → first = [] ∨ closes first) ∧ Delimited items

/-- A text that has `say` for each of its references. -/
def Document.render (document : Document) (say : Reference → List Char) : List Char :=
  document.first ++ document.items.flatMap fun item => say item.1 ++ item.2

def Document.text (document : Document) : List Char := document.render Reference.text

/-- The text with every reference replaced by the base and its key. -/
def Document.normalised (base : List Char) (document : Document) : List Char :=
  document.render fun reference => base ++ '/' :: reference.key.text

/-! ### Leads -/

theorem Key.isKey (key : Key) : isKey key.text = true := by
  have hname := key.name_ne_nil
  rw [Key.text]
  cases key.directory with
  | topics => exact isKey_topics hname
  | featured =>
      have htext : Directory.featured.text = "images/posts/".toList ++ "featured/".toList := by decide
      rw [htext, List.append_assoc]
      exact isKey_posts (by simp)
  | content =>
      have htext : Directory.content.text = "images/posts/".toList ++ "content/".toList := by decide
      rw [htext, List.append_assoc]
      exact isKey_posts (by simp)

/-- A directory that is named from a segment on is named by the segment and the next one, as it has
one slash in it. -/
theorem startsWith_segment {first second segment rest : List Char}
    (hfirst : ∀ w ∈ first, ignoreCase w '/' = false) (hsegment : '/' ∉ segment)
    (h : startsWith ignoreCase (first ++ '/' :: second) (segment ++ '/' :: rest) = true) :
    first.length = segment.length ∧ startsWith ignoreCase second rest = true := by
  induction first generalizing segment with
  | nil =>
      cases segment with
      | nil => exact ⟨rfl, (Bool.and_eq_true_iff.1 h).2⟩
      | cons c segment =>
          have hc := (Bool.and_eq_true_iff.1 h).1
          rw [ignoreCase_slash, decide_eq_true_eq] at hc
          exact absurd (hc ▸ List.mem_cons_self) hsegment
  | cons w first ih =>
      cases segment with
      | nil =>
          have hw := (Bool.and_eq_true_iff.1 h).1
          rw [hfirst w List.mem_cons_self] at hw
          cases hw
      | cons c segment =>
          obtain ⟨hlength, hrest⟩ := ih (fun v hv => hfirst v (List.mem_cons_of_mem _ hv))
            (fun hmem => hsegment (List.mem_cons_of_mem _ hmem)) (Bool.and_eq_true_iff.1 h).2
          exact ⟨congrArg Nat.succ hlength, hrest⟩

/-- A segment names no directory with what follows it, unless that goes on with `posts/` or
`topics/`. -/
theorem NoDirectory.segment {segment rest : List Char} (hsegment : '/' ∉ segment)
    (hnext : segment = [] ∨ begins "posts/" rest = false ∧ begins "topics/" rest = false)
    (hrest : NoDirectory rest) : NoDirectory (segment ++ '/' :: rest) := by
  induction segment with
  | nil =>
      intro t ht
      rcases List.suffix_cons_iff.1 ht with rfl | ht
      · exact ⟨begins_of_first 'i' (by decide) (by decide) _,
          begins_of_first 'i' (by decide) (by decide) _⟩
      · exact hrest t ht
  | cons c segment ih =>
      have hnext := hnext.resolve_left (List.cons_ne_nil c segment)
      intro t ht
      rcases List.suffix_cons_iff.1 ht with rfl | ht
      · have hsecond : ∀ second : List Char, startsWith ignoreCase second rest = false →
            startsWith ignoreCase ("images".toList ++ '/' :: second)
              ((c :: segment) ++ '/' :: rest) = false := by
          intro second hno
          by_contra hnot
          have hboth := @startsWith_segment "images".toList second (c :: segment) rest (by decide)
            hsegment (by simpa only [Bool.not_eq_false] using hnot)
          rw [hno] at hboth
          cases hboth.2
        exact ⟨hsecond _ hnext.1, hsecond _ hnext.2⟩
      · exact ih (fun hmem => hsegment (List.mem_cons_of_mem _ hmem)) (Or.inr hnext) t ht

theorem NoDirectory.nil : NoDirectory [] := by decide

/-- Only a text that begins with one of two letters begins with the second part of a directory. -/
theorem goesOn_of_first {c : Char} (hp : ignoreCase 'p' c = false) (ht : ignoreCase 't' c = false)
    (cs : List Char) :
    begins "posts/" (c :: cs) = false ∧ begins "topics/" (c :: cs) = false :=
  ⟨begins_of_first 'p' (by decide) hp cs, begins_of_first 't' (by decide) ht cs⟩

namespace Origin

theorem slash_not_mem_scheme (origin : Origin) : '/' ∉ origin.scheme := by
  unfold scheme
  cases origin.secure <;> cases origin.colon <;> decide

theorem slash_not_mem_host (origin : Origin) : '/' ∉ origin.host :=
  fun h => (origin.host_chars '/' h).2 rfl

theorem afterScheme (origin : Origin) (v : List Char) :
    ImageRefs.afterScheme (origin.scheme ++ '/' :: '/' :: v) = some v := by
  have hscheme : ImageRefs.afterScheme (origin.scheme ++ ['/', '/']) = some [] := by
    unfold scheme
    cases origin.secure <;> cases origin.colon <;> decide
  have happend := (afterScheme_eq_some hscheme).2 v
  rwa [List.append_assoc] at happend

/-- A URL names no directory, whatever text without a slash stands before it. So the only directory
in a reference is that of its key. -/
theorem noDirectory (origin : Origin) {front rest : List Char} (hfront : '/' ∉ front)
    (hnext : begins "posts/" rest = false ∧ begins "topics/" rest = false)
    (hrest : NoDirectory rest) : NoDirectory (front ++ origin.text ++ '/' :: rest) := by
  have hhost := NoDirectory.segment origin.slash_not_mem_host (Or.inr hnext) hrest
  have hslash := NoDirectory.segment (List.not_mem_nil) (Or.inl rfl) hhost
  have hscheme := NoDirectory.segment
    (fun hmem => (List.mem_append.1 hmem).elim hfront origin.slash_not_mem_scheme)
    (Or.inr (goesOn_of_first (by decide) (by decide) _)) hslash
  simpa [text, List.append_assoc] using hscheme

/-- A URL does not begin with the second part of a directory. -/
theorem begins_eq_false (origin : Origin) (v : List Char) :
    begins "posts/" (origin.text ++ v) = false ∧ begins "topics/" (origin.text ++ v) = false := by
  obtain ⟨tail, htail⟩ : ∃ tail, origin.text = 'h' :: tail := ⟨_, rfl⟩
  rw [htail]
  exact goesOn_of_first (by decide) (by decide) _

end Origin

namespace Lead

theorem noDirectory_path (origin : Origin) {front : List Char} (hfront : '/' ∉ front)
    (path : Path) : NoDirectory (front ++ origin.text ++ path.text) := by
  cases path with
  | root => exact origin.noDirectory hfront (by decide) .nil
  | uploads =>
      have huploads := @NoDirectory.segment "uploads".toList [] (by decide) (Or.inr (by decide)) .nil
      exact origin.noDirectory hfront (by decide) huploads

/-- A URL goes on after another one. -/
theorem noDirectory_seam (second : Origin) (seam : Seam) (path : Path) {front : List Char}
    (hfront : '/' ∉ front) : NoDirectory (front ++ seam.text ++ second.text ++ path.text) := by
  have hsecond : NoDirectory (second.text ++ path.text) :=
    noDirectory_path second (List.not_mem_nil) path
  cases seam with
  | nothing =>
      have htext : Seam.nothing.text = [] := rfl
      rw [htext, List.append_nil]
      exact noDirectory_path second hfront path
  | slash =>
      have htext : Seam.slash.text = ['/'] := rfl
      rw [htext, List.append_assoc, List.append_assoc, List.singleton_append]
      exact .segment hfront (Or.inr (second.begins_eq_false _)) hsecond
  | uploads =>
      have huploads := @noDirectory_path second ['u', 'p', 'l', 'o', 'a', 'd', 's'] (by decide) path
      have htext : Seam.uploads.text = '/' :: ['u', 'p', 'l', 'o', 'a', 'd', 's'] := by decide
      rw [List.append_assoc] at huploads
      rw [htext, List.append_assoc, List.append_assoc, List.cons_append]
      exact .segment hfront (Or.inr (goesOn_of_first (by decide) (by decide) _)) huploads
  | uploadsSlash =>
      have huploads := @NoDirectory.segment ['u', 'p', 'l', 'o', 'a', 'd', 's'] _ (by decide)
        (Or.inr (second.begins_eq_false _)) hsecond
      have htext : Seam.uploadsSlash.text = '/' :: (['u', 'p', 'l', 'o', 'a', 'd', 's'] ++ ['/']) := by
        decide
      rw [htext, List.append_assoc, List.append_assoc, List.cons_append, List.append_assoc,
        List.singleton_append]
      exact .segment hfront (Or.inr (goesOn_of_first (by decide) (by decide) _)) huploads

theorem isUrl_path (front : List Char) (origin : Origin) (path : Path)
    (hscheme : (ImageRefs.afterScheme (front ++ origin.text ++ path.text)).isSome = true)
    (hno : NoDirectory (front ++ origin.text ++ path.text)) :
    IsUrl (front ++ origin.text ++ path.text) := by
  refine ⟨hscheme, ?_, hno⟩
  have hpath : ∃ q, path.text = q ++ ['/'] := by
    cases path with
    | root => exact ⟨[], rfl⟩
    | uploads => exact ⟨"/uploads".toList, by decide⟩
  obtain ⟨q, hq⟩ := hpath
  exact ⟨front ++ origin.text ++ q, by rw [hq, List.append_assoc _ q]⟩

theorem isUrl_domain (origin : Origin) (path : Path) : IsUrl (domain origin path).text := by
  refine isUrl_path [] origin path ?_ (noDirectory_path origin (List.not_mem_nil) path)
  rw [List.nil_append, Origin.text, List.append_assoc, List.cons_append, List.cons_append,
    origin.afterScheme]
  rfl

theorem isUrl_doubled (first : Origin) (seam : Seam) (second : Origin) (path : Path) :
    IsUrl (doubled first seam second path).text := by
  have htext : (doubled first seam second path).text =
      first.scheme ++ '/' :: '/' :: (first.host ++ seam.text ++ second.text ++ path.text) := by
    show first.scheme ++ '/' :: '/' :: first.host ++ seam.text ++ second.text ++ path.text = _
    simp only [List.append_assoc, List.cons_append]
  refine isUrl_path (first.text ++ seam.text) second path ?_ ?_
  · show (ImageRefs.afterScheme (doubled first seam second path).text).isSome = true
    rw [htext, first.afterScheme]
    rfl
  · show NoDirectory (doubled first seam second path).text
    have hhost := noDirectory_seam second seam path first.slash_not_mem_host
    have hslash := NoDirectory.segment (List.not_mem_nil) (Or.inl rfl) hhost
    rw [List.nil_append] at hslash
    have hscheme := NoDirectory.segment first.slash_not_mem_scheme
      (Or.inr (goesOn_of_first (by decide) (by decide) _)) hslash
    rw [htext]
    exact hscheme

end Lead

/-- The letters of the local path are kept. -/
theorem rewriteWord_uploads (base : List Char) {key : List Char} (h : ImageRefs.isKey key = true) :
    rewriteWord base (['u', 'p', 'l', 'o', 'a', 'd', 's', '/'] ++ key) =
      ['u', 'p', 'l', 'o', 'a', 'd', 's'] ++ base ++ '/' :: key := by
  simp only [List.cons_append, List.nil_append]
  -- no match begins in `uploads`, and the slash after it is read with the key
  iterate 7 rw [rewriteWord_of_letter _ _ (by decide) (by decide) (by decide)]
  rw [rewriteWord_of_refAt base (refAt_slash h)]

/-- What becomes of a reference: what is kept of its lead, the base, and its key. The cases are
those of the leads. -/
theorem rewriteWord_reference (base : List Char) (reference : Reference) :
    rewriteWord base reference.text =
      reference.lead.kept ++ (base ++ '/' :: reference.key.text) := by
  obtain ⟨lead, key⟩ := reference
  have hkey := key.isKey
  have huploads : "uploads/".toList = ['u', 'p', 'l', 'o', 'a', 'd', 's', '/'] := by decide
  have hkept : "uploads".toList = ['u', 'p', 'l', 'o', 'a', 'd', 's'] := by decide
  have hslash : "/uploads/".toList = '/' :: ['u', 'p', 'l', 'o', 'a', 'd', 's', '/'] := by decide
  have hslashKept : "/uploads".toList = '/' :: ['u', 'p', 'l', 'o', 'a', 'd', 's'] := by decide
  cases lead with
  | bare => exact rewriteWord_of_refAt base (refAt_key hkey)
  | slash => exact rewriteWord_of_refAt base (refAt_slash hkey)
  | uploads =>
      show rewriteWord base ("uploads/".toList ++ key.text) = "uploads".toList ++ _
      rw [huploads, hkept, rewriteWord_uploads base hkey, List.append_assoc]
  | slashUploads =>
      show rewriteWord base ("/uploads/".toList ++ key.text) = "/uploads".toList ++ _
      have hnot : refAt ('/' :: (['u', 'p', 'l', 'o', 'a', 'd', 's', '/'] ++ key.text)) = none :=
        refAt_slash_letter (by decide) _
      rw [hslash, hslashKept, List.cons_append, rewriteWord, hnot]
      dsimp only
      rw [rewriteWord_uploads base hkey, List.append_assoc]
      rfl
  | domain origin path => exact rewriteWord_of_refAt base ((Lead.isUrl_domain origin path).refAt hkey)
  | doubled first seam second path =>
      exact rewriteWord_of_refAt base ((Lead.isUrl_doubled first seam second path).refAt hkey)

theorem Directory.chars (directory : Directory) : ∀ c ∈ directory.text, isKeyChar c = true := by
  cases directory <;> decide

theorem Origin.chars (origin : Origin) : ∀ c ∈ origin.text, isKeyChar c = true := by
  have hscheme : ∀ c ∈ origin.scheme ++ ['/', '/'], isKeyChar c = true := by
    unfold Origin.scheme
    cases origin.secure <;> cases origin.colon <;> decide
  have htext : origin.text = origin.scheme ++ ['/', '/'] ++ origin.host := by
    rw [List.append_assoc]
    rfl
  intro c hc
  rw [htext] at hc
  rcases List.mem_append.1 hc with hc | hc
  · exact hscheme c hc
  · exact (origin.host_chars c hc).1

theorem Path.chars (path : Path) : ∀ c ∈ path.text, isKeyChar c = true := by
  cases path <;> decide

theorem Lead.chars (lead : Lead) : ∀ c ∈ lead.text, isKeyChar c = true := by
  cases lead with
  | bare => decide
  | slash => decide
  | uploads => decide
  | slashUploads => decide
  | domain origin path => exact List.forall_mem_append.2 ⟨origin.chars, path.chars⟩
  | doubled first seam second path =>
      have hseam : ∀ c ∈ seam.text, isKeyChar c = true := by
        cases seam <;> decide
      exact List.forall_mem_append.2 ⟨List.forall_mem_append.2
        ⟨List.forall_mem_append.2 ⟨first.chars, hseam⟩, second.chars⟩, path.chars⟩

/-- A reference is one word: none of its characters ends a match. -/
theorem Reference.chars (reference : Reference) : ∀ c ∈ reference.text, isKeyChar c = true :=
  List.forall_mem_append.2 ⟨reference.lead.chars,
    List.forall_mem_append.2 ⟨reference.key.directory.chars, reference.key.name_chars⟩⟩

/-! ### Rewriting a document -/

theorem isKeyChar_of_isDelimiter {c : Char} (h : isDelimiter c = true) : isKeyChar c = false := by
  have hclass : (c = '"' || c.toNat = 0x27 || isSpace c) = true := h
  rw [isKeyChar, hclass]
  rfl

/-- Before a character that no key holds, no key is cut off. -/
theorem find_none_of_append {u v : List Char} {d : Char} (hd : isKeyChar d = false)
    (h : FILE_KEY_RE.find (u ++ d :: v) = none) : FILE_KEY_RE.find u = none := by
  refine find_eq_none.2 fun t ht => ?_
  obtain ⟨front, rfl⟩ := ht
  have hexec := find_eq_none.1 h (t ++ d :: v) ⟨front, by rw [List.append_assoc]⟩
  rwa [exec, outcomes_append_cons FILE_KEY_RE_within hd] at hexec

theorem find_none_of_suffix {t cs : List Char} (ht : t <:+ cs) (h : FILE_KEY_RE.find cs = none) :
    FILE_KEY_RE.find t = none :=
  find_eq_none.2 fun u hu => find_eq_none.1 h u (hu.trans ht)

section

variable {base : List Char} (hplain : isPlain 1 base = true)

include hplain

/-- A gap before a reference stays as it is, and what comes after it is rewritten by itself. -/
theorem replaceRefs_gap {gap : List Char} (hfree : FILE_KEY_RE.find gap = none)
    (hclosed : gap = [] ∨ closes gap) (rest : List Char) :
    replaceRefs base (gap ++ rest) = gap ++ replaceRefs base rest := by
  rcases hclosed with rfl | ⟨front, d, rfl, hd⟩
  · rfl
  · have hkey := isKeyChar_of_isDelimiter hd
    rw [List.append_assoc, List.singleton_append, replaceRefs_append_cons hplain hkey,
      replaceRefs_of_find_none base (find_none_of_append hkey hfree), List.append_assoc,
      List.singleton_append]

/-- The references of a document are rewritten, and nothing else. The induction is on the
references, each with the gap behind it. -/
theorem replaceRefs_items {items : List (Reference × List Char)} (hdelimited : Delimited items)
    (hfree : ∀ gap ∈ items.map Prod.snd, FILE_KEY_RE.find gap = none) :
    replaceRefs base (items.flatMap fun item => item.1.text ++ item.2) =
      items.flatMap fun item =>
        item.1.lead.kept ++ (base ++ '/' :: item.1.key.text) ++ item.2 := by
  induction items with
  | nil => rfl
  | cons item items ih =>
      obtain ⟨reference, gap⟩ := item
      have hgap : FILE_KEY_RE.find gap = none := hfree gap List.mem_cons_self
      have hword : replaceRefs base reference.text =
          reference.lead.kept ++ (base ++ '/' :: reference.key.text) := by
        rw [replaceRefs_word hplain reference.chars, rewriteWord_reference]
      rw [List.flatMap_cons, List.flatMap_cons, List.append_assoc, List.append_assoc]
      cases items with
      | nil =>
          rw [List.flatMap_nil, List.flatMap_nil, List.append_nil]
          rcases hdelimited with rfl | ⟨d, rest, rfl, hd⟩
          · rw [List.append_nil, List.append_nil, hword]
          -- the text ends after a delimiter and what holds no key
          · rw [replaceRefs_append_cons hplain (isKeyChar_of_isDelimiter hd), hword,
              replaceRefs_of_find_none base (find_none_of_suffix (List.suffix_cons d rest) hgap)]
      | cons next items =>
          obtain ⟨⟨d, rest, rfl, hd⟩, hclosed, hrest⟩ := hdelimited
          -- the gap may be one delimiter, which both opens and closes it
          have hinner : rest = [] ∨ closes rest := by
            obtain ⟨front, e, hend, he⟩ := hclosed
            cases front with
            | nil => exact Or.inl (List.cons.inj hend).2
            | cons c front => exact Or.inr ⟨front, e, (List.cons.inj hend).2, he⟩
          rw [List.cons_append, replaceRefs_append_cons hplain (isKeyChar_of_isDelimiter hd), hword,
            replaceRefs_gap hplain (find_none_of_suffix (List.suffix_cons d rest) hgap) hinner,
            ih hrest fun gap hmem => hfree gap (List.mem_cons_of_mem _ hmem), List.cons_append]

theorem replaceRefs_document (document : Document) :
    replaceRefs base document.text = document.render fun reference =>
      reference.lead.kept ++ (base ++ '/' :: reference.key.text) := by
  have hfirst := document.free document.first List.mem_cons_self
  have hitems := replaceRefs_items hplain document.delimited.2
    fun gap hmem => document.free gap (List.mem_cons_of_mem _ hmem)
  rw [Document.text, Document.render, Document.render, ← hitems]
  cases hempty : document.items with
  | nil =>
      rw [List.flatMap_nil, List.append_nil, replaceRefs_of_find_none base hfirst]
      exact (List.append_nil _).symm
  | cons item items =>
      exact replaceRefs_gap hplain hfirst (document.delimited.1 (by simp [hempty])) _

end

/-- What is kept of the leads makes the text that much longer. So a document with a local path
cannot be normalised by chance. -/
theorem length_render (document : Document) (say : Reference → List Char) :
    (document.render fun reference => reference.lead.kept ++ say reference).length =
      (document.render say).length +
        (document.items.map fun item => item.1.lead.kept.length).sum := by
  unfold Document.render
  generalize document.items = items
  induction items with
  | nil => simp
  | cons item items ih =>
      simp only [List.flatMap_cons, List.length_append, List.map_cons, List.sum_cons] at ih ⊢
      omega

theorem Lead.kept_eq_nil {lead : Lead} : lead.kept = [] ↔ lead.isLocal = false := by
  cases lead with
  | uploads => decide
  | slashUploads => decide
  | _ => exact ⟨fun _ => rfl, fun _ => rfl⟩

/-- A key alone, with a long name. A base that has a directive in it cannot be right for a key that
is longer than itself. -/
def longKey (n : Nat) : Key :=
  ⟨.topics, List.replicate (n + 1) 'x', by simp, by simp; decide⟩

/-- A text that is a key. -/
def Document.ofKey (key : Key) : Document where
  first := []
  items := [(⟨.bare, key⟩, [])]
  free := by simp; decide
  delimited := ⟨fun _ => Or.inl rfl, Or.inl rfl⟩

theorem Document.text_ofKey (key : Key) : (ofKey key).text = key.text := by
  show [] ++ ([] ++ key.text ++ [] ++ []) = key.text
  simp

/-- A key alone is replaced by what the base stands for, as a template: here a directive has its
effect. -/
theorem replaceRefs_key (base : List Char) (key : Key) :
    replaceRefs base key.text =
      getSubstitution 1 ⟨[], key.text, [], [key.text]⟩ 0 base ++ '/' :: key.text := by
  have hchars : ∀ c ∈ key.text, isKeyChar c = true :=
    List.forall_mem_append.2 ⟨key.directory.chars, key.name_chars⟩
  have hexec := captures_refAt key.text hchars
  rw [refAt_key key.isKey] at hexec
  have htemplate : "/$1".toList = ['/', '$', '1'] := by decide
  have hread : Directive.read 1 ['1'] = some (.capture 1, 1) := by decide
  cases htext : key.text with
  | nil => exact absurd htext (isKey_ne_nil key.isKey)
  | cons c cs =>
      rw [htext] at hexec
      rw [replaceRefs, replaceAll_of_exec hexec, htemplate,
        getSubstitution_append_slash _ _ _ _ (Nat.zero_le _)]
      simp only [getSubstitution, if_true, hread, Directive.text, List.append_nil, Nat.sub_self]
      rfl

/-- A base that is right for a long key has no directives. -/
theorem isPlain_of_longKey {base : List Char}
    (h : replaceRefs base (longKey base.length).text = base ++ '/' :: (longKey base.length).text) :
    isPlain 1 base = true := by
  by_contra hnot
  have hlong : base.length + 1 ≤ (longKey base.length).text.length := by
    rw [Key.text, List.length_append, longKey, List.length_replicate]
    exact Nat.le_add_left _ _
  have hcaptures : ∀ n < 1,
      base.length + 1 ≤ ([(longKey base.length).text].getD n []).length := by
    intro n hn
    obtain rfl : n = 0 := by omega
    exact hlong
  rw [replaceRefs_key] at h
  have hbase := List.append_cancel_right h
  have hlength := @length_getSubstitution 1 (base.length + 1)
    ⟨[], (longKey base.length).text, [], [(longKey base.length).text]⟩ rfl rfl hlong hcaptures
    0 base (Nat.zero_le _)
  rw [hbase] at hlength
  rcases hlength with hlength | ⟨-, hlength⟩
  · omega
  · exact absurd (hlength rfl (by simpa using hnot)) (Nat.lt_irrefl _)

/-- **Which references are repaired.** With a base that has no replacement directives, a document
is normalised exactly when none of its references has a path `uploads/` without a domain before its
key. With any other base some document without such a path is not normalised. -/
theorem normalises_iff (publicBase : String) :
    ((∀ document : Document, (∀ item ∈ document.items, item.1.lead.isLocal = false) →
        rewriteImageRefs (.ofList document.text) publicBase =
          .ofList (document.normalised publicBase.toList)) ↔
      isPlain 1 publicBase.toList = true) ∧
    (isPlain 1 publicBase.toList = true → ∀ document : Document,
      rewriteImageRefs (.ofList document.text) publicBase =
          .ofList (document.normalised publicBase.toList) ↔
        ∀ item ∈ document.items, item.1.lead.isLocal = false) := by
  have hrewrite : ∀ document : Document,
      rewriteImageRefs (.ofList document.text) publicBase =
          .ofList (document.normalised publicBase.toList) ↔
        replaceRefs publicBase.toList document.text = document.normalised publicBase.toList := by
    intro document
    rw [rewriteImageRefs, String.toList_ofList, String.ofList_inj]
  have hexact : isPlain 1 publicBase.toList = true → ∀ document : Document,
      rewriteImageRefs (.ofList document.text) publicBase =
          .ofList (document.normalised publicBase.toList) ↔
        ∀ item ∈ document.items, item.1.lead.isLocal = false := by
    intro hplain document
    rw [hrewrite, replaceRefs_document hplain]
    constructor
    -- Both texts are as long as each other, which leaves nothing for what is kept of the leads.
    · intro h item hitem
      have hlength := congrArg List.length h
      rw [length_render, Document.normalised] at hlength
      have hsum : (document.items.map fun item => item.1.lead.kept.length).sum = 0 := by omega
      have hnone := List.sum_eq_zero_iff_forall_eq_nat.1 hsum _ (List.mem_map.2 ⟨item, hitem, rfl⟩)
      exact Lead.kept_eq_nil.1 (List.length_eq_zero_iff.1 hnone)
    · intro h
      unfold Document.normalised Document.render
      refine congrArg _ (List.flatMap_congr fun item hitem => ?_)
      show item.1.lead.kept ++ _ ++ item.2 = _ ++ item.2
      rw [Lead.kept_eq_nil.2 (h item hitem), List.nil_append]
  refine ⟨⟨fun h => ?_, fun hplain document => (hexact hplain document).2⟩, hexact⟩
  -- The other direction needs one document only: that of a long key alone.
  have hbare : ∀ item ∈ (Document.ofKey (longKey publicBase.toList.length)).items,
      item.1.lead.isLocal = false := by
    intro item hitem
    rw [List.mem_singleton.1 hitem]
    rfl
  have hkey := (hrewrite _).1 (h _ hbare)
  refine isPlain_of_longKey ?_
  rw [← Document.text_ofKey, hkey]
  show [] ++ (publicBase.toList ++ '/' :: _ ++ [] ++ []) = _
  simp [Document.text_ofKey]

/-! ### A local path -/

/-- The row of a file that was stored before the move. -/
def localCat : Document where
  first := []
  items := [(⟨.slashUploads, ⟨.topics, "cat.svg".toList, by decide, by decide⟩⟩, [])]
  free := by decide
  delimited := ⟨fun _ => Or.inl rfl, Or.inl rfl⟩

/-- The path is kept, and the URL is broken. -/
theorem local_path_kept :
    String.ofList localCat.text = "/uploads/images/topics/cat.svg" ∧
      rewriteImageRefs (.ofList localCat.text) "https://cdn.vethealth.test" =
        "/uploadshttps://cdn.vethealth.test/images/topics/cat.svg" ∧
      rewriteImageRefs (.ofList localCat.text) "https://cdn.vethealth.test" ≠
        .ofList (localCat.normalised "https://cdn.vethealth.test".toList) := by
  decide +kernel

/-- A mangled URL in a document is repaired. -/
def mangledCat : Document where
  first := "\"".toList
  items := [(⟨.domain ⟨true, false, "old.vethealth.test".toList, by decide⟩ .uploads,
    ⟨.content, "cat.svg".toList, by decide, by decide⟩⟩, "\"".toList)]
  free := by decide
  delimited := ⟨fun _ => Or.inr ⟨[], '"', by decide, by decide⟩, Or.inr ⟨'"', [], by decide, by decide⟩⟩

theorem mangled_repaired :
    rewriteImageRefs (.ofList mangledCat.text) "https://cdn.vethealth.test" =
      .ofList (mangledCat.normalised "https://cdn.vethealth.test".toList) :=
  ((normalises_iff "https://cdn.vethealth.test").2 (by decide) mangledCat).2 (by
    intro item hitem
    rw [List.mem_singleton.1 hitem]
    rfl)

end ImageRefs

end VetHealth
