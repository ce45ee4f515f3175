import VetHealth.Files.SavedPaths
import VetHealth.Files.StorageKeys

/-!
# VetHealth.Files.PresignedKeys

**The grammar of presigned keys.** `assertFileType` looks at how a name ends, and `createStorageKey`
takes the extension from `path.extname`, which finds none in a name such as `.jpg`. The slug of a
topic's file is made of what `path.basename` leaves when it cuts off the extension in lower case: an
extension with a capital letter is not cut off, and its letters become a part of the slug.
-/

namespace VetHealth

open Js

/-- `slugify` with `lower` and `strict`, for a text with an ending. -/
class EndingSlugify extends StrictSlugify where
  /-- The case of the letters is lost. -/
  lower : ∀ text ending, (∀ c ∈ ending, c.isAlphanum = true) →
    slugify (text ++ '.' :: ending.map Char.toLower) = slugify (text ++ '.' :: ending)
  /-- The letters are kept. -/
  longer : ∀ text ending, ending ≠ [] → (∀ c ∈ ending, c.isAlphanum = true) →
    (slugify text).length < (slugify (text ++ '.' :: ending)).length

/-! ### Endings -/

/-- The ending of an image's name. -/
structure IsEnding (ending : List Char) : Prop where
  type : ending.map Char.toLower ∈ imageTypes
  alphanum : ∀ c ∈ ending, c.isAlphanum = true

theorem IsEnding.ne_nil {ending : List Char} (h : IsEnding ending) : ending ≠ [] := by
  rintro rfl
  exact absurd h.type (by decide)

theorem IsEnding.no_sign {ending : List Char} (h : IsEnding ending) : '.' ∉ ending ∧ '/' ∉ ending :=
  ⟨fun hdot => absurd (h.alphanum _ hdot) (by decide),
    fun hslash => absurd (h.alphanum _ hslash) (by decide)⟩

theorem isEnding_of_type {ending : List Char} (h : ending.map Char.toLower ∈ imageTypes) :
    IsEnding ending := by
  refine ⟨h, fun c hc => isAlphanum_of_toLower ?_⟩
  have hall : ∀ type ∈ imageTypes, ∀ c ∈ type, c.isAlphanum = true := by decide
  exact hall _ h _ (List.mem_map_of_mem hc)

/-- An accepted name ends with a dot and an ending. -/
theorem isImageName_iff {fileName : List Char} :
    isImageName fileName = true ↔ ∃ front ending, fileName = front ++ '.' :: ending ∧
      IsEnding ending := by
  constructor
  · intro h
    obtain ⟨front, ending, hsplit, htype, halnum⟩ := isImageName_ending h
    exact ⟨front, ending, hsplit, htype, halnum⟩
  · rintro ⟨front, ending, rfl, hending⟩
    refine List.any_eq_true.2 ⟨_, hending.type, ?_⟩
    simp

/-- A name whose last part has no dot but at its beginning, such as `.jpg`. It has an accepted
ending and no extension. -/
def IsDotFile (fileName : List Char) : Prop := '.' ∉ (Path.basename fileName).drop 1

section

variable {ending : List Char} (h : IsEnding ending) (front : List Char)

include h

theorem isDotFile_iff : IsDotFile (front ++ '.' :: ending) ↔ Path.lastPart front = [] := by
  rw [IsDotFile, Path.basename_of_ending front h.ne_nil h.no_sign.2]
  cases Path.lastPart front with
  | nil => simp [h.no_sign.1]
  | cons c part => simp

/-- The extension of a name. -/
theorem extname_ending :
    Path.extname (front ++ '.' :: ending) =
      if Path.lastPart front = [] then [] else '.' :: ending := by
  have hdot := isDotFile_iff h front
  rw [IsDotFile] at hdot
  split
  · next hnil => rw [Path.extname, if_pos (Or.inr (hdot.2 hnil))]
  · next hpart =>
      refine (Path.extname_of_ending (List.suffix_append front _) h.ne_nil h.no_sign.1
        h.no_sign.2).resolve_left ?_
      rw [Path.extname, if_neg]
      · exact List.cons_ne_nil _ _
      · rintro (hdots | hno)
        · have hlength := congrArg List.length hdots
          have hfront := List.length_pos_of_ne_nil hpart
          have hback := List.length_pos_of_ne_nil h.ne_nil
          simp only [Path.basename_of_ending front h.ne_nil h.no_sign.2, List.length_append,
            List.length_cons, List.length_nil] at hlength
          omega
        · exact hpart (hdot.1 hno)

end

/-! ### Slugs -/

namespace FilesService

/-- The slug of a topic's file. -/
def topicSlug [StrictSlugify] (fileName : List Char) : List Char :=
  StrictSlugify.slugify
    (Path.basenameWithout fileName ((Path.extname fileName).map Char.toLower))

/-- The extension is cut off when it is in lower case. In upper case it stays in the slug, as the
two are compared as they are. -/
theorem topicSlug_eq [StrictSlugify] {ending : List Char} (h : IsEnding ending)
    (front : List Char) :
    topicSlug (front ++ '.' :: ending) = StrictSlugify.slugify
      (if Path.lastPart front ≠ [] ∧ ending.map Char.toLower = ending then Path.lastPart front
        else Path.lastPart front ++ '.' :: ending) := by
  rw [topicSlug, extname_ending h, Path.basenameWithout,
    Path.basename_of_ending front h.ne_nil h.no_sign.2]
  by_cases hpart : Path.lastPart front = []
  · simp [hpart]
  · have hlower : ('.' :: ending).map Char.toLower = '.' :: ending.map Char.toLower := rfl
    -- `basename` cuts the ending off when it is spelled as the extension is, which is in lower
    -- case.
    have hsuffix : '.' :: ending.map Char.toLower <:+ Path.lastPart front ++ '.' :: ending ↔
        ending.map Char.toLower = ending := by
      constructor
      · rintro ⟨rest, hrest⟩
        have hlast := List.append_inj_right' hrest (by simp)
        exact (List.cons.inj hlast).2
      · intro heq
        rw [heq]
        exact List.suffix_append _ _
    have hne : '.' :: ending.map Char.toLower ≠ Path.lastPart front ++ '.' :: ending := by
      intro heq
      have hlength := congrArg List.length heq
      have hfront := List.length_pos_of_ne_nil hpart
      simp only [List.length_append, List.length_cons, List.length_map] at hlength
      omega
    rw [if_neg hpart, hlower]
    by_cases hcase : ending.map Char.toLower = ending
    · rw [if_pos ⟨hsuffix.2 hcase, hne⟩, if_pos ⟨hpart, hcase⟩]
      congr 1
      simp
    · rw [if_neg (fun hboth => hcase (hsuffix.1 hboth.1)), if_neg (fun hboth => hcase hboth.2)]

/-- Two endings that differ in case: the slugs are one when both are cut off or neither is, and when
there is nothing else in the name. -/
theorem topicSlug_eq_iff [EndingSlugify] {ending ending' : List Char} (h : IsEnding ending)
    (h' : IsEnding ending') (hsame : ending.map Char.toLower = ending'.map Char.toLower)
    (front : List Char) :
    topicSlug (front ++ '.' :: ending) = topicSlug (front ++ '.' :: ending') ↔
      (ending.map Char.toLower = ending ↔ ending'.map Char.toLower = ending') ∨
        Path.lastPart front = [] := by
  have hlower : ∀ part, StrictSlugify.slugify (part ++ '.' :: ending) =
      StrictSlugify.slugify (part ++ '.' :: ending') := by
    intro part
    rw [← EndingSlugify.lower part ending h.alphanum, ← EndingSlugify.lower part ending' h'.alphanum,
      hsame]
  have hlonger : ∀ part {ending : List Char}, IsEnding ending →
      StrictSlugify.slugify part ≠ StrictSlugify.slugify (part ++ '.' :: ending) := by
    intro part ending h heq
    exact absurd (congrArg List.length heq)
      (Nat.ne_of_lt (EndingSlugify.longer part ending h.ne_nil h.alphanum))
  rw [topicSlug_eq h, topicSlug_eq h']
  by_cases hpart : Path.lastPart front = []
  · simpa [hpart] using hlower []
  · by_cases hcase : ending.map Char.toLower = ending
    · by_cases hcase' : ending'.map Char.toLower = ending'
      · simp [hpart, hcase, hcase']
      · simp [hpart, hcase, hcase', hlonger _ h']
    · by_cases hcase' : ending'.map Char.toLower = ending'
      · simp [hpart, hcase, hcase', Ne.symm (hlonger _ h)]
      · simp [hpart, hcase, hcase', hlower]

end FilesService

/-! ### The grammar -/

def IsDigits (digits : List Char) : Prop := digits ≠ [] ∧ ∀ c ∈ digits, c.isDigit = true

/-- What a presigned key of a field looks like: the directory, the slug or the drawn name, and the
extension of an image. -/
inductive IsPresignedKey : Fields → List Char → Prop
  | topic (slug type : List Char) (chars : ∀ c ∈ slug, c.isAlphanum = true ∨ c = '-')
      (known : type ∈ imageTypes) :
      IsPresignedKey .topic ("images/topics/".toList ++ slug ++ '.' :: type)
  | postFeatured (now random type : List Char) (digits : IsDigits now) (digits' : IsDigits random)
      (known : type ∈ imageTypes) :
      IsPresignedKey .postFeatured ("images/posts/featured/".toList ++
        ("post-featured-".toList ++ now ++ '-' :: random) ++ '.' :: type)
  | post (date : Day) (now random type : List Char) (digits : IsDigits now)
      (digits' : IsDigits random) (known : type ∈ imageTypes) :
      IsPresignedKey .post ("images/posts/content/".toList ++ date.text ++
        ("/post-".toList ++ now ++ '-' :: random) ++ '.' :: type)

theorem IsPresignedKey.dot {field : Fields} {key : List Char} (h : IsPresignedKey field key) :
    '.' ∈ key := by
  cases h <;> simp

theorem isDigits_decimal (n : Nat) : IsDigits (decimal n) :=
  ⟨Nat.toDigits_ne_nil, fun _ hc => Nat.isDigit_of_mem_toDigits (by decide) (by decide) hc⟩

/-- A key with an extension. -/
theorem isPresignedKey_createStorageKey [StrictSlugify] (moment : Moment) (field : Fields)
    {fileName type : List Char} (hext : (Path.extname fileName).map Char.toLower = '.' :: type)
    (htype : type ∈ imageTypes) :
    IsPresignedKey field (FilesService.createStorageKey moment field fileName) := by
  have hnow := isDigits_decimal moment.now
  have hrandom := isDigits_decimal moment.random
  have hassoc : ∀ directory text now random type : List Char,
      directory ++ text ++ '-' :: (now ++ '-' :: random) ++ '.' :: type =
        directory ++ ((text ++ ['-']) ++ now ++ '-' :: random) ++ '.' :: type := by
    simp
  have hslash : ∀ directory date text now random type : List Char,
      directory ++ date ++ '/' :: text ++ '-' :: (now ++ '-' :: random) ++ '.' :: type =
        directory ++ date ++ (('/' :: text ++ ['-']) ++ now ++ '-' :: random) ++ '.' :: type := by
    simp
  unfold FilesService.createStorageKey
  rw [hext]
  cases field with
  | topic => exact .topic _ type (StrictSlugify.chars _) htype
  | postFeatured =>
      have hkey := IsPresignedKey.postFeatured _ _ type hnow hrandom htype
      exact (congrArg (IsPresignedKey .postFeatured)
        (hassoc "images/posts/featured/".toList Fields.postFeatured.text _ _ type)).mpr hkey
  | post =>
      have hkey := IsPresignedKey.post moment.today _ _ type hnow hrandom htype
      exact (congrArg (IsPresignedKey .post)
        (hslash "images/posts/content/".toList _ Fields.post.text _ _ type)).mpr hkey

/-- A key without an extension has no dot. -/
theorem no_dot_createStorageKey [StrictSlugify] (moment : Moment) (field : Fields)
    {fileName : List Char} (hext : Path.extname fileName = []) :
    '.' ∉ FilesService.createStorageKey moment field fileName := by
  have hdecimal : ∀ n, '.' ∉ decimal n := fun n hdot =>
    absurd ((isDigits_decimal n).2 _ hdot) (by decide)
  have hday : '.' ∉ moment.today.text := by
    simp [Day.text, padStart, hdecimal, List.mem_replicate]
  have htext : '.' ∉ field.text := by cases field <;> decide
  have hnames : '.' ∉ "images/topics/".toList ∧ '.' ∉ "images/posts/featured/".toList ∧
      '.' ∉ "images/posts/content/".toList := by decide
  -- The directories, the drawn numbers and the fields have no dot, and a slug has none by the rules
  -- of `slugify`.
  obtain ⟨htopics, hfeatured, hcontent⟩ := hnames
  unfold FilesService.createStorageKey
  rw [hext]
  cases field with
  | topic =>
      have hslug : ∀ text, '.' ∉ StrictSlugify.slugify text := by
        intro text hdot
        rcases StrictSlugify.chars text _ hdot with halnum | hhyphen
        · exact absurd halnum (by decide)
        · exact absurd hhyphen (by decide)
      simp only [List.mem_append, htopics, hslug, List.map_nil, List.not_mem_nil, or_self,
        not_false_eq_true]
  | postFeatured =>
      simp only [List.mem_append, List.mem_cons, hfeatured, htext, hdecimal, List.map_nil,
        List.not_mem_nil, false_or, or_false]
      decide
  | post =>
      simp only [List.mem_append, List.mem_cons, hcontent, hday, htext, hdecimal, List.map_nil,
        List.not_mem_nil, false_or, or_false]
      decide

open FilesService

/-- **When presigned keys stay in their grammar**: unless the file is a dot file, and two names that
differ in the case of the extension have one slug when both extensions are in lower case, or neither
is, or both files are dot files. -/
theorem presigned_keys_iff [EndingSlugify] :
    (∀ moment field fileName, assertFileType fileName = .ok () →
      ((∃ form, IsPresignedKey form (createStorageKey moment field fileName)) ↔
          ¬IsDotFile fileName) ∧
        (¬IsDotFile fileName → IsPresignedKey field (createStorageKey moment field fileName))) ∧
    ∀ front ending ending', ending.map Char.toLower ∈ imageTypes →
      ending'.map Char.toLower = ending.map Char.toLower →
        (topicSlug (front ++ '.' :: ending) = topicSlug (front ++ '.' :: ending') ↔
          (ending.map Char.toLower = ending ↔ ending'.map Char.toLower = ending') ∨
            IsDotFile (front ++ '.' :: ending)) := by
  constructor
  · intro moment field fileName haccepted
    obtain ⟨front, ending, rfl, hending⟩ := isImageName_iff.1 (assertFileType_eq_ok.1 haccepted)
    have hext := extname_ending hending front
    have hkey : ¬IsDotFile (front ++ '.' :: ending) →
        IsPresignedKey field (createStorageKey moment field (front ++ '.' :: ending)) := by
      intro hno
      rw [isDotFile_iff hending] at hno
      rw [if_neg hno] at hext
      exact isPresignedKey_createStorageKey moment field (by rw [hext]; rfl) hending.type
    refine ⟨⟨?_, fun hno => ⟨field, hkey hno⟩⟩, hkey⟩
    -- A dot file has no extension, and every form of a presigned key has one.
    rintro ⟨form, hform⟩ hdotFile
    rw [if_pos ((isDotFile_iff hending front).1 hdotFile)] at hext
    exact no_dot_createStorageKey moment field hext hform.dot
  · intro front ending ending' htype hsame
    have hending := isEnding_of_type htype
    have hending' := isEnding_of_type (hsame ▸ htype)
    rw [isDotFile_iff hending]
    exact topicSlug_eq_iff hending hending' hsame.symm front

/-! ### Photos -/

section

theorem plainStrictSlug_ending (text : List Char) {ending : List Char}
    (h : ∀ c ∈ ending, c.isAlphanum = true) :
    plainStrictSlug.slugify (text ++ '.' :: ending) =
      plainStrictSlug.slugify text ++ ending.map Char.toLower := by
  have hletters : plainStrictSlug.slugify ending = ending.map Char.toLower := by
    induction ending with
    | nil => rfl
    | cons c ending ih =>
        obtain ⟨hc, hrest⟩ := List.forall_mem_cons.1 h
        have hspace : c ≠ ' ' := by
          rintro rfl
          exact absurd hc (by decide)
        have hone : plainStrictSlug.slugify (c :: ending) =
            c.toLower :: plainStrictSlug.slugify ending := by
          show (if c = ' ' then ['-'] else if c.isAlphanum = true then [c.toLower] else []) ++
            plainStrictSlug.slugify ending = _
          rw [if_neg hspace, if_pos hc, List.singleton_append]
        rw [hone, ih hrest, List.map_cons]
  have hsplit : plainStrictSlug.slugify (text ++ '.' :: ending) =
      plainStrictSlug.slugify text ++ plainStrictSlug.slugify ending := List.flatMap_append
  rw [hsplit, hletters]

/-- `slugify` for plain texts. -/
@[reducible] def plainEndingSlug : EndingSlugify where
  toStrictSlugify := plainStrictSlug
  lower text ending h := by
    have hlower : ∀ c ∈ ending, c.toLower.isAlphanum = true ∧ c.toLower.toLower = c.toLower := by
      intro c hc
      exact forall_isSlugChar (p := fun c => c.isAlphanum = true →
        c.toLower.isAlphanum = true ∧ c.toLower.toLower = c.toLower) (by decide +kernel)
        (uncut_of_isAlphanum (h c hc)).1 (h c hc)
    have hmapped : ∀ c ∈ ending.map Char.toLower, c.isAlphanum = true := by
      intro c hc
      obtain ⟨d, hd, rfl⟩ := List.mem_map.1 hc
      exact (hlower d hd).1
    rw [plainStrictSlug_ending text hmapped, plainStrictSlug_ending text h, List.map_map]
    exact congrArg _ (List.map_congr_left fun c hc => (hlower c hc).2)
  longer text ending hne h := by
    rw [plainStrictSlug_ending text h, List.length_append, List.length_map]
    exact Nat.lt_add_of_pos_right (List.length_pos_of_ne_nil hne)

attribute [local instance] plainEndingSlug

/-- A photo in a directory, and two spellings of its extension. -/
theorem photo_key :
    IsPresignedKey .topic (createStorageKey noon .topic "photos/cat.JPG".toList) ∧
      topicSlug "cat.JPG".toList = topicSlug "cat.Jpg".toList := by
  obtain ⟨hkey, hslug⟩ := presigned_keys_iff
  refine ⟨(hkey noon .topic "photos/cat.JPG".toList (by decide)).2 ?_, ?_⟩
  · rw [IsDotFile]
    decide
  · exact (hslug "cat".toList "JPG".toList "Jpg".toList (by decide) (by decide)).2
      (Or.inl (by decide))

/-- A name that is only an ending has no extension, and an extension with capital letters stays in the
slug. -/
theorem dot_file_and_capitals :
    assertFileType ".jpg".toList = .ok () ∧
      (¬∃ form, IsPresignedKey form (createStorageKey noon .post ".jpg".toList)) ∧
      assertFileType "photo.jpg".toList = .ok () ∧ assertFileType "photo.JPG".toList = .ok () ∧
      topicSlug "photo.jpg".toList ≠ topicSlug "photo.JPG".toList := by
  refine ⟨by decide, ?_, by decide, by decide, by decide⟩
  rintro ⟨form, hform⟩
  exact absurd hform.dot (by decide +kernel)

end

end VetHealth
