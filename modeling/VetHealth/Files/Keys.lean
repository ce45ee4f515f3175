import VetHealth.Common.Domain
import VetHealth.Files.ImageWords
import VetHealth.Js.Path

/-!
# VetHealth.Files.Keys

**The keys of uploaded files.** `diskStorage` writes a file below `uploads/`, `FilesService.uploadFile`
may correct its extension and either keeps it there or stores it in an object storage. Two scripts
compute the object key of a file that was kept: from where it lies (`toObjectKey`) and from the path
in its row (`normalizeFileKey`).

The name of a topic's file is a slug of the name it came with, and a slug may hold quotes and
closing parentheses. `normalizeFileKey` reads a key only up to the first of them, unless the name
begins with it: then it finds no key at all and only drops `uploads/` (`keys_agree_iff`).
-/

namespace VetHealth

open Js Matching Matching.Regex ImageRefs

/-! ### Receiving a file -/

/-- `Fields`. -/
inductive Fields
  | post
  | topic
  | postFeatured
  deriving DecidableEq

def Fields.text : Fields → List Char
  | .post => "post".toList
  | .topic => "topic".toList
  | .postFeatured => "post-featured".toList

/-- The characters that `slugify` leaves. -/
def isSlugChar (c : Char) : Bool :=
  c.isAlphanum || "_$*+~.()'\"!:@-".toList.contains c

/-- The characters that `slugify` keeps wherever they stand. -/
def isKept (c : Char) : Bool := c.isAlphanum || "()'\"!:@*~+.".toList.contains c

/-- `slugify` with `lower`. -/
class LowerSlugify where
  slugify : List Char → List Char
  /-- White space becomes hyphens, and what is no character of a slug goes. -/
  chars : ∀ text, ∀ c ∈ slugify text, isSlugChar c = true
  keeps : ∀ text ending, (∀ c ∈ ending, isKept c = true) →
    ending.map Char.toLower <:+ slugify (text ++ ending)

def imageTypes : List (List Char) :=
  ["jpg".toList, "jpeg".toList, "png".toList, "gif".toList, "webp".toList, "avif".toList,
    "svg".toList]

/-- `originalname.match(/\.(jpg|jpeg|png|gif|webp|avif|svg)$/i)`. -/
def isImageName (originalname : List Char) : Bool :=
  imageTypes.any fun type =>
    (originalname.drop (originalname.length - (type.length + 1))).map Char.toLower = '.' :: type

/-- `new Date().toISOString().slice(0, 10)`. -/
structure Day where
  year : Nat
  month : Nat
  day : Nat

/-- A number in decimal. -/
def decimal (n : Nat) : List Char := Nat.toDigits 10 n

def padStart (width n : Nat) : List Char :=
  List.replicate (width - (decimal n).length) '0' ++ decimal n

def Day.text (today : Day) : List Char :=
  padStart 4 today.year ++ '-' :: padStart 2 today.month ++ '-' :: padStart 2 today.day

def directories (today : Day) : Fields → List Char
  | .topic => Path.join ["uploads".toList, "images".toList, "topics".toList]
  | .post =>
      Path.join ["uploads".toList, "images".toList, "posts".toList, "content".toList, today.text]
  | .postFeatured =>
      Path.join ["uploads".toList, "images".toList, "posts".toList, "featured".toList]

/-- `Express.Multer.File`. -/
structure UploadedFile where
  fieldname : Fields
  originalname : List Char
  mimetype : String
  path : List Char

/-- What the place of a file on the disk depends on: the clock and the random number when it arrives,
and a day. The names of the directories are a constant of the module, so that `today` is the day on
which the backend was started, whenever the file arrives. -/
structure Moment where
  today : Day
  now : Nat
  random : Nat

section

variable [LowerSlugify]

/-- `filename` of the disk storage: the slug of the name for a topic; for the others the field, the
clock, a random number and the extension. -/
def diskStorage.filename (moment : Moment) (fieldname : Fields) (originalname : List Char) :
    List Char :=
  if fieldname = .topic then LowerSlugify.slugify originalname
  else fieldname.text ++ '-' :: decimal moment.now ++ '-' :: decimal moment.random ++
    Path.extname originalname

/-- `destination` of the disk storage. -/
def diskStorage.destination (moment : Moment) (fieldname : Fields) : List Char :=
  Path.join [directories moment.today fieldname]

/-- A file passes `fileFilter`, and the disk storage writes it. -/
def receiveFile (moment : Moment) (fieldname : Fields) (originalname : List Char)
    (mimetype : String) : Except Failure UploadedFile :=
  if isImageName originalname then
    .ok ⟨fieldname, originalname, mimetype,
      Path.join [diskStorage.destination moment fieldname,
        diskStorage.filename moment fieldname originalname]⟩
  else .error (.unprocessable "cantUploadFileType")

end

/-! ### Storing it -/

/-- What `sniffImageType` recognises. -/
inductive SniffedImage
  | jpeg
  | png
  | gif
  | webp
  | avif
  | heic
  | svg
  deriving DecidableEq

def SniffedImage.mimeType : SniffedImage → String
  | .jpeg => "image/jpeg"
  | .png => "image/png"
  | .gif => "image/gif"
  | .webp => "image/webp"
  | .avif => "image/avif"
  | .heic => "image/heic"
  | .svg => "image/svg+xml"

def SniffedImage.extension : SniffedImage → List Char
  | .jpeg => ".jpg".toList
  | .png => ".png".toList
  | .gif => ".gif".toList
  | .webp => ".webp".toList
  | .avif => ".avif".toList
  | .heic => ".heic".toList
  | .svg => ".svg".toList

/-- `FileStorageDriver`. -/
inductive FileStorageDriver
  | local
  | s3
  | r2
  | seaweed
  deriving DecidableEq

structure StoredObject where
  key : List Char
  contentType : String

/-- The path in the row of a file, and what is stored under a key. -/
structure SavedFile where
  path : List Char
  object : Option StoredObject

namespace FilesService

def reconcileExtension (path : List Char) (sniffed : Option SniffedImage) : List Char :=
  match sniffed with
  | none => path
  | some sniffed =>
      let currentExtension := (Path.extname path).map Char.toLower
      let jpegAliases := [".jpg".toList, ".jpeg".toList]
      let isMatch := currentExtension = sniffed.extension ∨
        (currentExtension ∈ jpegAliases ∧ sniffed.extension ∈ jpegAliases)
      if isMatch then path
      -- the content is of another type than the name says
      else path.take (path.length - currentExtension.length) ++ sniffed.extension

/-- `storageKey`: `actualPath.replace(/\\/g, '/').replace(/^\/+/, '').replace(/^uploads\//, '')`. -/
def storageKey (actualPath : List Char) : List Char :=
  let normalizedFilePath := actualPath.map fun c => if c = '\\' then '/' else c
  let relativePath := normalizedFilePath.dropWhile (· = '/')
  if "uploads/".toList <+: relativePath then relativePath.drop 8 else relativePath

/-- `uploadFile` for one file. -/
def uploadFile (storageDriver : FileStorageDriver) (uploadedFile : UploadedFile)
    (sniffed : Option SniffedImage) : Except Failure SavedFile :=
  if isImageName uploadedFile.originalname then
    let actualPath := reconcileExtension uploadedFile.path sniffed
    let contentType := (sniffed.map SniffedImage.mimeType).getD uploadedFile.mimetype
    if storageDriver = .local then
      -- the file stays where the disk storage has written it
      .ok ⟨'/' :: actualPath.map fun c => if c = '\\' then '/' else c, none⟩
    else .ok ⟨storageKey actualPath, some ⟨storageKey actualPath, contentType⟩⟩
  else .error (.unprocessable "cantUploadFileType")

end FilesService

/-! ### The scripts -/

/-- A place that `listFilesRecursive` comes to below a directory. -/
def listFilesRecursive.walk (dir : List Char) (entries : List (List Char)) : List Char :=
  entries.foldl (fun currentDir name => Path.join [currentDir, name]) dir

def toObjectKey (keyPrefix uploadsDir filePath : List Char) : List Char :=
  let relative := Path.render ((Path.relative uploadsDir filePath).splitOn '/')
  (keyPrefix ++ '/' :: relative).dropWhile (· = '/')

/-- The three keys of a file are one: that of the upload, that of the migration of the files, and
that which the migration of the rows reads in its path. -/
def KeysAgree (driver : FileStorageDriver) (uploadsDir : List Char) (file : UploadedFile)
    (sniffed : Option SniffedImage) : Prop :=
  ∃ kept stored object,
    FilesService.uploadFile .local file sniffed = .ok kept ∧
    FilesService.uploadFile driver file sniffed = .ok stored ∧ stored.object = some object ∧
    toObjectKey [] uploadsDir (listFilesRecursive.walk uploadsDir
      (Path.names (FilesService.reconcileExtension file.path sniffed)).tail) = object.key ∧
    normalizeFileKey (.ofList kept.path) = .ofList object.key

/-! ### Characters -/

/-- The characters of a slug that no key holds. A key that is read in a text ends before the first
of them. -/
def isCut (c : Char) : Bool := c = '"' || c.toNat = 0x27 || c = ')'

theorem toNat_of_isAlphanum {c : Char} (h : c.isAlphanum = true) : c.toNat < 128 := by
  change ((decide (c.val ≥ 65 ∧ c.val ≤ 90) || (decide (c.val ≥ 97) && decide (c.val ≤ 122))) ||
    (decide (c.val ≥ 48) && decide (c.val ≤ 57))) = true at h
  simp only [Bool.or_eq_true, Bool.and_eq_true, decide_eq_true_eq, UInt32.le_iff_toNat_le,
    ge_iff_le] at h
  change ((65 ≤ c.toNat ∧ c.toNat ≤ 90) ∨ (97 ≤ c.toNat ∧ c.toNat ≤ 122)) ∨
    (48 ≤ c.toNat ∧ c.toNat ≤ 57) at h
  omega

/-- What holds of the ASCII characters of slugs holds of all of them, as there are no others. -/
theorem forall_isSlugChar {p : Char → Prop}
    (h : ∀ n : Fin 128, isSlugChar (Char.ofNat n.val) = true → p (Char.ofNat n.val)) {c : Char}
    (hc : isSlugChar c = true) : p c := by
  have hlt : c.toNat < 128 := by
    rcases Bool.or_eq_true_iff.1 hc with halnum | hsign
    · exact toNat_of_isAlphanum halnum
    · have hall : ∀ s ∈ "_$*+~.()'\"!:@-".toList, s.toNat < 128 := by decide
      exact hall c (List.contains_iff_mem.1 hsign)
  have hofNat := Char.ofNat_toNat c
  have hp := h ⟨c.toNat, hlt⟩
  rw [hofNat] at hp
  exact hp hc

theorem isKeyChar_of_isSlugChar {c : Char} (h : isSlugChar c = true) : isKeyChar c = !isCut c :=
  forall_isSlugChar (p := fun c => isKeyChar c = !isCut c) (by decide +kernel) h

theorem isSlugChar_ne {c : Char} (h : isSlugChar c = true) : c ≠ '/' ∧ c ≠ '\\' :=
  forall_isSlugChar (p := fun c => c ≠ '/' ∧ c ≠ '\\') (by decide +kernel) h

/-- Letters and digits stand in slugs and in keys. -/
theorem uncut_of_isAlphanum {c : Char} (h : c.isAlphanum = true) :
    isSlugChar c = true ∧ isCut c = false := by
  have hslug : isSlugChar c = true := by rw [isSlugChar, h, Bool.true_or]
  refine ⟨hslug, ?_⟩
  exact forall_isSlugChar (p := fun c => c.isAlphanum = true → isCut c = false) (by decide +kernel)
    hslug h

theorem isAlphanum_of_toLower {c : Char} (h : c.toLower.isAlphanum = true) :
    c.isAlphanum = true := by
  rcases toLower_cases c with hc | ⟨n, rfl, -⟩
  · rw [← hc]
    exact h
  · clear h
    revert n
    decide

/-! ### Names of files -/

/-- What an image's name ends with. -/
theorem isImageName_ending {originalname : List Char} (h : isImageName originalname = true) :
    ∃ front ending, originalname = front ++ '.' :: ending ∧
      ending.map Char.toLower ∈ imageTypes ∧ ∀ c ∈ ending, c.isAlphanum = true := by
  obtain ⟨type, htype, hends⟩ := List.any_eq_true.1 h
  rw [decide_eq_true_eq, List.map_eq_cons_iff] at hends
  obtain ⟨dot, ending, hdrop, hdot, rfl⟩ := hends
  have hsplit := List.take_append_drop
    (originalname.length - ((ending.map Char.toLower).length + 1)) originalname
  have hsign : dot = '.' := by
    have hignore : ignoreCase '.' dot = decide (dot = '.') := ignoreCase_sign (by decide) (by decide)
    exact of_decide_eq_true (hignore.symm.trans (decide_eq_true hdot))
  rw [hdrop, hsign] at hsplit
  refine ⟨_, ending, hsplit.symm, htype, fun c hc => isAlphanum_of_toLower ?_⟩
  have hall : ∀ type ∈ imageTypes, ∀ c ∈ type, c.isAlphanum = true := by decide
  exact hall _ htype _ (List.mem_map_of_mem hc)

/-- The name of an uploaded file. -/
structure IsFileName (name : List Char) : Prop where
  length : 4 ≤ name.length
  chars : ∀ c ∈ name, isSlugChar c = true
  extension : ∀ c ∈ Path.extname name, isCut c = false

theorem isName_of_slug {name : List Char} (hlength : 3 ≤ name.length)
    (h : ∀ c ∈ name, isSlugChar c = true) : Path.IsName name where
  ne_nil hnil := by
    rw [hnil] at hlength
    exact absurd hlength (by decide)
  no_slash hslash := (isSlugChar_ne (h _ hslash)).1 rfl
  ne_dot hdot := by
    rw [hdot] at hlength
    exact absurd hlength (by decide)
  ne_dots hdots := by
    rw [hdots] at hlength
    exact absurd hlength (by decide)

theorem isFileName_slug [LowerSlugify] {originalname : List Char}
    (h : isImageName originalname = true) : IsFileName (LowerSlugify.slugify originalname) := by
  obtain ⟨front, ending, rfl, htype, hending⟩ := isImageName_ending h
  have hkept : ∀ c ∈ '.' :: ending, isKept c = true := by
    intro c hc
    rcases List.mem_cons.1 hc with rfl | hc
    · decide
    · rw [isKept, hending c hc, Bool.true_or]
  have hsuffix := LowerSlugify.keeps front ('.' :: ending) hkept
  rw [List.map_cons] at hsuffix
  have htypes : ∀ type ∈ imageTypes, 3 ≤ type.length ∧ '.' ∉ type ∧ '/' ∉ type ∧
      ∀ c ∈ '.' :: type, isCut c = false := by decide
  obtain ⟨hlength, hdot, hslash, hcut⟩ := htypes _ htype
  refine ⟨(Nat.succ_le_succ hlength).trans hsuffix.length_le, LowerSlugify.chars _, ?_⟩
  have hne : ending.map Char.toLower ≠ [] := by
    intro hnil
    rw [hnil] at hlength
    exact absurd hlength (by decide)
  rcases Path.extname_of_ending hsuffix hne hdot hslash with hext | hext
  · simp [hext]
  · rw [hext]
    exact hcut

theorem isAlphanum_decimal (n : Nat) : ∀ c ∈ decimal n, c.isAlphanum = true := by
  intro c hc
  have hdigit : c.isDigit = true := Nat.isDigit_of_mem_toDigits (by decide) (by decide) hc
  rw [Char.isAlphanum, hdigit, Bool.or_true]

/-- The extension of an image's name is one of the types, if it has one. A name that is nothing but
the ending has none. -/
theorem extname_of_isImageName {originalname : List Char} (h : isImageName originalname = true) :
    Path.extname originalname = [] ∨ ∃ ending, Path.extname originalname = '.' :: ending ∧
      ending.map Char.toLower ∈ imageTypes ∧ ∀ c ∈ ending, c.isAlphanum = true := by
  obtain ⟨front, ending, rfl, htype, hending⟩ := isImageName_ending h
  have hne : ending ≠ [] := by
    rintro rfl
    exact absurd htype (by decide)
  have hslash : '/' ∉ ending := fun hmem => absurd (hending _ hmem) (by decide)
  have hdot : '.' ∉ ending := fun hmem => absurd (hending _ hmem) (by decide)
  rcases Path.extname_of_ending (List.suffix_append front _) hne hdot hslash with hext | hext
  · exact Or.inl hext
  · exact Or.inr ⟨ending, hext, htype, hending⟩

theorem extname_chars {originalname : List Char} (h : isImageName originalname = true) :
    ∀ c ∈ Path.extname originalname, isSlugChar c = true ∧ isCut c = false := by
  rcases extname_of_isImageName h with hext | ⟨ending, hext, -, hending⟩
  · simp [hext]
  · rw [hext]
    exact List.forall_mem_cons.2 ⟨by decide, fun c hc => uncut_of_isAlphanum (hending c hc)⟩

/-- The names of the other files are made of what no key is cut at: digits, a hyphen and an
extension. -/
theorem filename_chars [LowerSlugify] (moment : Moment) {fieldname : Fields}
    {originalname : List Char} (hfield : fieldname ≠ .topic) (h : isImageName originalname = true) :
    4 ≤ (diskStorage.filename moment fieldname originalname).length ∧
      ∀ c ∈ diskStorage.filename moment fieldname originalname,
        isSlugChar c = true ∧ isCut c = false := by
  have htext : 4 ≤ fieldname.text.length ∧
      ∀ c ∈ fieldname.text, isSlugChar c = true ∧ isCut c = false := by
    cases fieldname with
    | topic => exact absurd rfl hfield
    | post => decide
    | postFeatured => decide
  have hdecimal : ∀ n, ∀ c ∈ decimal n, isSlugChar c = true ∧ isCut c = false := fun n c hc =>
    uncut_of_isAlphanum (isAlphanum_decimal n c hc)
  have hhyphen : isSlugChar '-' = true ∧ isCut '-' = false := by decide
  rw [diskStorage.filename, if_neg hfield]
  constructor
  · simp only [List.length_append, List.length_cons]
    omega
  · intro c hc
    simp only [List.mem_append, List.mem_cons] at hc
    rcases hc with ((hc | rfl | hc) | rfl | hc) | hc
    · exact htext.2 c hc
    · exact hhyphen
    · exact hdecimal _ c hc
    · exact hhyphen
    · exact hdecimal _ c hc
    · exact extname_chars h c hc

theorem isFileName_filename [LowerSlugify] (moment : Moment) (fieldname : Fields)
    {originalname : List Char} (h : isImageName originalname = true) :
    IsFileName (diskStorage.filename moment fieldname originalname) := by
  by_cases hfield : fieldname = .topic
  · rw [diskStorage.filename, if_pos hfield]
    exact isFileName_slug h
  · obtain ⟨hlength, hchars⟩ := filename_chars moment hfield h
    have hname := isName_of_slug (by omega) fun c hc => (hchars c hc).1
    refine ⟨hlength, fun c hc => (hchars c hc).1, fun c hc => ?_⟩
    exact (hchars c ((Path.extname_isSuffix hname).subset hc)).2

/-! ### Correcting the extension -/

theorem head_any_append {stem ending : List Char} (h : ∀ c ∈ ending, isCut c = false) :
    (stem ++ ending).head?.any isCut = stem.head?.any isCut := by
  cases stem with
  | cons c stem => rfl
  | nil =>
      cases ending with
      | nil => rfl
      | cons c ending => simp [h c List.mem_cons_self]

theorem forall_append_uncut {stem ending : List Char} (h : ∀ c ∈ ending, isCut c = false) :
    (∀ c ∈ stem ++ ending, isCut c = false) ↔ ∀ c ∈ stem, isCut c = false := by
  constructor
  · exact fun hall c hc => hall c (List.mem_append_left _ hc)
  · intro hstem c hc
    exact (List.mem_append.1 hc).elim (hstem c) (h c)

theorem SniffedImage.extension_spec (sniffed : SniffedImage) : 3 ≤ sniffed.extension.length ∧
    ∀ c ∈ sniffed.extension, isSlugChar c = true ∧ isCut c = false := by
  cases sniffed <;> decide

/-- The correction is made on the last name of a path; the directories are left alone. -/
theorem reconcileExtension_append {lead name : List Char} (hname : Path.IsName name)
    (hlead : lead.reverse.takeWhile (· ≠ '/') = []) (sniffed : Option SniffedImage) :
    FilesService.reconcileExtension (lead ++ name) sniffed =
      lead ++ FilesService.reconcileExtension name sniffed := by
  cases sniffed with
  | none => rfl
  | some sniffed =>
      have hlength := (Path.extname_isSuffix hname).length_le
      have htake : (lead ++ name).take ((lead ++ name).length -
          ((Path.extname name).map Char.toLower).length) =
          lead ++ name.take (name.length - ((Path.extname name).map Char.toLower).length) := by
        rw [List.length_map, List.length_append, Nat.add_sub_assoc hlength,
          List.take_length_add_append]
      rw [FilesService.reconcileExtension, FilesService.reconcileExtension,
        Path.extname_append hname hlead]
      split
      · rfl
      · rw [htake, List.append_assoc]

/-- What is kept of a path is what comes before its extension. -/
theorem take_of_extname {path front : List Char} (h : path = front ++ Path.extname path) :
    path.take (path.length - ((Path.extname path).map Char.toLower).length) = front := by
  have hlength : path.length = front.length + (Path.extname path).length :=
    (congrArg List.length h).trans List.length_append
  rw [List.length_map, hlength, Nat.add_sub_cancel]
  calc path.take front.length = (front ++ Path.extname path).take front.length := by rw [← h]
    _ = front := List.take_left

/-- It leaves a name alone or changes what the name ends with. -/
theorem reconcileExtension_cases {name : List Char} (hname : Path.IsName name)
    (sniffed : Option SniffedImage) :
    FilesService.reconcileExtension name sniffed = name ∨
      ∃ front sniffed', name = front ++ Path.extname name ∧
        FilesService.reconcileExtension name sniffed = front ++ SniffedImage.extension sniffed' := by
  cases sniffed with
  | none => exact Or.inl rfl
  | some sniffed =>
      rw [FilesService.reconcileExtension]
      split
      · exact Or.inl rfl
      · obtain ⟨front, hfront⟩ := Path.extname_isSuffix hname
        exact Or.inr ⟨front, sniffed, hfront.symm, by rw [take_of_extname hfront.symm]⟩

/-- A corrected extension changes neither where a name is cut nor what it begins with. -/
theorem reconcileExtension_name {name : List Char} (h : IsFileName name)
    (sniffed : Option SniffedImage) :
    3 ≤ (FilesService.reconcileExtension name sniffed).length ∧
      (∀ c ∈ FilesService.reconcileExtension name sniffed, isSlugChar c = true) ∧
      ((∀ c ∈ FilesService.reconcileExtension name sniffed, isCut c = false) ↔
        ∀ c ∈ name, isCut c = false) ∧
      (FilesService.reconcileExtension name sniffed).head?.any isCut = name.head?.any isCut := by
  have hlength : 3 ≤ name.length := Nat.le_of_succ_le h.length
  rcases reconcileExtension_cases (isName_of_slug hlength h.chars) sniffed with
    hsame | ⟨front, sniffed', hfront, hchanged⟩
  · rw [hsame]
    exact ⟨hlength, h.chars, Iff.rfl, rfl⟩
  -- neither the old extension nor the new one holds a character that cuts a key
  · obtain ⟨hext, hchars⟩ := sniffed'.extension_spec
    rw [hchanged]
    refine ⟨?_, ?_, ?_, ?_⟩
    · exact hext.trans (by rw [List.length_append]; exact Nat.le_add_left _ _)
    · intro c hc
      rcases List.mem_append.1 hc with hc | hc
      · exact h.chars c (hfront ▸ List.mem_append_left _ hc)
      · exact (hchars c hc).1
    · rw [forall_append_uncut fun c hc => (hchars c hc).2, ← forall_append_uncut h.extension,
        ← hfront]
    · rw [head_any_append fun c hc => (hchars c hc).2, ← head_any_append h.extension, ← hfront]

/-! ### The key in the row -/

/-- The first key of a word is what the expression finds. The search begins at every place of the
word, one after the other. -/
theorem find_word {cs : List Char} (h : ∀ c ∈ cs, isKeyChar c = true) :
    FILE_KEY_RE.find cs = (firstKey cs).map fun key => (key, [key]) := by
  induction cs with
  | nil => rfl
  | cons c cs ih =>
      rw [find, exec_FILE_KEY_RE h, ih fun d hd => h d (List.mem_cons_of_mem _ hd)]
      cases hkey : isKey (c :: cs) with
      | true => rw [firstKey_of_isKey hkey]; rfl
      | false => rw [firstKey_cons_of_not hkey]; rfl

theorem find_of_no_slash {cs : List Char} (h : '/' ∉ cs) : FILE_KEY_RE.find cs = none := by
  refine find_eq_none.2 fun t ht => ?_
  have himages : startsWith ignoreCase "images/".toList t = false := by
    by_contra hstarts
    have hparts : startsWith ignoreCase "images/".toList t =
        (startsWith ignoreCase "images".toList t &&
          startsWith ignoreCase ['/'] (t.drop "images".toList.length)) :=
      startsWith_append "images".toList ['/'] t
    rw [Bool.not_eq_false] at hstarts
    rw [hstarts] at hparts
    have hslash := (Bool.and_eq_true_iff.1 hparts.symm).2
    cases hdrop : t.drop "images".toList.length with
    | nil =>
        rw [hdrop] at hslash
        cases hslash
    | cons c rest =>
        rw [hdrop, startsWith, startsWith, Bool.and_true, ignoreCase_slash,
          decide_eq_true_eq] at hslash
        have hmem : c ∈ t := List.mem_of_mem_drop (hdrop ▸ List.mem_cons_self)
        exact h (ht.subset (hslash ▸ hmem))
  rw [FILE_KEY_RE, exec_group, word, exec_text_seq, himages]
  rfl

def localLead : List Char := "/uploads".toList

theorem firstKey_local {key : List Char} (h : isKey key = true) :
    firstKey (localLead ++ '/' :: key) = some key :=
  firstKey_before_key h (by decide)

/-- What the expression finds behind a text that names no directory: the key, whatever characters the
text has. -/
theorem find_after_lead {lead key : List Char} (h : isKey key = true)
    (hchars : ∀ c ∈ key, isKeyChar c = true) (hno : NoDirectory (lead ++ ['/'])) :
    FILE_KEY_RE.find (lead ++ '/' :: key) = some (key, [key]) := by
  have hword : ∀ u, (∀ c ∈ u, isKeyChar c = true) → NoDirectory (u ++ ['/']) →
      FILE_KEY_RE.find (u ++ '/' :: key) = some (key, [key]) := by
    intro u hu hnone
    rw [find_word, firstKey_before_key h hnone]
    · rfl
    · exact List.forall_mem_append.2 ⟨hu, List.forall_mem_cons.2 ⟨by decide, hchars⟩⟩
  induction lead using words_induction isKeyChar with
  | word u hu => exact hword u hu hno
  | cut u d v hu hd ih =>
      -- the word before the cut has no key, since it names no directory
      have hnone : firstKey u = none := by
        refine List.find?_eq_none.2 fun t ht => ?_
        obtain ⟨front, rfl⟩ := (List.mem_tails _ _).1 ht
        obtain ⟨hposts, htopics⟩ := hno (t ++ (d :: v ++ ['/'])) ⟨front, by simp⟩
        rw [Bool.not_eq_true]
        exact isKey_eq_false (begins_of_append hposts) (begins_of_append htopics)
      have hrest : NoDirectory (v ++ ['/']) := hno.suffix ⟨u ++ [d], by simp⟩
      rw [List.append_assoc, List.cons_append, find_append_cons FILE_KEY_RE_within (by decide) hd,
        find_word hu, hnone, ih hrest]
      rfl

/-- The key of a path that ends with one. -/
theorem normalizeFileKey_after_lead {lead key : List Char} (h : isKey key = true)
    (hchars : ∀ c ∈ key, isKeyChar c = true) (hno : NoDirectory (lead ++ ['/'])) :
    normalizeFileKey (.ofList (lead ++ '/' :: key)) = .ofList key := by
  rw [normalizeFileKey, String.toList_ofList, find_after_lead h hchars hno]
  rfl

/-- The path of a file whose key has all its characters in the class. -/
theorem normalizeFileKey_uncut {key : List Char} (h : isKey key = true)
    (hchars : ∀ c ∈ key, isKeyChar c = true) :
    normalizeFileKey (.ofList (localLead ++ '/' :: key)) = .ofList key :=
  normalizeFileKey_after_lead h hchars (by decide)

/-- The path of a file whose name is cut: what is read is the name up to the cut. -/
theorem normalizeFileKey_cut {name rest : List Char} {d : Char} (hne : name ≠ [])
    (hname : ∀ c ∈ name, isKeyChar c = true) (hd : isKeyChar d = false) :
    normalizeFileKey (.ofList (localLead ++ '/' :: ("images/topics/".toList ++ (name ++ d :: rest)))) =
      .ofList ("images/topics/".toList ++ name) := by
  have hlead : ∀ c ∈ localLead ++ '/' :: "images/topics/".toList, isKeyChar c = true := by decide
  have hfind := @find_word (localLead ++ '/' :: ("images/topics/".toList ++ name)) fun c hc => by
    rw [← List.cons_append, ← List.append_assoc] at hc
    exact (List.mem_append.1 hc).elim (hlead c) (hname c)
  have hsplit : localLead ++ '/' :: ("images/topics/".toList ++ (name ++ d :: rest)) =
      (localLead ++ '/' :: ("images/topics/".toList ++ name)) ++ d :: rest := by simp
  rw [normalizeFileKey, String.toList_ofList, hsplit,
    find_append_cons FILE_KEY_RE_within (by decide) hd, hfind, firstKey_local (isKey_topics hne)]
  rfl

theorem stripUploadsPrefix_local (key : List Char) :
    stripUploadsPrefix (.ofList (localLead ++ '/' :: key)) = .ofList key := by
  have hslash : startsWith (fun a b : Char => decide (a = b)) ['/'] (localLead ++ '/' :: key) = true :=
    startsWith_mono (u := ['/']) (by decide) _
  have huploads : startsWith (fun a b : Char => decide (a = b)) "uploads/".toList
      ((localLead ++ '/' :: key).drop 1) = true :=
    startsWith_mono (u := "uploads/".toList) (by decide) key
  have hexec : ((.seq (.opt (.text (· = ·) ['/'])) (.text (· = ·) "uploads/".toList) :
      Regex Char).exec (localLead ++ '/' :: key)) = some (localLead ++ ['/'], []) := by
    rw [exec_opt_seq, exec_text_seq, if_pos hslash, exec, outcomes_text, List.length_singleton,
      if_pos huploads]
    rfl
  have htext : (String.ofList (localLead ++ '/' :: key)).toList = localLead ++ '/' :: key :=
    String.toList_ofList
  rw [stripUploadsPrefix, htext, hexec]
  rfl

/-- The path of a file whose name begins where it would be cut: no key is found in it, so that only
the directory of the uploads is dropped. -/
theorem normalizeFileKey_at_cut {rest : List Char} {d : Char} (hd : isKeyChar d = false)
    (hrest : '/' ∉ rest) :
    normalizeFileKey (.ofList (localLead ++ '/' :: ("images/topics/".toList ++ d :: rest))) =
      .ofList ("images/topics/".toList ++ d :: rest) := by
  have hlead : ∀ c ∈ localLead ++ '/' :: "images/topics/".toList, isKeyChar c = true := by decide
  have hnone : firstKey (localLead ++ '/' :: "images/topics/".toList) = none := by decide
  have hsplit : localLead ++ '/' :: ("images/topics/".toList ++ d :: rest) =
      (localLead ++ '/' :: "images/topics/".toList) ++ d :: rest := by simp
  rw [normalizeFileKey, String.toList_ofList, hsplit,
    find_append_cons FILE_KEY_RE_within (by decide) hd, find_word hlead, hnone,
    find_of_no_slash hrest, ← hsplit]
  exact stripUploadsPrefix_local _

/-! ### Where a file lies -/

/-- The names of the directory of a key. -/
def keyDirectory (today : Day) : Fields → List (List Char)
  | .topic => ["images".toList, "topics".toList]
  | .post => ["images".toList, "posts".toList, "content".toList, today.text]
  | .postFeatured => ["images".toList, "posts".toList, "featured".toList]

theorem Day.chars (today : Day) : ∀ c ∈ today.text, isSlugChar c = true ∧ isCut c = false := by
  have hpad : ∀ width n, ∀ c ∈ padStart width n, c.isAlphanum = true := by
    intro width n c hc
    rcases List.mem_append.1 hc with hc | hc
    · rw [(List.mem_replicate.1 hc).2]
      decide
    · exact isAlphanum_decimal n c hc
  have hslug : ∀ width n, ∀ c ∈ padStart width n, isSlugChar c = true ∧ isCut c = false :=
    fun width n c hc => uncut_of_isAlphanum (hpad width n c hc)
  intro c hc
  simp only [Day.text, List.mem_append, List.mem_cons] at hc
  rcases hc with (hc | rfl | hc) | rfl | hc
  · exact hslug _ _ c hc
  · decide
  · exact hslug _ _ c hc
  · decide
  · exact hslug _ _ c hc

theorem Day.length (today : Day) : 3 ≤ today.text.length := by
  have hpad : ∀ n, 4 ≤ (padStart 4 n).length := by
    intro n
    rw [padStart, List.length_append, List.length_replicate]
    omega
  have hyear := hpad today.year
  simp only [Day.text, List.length_append]
  omega

theorem keyDirectory_chars (today : Day) (fieldname : Fields) :
    ∀ part ∈ keyDirectory today fieldname, 3 ≤ part.length ∧
      ∀ c ∈ part, isSlugChar c = true ∧ isCut c = false := by
  cases fieldname with
  | topic =>
      show ∀ part ∈ ["images".toList, "topics".toList], 3 ≤ part.length ∧
        ∀ c ∈ part, isSlugChar c = true ∧ isCut c = false
      decide
  | postFeatured =>
      show ∀ part ∈ ["images".toList, "posts".toList, "featured".toList], 3 ≤ part.length ∧
        ∀ c ∈ part, isSlugChar c = true ∧ isCut c = false
      decide
  | post =>
      have hconstants : ∀ part ∈ ["images".toList, "posts".toList, "content".toList],
          3 ≤ part.length ∧ ∀ c ∈ part, isSlugChar c = true ∧ isCut c = false := by decide
      intro part hpart
      have hsplit : part ∈ ["images".toList, "posts".toList, "content".toList] ++ [today.text] := hpart
      rcases List.mem_append.1 hsplit with hmem | hmem
      · exact hconstants part hmem
      · rw [List.mem_singleton.1 hmem]
        exact ⟨today.length, today.chars⟩

theorem isName_directory (today : Day) (fieldname : Fields) :
    ∀ part ∈ "uploads".toList :: keyDirectory today fieldname, Path.IsName part := by
  intro part hpart
  rcases List.mem_cons.1 hpart with rfl | hpart
  · decide
  · have hdirectory := keyDirectory_chars today fieldname part hpart
    exact isName_of_slug hdirectory.1 fun c hc => (hdirectory.2 c hc).1

/-- The names on the way to a file, from `uploads` on. -/
theorem isName_parts (today : Day) (fieldname : Fields) {name : List Char} (hlength : 3 ≤ name.length)
    (hchars : ∀ c ∈ name, isSlugChar c = true) :
    ∀ part ∈ "uploads".toList :: (keyDirectory today fieldname ++ [name]),
      Path.IsName part ∧ ∀ c ∈ part, isSlugChar c = true := by
  intro part hpart
  rcases List.mem_cons.1 hpart with rfl | hpart
  · exact ⟨by decide, by decide⟩
  · rcases List.mem_append.1 hpart with hpart | hpart
    · have hdirectory := keyDirectory_chars today fieldname part hpart
      have hslug : ∀ c ∈ part, isSlugChar c = true := fun c hc => (hdirectory.2 c hc).1
      exact ⟨isName_of_slug hdirectory.1 hslug, hslug⟩
    · rw [List.mem_singleton.1 hpart]
      exact ⟨isName_of_slug hlength hchars, hchars⟩

theorem directories_eq (today : Day) (fieldname : Fields) :
    directories today fieldname = Path.render ("uploads".toList :: keyDirectory today fieldname) := by
  rw [← Path.join_names (List.cons_ne_nil _ _) (isName_directory today fieldname)]
  cases fieldname <;> rfl

/-- Where the disk storage writes a file. -/
theorem receiveFile_path [LowerSlugify] {moment : Moment} {fieldname : Fields}
    {originalname : List Char} {mimetype : String} {file : UploadedFile}
    (h : receiveFile moment fieldname originalname mimetype = .ok file) :
    isImageName file.originalname = true ∧ isImageName originalname = true ∧
      file.path = Path.render ("uploads".toList :: (keyDirectory moment.today fieldname ++
        [diskStorage.filename moment fieldname originalname])) := by
  rw [receiveFile] at h
  split at h
  · rename_i himage
    obtain rfl := Except.ok.inj h
    have hname := isFileName_filename moment fieldname himage
    have hdirectory := isName_directory moment.today fieldname
    have hne := List.cons_ne_nil "uploads".toList (keyDirectory moment.today fieldname)
    have hpath : Path.join [diskStorage.destination moment fieldname,
        diskStorage.filename moment fieldname originalname] =
        Path.render ("uploads".toList :: (keyDirectory moment.today fieldname ++
          [diskStorage.filename moment fieldname originalname])) := by
      rw [diskStorage.destination, directories_eq, Path.join_render hne hdirectory,
        Path.join_render_name hne hdirectory
          (isName_of_slug (Nat.le_of_succ_le hname.length) hname.chars), List.cons_append]
    refine ⟨himage, himage, ?_⟩
    dsimp only
    exact hpath
  · cases h

/-! ### The keys -/

/-- No backslash stands in a path made of slugs, and the replacement of backslashes is idle. -/
theorem map_backslash {parts : List (List Char)}
    (h : ∀ part ∈ parts, ∀ c ∈ part, isSlugChar c = true) :
    (Path.render parts).map (fun c => if c = '\\' then '/' else c) = Path.render parts := by
  have hsame : ∀ c ∈ Path.render parts, (if c = '\\' then '/' else c) = id c := by
    intro c hc
    rcases Path.mem_render hc with rfl | ⟨part, hpart, hmem⟩
    · rfl
    · exact if_neg (isSlugChar_ne (h part hpart c hmem)).2
  rw [List.map_congr_left hsame, List.map_id]

section

variable {rest : List (List Char)} (hne : rest ≠ [])

include hne

theorem render_uploads :
    Path.render ("uploads".toList :: rest) = "uploads".toList ++ '/' :: Path.render rest := by
  rw [Path.render, List.intercalate_cons_of_ne_nil hne, List.append_assoc]
  rfl

/-- What lies below `uploads` is stored under its path there. -/
theorem storageKey_render
    (h : ∀ part ∈ "uploads".toList :: rest, ∀ c ∈ part, isSlugChar c = true) :
    FilesService.storageKey (Path.render ("uploads".toList :: rest)) = Path.render rest := by
  have htext : Path.render ("uploads".toList :: rest) = "uploads/".toList ++ Path.render rest := by
    rw [render_uploads hne]
    rfl
  have hdrop : (Path.render ("uploads".toList :: rest)).dropWhile (· = '/') =
      "uploads/".toList ++ Path.render rest := by
    rw [htext]
    rfl
  rw [FilesService.storageKey, map_backslash h, hdrop, if_pos ( List.prefix_append _ _)]
  rfl

variable (hname : ∀ part ∈ rest, Path.IsName part)

include hname

omit hne in
/-- The walk through the directory of the uploads comes to the file by the names on the way,
wherever the directory lies. -/
theorem walk_below (uploads : Path.Place) :
    ∃ below : Path.Place, below.parts = uploads.parts ++ rest ∧
      listFilesRecursive.walk uploads.text rest = below.text := by
  induction rest generalizing uploads with
  | nil => exact ⟨uploads, (List.append_nil _).symm, rfl⟩
  | cons part rest ih =>
      have hpart := hname part List.mem_cons_self
      obtain ⟨below, hparts, hwalk⟩ :=
        ih (fun p hp => hname p (List.mem_cons_of_mem _ hp)) (uploads.add part hpart)
      refine ⟨below, hparts.trans (List.append_assoc _ _ _), ?_⟩
      rw [listFilesRecursive.walk, List.foldl_cons, uploads.join_name hpart]
      exact hwalk

theorem toObjectKey_walk (uploads : Path.Place) :
    toObjectKey [] uploads.text (listFilesRecursive.walk uploads.text rest) = Path.render rest := by
  obtain ⟨below, hparts, hwalk⟩ := walk_below hname uploads
  have hsplit : Path.render ((Path.render rest).splitOn '/') = Path.render rest :=
    List.intercalate_splitOn '/'
  have hhead : (Path.render rest).head? ≠ some '/' := Path.render_head hne hname
  rw [toObjectKey, hwalk, Path.relative_below hparts, hsplit]
  cases htext : Path.render rest with
  | nil => rfl
  | cons c cs =>
      have hc : c ≠ '/' := fun hslash => hhead (by rw [htext, hslash]; rfl)
      simp [hc]

end

/-- Where a file lies after its extension is corrected: in the same directory, under the corrected
name. -/
theorem reconcileExtension_path {name : List Char} (hname : Path.IsName name)
    (directory : List (List Char)) (sniffed : Option SniffedImage) :
    FilesService.reconcileExtension (Path.render ("uploads".toList :: (directory ++ [name])))
        sniffed =
      Path.render ("uploads".toList ::
        (directory ++ [FilesService.reconcileExtension name sniffed])) := by
  have hlead : (Path.render ("uploads".toList :: directory) ++
      ['/']).reverse.takeWhile (· ≠ '/') = [] := by simp
  have hpath : ∀ name, Path.render ("uploads".toList :: (directory ++ [name])) =
      (Path.render ("uploads".toList :: directory) ++ ['/']) ++ name := by
    intro name
    rw [← List.cons_append, Path.render_append_singleton (List.cons_ne_nil _ _),
      List.append_assoc, List.singleton_append]
  rw [hpath, hpath, reconcileExtension_append hname hlead]

/-- The keys of a file agree when the script reads its key in the row. -/
theorem keysAgree_of_path {driver : FileStorageDriver} (hdriver : driver ≠ .local)
    {file : UploadedFile} (himage : isImageName file.originalname = true)
    {sniffed : Option SniffedImage} {rest : List (List Char)} (hne : rest ≠ [])
    (hpath : FilesService.reconcileExtension file.path sniffed =
      Path.render ("uploads".toList :: rest))
    (hparts : ∀ part ∈ "uploads".toList :: rest, Path.IsName part ∧ ∀ c ∈ part, isSlugChar c = true)
    (uploads : Path.Place) :
    KeysAgree driver uploads.text file sniffed ↔
      normalizeFileKey (.ofList (localLead ++ '/' :: Path.render rest)) =
        .ofList (Path.render rest) := by
  have hname : ∀ part ∈ "uploads".toList :: rest, Path.IsName part := fun p hp => (hparts p hp).1
  have hchars : ∀ part ∈ "uploads".toList :: rest, ∀ c ∈ part, isSlugChar c = true :=
    fun p hp => (hparts p hp).2
  -- Each of the three keys first: what stays on the disk, what is stored, and what the walk makes
  -- of the place. Two of them are the way below `uploads`, so that only the key in the row is left
  -- to compare.
  have hkept : FilesService.uploadFile .local file sniffed =
      .ok ⟨localLead ++ '/' :: Path.render rest, none⟩ := by
    rw [FilesService.uploadFile, if_pos himage, hpath, if_pos rfl, map_backslash hchars,
      render_uploads hne]
    rfl
  have hstored : ∃ contentType, FilesService.uploadFile driver file sniffed =
      .ok ⟨Path.render rest, some ⟨Path.render rest, contentType⟩⟩ := by
    rw [FilesService.uploadFile, if_pos himage, hpath, if_neg hdriver, storageKey_render hne hchars]
    exact ⟨_, rfl⟩
  obtain ⟨contentType, hstored⟩ := hstored
  have hobject : toObjectKey [] uploads.text (listFilesRecursive.walk uploads.text
      (Path.names (FilesService.reconcileExtension file.path sniffed)).tail) = Path.render rest := by
    rw [hpath, Path.names_render hname]
    exact toObjectKey_walk hne (fun p hp => hname p (List.mem_cons_of_mem _ hp)) uploads
  constructor
  · rintro ⟨kept, stored, object, hk, hs, ho, -, hrow⟩
    rw [hkept] at hk
    rw [hstored] at hs
    obtain rfl := Except.ok.inj hk
    obtain rfl := Except.ok.inj hs
    obtain rfl := Option.some.inj ho
    exact hrow
  · intro hrow
    exact ⟨_, _, _, hkept, hstored, rfl, hobject, hrow⟩

/-- The key of a file of a post is read whole. -/
theorem normalizeFileKey_posts {today : Day} {fieldname : Fields} (hfield : fieldname ≠ .topic)
    {name : List Char} (hchars : ∀ part ∈ keyDirectory today fieldname ++ [name],
      ∀ c ∈ part, isSlugChar c = true ∧ isCut c = false) :
    normalizeFileKey (.ofList (localLead ++ '/' ::
        Path.render (keyDirectory today fieldname ++ [name]))) =
      .ofList (Path.render (keyDirectory today fieldname ++ [name])) := by
  have hkey : isKey (Path.render (keyDirectory today fieldname ++ [name])) = true := by
    cases fieldname with
    | topic => exact absurd rfl hfield
    | post =>
        have htext : Path.render (keyDirectory today .post ++ [name]) =
            "images/posts/".toList ++ ("content/".toList ++ today.text ++ '/' :: name) := by
          simp [Path.render, keyDirectory, List.intercalate_cons_cons]
        rw [htext]
        exact isKey_posts (by simp)
    | postFeatured =>
        have htext : Path.render (keyDirectory today .postFeatured ++ [name]) =
            "images/posts/".toList ++ ("featured/".toList ++ name) := by
          simp [Path.render, keyDirectory, List.intercalate_cons_cons]
        rw [htext]
        exact isKey_posts (by simp)
  refine normalizeFileKey_uncut hkey fun c hc => ?_
  rcases Path.mem_render hc with rfl | ⟨part, hpart, hmem⟩
  · decide
  · obtain ⟨hslug, hcut⟩ := hchars part hpart c hmem
    rw [isKeyChar_of_isSlugChar hslug, hcut]
    rfl

/-- The key of a topic's file is read whole when nothing cuts its name, or something does at its
front. -/
theorem normalizeFileKey_topic {today : Day} {name : List Char} (hne : name ≠ [])
    (hchars : ∀ c ∈ name, isSlugChar c = true) :
    normalizeFileKey (.ofList (localLead ++ '/' ::
        Path.render (keyDirectory today .topic ++ [name]))) =
      .ofList (Path.render (keyDirectory today .topic ++ [name])) ↔
    (∀ c ∈ name, isCut c = false) ∨ name.head?.any isCut = true := by
  have htext : Path.render (keyDirectory today .topic ++ [name]) = "images/topics/".toList ++ name := by
    simp [Path.render, keyDirectory, List.intercalate_cons_cons]
  have hcut : ∀ c ∈ name, isKeyChar c = !isCut c := fun c hc => isKeyChar_of_isSlugChar (hchars c hc)
  have hnoslash : '/' ∉ name := fun hslash => (isSlugChar_ne (hchars _ hslash)).1 rfl
  rw [htext]
  rcases forall_or_cut isKeyChar name with hall | ⟨front, d, rest, rfl, hfront, hd⟩
  · have hdirectory : ∀ c ∈ "images/topics/".toList, isKeyChar c = true := by decide
    refine iff_of_true (normalizeFileKey_uncut (isKey_topics hne) ?_) (Or.inl fun c hc => ?_)
    · exact List.forall_mem_append.2 ⟨hdirectory, hall⟩
    · simpa [hall c hc] using hcut c hc
  · have hdmem : d ∈ front ++ d :: rest := List.mem_append_right _ List.mem_cons_self
    have hdcut : isCut d = true := by simpa [hd] using hcut d hdmem
    have hrest : '/' ∉ rest := fun hslash =>
      hnoslash (List.mem_append_right _ (List.mem_cons_of_mem _ hslash))
    cases front with
    -- cut before its first character, the name leaves no key to be found
    | nil => exact iff_of_true (normalizeFileKey_at_cut hd hrest) (Or.inr hdcut)
    | cons c front =>
        -- cut later, it leaves a shorter key
        refine iff_of_false ?_ ?_
        · rw [normalizeFileKey_cut (List.cons_ne_nil _ _) hfront hd]
          intro hkey
          have hlength := congrArg List.length (String.ofList_injective hkey)
          simp only [List.length_append, List.length_cons] at hlength
          omega
        · rintro (hall | hhead)
          · rw [hall d hdmem] at hdcut
            cases hdcut
          · have hc : isCut c = true := hhead
            have hckey := hcut c List.mem_cons_self
            rw [hfront c List.mem_cons_self, hc] at hckey
            cases hckey

/-- The three keys of a file agree when its name holds no quote and no closing parenthesis, or
begins with one. -/
theorem keys_agree_iff [LowerSlugify] {moment : Moment} {fieldname : Fields}
    {originalname : List Char} {mimetype : String} {file : UploadedFile}
    (h : receiveFile moment fieldname originalname mimetype = .ok file)
    {driver : FileStorageDriver} (hdriver : driver ≠ .local) (sniffed : Option SniffedImage)
    (uploads : Path.Place) :
    KeysAgree driver uploads.text file sniffed ↔
      (∀ c ∈ diskStorage.filename moment fieldname originalname, isCut c = false) ∨
        (diskStorage.filename moment fieldname originalname).head?.any isCut = true := by
  obtain ⟨himage, horiginal, hpath⟩ := receiveFile_path h
  have hfile := isFileName_filename moment fieldname horiginal
  obtain ⟨hlength, hchars, huncut, hhead⟩ := reconcileExtension_name hfile sniffed
  have hname : FilesService.reconcileExtension file.path sniffed = _ :=
    hpath ▸ reconcileExtension_path (isName_of_slug (Nat.le_of_succ_le hfile.length) hfile.chars)
      (keyDirectory moment.today fieldname) sniffed
  have hrest : ∀ name, keyDirectory moment.today fieldname ++ [name] ≠ [] := by simp
  -- The correction of the extension changes neither whether the name is cut nor how it begins, so
  -- the condition may be read on the name that was received.
  rw [keysAgree_of_path hdriver himage (hrest _) hname
    (isName_parts moment.today fieldname hlength hchars) uploads, ← huncut, ← hhead]
  by_cases hfield : fieldname = .topic
  · have hne : FilesService.reconcileExtension (diskStorage.filename moment fieldname originalname)
        sniffed ≠ [] := fun hnil => absurd (hnil ▸ hlength) (by decide)
    rw [hfield] at hne hchars ⊢
    exact normalizeFileKey_topic hne hchars
  -- The names of posts' files have nothing in them that a key is cut at, so that both sides hold.
  · have hall : ∀ c ∈ FilesService.reconcileExtension
        (diskStorage.filename moment fieldname originalname) sniffed, isCut c = false :=
      huncut.2 fun c hc => ((filename_chars moment hfield horiginal).2 c hc).2
    refine iff_of_true (normalizeFileKey_posts hfield fun part hpart c hc => ?_) (Or.inl hall)
    rcases List.mem_append.1 hpart with hpart | hpart
    · exact (keyDirectory_chars moment.today fieldname part hpart).2 c hc
    · rw [List.mem_singleton.1 hpart] at hc
      exact ⟨hchars c hc, hall c hc⟩

/-! ### Two topics -/

theorem isSlugChar_of_isKept {c : Char} (h : isKept c = true) : isSlugChar c = true := by
  rcases Bool.or_eq_true_iff.1 h with halnum | hsign
  · exact (uncut_of_isAlphanum halnum).1
  · have hall : ∀ s ∈ "()'\"!:@*~+.".toList, isSlugChar s = true := by decide
    exact hall c (List.contains_iff_mem.1 hsign)

/-- `slugify` on names without double spaces and without signs that it spells out. -/
@[reducible] def plainSlug : LowerSlugify where
  slugify text := text.flatMap fun c =>
    if c = ' ' then ['-'] else if isSlugChar c = true then [c.toLower] else []
  chars text c hc := by
    obtain ⟨d, -, hd⟩ := List.mem_flatMap.1 hc
    split at hd
    · rw [List.mem_singleton.1 hd]
      decide
    · split at hd
      · rename_i hslug
        rw [List.mem_singleton.1 hd]
        exact forall_isSlugChar (p := fun d => isSlugChar d.toLower = true) (by decide +kernel) hslug
      · cases hd
  keeps text ending h := by
    have hending : ∀ ending : List Char, (∀ c ∈ ending, isKept c = true) →
        (ending.flatMap fun c => if c = ' ' then ['-']
          else if isSlugChar c = true then [c.toLower] else []) = ending.map Char.toLower := by
      intro ending h
      induction ending with
      | nil => rfl
      | cons c ending ih =>
          have hc := isSlugChar_of_isKept (h c List.mem_cons_self)
          have hspace : c ≠ ' ' := by
            rintro rfl
            cases hc
          rw [List.flatMap_cons, if_neg hspace, if_pos hc,
            ih fun d hd => h d (List.mem_cons_of_mem _ hd)]
          rfl
    rw [List.flatMap_append, hending ending h]
    exact List.suffix_append _ _

section

attribute [local instance] plainSlug

def noon : Moment := ⟨⟨2024, 5, 17⟩, 1715947200000, 271828182⟩

def uploadsDir : Path.Place := ⟨["app".toList, "uploads".toList], by decide⟩

/-- A file of a topic, as it came and as it is written. -/
def topicFile (originalname name : String) : UploadedFile :=
  ⟨.topic, originalname.toList, "image/svg+xml", ("uploads/images/topics/" ++ name).toList⟩

theorem plain_name_agrees :
    receiveFile noon .topic "cat.svg".toList "image/svg+xml" =
        .ok (topicFile "cat.svg" "cat.svg") ∧
      KeysAgree .r2 uploadsDir.text (topicFile "cat.svg" "cat.svg") none := by
  have hreceived : receiveFile noon .topic "cat.svg".toList "image/svg+xml" =
      .ok (topicFile "cat.svg" "cat.svg") := by rfl
  exact ⟨hreceived, (keys_agree_iff hreceived (by decide) none uploadsDir).2 (Or.inl (by decide))⟩

/-- The key of a copy is cut at the parenthesis. -/
theorem copy_disagrees :
    receiveFile noon .topic "Cat (1).svg".toList "image/svg+xml" =
        .ok (topicFile "Cat (1).svg" "cat-(1).svg") ∧
      normalizeFileKey "/uploads/images/topics/cat-(1).svg" = "images/topics/cat-(1" ∧
      ¬KeysAgree .r2 uploadsDir.text (topicFile "Cat (1).svg" "cat-(1).svg") none := by
  have hkept : FilesService.uploadFile .local (topicFile "Cat (1).svg" "cat-(1).svg") none =
      .ok ⟨"/uploads/images/topics/cat-(1).svg".toList, none⟩ := by rfl
  have hstored : FilesService.uploadFile .r2 (topicFile "Cat (1).svg" "cat-(1).svg") none =
      .ok ⟨"images/topics/cat-(1).svg".toList,
        some ⟨"images/topics/cat-(1).svg".toList, "image/svg+xml"⟩⟩ := by rfl
  have hrow : normalizeFileKey "/uploads/images/topics/cat-(1).svg" = "images/topics/cat-(1" := by
    decide +kernel
  refine ⟨by rfl, hrow, ?_⟩
  rintro ⟨kept, stored, object, hk, hs, ho, -, hkey⟩
  rw [hkept] at hk
  rw [hstored] at hs
  obtain rfl := Except.ok.inj hk
  obtain rfl := Except.ok.inj hs
  obtain rfl := Option.some.inj ho
  have hkeys : normalizeFileKey "/uploads/images/topics/cat-(1).svg" =
      "images/topics/cat-(1).svg" := by simpa using hkey
  rw [hrow] at hkeys
  exact absurd hkeys (by decide)

end

end VetHealth
