import VetHealth.Files.Keys
import VetHealth.Files.Normalising

/-!
# VetHealth.Files.StorageKeys

**The keys of presigned uploads.** A file that is uploaded straight to the object storage is named by
`FilesService.createStorageKey`, after `assertFileType` has accepted the name it comes with. What is
minted for a name with an extension is a key that the scripts read whole (`createStorageKey_eq_text`).
-/

namespace VetHealth

open Js ImageRefs

/-- `slugify` with `lower` and `strict`. -/
class StrictSlugify where
  slugify : List Char → List Char
  /-- Letters and digits are left, and white space becomes hyphens. -/
  chars : ∀ text, ∀ c ∈ slugify text, c.isAlphanum = true ∨ c = '-'

namespace FilesService

def assertFileType (fileName : List Char) : Except Failure Unit :=
  if isImageName fileName then .ok () else .error (.unprocessable "cantUploadFileType")

def createStorageKey [StrictSlugify] (moment : Moment) (field : Fields) (fileName : List Char) :
    List Char :=
  let extension := (Path.extname fileName).map Char.toLower
  let fileNameWithoutExtension := Path.basenameWithout fileName extension
  let randomSuffix := decimal moment.now ++ '-' :: decimal moment.random
  match field with
  | .topic =>
      "images/topics/".toList ++ StrictSlugify.slugify fileNameWithoutExtension ++ extension
  | .postFeatured =>
      "images/posts/featured/".toList ++ field.text ++ '-' :: randomSuffix ++ extension
  | .post =>
      "images/posts/content/".toList ++ moment.today.text ++ '/' :: field.text ++
        '-' :: randomSuffix ++ extension

theorem assertFileType_eq_ok {fileName : List Char} :
    assertFileType fileName = .ok () ↔ isImageName fileName = true := by
  unfold assertFileType
  split <;> simp_all

end FilesService

/-! ### What the keys are made of -/

theorem isKeyChar_of_isAlphanum {c : Char} (h : c.isAlphanum = true) : isKeyChar c = true := by
  obtain ⟨hslug, hcut⟩ := uncut_of_isAlphanum h
  rw [isKeyChar_of_isSlugChar hslug, hcut]
  rfl

theorem isKeyChar_decimal (n : Nat) : ∀ c ∈ decimal n, isKeyChar c = true :=
  fun c hc => isKeyChar_of_isAlphanum (isAlphanum_decimal n c hc)

namespace FilesService

/-- The directory of a key. -/
def directoryOf : Fields → Directory
  | .topic => .topics
  | .postFeatured => .featured
  | .post => .content

variable [StrictSlugify]

/-- The name of a key in its directory. -/
def nameOf (moment : Moment) (field : Fields) (fileName : List Char) : List Char :=
  let extension := (Path.extname fileName).map Char.toLower
  let randomSuffix := decimal moment.now ++ '-' :: decimal moment.random
  match field with
  | .topic => StrictSlugify.slugify (Path.basenameWithout fileName extension) ++ extension
  | .postFeatured => field.text ++ '-' :: randomSuffix ++ extension
  | .post => moment.today.text ++ '/' :: (field.text ++ '-' :: randomSuffix ++ extension)

theorem createStorageKey_eq (moment : Moment) (field : Fields) (fileName : List Char) :
    createStorageKey moment field fileName =
      (directoryOf field).text ++ nameOf moment field fileName := by
  have hassoc : ∀ directory field suffix extension : List Char,
      directory ++ field ++ suffix ++ extension = directory ++ (field ++ suffix ++ extension) := by
    simp
  have hslash : ∀ directory day field suffix extension : List Char,
      directory ++ day ++ '/' :: field ++ suffix ++ extension =
        directory ++ (day ++ '/' :: (field ++ suffix ++ extension)) := by
    simp
  cases field with
  | topic => exact List.append_assoc _ _ _
  | postFeatured => exact hassoc _ _ _ _
  | post => exact hslash _ _ _ _ _

theorem nameOf_chars (moment : Moment) (field : Fields) {fileName : List Char}
    (h : ∀ c ∈ (Path.extname fileName).map Char.toLower, isKeyChar c = true) :
    ∀ c ∈ nameOf moment field fileName, isKeyChar c = true := by
  have hfield : ∀ c ∈ field.text ++ '-' :: (decimal moment.now ++ '-' :: decimal moment.random) ++
      (Path.extname fileName).map Char.toLower, isKeyChar c = true := by
    have htext : ∀ c ∈ field.text, isKeyChar c = true := by cases field <;> decide
    have hsuffix : ∀ c ∈ '-' :: (decimal moment.now ++ '-' :: decimal moment.random),
        isKeyChar c = true :=
      List.forall_mem_cons.2 ⟨by decide, List.forall_mem_append.2 ⟨isKeyChar_decimal _,
        List.forall_mem_cons.2 ⟨by decide, isKeyChar_decimal _⟩⟩⟩
    exact List.forall_mem_append.2 ⟨List.forall_mem_append.2 ⟨htext, hsuffix⟩, h⟩
  cases field with
  | topic =>
      refine List.forall_mem_append.2 ⟨fun c hc => ?_, h⟩
      rcases StrictSlugify.chars _ c hc with halnum | rfl
      · exact isKeyChar_of_isAlphanum halnum
      · decide
  | postFeatured => exact hfield
  | post =>
      refine List.forall_mem_append.2 ⟨fun c hc => ?_, List.forall_mem_cons.2 ⟨by decide, hfield⟩⟩
      obtain ⟨hslug, hcut⟩ := moment.today.chars c hc
      rw [isKeyChar_of_isSlugChar hslug, hcut]
      rfl

/-- What is minted for a name with an extension is a key: what the migration of the rows knows about
keys holds of it. -/
theorem createStorageKey_eq_text (moment : Moment) (field : Fields) {fileName : List Char}
    (haccepted : assertFileType fileName = .ok ()) (hextension : Path.extname fileName ≠ []) :
    ∃ key : Key, createStorageKey moment field fileName = key.text := by
  obtain ⟨ending, hending, htype, -⟩ :=
    (extname_of_isImageName (assertFileType_eq_ok.1 haccepted)).resolve_left hextension
  have hext : (Path.extname fileName).map Char.toLower = '.' :: ending.map Char.toLower := by
    rw [hending]
    rfl
  have htypes : ∀ type ∈ imageTypes, ∀ c ∈ '.' :: type, isKeyChar c = true := by decide
  have hchars := nameOf_chars moment field (hext ▸ htypes _ htype)
  have hne : nameOf moment field fileName ≠ [] := by
    have hnonempty : (Path.extname fileName).map Char.toLower ≠ [] := by
      rw [hext]
      exact List.cons_ne_nil _ _
    cases field with
    | topic => exact List.append_ne_nil_of_right_ne_nil _ hnonempty
    | postFeatured => exact List.append_ne_nil_of_right_ne_nil _ hnonempty
    | post => exact List.append_ne_nil_of_right_ne_nil _ (List.cons_ne_nil _ _)
  exact ⟨⟨directoryOf field, _, hne, hchars⟩, createStorageKey_eq moment field fileName⟩

end FilesService

end VetHealth
