import VetHealth.Files.Keys

/-!
# VetHealth.Files.Extensions

**The name of an upload says what is in it.** `reconcileExtension` compares the extension of the path
with that of the type that the bytes have, and moves the file where they differ. The name that is
left when an extension is cut off is never empty, so the new one is an extension again, and it is
the one that was put there.
-/

namespace VetHealth

open Js

/-- The files of a disk. -/
abbrev Disk := List Char → Option (List UInt8)

/-- `fs.rename`. -/
def Disk.rename (disk : Disk) (source target : List Char) : Except Failure Disk :=
  match disk source with
  | none => .error (.internal (.error "ENOENT"))
  | some content => .ok fun path =>
      if path = target then some content else if path = source then none else disk path

-- membership among the aliases is decided by this instance
local instance lawfulTexts : LawfulBEq (List Char) := inferInstance

/-- `reconcileExtension` with the file that it moves. The row gets the path that is returned, so
that path and file stay together. -/
def FilesService.reconcileFile (disk : Disk) (path : List Char) (sniffed : Option SniffedImage) :
    Except Failure (List Char × Disk) :=
  match sniffed with
  | none => .ok (path, disk)
  | some sniffed =>
      let currentExtension := (Path.extname path).map Char.toLower
      let jpegAliases := [".jpg".toList, ".jpeg".toList]
      let isMatch := currentExtension = sniffed.extension ∨
        (currentExtension ∈ jpegAliases ∧ sniffed.extension ∈ jpegAliases)
      if isMatch then .ok (path, disk)
      else
        let correctedPath :=
          path.take (path.length - currentExtension.length) ++ sniffed.extension
        (disk.rename path correctedPath).map fun disk => (correctedPath, disk)

/-- The path has the extension of a type, in either case of its letters, or the other one of JPEG. -/
def SniffedImage.Agrees (image : SniffedImage) (path : List Char) : Prop :=
  (Path.extname path).map Char.toLower = image.extension ∨
    image = .jpeg ∧ (Path.extname path).map Char.toLower = ".jpeg".toList

theorem SniffedImage.agrees_iff {image : SniffedImage} {path : List Char} :
    image.Agrees path ↔ (Path.extname path).map Char.toLower = image.extension ∨
      ((Path.extname path).map Char.toLower ∈ [".jpg".toList, ".jpeg".toList] ∧
        image.extension ∈ [".jpg".toList, ".jpeg".toList]) := by
  have haliases : image.extension ∈ [".jpg".toList, ".jpeg".toList] ↔ image = .jpeg := by
    cases image with
    | jpeg => exact iff_of_true (by decide) rfl
    | _ => exact iff_of_false (by decide) (by simp)
  rw [haliases, SniffedImage.Agrees]
  constructor
  · rintro (hext | ⟨rfl, hext⟩)
    · exact Or.inl hext
    · exact Or.inr ⟨by simp [hext], rfl⟩
  · rintro (hext | ⟨hext, rfl⟩)
    · exact Or.inl hext
    · rcases List.mem_pair.1 hext with hext | hext
      · exact Or.inl hext
      · exact Or.inr ⟨rfl, hext⟩

theorem reconcileExtension_of_agrees {image : SniffedImage} {path : List Char}
    (h : image.Agrees path) : FilesService.reconcileExtension path (some image) = path :=
  if_pos (SniffedImage.agrees_iff.1 h)

theorem reconcileFile_of_agrees {image : SniffedImage} {path : List Char} (h : image.Agrees path)
    (disk : Disk) : FilesService.reconcileFile disk path (some image) = .ok (path, disk) :=
  if_pos (SniffedImage.agrees_iff.1 h)

/-- What a corrected path is made of. `lead` is its directory with the slash, and what stands before
the extension stays. -/
theorem reconcileExtension_of_not_agrees {lead name : List Char} {image : SniffedImage}
    (hname : Path.IsName name) (hlead : lead.reverse.takeWhile (· ≠ '/') = [])
    (h : ¬image.Agrees (lead ++ name)) :
    ∃ front, lead ++ name = front ++ Path.extname (lead ++ name) ∧
      FilesService.reconcileExtension (lead ++ name) (some image) = front ++ image.extension ∧
      Path.extname (front ++ image.extension) = image.extension := by
  obtain ⟨front, hne, hfront⟩ := Path.extname_front hname
  have hext := Path.extname_append hname hlead
  have hpath : lead ++ name = (lead ++ front) ++ Path.extname (lead ++ name) := by
    rw [hext, List.append_assoc, ← hfront]
  have htake := take_of_extname hpath
  have hslash : '/' ∉ front := fun hmem =>
    hname.no_slash (hfront ▸ List.mem_append_left _ hmem)
  have hnew : Path.IsName (front ++ image.extension) ∧
      Path.extname (front ++ image.extension) = image.extension := by
    cases image <;>
      exact Path.extname_append_extension hne hslash (by decide) (by decide) (by decide)
  refine ⟨lead ++ front, hpath, ?_, ?_⟩
  · rw [FilesService.reconcileExtension]
    exact (if_neg fun hmatch => h (SniffedImage.agrees_iff.2 hmatch)).trans (congrArg (· ++ _) htake)
  · rw [List.append_assoc, Path.extname_append hnew.1 hlead, hnew.2]

/-- The corrected path agrees, whatever the path was. So a second correction finds nothing to do. -/
theorem agrees_reconcileExtension {lead name : List Char} (image : SniffedImage)
    (hname : Path.IsName name) (hlead : lead.reverse.takeWhile (· ≠ '/') = []) :
    image.Agrees (FilesService.reconcileExtension (lead ++ name) (some image)) := by
  by_cases h : image.Agrees (lead ++ name)
  · rw [reconcileExtension_of_agrees h]
    exact h
  · obtain ⟨front, -, hpath, hext⟩ := reconcileExtension_of_not_agrees hname hlead h
    have hlower : image.extension.map Char.toLower = image.extension := by cases image <;> rfl
    rw [hpath, SniffedImage.Agrees, hext, hlower]
    exact Or.inl rfl

/-- The file goes where the corrected path says. -/
theorem reconcileFile_of_not_agrees {path : List Char} {image : SniffedImage}
    (h : ¬image.Agrees path) {disk : Disk} {content : List UInt8}
    (hcontent : disk path = some content) :
    FilesService.reconcileFile disk path (some image) =
      .ok (FilesService.reconcileExtension path (some image), fun other =>
        if other = FilesService.reconcileExtension path (some image) then some content
        else if other = path then none else disk other) := by
  have hno := fun hmatch => h (SniffedImage.agrees_iff.2 hmatch)
  have hcorrected : FilesService.reconcileExtension path (some image) =
      path.take (path.length - ((Path.extname path).map Char.toLower).length) ++
        image.extension := if_neg hno
  rw [FilesService.reconcileFile, hcorrected]
  refine (if_neg hno).trans ?_
  dsimp only
  rw [Disk.rename, hcontent]
  rfl

/-- A file is written into a directory, under a name without a slash. -/
theorem receiveFile_split [LowerSlugify] {moment : Moment} {fieldname : Fields}
    {originalname : List Char} {mimetype : String} {file : UploadedFile}
    (h : receiveFile moment fieldname originalname mimetype = .ok file) :
    ∃ lead name, file.path = lead ++ name ∧ Path.IsName name ∧
      lead.reverse.takeWhile (· ≠ '/') = [] := by
  obtain ⟨-, himage, hpath⟩ := receiveFile_path h
  have hfile := isFileName_filename moment fieldname himage
  refine ⟨Path.render ("uploads".toList :: keyDirectory moment.today fieldname) ++ ['/'], _, ?_,
    isName_of_slug (Nat.le_of_succ_le hfile.length) hfile.chars, by simp⟩
  rw [hpath, ← List.cons_append, Path.render_append_singleton (List.cons_ne_nil _ _),
    List.append_assoc, List.singleton_append]

/-- **The extension and the bytes of an upload agree.** Where they do already, nothing happens; else the
extension is put in the place of the one that there was, and the file is moved there. Doing it again
changes nothing. -/
theorem extension_agrees [LowerSlugify] {moment : Moment} {fieldname : Fields}
    {originalname : List Char} {mimetype : String} {file : UploadedFile}
    (h : receiveFile moment fieldname originalname mimetype = .ok file) (image : SniffedImage)
    {disk : Disk} {content : List UInt8} (hcontent : disk file.path = some content) :
    ∃ path disk', FilesService.reconcileFile disk file.path (some image) = .ok (path, disk') ∧
      path = FilesService.reconcileExtension file.path (some image) ∧
      image.Agrees path ∧
      (image.Agrees file.path → path = file.path ∧ disk' = disk) ∧
      (¬image.Agrees file.path →
        (∃ front, file.path = front ++ Path.extname file.path ∧ path = front ++ image.extension) ∧
          disk' path = some content ∧ disk' file.path = none ∧
          ∀ other, other ≠ file.path → other ≠ path → disk' other = disk other) ∧
      FilesService.reconcileFile disk' path (some image) = .ok (path, disk') := by
  obtain ⟨lead, name, hpath, hname, hlead⟩ := receiveFile_split h
  have hagrees := agrees_reconcileExtension image hname hlead
  rw [← hpath] at hagrees
  by_cases hsame : image.Agrees file.path
  · have hfile := reconcileExtension_of_agrees hsame
    exact ⟨file.path, disk, reconcileFile_of_agrees hsame disk, hfile.symm, hsame,
      fun _ => ⟨rfl, rfl⟩, fun hno => absurd hsame hno, reconcileFile_of_agrees hsame disk⟩
  -- The corrected path is another one, so that the file moves and its old path is free.
  · obtain ⟨front, hfront, hcorrected, -⟩ := reconcileExtension_of_not_agrees hname hlead
      (hpath ▸ hsame)
    rw [← hpath] at hfront hcorrected
    have hmoved : FilesService.reconcileExtension file.path (some image) ≠ file.path :=
      fun heq => hsame (heq ▸ hagrees)
    refine ⟨_, _, reconcileFile_of_not_agrees hsame hcontent, rfl, hagrees,
      fun hno => absurd hno hsame, fun _ => ⟨⟨front, hfront, hcorrected⟩, if_pos rfl, ?_, ?_⟩,
      reconcileFile_of_agrees hagrees _⟩
    · rw [if_neg (Ne.symm hmoved), if_pos rfl]
    · intro other hother hpathOther
      rw [if_neg hpathOther, if_neg hother]

section

attribute [local instance] plainSlug

def misnamedDisk : Disk := fun path =>
  if path = "uploads/images/topics/cat.jpg".toList then some [0x89] else none

/-- A picture that is a PNG and came as a JPEG. -/
theorem misnamed_is_moved :
    receiveFile noon .topic "cat.jpg".toList "image/jpeg" =
        .ok ⟨.topic, "cat.jpg".toList, "image/jpeg", "uploads/images/topics/cat.jpg".toList⟩ ∧
      ∃ disk', FilesService.reconcileFile misnamedDisk "uploads/images/topics/cat.jpg".toList
          (some .png) = .ok ("uploads/images/topics/cat.png".toList, disk') ∧
        disk' "uploads/images/topics/cat.png".toList = some [0x89] := by
  have hreceived : receiveFile noon .topic "cat.jpg".toList "image/jpeg" =
      .ok ⟨.topic, "cat.jpg".toList, "image/jpeg", "uploads/images/topics/cat.jpg".toList⟩ := by rfl
  have hcontent : misnamedDisk "uploads/images/topics/cat.jpg".toList = some [0x89] := if_pos rfl
  have hpath : FilesService.reconcileExtension "uploads/images/topics/cat.jpg".toList (some .png) =
      "uploads/images/topics/cat.png".toList := by rfl
  obtain ⟨path, disk', hfile, rfl, -, -, hmoved, -⟩ := extension_agrees hreceived .png hcontent
  have hno : ¬SniffedImage.png.Agrees "uploads/images/topics/cat.jpg".toList := by
    show ¬(_ ∨ _ ∧ _)
    simp only [reduceCtorEq, false_and, or_false]
    decide
  refine ⟨hreceived, disk', ?_, ?_⟩
  · rw [← hpath]
    exact hfile
  · rw [← hpath]
    exact (hmoved hno).2.1

end

end VetHealth
