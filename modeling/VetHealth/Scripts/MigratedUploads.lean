import VetHealth.Files.Repair
import VetHealth.Scripts.UploadsMigration

/-!
# VetHealth.Scripts.MigratedUploads

**A migrated file is the file that would have been uploaded.** A file that the local driver has kept
is copied under the key under which an object storage would have stored it. The copy has the type of
its extension, and the backend has made the extension that of the content, so the two types differ
for no recognised image but HEIC. The script that repairs content types then makes up for that one
(`migrated_as_uploaded`).
-/

namespace VetHealth

open Js FileTree MigrateUploads

/-! ### The type of a corrected name -/

/-- The extension that the backend leaves a recognised image names a type that the migration knows,
except for HEIC. -/
theorem extname_reconciled {name : List Char} (hname : Path.IsName name) (image : SniffedImage) :
    let ext := (Path.extname (FilesService.reconcileExtension name (some image))).map Char.toLower
    ext = image.extension ∨ (ext ∈ [".jpg".toList, ".jpeg".toList] ∧ image = .jpeg) := by
  rw [FilesService.reconcileExtension]
  dsimp only
  split
  · rename_i hmatch
    refine hmatch.imp id fun haliases => ⟨haliases.1, ?_⟩
    have hjpeg := haliases.2
    cases image with
    | jpeg => rfl
    | png | gif | webp | avif | heic | svg => exact absurd hjpeg (by decide)
  · obtain ⟨front, hfront, hsplit⟩ := Path.extname_front hname
    have hno : '/' ∉ front := fun hslash =>
      hname.no_slash (hsplit ▸ List.mem_append_left _ hslash)
    rw [take_of_extname hsplit]
    refine Or.inl ?_
    cases image with
    | jpeg | png | gif | webp | avif | heic | svg =>
        rw [SniffedImage.extension]
        exact congrArg (List.map Char.toLower) (Path.extname_append_extension hfront hno
          (by decide) (by decide) (by decide)).2

theorem mimeFromExtension_reconciled {name : List Char} (hname : Path.IsName name)
    (image : SniffedImage) :
    mimeFromExtension (FilesService.reconcileExtension name (some image)) =
      if image = .heic then "application/octet-stream" else image.mimeType := by
  have hext := extname_reconciled hname image
  dsimp only at hext
  rw [mimeFromExtension]
  generalize (Path.extname _).map Char.toLower = ext at hext
  rcases hext with rfl | ⟨hjpeg, rfl⟩
  · cases image <;> decide
  · rcases List.mem_pair.1 hjpeg with rfl | rfl <;> decide

/-! ### The types that the repair leaves -/

theorem isEquivalent_mime {path : List Char} {image : SniffedImage}
    (h : FixR2ContentTypes.isEquivalent (mimeFromExtension path) image.mimeType = true) :
    mimeFromExtension path = image.mimeType := by
  have hall : ∀ type ∈ ["image/jpeg", "image/png", "image/gif", "image/webp", "image/svg+xml",
      "image/avif", "image/bmp", "application/octet-stream"],
      FixR2ContentTypes.isEquivalent type image.mimeType = true → type = image.mimeType := by
    cases image <;> decide
  refine hall _ ?_ h
  simp only [mimeFromExtension]
  repeat' split
  all_goals decide

/-- A copied image that has been repaired has the type of its bytes, whatever its name has said. -/
theorem repaired_of_mime {path : List Char} {body : List UInt8} {image : SniffedImage}
    (hsniff : sniffImageType body = some image) :
    let object : BucketObject := ⟨body, some (mimeFromExtension path), none⟩
    (if FixR2ContentTypes.verdictOf object = .fixed then FixR2ContentTypes.repaired object
      else object) = ⟨body, some image.mimeType, none⟩ := by
  intro object
  have htype : FixR2ContentTypes.sniffImageType (body.take 1024) = some image.mimeType := by
    rw [FixR2ContentTypes.sniffImageType_eq, sniffImageType_take, hsniff, Option.map_some]
  have hrepaired : FixR2ContentTypes.repaired object = ⟨body, some image.mimeType, none⟩ := by
    rw [FixR2ContentTypes.repaired, htype]
  split
  · exact hrepaired
  · rename_i hverdict
    -- the script finds the type right, and it is one of those that it writes
    have hequivalent : FixR2ContentTypes.isEquivalent (mimeFromExtension path) image.mimeType =
        true := by
      by_contra hnot
      exact hverdict (FixR2ContentTypes.verdictOf_eq_fixed.2
        ⟨_, htype, by simpa [object] using hnot⟩)
    simp only [object, isEquivalent_mime hequivalent]

/-! ### A received file -/

/-- Where a received file lies, and what is made of it with either driver. The two keys differ in
nothing but where the file has been. -/
theorem received_file [LowerSlugify] {moment : Moment} {fieldname : Fields}
    {originalname : List Char} {mimetype : String} {file : UploadedFile}
    (h : receiveFile moment fieldname originalname mimetype = .ok file) (image : SniffedImage) :
    ∃ directory name, (∀ part ∈ directory ++ [name], Path.IsName part) ∧
      mimeFromExtension name = (if image = .heic then "application/octet-stream"
        else image.mimeType) ∧
      FilesService.uploadFile .local file (some image) =
        .ok ⟨"/uploads/".toList ++ Path.render (directory ++ [name]), none⟩ ∧
      ∀ driver, driver ≠ .local → FilesService.uploadFile driver file (some image) =
        .ok ⟨Path.render (directory ++ [name]),
          some ⟨Path.render (directory ++ [name]), image.mimeType⟩⟩ := by
  obtain ⟨himage, horiginal, hpath⟩ := receiveFile_path h
  have hfile := isFileName_filename moment fieldname horiginal
  have hname := isName_of_slug (Nat.le_of_succ_le hfile.length) hfile.chars
  obtain ⟨hlength, hchars, -, -⟩ := reconcileExtension_name hfile (some image)
  have hparts := isName_parts moment.today fieldname hlength hchars
  have hslug : ∀ part ∈ "uploads".toList :: (keyDirectory moment.today fieldname ++
      [FilesService.reconcileExtension (diskStorage.filename moment fieldname originalname)
        (some image)]), ∀ c ∈ part, isSlugChar c = true := fun part hpart => (hparts part hpart).2
  -- The file lies at the names on the way to it, once its extension is corrected; both drivers
  -- start from there.
  have hlies : FilesService.reconcileExtension file.path (some image) = _ :=
    hpath ▸ reconcileExtension_path hname (keyDirectory moment.today fieldname) (some image)
  have hne : keyDirectory moment.today fieldname ++
      [FilesService.reconcileExtension (diskStorage.filename moment fieldname originalname)
        (some image)] ≠ [] := by simp
  refine ⟨keyDirectory moment.today fieldname, _, fun part hpart =>
    (hparts part (List.mem_cons_of_mem _ hpart)).1, mimeFromExtension_reconciled hname image, ?_, ?_⟩
  · rw [FilesService.uploadFile, if_pos himage, hlies, if_pos rfl, map_backslash hslug,
      render_uploads hne]
    rfl
  · intro driver hdriver
    rw [FilesService.uploadFile, if_pos himage, hlies, if_neg hdriver, storageKey_render hne hslug]
    rfl

/-- **A migrated image is the image that would have been uploaded**, when the script is run without
`--prefix`: a prefix is for a backend that names its keys in another way. What the backend has kept on the disk for a received image is copied under the key that
an object storage would have given it. After the repair the object is that of the upload, and before
it already, unless it is a HEIC: the script goes by the extension, and knows no HEIC. -/
theorem migrated_as_uploaded [LowerSlugify] {moment : Moment} {fieldname : Fields}
    {originalname : List Char} {mimetype : String} {file : UploadedFile}
    (hreceived : receiveFile moment fieldname originalname mimetype = .ok file)
    {body : List UInt8} {image : SniffedImage} (hsniff : sniffImageType body = some image)
    {kept : SavedFile} (hkept : FilesService.uploadFile .local file (sniffImageType body) = .ok kept)
    {world : World} {argv : List String} {args : Args} {entries : Directory}
    (hrun : Completes world argv args entries) (hkeyed : args.keyPrefix = [])
    {way : List (List Char)} (hway : kept.path = "/uploads/".toList ++ Path.render way)
    (hfile : (way, body) ∈ filesIn entries)
    {driver : FileStorageDriver} (hdriver : driver ≠ .local) {before after : Bucket}
    {saved : SavedFile}
    (hsaved : FilesService.uploadBytes driver file body before = .ok (saved, after))
    (bucket : Bucket) :
    ((main world argv bucket).2 saved.path = after saved.path ↔ image ≠ .heic) ∧
      ∀ keys : List (List Char × Option FixR2ContentTypes.Fault), (keys.map Prod.fst).Nodup →
        (saved.path, none) ∈ keys →
        (FixR2ContentTypes.main true keys (main world argv bucket).2).2 saved.path =
          after saved.path := by
  obtain ⟨directory, name, hnames, htype, hlocal, hobject⟩ := received_file hreceived image
  -- the file lies where the walk comes to it
  rw [hsniff, hlocal] at hkept
  obtain rfl := Except.ok.inj hkept
  have hrender : Path.render (directory ++ [name]) = Path.render way := List.append_cancel_left hway
  obtain rfl : directory ++ [name] = way := by
    rw [← Path.names_render hnames, hrender,
      Path.names_render (isName_of_mem_filesIn hrun.valid hfile)]
  -- and is stored under the key of the upload
  rw [FilesService.uploadBytes, hsniff, hobject driver hdriver] at hsaved
  obtain ⟨rfl, rfl⟩ := Prod.mk.inj (Except.ok.inj hsaved)
  have hstored := (hrun.mirrors bucket).stored _ hfile
  rw [hkeyed, keyAt, if_pos rfl, objectAt, List.getLastD_concat] at hstored
  have hupload : before.upload ⟨Path.render (directory ++ [name]), image.mimeType⟩ body
      (Path.render (directory ++ [name])) = some ⟨body, some image.mimeType, none⟩ := if_pos rfl
  dsimp only at hstored ⊢
  rw [hupload]
  constructor
  · have hmime : (if image = .heic then "application/octet-stream" else image.mimeType) =
        image.mimeType ↔ image ≠ .heic := by cases image <;> decide
    rw [hstored, htype]
    simp only [Option.some.injEq, BucketObject.mk.injEq, true_and, and_true, hmime]
  · intro keys hnodup hkey
    have hbucket := @FixR2ContentTypes.foldl_visit_bucket true keys hnodup _ hkey
      (⟨0, 0, 0, 0, 0⟩, (main world argv bucket).2)
    refine hbucket.trans ?_
    rcases FixR2ContentTypes.inspect_spec true (main world argv bucket).2
        (Path.render (directory ++ [name])) none with ⟨hnone, -⟩ | ⟨object, hobject', hinspected⟩
    · rw [hnone rfl] at hstored
      cases hstored
    · rw [hstored] at hobject'
      obtain rfl := Option.some.inj hobject'
      have hrepaired := @repaired_of_mime name body image hsniff
      dsimp only at hrepaired hinspected ⊢
      rw [hinspected, ← hrepaired]
      by_cases hverdict : FixR2ContentTypes.verdictOf
          ⟨body, some (mimeFromExtension name), none⟩ = .fixed
      · rw [if_pos ⟨rfl, hverdict⟩, if_pos hverdict]
        exact if_pos rfl
      · rw [if_neg fun h => hverdict h.2, if_neg hverdict]
        exact hstored

/-! ### A photograph that came as a drawing -/

section

attribute [local instance] plainSlug

/-- The first bytes of a JPEG. -/
def photograph : List UInt8 := 0xFF :: 0xD8 :: 0xFF :: List.replicate 9 0

def photographDirectory : Directory :=
  [.directory "images".toList [.directory "topics".toList [.file "cat.jpg".toList photograph]]]

def photographWorld : World := { healthy with directory := fun _ => some photographDirectory }

theorem completes_photograph :
    Completes photographWorld ["--execute"] executing photographDirectory where
  parsed := parseArgs_eq_ok.2 ⟨rfl, by decide⟩
  execute := rfl
  configured := by decide
  directory := rfl
  valid := by
    simp only [photographDirectory, AreValid, IsValid, Entry.name]
    decide
  unfailing _ := rfl

theorem photograph_migrated :
    (main photographWorld ["--execute"] fun _ => none).2 "images/topics/cat.jpg".toList =
      some ⟨photograph, some "image/jpeg", none⟩ := by
  have hreceived : receiveFile noon .topic "cat.svg".toList "image/svg+xml" =
      .ok (topicFile "cat.svg" "cat.svg") := by rfl
  have hsniff : sniffImageType photograph = some .jpeg := by rfl
  have hkept : FilesService.uploadFile .local (topicFile "cat.svg" "cat.svg")
      (sniffImageType photograph) = .ok ⟨"/uploads/images/topics/cat.jpg".toList, none⟩ := by rfl
  have hsaved : FilesService.uploadBytes .r2 (topicFile "cat.svg" "cat.svg") photograph
      (fun _ => none) = .ok (⟨"images/topics/cat.jpg".toList,
        some ⟨"images/topics/cat.jpg".toList, "image/jpeg"⟩⟩,
          Bucket.upload (fun _ => none) ⟨"images/topics/cat.jpg".toList, "image/jpeg"⟩
            photograph) := by rfl
  have hfile : (["images".toList, "topics".toList, "cat.jpg".toList], photograph) ∈
      filesIn photographDirectory := by decide
  have hmigrated := migrated_as_uploaded hreceived hsniff hkept completes_photograph rfl
    (by rfl) hfile (by decide) hsaved fun _ => none
  exact hmigrated.1.2 (by decide)

end

end VetHealth
