import VetHealth.Files.Sniffing

/-!
# VetHealth.Files.ContentTypes

**The script that repairs content types** reads the first kilobyte of every object of the bucket,
recognises it by a copy of the backend's function and rewrites the content type where it is another.

The function looks at the first twelve bytes and at a text of the first 1024, so the whole file tells
it no more than the script sees (`sniffImageType_take`). What the backend stores with a type that it
has recognised is left as it is (`script_sees_same_type`).
-/

namespace VetHealth

open Js Matching Matching.Regex ImageRefs

/-! ### The bucket -/

/-- An object of the bucket, with the headers that the script reads. -/
structure BucketObject where
  body : List UInt8
  contentType : Option String
  cacheControl : Option String

abbrev Bucket := List Char → Option BucketObject

def Bucket.put (bucket : Bucket) (key : List Char) (object : BucketObject) : Bucket :=
  fun other => if other = key then some object else bucket other

/-- `S3CompatibleFileStorageService.upload`. -/
def Bucket.upload (bucket : Bucket) (input : StoredObject) (body : List UInt8) : Bucket :=
  bucket.put input.key ⟨body, some input.contentType, none⟩

/-- `uploadFile` for a file that is read as `sniffBuffer`. -/
def FilesService.uploadBytes (storageDriver : FileStorageDriver) (uploadedFile : UploadedFile)
    (sniffBuffer : List UInt8) (bucket : Bucket) : Except Failure (SavedFile × Bucket) :=
  (uploadFile storageDriver uploadedFile (sniffImageType sniffBuffer)).map fun saved =>
    (saved, match saved.object with
      | some object => bucket.upload object sniffBuffer
      | none => bucket)

/-! ### The script -/

namespace FixR2ContentTypes

def asciiAt (buffer : List UInt8) (offset length : Nat) : List Char :=
  Bytes.toAscii ((buffer.drop offset).take length)

def sniffImageType (buffer : List UInt8) : Option String :=
  if buffer.length < 12 then none
  else if buffer[0]? = some 0xFF ∧ buffer[1]? = some 0xD8 ∧ buffer[2]? = some 0xFF then
    some "image/jpeg"
  else if buffer[0]? = some 0x89 ∧ asciiAt buffer 1 3 = "PNG".toList ∧ buffer[4]? = some 0x0D ∧
      buffer[5]? = some 0x0A ∧ buffer[6]? = some 0x1A ∧ buffer[7]? = some 0x0A then
    some "image/png"
  else if asciiAt buffer 0 3 = "GIF".toList then some "image/gif"
  else if asciiAt buffer 0 4 = "RIFF".toList ∧ asciiAt buffer 8 4 = "WEBP".toList then
    some "image/webp"
  else
    let brand := asciiAt buffer 8 4
    if asciiAt buffer 4 4 = "ftyp".toList ∧ (brand = "avif".toList ∨ brand = "avis".toList) then
      some "image/avif"
    else if asciiAt buffer 4 4 = "ftyp".toList ∧
        (brand = "heic".toList ∨ brand = "heix".toList ∨ brand = "mif1".toList) then
      some "image/heic"
    else
      let head := (Bytes.toUtf8 (buffer.take 1024)).dropWhile isSpace
      if ("<?xml".toList <+: head ∨ "<svg".toList <+: head) ∧ (SVG_RE.find head).isSome then
        some "image/svg+xml"
      else none

/-- `normalize`: what stands before the parameters, in lower case, with the name that is used for a
type that has two. -/
def normalizeType (value : String) : List Char :=
  let type := (trim (value.toList.takeWhile (· ≠ ';'))).map Char.toLower
  if type = "image/jpg".toList then "image/jpeg".toList else type

def isEquivalent (stored actual : String) : Bool :=
  if stored = "" then false else normalizeType stored = normalizeType actual

/-- The range `bytes=0-1023`, which an empty object does not have. -/
def readHead (object : BucketObject) : Option (List UInt8) :=
  if object.body = [] then none else some (object.body.take 1024)

/-- The call for an object that fails. -/
inductive Fault
  | head
  | get
  | copy
  deriving DecidableEq

structure Stats where
  total : Nat
  ok : Nat
  fixed : Nat
  unknown : Nat
  failed : Nat

/-- How an object is counted. Every object that is listed is counted once. -/
inductive Verdict
  | ok
  | fixed
  | unknown
  | failed
  deriving DecidableEq

def Stats.count (stats : Stats) : Verdict → Stats
  | .ok => { stats with total := stats.total + 1, ok := stats.ok + 1 }
  | .fixed => { stats with total := stats.total + 1, fixed := stats.fixed + 1 }
  | .unknown => { stats with total := stats.total + 1, unknown := stats.unknown + 1 }
  | .failed => { stats with total := stats.total + 1, failed := stats.failed + 1 }

/-- What the loop of `main` does for a key: it looks at the headers, reads the first bytes, and
rewrites the type where it is another one. -/
def inspect (execute : Bool) (bucket : Bucket) (key : List Char) (fault : Option Fault) :
    Verdict × Bucket :=
  match bucket key with
  | none => (.failed, bucket)
  | some object =>
      if fault = some .head then (.failed, bucket)
      else
        let storedType := object.contentType.getD ""
        match if fault = some .get then none else readHead object with
        | none => (.failed, bucket)
        | some bytes =>
            match sniffImageType bytes with
            | none => (.unknown, bucket)
            | some actualType =>
                if isEquivalent storedType actualType then (.ok, bucket)
                else if execute then
                  if fault = some .copy then (.failed, bucket)
                  -- the bytes and the cache control are those of the object
                  else (.fixed, bucket.put key { object with contentType := some actualType })
                else (.fixed, bucket)

/-- A run of the script for the keys that it has listed. What one key comes to does not stop the
others. -/
def main (execute : Bool) (keys : List (List Char × Option Fault)) (bucket : Bucket) :
    Stats × Bucket :=
  keys.foldl (fun state key =>
    let inspected := inspect execute state.2 key.1 key.2
    (state.1.count inspected.1, inspected.2)) (⟨0, 0, 0, 0, 0⟩, bucket)

end FixR2ContentTypes

/-! ### What a kilobyte tells -/

theorem asciiAt_take {buffer : List UInt8} {n offset length : Nat} (h : offset + length ≤ n) :
    asciiAt (buffer.take n) offset length = asciiAt buffer offset length := by
  rw [asciiAt, asciiAt, List.drop_take, List.take_take, Nat.min_eq_left (by omega)]

/-- The backend sees no more than its first 1024 bytes in a file: no signature is looked for further
in. -/
theorem sniffImageType_take (buffer : List UInt8) :
    sniffImageType (buffer.take 1024) = sniffImageType buffer := by
  have hbyte : ∀ i < 12, (buffer.take 1024)[i]? = buffer[i]? := fun i hi =>
    List.getElem?_take_of_lt (by omega)
  have hlength : (buffer.take 1024).length < 12 ↔ buffer.length < 12 := by
    rw [List.length_take]
    omega
  have htext : ∀ offset length, offset + length ≤ 12 →
      asciiAt (buffer.take 1024) offset length = asciiAt buffer offset length :=
    fun offset length h => asciiAt_take (by omega)
  have hhead : (buffer.take 1024).take 1024 = buffer.take 1024 := by
    rw [List.take_take, Nat.min_self]
  simp (disch := omega) only [sniffImageType, hlength, hbyte, htext, hhead]

/-- The copy in the script names the types that the backend recognises. The two tables are written
apart, and agree. -/
theorem FixR2ContentTypes.sniffImageType_eq (buffer : List UInt8) :
    FixR2ContentTypes.sniffImageType buffer =
      (VetHealth.sniffImageType buffer).map SniffedImage.mimeType := by
  have htext : ∀ offset length,
      FixR2ContentTypes.asciiAt buffer offset length = VetHealth.asciiAt buffer offset length :=
    fun _ _ => rfl
  simp only [FixR2ContentTypes.sniffImageType, VetHealth.sniffImageType, htext,
    apply_ite (Option.map SniffedImage.mimeType), Option.map_some, Option.map_none,
    SniffedImage.mimeType]

/-! ### What a run leaves alone -/

/-- An object with the type that the backend recognises: what a successful upload leaves. -/
def BucketObject.IsRecognised (object : BucketObject) : Prop :=
  ∃ image, sniffImageType object.body = some image ∧ object.contentType = some image.mimeType

namespace FixR2ContentTypes

theorem isEquivalent_self {type : String} (h : type ≠ "") : isEquivalent type type = true := by
  rw [isEquivalent, if_neg h, decide_eq_true rfl]

theorem readHead_sniff {object : BucketObject} {bytes : List UInt8}
    (h : readHead object = some bytes) :
    sniffImageType bytes =
      (VetHealth.sniffImageType object.body).map SniffedImage.mimeType := by
  rw [readHead] at h
  split at h
  · cases h
  · rw [← Option.some.inj h, sniffImageType_eq, sniffImageType_take]

/-- An object is rewritten only where its type is another than the one that its bytes have. All that
a step can do is read off this. -/
theorem inspect_cases (execute : Bool) (bucket : Bucket) (key : List Char)
    (fault : Option Fault) :
    ((inspect execute bucket key fault).1 ≠ .fixed ∧
        (inspect execute bucket key fault).2 = bucket) ∨
      ∃ object image, bucket key = some object ∧
        VetHealth.sniffImageType object.body = some image ∧
        isEquivalent (object.contentType.getD "") image.mimeType = false ∧
        ((inspect execute bucket key fault).2 = bucket ∨
          (inspect execute bucket key fault).2 =
            bucket.put key { object with contentType := some image.mimeType }) := by
  rw [inspect]
  split
  · exact Or.inl ⟨by simp, rfl⟩
  rename_i object hobject
  split
  · exact Or.inl ⟨by simp, rfl⟩
  dsimp only
  split
  · exact Or.inl ⟨by simp, rfl⟩
  rename_i bytes hread
  split
  · exact Or.inl ⟨by simp, rfl⟩
  rename_i actualType hactual
  -- What was read is the first kilobyte, and it is recognised as the whole file is.
  have hbytes : readHead object = some bytes := by
    split at hread
    · cases hread
    · exact hread
  rw [readHead_sniff hbytes, Option.map_eq_some_iff] at hactual
  obtain ⟨image, himage, rfl⟩ := hactual
  split
  · exact Or.inl ⟨by simp, rfl⟩
  rename_i hother
  refine Or.inr ⟨object, image, hobject, himage, by simpa using hother, ?_⟩
  -- The type is another one: it is written, unless the run is dry or the copy fails.
  split
  · split
    · exact Or.inl rfl
    · exact Or.inr rfl
  · exact Or.inl rfl

theorem mimeType_ne (image : SniffedImage) : image.mimeType ≠ "" := by
  cases image <;> decide

/-- A recognised type is the one that the script finds. -/
theorem isEquivalent_of_isRecognised {object : BucketObject} (h : object.IsRecognised)
    {image : SniffedImage} (himage : VetHealth.sniffImageType object.body = some image) :
    isEquivalent (object.contentType.getD "") image.mimeType = true := by
  obtain ⟨image', himage', htype⟩ := h
  rw [himage'] at himage
  obtain rfl := Option.some.inj himage
  rw [htype, Option.getD_some, isEquivalent_self (mimeType_ne image')]

/-- An object with the recognised type is not counted as one to be rewritten. -/
theorem inspect_ne_fixed {bucket : Bucket} {key : List Char} {object : BucketObject}
    (hobject : bucket key = some object) (h : object.IsRecognised) (execute : Bool)
    (fault : Option Fault) : (inspect execute bucket key fault).1 ≠ .fixed := by
  rcases inspect_cases execute bucket key fault with
    ⟨hverdict, -⟩ | ⟨object', image, hobject', himage, hdiffers, -⟩
  · exact hverdict
  · rw [hobject] at hobject'
    obtain rfl := Option.some.inj hobject'
    rw [isEquivalent_of_isRecognised h himage] at hdiffers
    cases hdiffers

/-- Inspecting any key leaves an object with the recognised type alone. -/
theorem inspect_keeps {bucket : Bucket} {key : List Char} {object : BucketObject}
    (hobject : bucket key = some object) (h : object.IsRecognised) (execute : Bool)
    (other : List Char) (fault : Option Fault) :
    (inspect execute bucket other fault).2 key = some object := by
  rcases inspect_cases execute bucket other fault with
    ⟨-, hsame⟩ | ⟨written, image, hwritten, himage, hdiffers, hsame | hput⟩
  · rw [hsame, hobject]
  · rw [hsame, hobject]
  · rw [hput, Bucket.put, if_neg, hobject]
    rintro rfl
    rw [hobject] at hwritten
    obtain rfl := Option.some.inj hwritten
    rw [isEquivalent_of_isRecognised h himage] at hdiffers
    cases hdiffers

theorem main_keeps {bucket : Bucket} {key : List Char} {object : BucketObject}
    (hobject : bucket key = some object) (h : object.IsRecognised) (execute : Bool)
    (keys : List (List Char × Option Fault)) : (main execute keys bucket).2 key = some object := by
  rw [main]
  generalize (⟨0, 0, 0, 0, 0⟩ : Stats) = stats
  induction keys generalizing stats bucket with
  | nil => exact hobject
  | cons other keys ih => exact ih (inspect_keeps hobject h execute other.1 other.2) _

/-- What any number of runs leaves. -/
def runs (scripts : List (Bool × List (List Char × Option Fault))) (bucket : Bucket) : Bucket :=
  scripts.foldl (fun bucket script => (main script.1 script.2 bucket).2) bucket

theorem runs_keep {bucket : Bucket} {key : List Char} {object : BucketObject}
    (hobject : bucket key = some object) (h : object.IsRecognised)
    (scripts : List (Bool × List (List Char × Option Fault))) :
    runs scripts bucket key = some object := by
  induction scripts generalizing bucket with
  | nil => exact hobject
  | cons script scripts ih => exact ih (main_keeps hobject h script.1 script.2)

end FixR2ContentTypes

/-- An object that is stored with a recognised type. -/
theorem uploadBytes_object {storageDriver : FileStorageDriver} {uploadedFile : UploadedFile}
    {sniffBuffer : List UInt8} {bucket bucket' : Bucket} {saved : SavedFile}
    (h : FilesService.uploadBytes storageDriver uploadedFile sniffBuffer bucket =
      .ok (saved, bucket')) {object : StoredObject} (hobject : saved.object = some object)
    {image : SniffedImage} (himage : sniffImageType sniffBuffer = some image) :
    bucket' object.key = some ⟨sniffBuffer, some image.mimeType, none⟩ := by
  rw [FilesService.uploadBytes, FilesService.uploadFile, himage] at h
  split at h
  · dsimp only at h
    split at h
    · obtain ⟨rfl, -⟩ := Prod.mk.inj (Except.ok.inj h)
      cases hobject
    · obtain ⟨rfl, rfl⟩ := Prod.mk.inj (Except.ok.inj h)
      obtain rfl := Option.some.inj hobject
      exact if_pos rfl
  · cases h

/-- **The script sees what the backend has seen.** On the first kilobyte of a file its copy names the
type that the backend recognises in the whole file, and an object that the backend has stored with a
recognised type is not rewritten by any run of it, nor found to be in need of it. -/
theorem script_sees_same_type (b : List UInt8) :
    sniffImageType b = sniffImageType (b.take 1024) ∧
      FixR2ContentTypes.sniffImageType (b.take 1024) =
        (sniffImageType b).map SniffedImage.mimeType ∧
      ∀ storageDriver uploadedFile bucket saved bucket' object,
        FilesService.uploadBytes storageDriver uploadedFile b bucket = .ok (saved, bucket') →
        saved.object = some object → (sniffImageType b).isSome = true →
        ∀ scripts, (bucket' object.key).isSome = true ∧
          FixR2ContentTypes.runs scripts bucket' object.key = bucket' object.key ∧
          ∀ execute fault, (FixR2ContentTypes.inspect execute
            (FixR2ContentTypes.runs scripts bucket') object.key fault).1 ≠ .fixed := by
  refine ⟨(sniffImageType_take b).symm, ?_, ?_⟩
  · rw [FixR2ContentTypes.sniffImageType_eq, sniffImageType_take]
  · intro storageDriver uploadedFile bucket saved bucket' object hsaved hobject hsome scripts
    obtain ⟨image, himage⟩ := Option.isSome_iff_exists.1 hsome
    have hstored := uploadBytes_object hsaved hobject himage
    have hkept := FixR2ContentTypes.runs_keep hstored ⟨image, himage, rfl⟩ scripts
    rw [hstored]
    exact ⟨rfl, hkept, FixR2ContentTypes.inspect_ne_fixed hkept ⟨image, himage, rfl⟩⟩

/-- A picture of a topic that comes as a JPEG and is a PNG. -/
def misnamedFile : UploadedFile :=
  ⟨.topic, "cat.jpg".toList, "image/jpeg", "uploads/images/topics/cat.jpg".toList⟩

def pngBytes : List UInt8 := [0x89, 0x50, 0x4E, 0x47, 0x0D, 0x0A, 0x1A, 0x0A, 0, 0, 0, 0x0D]

theorem misnamed_left_alone :
    ∃ saved bucket', FilesService.uploadBytes .r2 misnamedFile pngBytes (fun _ => none) =
        .ok (saved, bucket') ∧
      FixR2ContentTypes.runs [(true, [("images/topics/cat.png".toList, none)])] bucket'
        "images/topics/cat.png".toList = some ⟨pngBytes, some "image/png", none⟩ := by
  have hsaved : FilesService.uploadBytes .r2 misnamedFile pngBytes (fun _ => none) =
      .ok (⟨"images/topics/cat.png".toList,
          some ⟨"images/topics/cat.png".toList, "image/png"⟩⟩,
        Bucket.upload (fun _ => none) ⟨"images/topics/cat.png".toList, "image/png"⟩ pngBytes) := rfl
  have hkept := (script_sees_same_type pngBytes).2.2 .r2 misnamedFile _ _ _ _ hsaved rfl rfl
    [(true, [("images/topics/cat.png".toList, none)])]
  exact ⟨_, _, hsaved, hkept.2.1.trans (by simp [Bucket.upload, Bucket.put])⟩

end VetHealth
