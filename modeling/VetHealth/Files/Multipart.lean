import VetHealth.Files.ContentTypes
import VetHealth.Files.Extensions
import VetHealth.Files.Uploads
import VetHealth.Lib.Prog

/-!
# VetHealth.Files.Multipart

**A multipart upload.** Multer writes any number of files for each of three fields to the disk, and
`FilesService.uploadFile` takes the first file of each field: it corrects the extension, stores the
file in the bucket, removes it from the disk and inserts a row, one field after another. Each of
these calls may fail, and what was done before the failure stays.

`run_uploadOne` says what becomes of one file for every way in which its calls can fail.
-/

namespace VetHealth

open Js Resumption

/-! ### Multer -/

/-- A part of a multipart request that holds a file, and when it arrives. -/
structure FilePart where
  fieldname : Fields
  originalname : List Char
  mimetype : String
  content : List UInt8
  moment : Moment

/-- The files of a request: the fields in the order of their first files, each with its files. -/
abbrev ReceivedFiles := List (Fields × List UploadedFile)

namespace Multer

def append (file : UploadedFile) : ReceivedFiles → ReceivedFiles
  | [] => [(file.fieldname, [file])]
  | (key, files) :: rest =>
      if key = file.fieldname then (key, files ++ [file]) :: rest
      else (key, files) :: append file rest

/-- The fields have no greatest number of files. `fileSize` limits the size of each. -/
def receive [LowerSlugify] (fileSize : Option Nat) (files : ReceivedFiles) (disk : Disk) :
    List FilePart → Option (ReceivedFiles × Disk)
  | [] => some (files, disk)
  | part :: parts =>
      match receiveFile part.moment part.fieldname part.originalname part.mimetype with
      | .error _ => none
      | .ok file =>
          if fileSize.any (· < part.content.length) then none
          else receive fileSize (append file files)
            (Function.update disk file.path (some part.content)) parts

end Multer

/-! ### What an upload changes -/

/-- The disk, the bucket and the rows of files by their paths; and the keys under which the request has
stored objects. -/
structure UploadState where
  disk : Disk
  bucket : Bucket
  stored : List (List Char)
  rows : List (List Char)

/-- How a call of the object storage or the database fails: without an effect, or after it. In the
second case the caller cannot tell. -/
inductive CallFault
  | refused
  | unanswered
  deriving DecidableEq

/-- The calls for a file that fail. -/
structure UploadFaults where
  read : Bool := false
  rename : Bool := false
  reread : Bool := false
  put : Option CallFault := none
  unlink : Bool := false
  save : Option CallFault := none

/-- A file that is moved to another path, or stays where it is. What was at the other path is lost.
-/
def Disk.moved (disk : Disk) (path actualPath : List Char) (content : List UInt8) : Disk :=
  if actualPath = path then disk
  else Function.update (Function.update disk path none) actualPath (some content)

theorem Disk.moved_eq {disk : Disk} {path : List Char} {content : List UInt8}
    (h : disk path = some content) (actualPath : List Char) :
    disk.moved path actualPath content = fun other =>
      if other = actualPath then some content else if other = path then none else disk other := by
  funext other
  rw [Disk.moved]
  by_cases hsame : actualPath = path
  · subst hsame
    by_cases hother : other = actualPath
    · simp [hother, h]
    · simp [hother]
  · by_cases hother : other = actualPath
    · simp [hsame, hother]
    · by_cases hpath : other = path
      · simp [hsame, hpath, Ne.symm hsame]
      · simp [hsame, hother, hpath]

namespace UploadState

variable (s : UploadState)

def put (object : StoredObject) (body : List UInt8) : UploadState :=
  { s with bucket := s.bucket.upload object body, stored := s.stored ++ [object.key] }

def unlink (path : List Char) : UploadState := { s with disk := Function.update s.disk path none }

def insert (path : List Char) : UploadState := { s with rows := s.rows ++ [path] }

end UploadState

/-- What a call that fails throws. -/
def CALL_FAILED : Failure := .internal (.error "call failed")

/-- A call of a service with an effect. -/
def call (fault : Option CallFault) (effect : UploadState → UploadState) :
    Prog UploadState Failure Unit :=
  Prog.atomic fun s =>
    match fault with
    | none => (.ok (), effect s)
    | some .refused => (.error CALL_FAILED, s)
    | some .unanswered => (.error CALL_FAILED, effect s)

/-- `fs.readFile(path)`. -/
def readFile (fault : Bool) (path : List Char) : Prog UploadState Failure (List UInt8) :=
  Prog.atomic fun s =>
    (match if fault then none else s.disk path with
      | some content => .ok content
      | none => .error CALL_FAILED, s)

/-- `fs.readFile(path).catch(() => null)`. -/
def readFileOrNull (fault : Bool) (path : List Char) :
    Prog UploadState Failure (Option (List UInt8)) :=
  Prog.atomic fun s => (.ok (if fault then none else s.disk path), s)

/-- `fs.unlink(path).catch(() => undefined)`. -/
def unlinkOrLeave (fault : Bool) (path : List Char) : Prog UploadState Failure Unit :=
  Prog.atomic fun s => (.ok (), if fault then s else s.unlink path)

namespace FilesService

/-- `reconcileExtension` with the rename that may fail. -/
def reconcile (fault : Bool) (path : List Char) (sniffed : Option SniffedImage) :
    Prog UploadState Failure (List Char) :=
  Prog.atomic fun s =>
    match reconcileFile s.disk path sniffed with
    | .error failure => (.error failure, s)
    | .ok (actualPath, disk) =>
        if fault && actualPath ≠ path then (.error CALL_FAILED, s)
        else (.ok actualPath, { s with disk })

/-- The path of the row of a file that stays on the disk. -/
def localPath (actualPath : List Char) : List Char :=
  '/' :: actualPath.map fun c => if c = '\\' then '/' else c

/-- What the loop of `uploadFile` does for an object storage: the object is stored first, and then
the file of the disk goes. -/
def storeObject (faults : UploadFaults) (actualPath : List Char) (contentType : String)
    (sniffBuffer : Option (List UInt8)) : Prog UploadState Failure (List Char) := do
  let body ←
    match sniffBuffer with
    | some body => pure body
    | none => readFile faults.reread actualPath
  call faults.put (·.put ⟨storageKey actualPath, contentType⟩ body)
  unlinkOrLeave faults.unlink actualPath
  return storageKey actualPath

/-- The rest of it, when the file lies where its type says: what is stored where, and the row at the
end. -/
def saveFile (storageDriver : FileStorageDriver) (faults : UploadFaults) (actualPath : List Char)
    (contentType : String) (sniffBuffer : Option (List UInt8)) :
    Prog UploadState Failure (List Char) := do
  let filePath ←
    if storageDriver = .local then pure (localPath actualPath)
    else storeObject faults actualPath contentType sniffBuffer
  call faults.save (·.insert filePath)
  return filePath

/-- The body of the loop of `uploadFile`. -/
def uploadOne (storageDriver : FileStorageDriver) (faults : UploadFaults)
    (uploadedFile : UploadedFile) : Prog UploadState Failure (List Char) := do
  Prog.lift (assertFileType uploadedFile.originalname)
  let sniffBuffer ← readFileOrNull faults.read uploadedFile.path
  let sniffed := sniffBuffer.bind sniffImageType
  let actualPath ← reconcile faults.rename uploadedFile.path sniffed
  let contentType := (sniffed.map SniffedImage.mimeType).getD uploadedFile.mimetype
  saveFile storageDriver faults actualPath contentType sniffBuffer

/-- The loop of `uploadFile`; `env` says what fails for each field. Only the first file of a field
is taken. -/
def uploadEach (storageDriver : FileStorageDriver) (env : Fields → UploadFaults) :
    ReceivedFiles → Prog UploadState Failure (List (Fields × List Char))
  | [] => return []
  | (_, []) :: _ => throw (.internal .typeError)
  | (key, uploadedFile :: _) :: rest => do
      let filePath ← uploadOne storageDriver (env key) uploadedFile
      let imageResponse ← uploadEach storageDriver env rest
      return (key, filePath) :: imageResponse

/-- `uploadFile` for all files of a request. -/
def uploadFiles (storageDriver : FileStorageDriver) (env : Fields → UploadFaults)
    (files : Option ReceivedFiles) : Prog UploadState Failure (List (Fields × List Char)) :=
  match files with
  | none => throw (.unprocessable "selectFile")
  | some files => uploadEach storageDriver env files

/-! ### One file -/

variable (driver : FileStorageDriver) (faults : UploadFaults) (file : UploadedFile)
  (content : List UInt8)

/-- What is recognised in a file, if it can be read. -/
def sniffedAs : Option SniffedImage := if faults.read then none else sniffImageType content

/-- Where the file lies when it is stored. -/
def placeOf : List Char := reconcileExtension file.path (sniffedAs faults content)

/-- The path of its row. -/
def rowPath : List Char :=
  if driver = .local then localPath (placeOf faults file content)
  else storageKey (placeOf faults file content)

/-- The object that is stored of it. -/
def objectOf : StoredObject where
  key := storageKey (placeOf faults file content)
  contentType := ((sniffedAs faults content).map SniffedImage.mimeType).getD file.mimetype

/-- A file has the row and the object that `uploadFile` says. -/
theorem uploadFile_eq (h : isImageName file.originalname = true) :
    uploadFile driver file (sniffedAs faults content) =
      .ok ⟨rowPath driver faults file content,
        if driver = .local then none else some (objectOf faults file content)⟩ := by
  unfold uploadFile rowPath
  by_cases hdriver : driver = .local
  · simp [h, hdriver, placeOf, localPath]
  · simp [h, hdriver, placeOf, objectOf]

/-- Where the processing of a file can fail, in the order of the calls. -/
inductive Point
  | type
  | rename
  | reading
  | storing (fault : CallFault)
  | saving (fault : CallFault)
  deriving DecidableEq

/-- The first of the last calls that fails. -/
def savePoint : Option Point :=
  if driver = .local then faults.save.map .saving
  else if faults.read && faults.reread then some .reading
  else match faults.put with
    | some fault => some (.storing fault)
    | none => faults.save.map .saving

/-- The first call for a file that fails, if any does. It is a function of the faults and the file
alone. -/
def failurePoint : Option Point :=
  if !isImageName file.originalname then some .type
  else if faults.rename && placeOf faults file content ≠ file.path then some .rename
  else savePoint driver faults

variable (s : UploadState)

/-- The state when the file lies where its type says. -/
def movedFile : UploadState :=
  { s with disk := s.disk.moved file.path (placeOf faults file content) content }

/-- From there, the state when there is an object. -/
def putFile : UploadState := s.put (objectOf faults file content) content

/-- The state before the row is inserted. -/
def keptFile : UploadState :=
  if driver = .local then s
  else if faults.unlink then putFile faults file content s
  else (putFile faults file content s).unlink (placeOf faults file content)

/-- The state when the file is done. -/
def savedFile : UploadState :=
  (keptFile driver faults file content s).insert (rowPath driver faults file content)

/-- The state when one of the last calls has failed: what the calls before it have done stays. -/
def leftBy : Point → UploadState
  | .type | .rename | .reading | .storing .refused => s
  | .storing .unanswered => putFile faults file content s
  | .saving .refused => keptFile driver faults file content s
  | .saving .unanswered => savedFile driver faults file content s

variable {driver faults file content s}

/-- A correction moves the file. -/
theorem reconcileFile_eq {disk : Disk} {path : List Char} (h : disk path = some content)
    (sniffed : Option SniffedImage) :
    reconcileFile disk path sniffed =
      .ok (reconcileExtension path sniffed,
        disk.moved path (reconcileExtension path sniffed) content) := by
  have hstays : disk.moved path path content = disk := if_pos rfl
  cases sniffed with
  | none => exact congrArg (fun disk => Except.ok (path, disk)) hstays.symm
  | some image =>
      by_cases hagrees : image.Agrees path
      · rw [reconcileFile_of_agrees hagrees, reconcileExtension_of_agrees hagrees, hstays]
      · rw [reconcileFile_of_not_agrees hagrees h, Disk.moved_eq h]

theorem run_reconcile (h : s.disk file.path = some content) :
    (reconcile faults.rename file.path (sniffedAs faults content)).run s =
      if faults.rename && placeOf faults file content ≠ file.path then (.error CALL_FAILED, s)
      else (.ok (placeOf faults file content), movedFile faults file content s) := by
  rw [reconcile, Prog.run_atomic, reconcileFile_eq h]
  rfl

theorem movedFile_content (h : s.disk file.path = some content) :
    (movedFile faults file content s).disk (placeOf faults file content) = some content := by
  rw [movedFile, Disk.moved_eq h]
  exact if_pos rfl

/-- The object, or the call that fails before there is one. Reading comes before storing. -/
theorem run_storeObject (h : s.disk (placeOf faults file content) = some content) :
    (storeObject faults (placeOf faults file content)
        (((sniffedAs faults content).map SniffedImage.mimeType).getD file.mimetype)
        (if faults.read then none else some content)).run s =
      if faults.read && faults.reread then (.error CALL_FAILED, s)
      else
        let stored := putFile faults file content s
        match faults.put with
        | some .refused => (.error CALL_FAILED, s)
        | some .unanswered => (.error CALL_FAILED, stored)
        | none => (.ok (storageKey (placeOf faults file content)),
            if faults.unlink then stored else stored.unlink (placeOf faults file content)) := by
  unfold storeObject
  cases faults.read with
  -- The file has been read already: what is left are the call of the storage and the removal.
  | false =>
      rcases faults.put with _ | _ | _
      · rfl
      · rfl
      · rfl
  | true =>
      have hreread : (readFile faults.reread (placeOf faults file content)).run s =
          if faults.reread then (.error CALL_FAILED, s) else (.ok content, s) := by
        rw [readFile, Prog.run_atomic, h]
        cases faults.reread <;> rfl
      simp only [if_true, Prog.run_bind, hreread]
      cases faults.reread with
      | true => rfl
      | false =>
          rcases faults.put with _ | _ | _
          · rfl
          · rfl
          · rfl

/-- The last calls for a file. -/
theorem run_saveFile (h : s.disk (placeOf faults file content) = some content) :
    (saveFile driver faults (placeOf faults file content)
        (((sniffedAs faults content).map SniffedImage.mimeType).getD file.mimetype)
        (if faults.read then none else some content)).run s =
      match savePoint driver faults with
      | none => (.ok (rowPath driver faults file content), savedFile driver faults file content s)
      | some point => (.error CALL_FAILED, leftBy driver faults file content s point) := by
  unfold saveFile savePoint leftBy savedFile keptFile rowPath
  by_cases hdriver : driver = .local
  · subst hdriver
    simp only [if_true]
    rcases faults.save with _ | _ | _
    · rfl
    · rfl
    · rfl
  · simp only [hdriver, if_false, Prog.run_bind, run_storeObject h]
    cases hreading : faults.read && faults.reread with
    | true => rfl
    | false =>
        rcases faults.put with _ | _ | _
        · rcases faults.save with _ | _ | _
          · rfl
          · rfl
          · rfl
        · rfl
        · rfl

theorem savePoint_ne : savePoint driver faults ≠ some .type ∧ savePoint driver faults ≠ some .rename := by
  unfold savePoint
  split
  · simp
  · split
    · simp
    · split <;> simp

/-- **What becomes of one file**, for every way in which its calls can fail. -/
theorem run_uploadOne (h : s.disk file.path = some content) :
    (uploadOne driver faults file).run s =
      match failurePoint driver faults file content with
      | none => (.ok (rowPath driver faults file content),
          savedFile driver faults file content (movedFile faults file content s))
      | some .type => (.error (.unprocessable "cantUploadFileType"), s)
      | some .rename => (.error CALL_FAILED, s)
      | some point => (.error CALL_FAILED,
          leftBy driver faults file content (movedFile faults file content s) point) := by
  have hread : (readFileOrNull faults.read file.path).run s =
      (.ok (if faults.read then none else some content), s) := by
    rw [readFileOrNull, Prog.run_atomic, h]
  have hsniffed : (if faults.read then none else some content).bind sniffImageType =
      sniffedAs faults content := by
    rw [sniffedAs]
    cases faults.read <;> rfl
  unfold uploadOne failurePoint
  cases himage : isImageName file.originalname with
  | false =>
      simp only [Prog.run_bind, Prog.run_lift, assertFileType, himage]
      rfl
  | true =>
      simp only [Prog.run_bind, Prog.run_lift, assertFileType, himage, if_true, hread, hsniffed,
        run_reconcile h]
      cases hrename : (faults.rename && placeOf faults file content ≠ file.path) with
      | true => rfl
      | false =>
          simp only [Bool.false_eq_true, if_false, Bool.not_true,
            run_saveFile (movedFile_content h)]
          -- The point of the failure is one of the last calls: the type and the rename are behind
          -- it.
          cases hpoint : savePoint driver faults with
          | none => rfl
          | some point =>
              obtain ⟨htype, hrenamed⟩ := hpoint ▸ @savePoint_ne driver faults
              cases point with
              | type => exact absurd rfl htype
              | rename => exact absurd rfl hrenamed
              | _ => rfl

end FilesService

/-! ### What multer hands over -/

/-- A file as multer describes it. -/
def UploadedFile.IsFromMulter [LowerSlugify] (file : UploadedFile) : Prop :=
  ∃ moment originalname mimetype, receiveFile moment file.fieldname originalname mimetype = .ok file

/-- A file that multer has written to the disk. -/
structure UploadedFile.IsWritten [LowerSlugify] (file : UploadedFile) (disk : Disk) : Prop where
  received : file.IsFromMulter
  content : ∃ content, disk file.path = some content

namespace ReceivedFiles

/-- All files of a request. -/
def all (files : ReceivedFiles) : List UploadedFile := files.flatMap Prod.snd

/-- The first file of each field. -/
def firsts (files : ReceivedFiles) : List UploadedFile := files.filterMap fun entry => entry.2.head?

/-- What multer guarantees: each field once, no field without a file, and every file on the disk, in
the place for its field. -/
structure IsReceived [LowerSlugify] (files : ReceivedFiles) (disk : Disk) : Prop where
  keys : (files.map Prod.fst).Nodup
  nonempty : ∀ entry ∈ files, entry.2 ≠ []
  fieldname : ∀ entry ∈ files, ∀ file ∈ entry.2, file.fieldname = entry.1
  written : ∀ file ∈ all files, file.IsWritten disk

end ReceivedFiles

namespace Multer

open ReceivedFiles

theorem keys_append (file : UploadedFile) (files : ReceivedFiles) :
    (append file files).map Prod.fst =
      if file.fieldname ∈ files.map Prod.fst then files.map Prod.fst
      else files.map Prod.fst ++ [file.fieldname] := by
  induction files with
  | nil => simp [append]
  | cons entry files ih =>
      obtain ⟨key, others⟩ := entry
      rw [append]
      by_cases hkey : key = file.fieldname
      · simp [hkey]
      · rw [if_neg hkey, List.map_cons, List.map_cons, ih]
        by_cases hmem : file.fieldname ∈ files.map Prod.fst
        · simp [hmem]
        · simp [hmem, Ne.symm hkey]

/-- A file is put behind those of its field. -/
theorem mem_append {file : UploadedFile} {files : ReceivedFiles} {entry : Fields × List UploadedFile}
    (h : entry ∈ append file files) :
    entry ∈ files ∨ ∃ others, entry = (file.fieldname, others ++ [file]) ∧
      (others = [] ∨ (file.fieldname, others) ∈ files) := by
  induction files with
  | nil => exact Or.inr ⟨[], by simpa [append] using h, Or.inl rfl⟩
  | cons first files ih =>
      obtain ⟨key, others⟩ := first
      rw [append] at h
      by_cases hkey : key = file.fieldname
      · subst hkey
        rw [if_pos rfl] at h
        rcases List.mem_cons.1 h with rfl | hmem
        · exact Or.inr ⟨others, rfl, Or.inr List.mem_cons_self⟩
        · exact Or.inl (List.mem_cons_of_mem _ hmem)
      · rw [if_neg hkey] at h
        rcases List.mem_cons.1 h with rfl | hmem
        · exact Or.inl List.mem_cons_self
        · rcases ih hmem with hmem | ⟨others', hentry, hothers⟩
          · exact Or.inl (List.mem_cons_of_mem _ hmem)
          · exact Or.inr ⟨others', hentry, hothers.imp_right (List.mem_cons_of_mem _)⟩

theorem all_append_perm (file : UploadedFile) (files : ReceivedFiles) :
    (all (append file files)).Perm (file :: all files) := by
  induction files with
  | nil => simp [append, all]
  | cons entry files ih =>
      obtain ⟨key, others⟩ := entry
      rw [append]
      by_cases hkey : key = file.fieldname
      · simp only [hkey, if_true, all, List.flatMap_cons, List.append_assoc, List.singleton_append]
        exact List.perm_middle
      · simp only [hkey, if_false, all, List.flatMap_cons]
        exact (ih.append_left others).trans List.perm_middle

theorem isReceived_append [LowerSlugify] {files : ReceivedFiles} {disk : Disk} {file : UploadedFile}
    {content : List UInt8} (h : IsReceived files disk)
    (hreceived : file.IsFromMulter) :
    IsReceived (append file files) (Function.update disk file.path (some content)) := by
  refine ⟨?_, fun entry hentry => ?_, fun entry hentry other hother => ?_, fun other hother => ?_⟩
  · rw [keys_append]
    split
    · exact h.keys
    · next hnew => exact List.nodup_append.2 ⟨h.keys, by simp, by
        rintro key hkey other hother rfl
        exact hnew (List.mem_singleton.1 hother ▸ hkey)⟩
  -- An entry of the new files is an old one, or that of the field with the file behind the others.
  · rcases mem_append hentry with hmem | ⟨others, rfl, -⟩
    · exact h.nonempty entry hmem
    · simp
  · rcases mem_append hentry with hmem | ⟨others, rfl, hothers⟩
    · exact h.fieldname entry hmem other hother
    · rcases List.mem_append.1 hother with hother | hother
      · rcases hothers with rfl | hmem
        · cases hother
        · exact h.fieldname _ hmem other hother
      · rw [List.mem_singleton.1 hother]
  · rcases List.mem_cons.1 ((all_append_perm file files).mem_iff.1 hother) with rfl | hmem
    · exact ⟨hreceived, content, Function.update_self ..⟩
    · obtain ⟨hreceived', content', hcontent'⟩ := h.written other hmem
      refine ⟨hreceived', ?_⟩
      -- The new file may have been written over one with the same path.
      by_cases hpath : other.path = file.path
      · exact ⟨content, by rw [hpath, Function.update_self]⟩
      · exact ⟨content', by rw [Function.update_of_ne hpath, hcontent']⟩

theorem receiveFile_fieldname [LowerSlugify] {moment : Moment} {fieldname : Fields}
    {originalname : List Char} {mimetype : String} {file : UploadedFile}
    (h : receiveFile moment fieldname originalname mimetype = .ok file) :
    file.fieldname = fieldname := by
  rw [receiveFile] at h
  split at h
  · obtain rfl := Except.ok.inj h
    rfl
  · cases h

/-- What multer hands over has the files of the parts, as many for each field as came for it. -/
theorem receive_spec [LowerSlugify] {fileSize : Option Nat} {parts : List FilePart}
    {files files' : ReceivedFiles} {disk disk' : Disk} (hfiles : IsReceived files disk)
    (h : receive fileSize files disk parts = some (files', disk')) :
    IsReceived files' disk' ∧ ((all files').map UploadedFile.fieldname).Perm
      ((all files).map UploadedFile.fieldname ++ parts.map FilePart.fieldname) := by
  induction parts generalizing files disk with
  | nil =>
      obtain ⟨rfl, rfl⟩ := Prod.mk.inj (Option.some.inj h)
      exact ⟨hfiles, by simp⟩
  | cons part parts ih =>
      rw [receive] at h
      cases hfile : receiveFile part.moment part.fieldname part.originalname part.mimetype with
      | error failure =>
          rw [hfile] at h
          cases h
      | ok file =>
          rw [hfile] at h
          dsimp only at h
          split at h
          · cases h
          -- The part has been put behind those of its field; up to the order this is where it
          -- stands in the list.
          have hfieldname := receiveFile_fieldname hfile
          obtain ⟨hreceived, hperm⟩ := ih (isReceived_append hfiles
            ⟨part.moment, part.originalname, part.mimetype, hfieldname ▸ hfile⟩) h
          refine ⟨hreceived, hperm.trans ?_⟩
          have happend := ((all_append_perm file files).map UploadedFile.fieldname).append_right
            (parts.map FilePart.fieldname)
          rw [List.map_cons, List.cons_append, hfieldname] at happend
          exact happend.trans List.perm_middle.symm

end Multer

end VetHealth
