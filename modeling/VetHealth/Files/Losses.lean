import VetHealth.Files.Multipart

/-!
# VetHealth.Files.Losses

**What an upload loses, and what it leaves.** A field may come with any number of files, and only the
first of them is processed: the others get no row and no object, and stay on the disk. A failure ends
the loop over the fields and takes nothing back.
-/

namespace VetHealth

open Js Resumption

/-! ### Paths -/

/-- What the key of a received file is made of, whatever it is recognised as: its directory and its
name, and only the extension may change. -/
theorem storageKey_eq_keyBelow [LowerSlugify] {moment : Moment} {fieldname : Fields}
    {originalname : List Char} {mimetype : String} {file : UploadedFile}
    (h : receiveFile moment fieldname originalname mimetype = .ok file)
    (sniffed : Option SniffedImage) :
    ∃ name, '/' ∉ name ∧ FilesService.storageKey (FilesService.reconcileExtension file.path sniffed) =
      keyBelow moment.today fieldname name := by
  obtain ⟨himage, horiginal, -⟩ := receiveFile_path h
  obtain ⟨contentType, hsaved⟩ := @uploadFile_key _ .s3 (by decide) _ _ _ _ _ h sniffed
  have hfile := isFileName_filename moment fieldname horiginal
  refine ⟨FilesService.reconcileExtension
    (diskStorage.filename moment fieldname originalname) sniffed, fun hslash => ?_, ?_⟩
  · exact (isSlugChar_ne ((reconcileExtension_name hfile sniffed).2.1 _ hslash)).1 rfl
  · rw [FilesService.uploadFile, if_pos himage] at hsaved
    exact congrArg SavedFile.path (Except.ok.inj hsaved)

/-- Files of different fields have different keys. Their directories are not the same, or their
names begin with the field. -/
theorem storageKey_ne [LowerSlugify] {file file' : UploadedFile} (hfile : file.IsFromMulter)
    (hfile' : file'.IsFromMulter) (hne : file.fieldname ≠ file'.fieldname)
    (sniffed sniffed' : Option SniffedImage) :
    FilesService.storageKey (FilesService.reconcileExtension file.path sniffed) ≠
      FilesService.storageKey (FilesService.reconcileExtension file'.path sniffed') := by
  obtain ⟨moment, originalname, mimetype, hreceived⟩ := hfile
  obtain ⟨moment', originalname', mimetype', hreceived'⟩ := hfile'
  obtain ⟨name, hname, hkey⟩ := storageKey_eq_keyBelow hreceived sniffed
  obtain ⟨name', hname', hkey'⟩ := storageKey_eq_keyBelow hreceived' sniffed'
  rw [hkey, hkey']
  exact fun heq => hne (keyBelow_inj hname hname' heq).1

/-- They lie at different places of the disk. -/
theorem reconcileExtension_ne [LowerSlugify] {file file' : UploadedFile} (hfile : file.IsFromMulter)
    (hfile' : file'.IsFromMulter) (hne : file.fieldname ≠ file'.fieldname)
    (sniffed sniffed' : Option SniffedImage) :
    FilesService.reconcileExtension file.path sniffed ≠
      FilesService.reconcileExtension file'.path sniffed' :=
  fun heq => storageKey_ne hfile hfile' hne sniffed sniffed' (congrArg FilesService.storageKey heq)

namespace FilesService

/-- The loop over files that are the first ones of their fields: this is what the loop of
`uploadFile` amounts to. -/
def uploadFirsts (storageDriver : FileStorageDriver) (env : Fields → UploadFaults) :
    List UploadedFile → Prog UploadState Failure (List (Fields × List Char))
  | [] => return []
  | uploadedFile :: rest => do
      let filePath ← uploadOne storageDriver (env uploadedFile.fieldname) uploadedFile
      let imageResponse ← uploadFirsts storageDriver env rest
      return (uploadedFile.fieldname, filePath) :: imageResponse

/-- The loop takes the first file of each field. -/
theorem uploadEach_eq (driver : FileStorageDriver) (env : Fields → UploadFaults)
    {files : ReceivedFiles} (hnonempty : ∀ entry ∈ files, entry.2 ≠ [])
    (hfieldname : ∀ entry ∈ files, ∀ file ∈ entry.2, file.fieldname = entry.1) :
    uploadEach driver env files = uploadFirsts driver env (ReceivedFiles.firsts files) := by
  induction files with
  | nil => rfl
  | cons entry files ih =>
      obtain ⟨key, others⟩ := entry
      rw [List.forall_mem_cons] at hnonempty hfieldname
      have hrest := ih hnonempty.2 hfieldname.2
      cases others with
      | nil => exact absurd rfl hnonempty.1
      | cons file others =>
          have hkey : file.fieldname = key := hfieldname.1 file List.mem_cons_self
          subst hkey
          show uploadEach driver env ((file.fieldname, file :: others) :: files) =
            uploadFirsts driver env (file :: ReceivedFiles.firsts files)
          rw [uploadEach, uploadFirsts, hrest]

/-! ### A run that succeeds -/

section

variable (driver : FileStorageDriver) (env : Fields → UploadFaults)
  (content : UploadedFile → List UInt8)

/-- Where a file lies when it is stored: at the path with the extension of its bytes. -/
def placeIn (file : UploadedFile) : List Char := placeOf (env file.fieldname) file (content file)

def rowOf (file : UploadedFile) : List Char :=
  rowPath driver (env file.fieldname) file (content file)

def objectIn (file : UploadedFile) : StoredObject :=
  objectOf (env file.fieldname) file (content file)

/-- The state when a file is done. -/
def doneWith (file : UploadedFile) (s : UploadState) : UploadState :=
  savedFile driver (env file.fieldname) file (content file)
    (movedFile (env file.fieldname) file (content file) s)

/-- What has become of files that are done. This is the invariant of the loop; it composes, one file
after another. -/
structure Uploaded (s s' : UploadState) (files : List UploadedFile) : Prop where
  rows : s'.rows = s.rows ++ files.map (rowOf driver env content)
  stored : s'.stored = s.stored ++
    if driver = .local then [] else files.map fun file => (objectIn env content file).key
  object : driver ≠ .local → ∀ file ∈ files, s'.bucket (objectIn env content file).key =
    some ⟨content file, some (objectIn env content file).contentType, none⟩
  disk : driver ≠ .local → ∀ file ∈ files,
    s'.disk (placeIn env content file) =
        (if (env file.fieldname).unlink then some (content file) else none) ∧
      (placeIn env content file ≠ file.path → s'.disk file.path = none)
  other_keys : ∀ key, (∀ file ∈ files, key ≠ (objectIn env content file).key) →
    s'.bucket key = s.bucket key
  other_paths : ∀ path, (∀ file ∈ files, path ≠ file.path ∧ path ≠ placeIn env content file) →
    s'.disk path = s.disk path

variable {driver env content} {s s₁ s' : UploadState} {file : UploadedFile}

theorem doneWith_rows :
    (doneWith driver env content file s).rows = s.rows ++ [rowOf driver env content file] := by
  unfold doneWith savedFile keptFile
  split
  · rfl
  · split <;> rfl

theorem doneWith_stored :
    (doneWith driver env content file s).stored =
      s.stored ++ if driver = .local then [] else [(objectIn env content file).key] := by
  unfold doneWith savedFile keptFile
  split
  · exact (List.append_nil _).symm
  · split <;> rfl

theorem doneWith_bucket :
    (doneWith driver env content file s).bucket =
      if driver = .local then s.bucket
      else s.bucket.upload (objectIn env content file) (content file) := by
  unfold doneWith savedFile keptFile
  split
  · rfl
  · split <;> rfl

/-- The file is where it is stored from, unless it is removed there. -/
theorem doneWith_disk (h : s.disk file.path = some (content file)) (path : List Char) :
    (doneWith driver env content file s).disk path =
      if path = placeIn env content file then
        if driver = .local ∨ (env file.fieldname).unlink = true then some (content file) else none
      else if path = file.path then none
      else s.disk path := by
  have hmoved : ∀ path, s.disk.moved file.path (placeIn env content file) (content file) path =
      if path = placeIn env content file then some (content file)
      else if path = file.path then none else s.disk path := congrFun (Disk.moved_eq h _)
  unfold doneWith savedFile keptFile
  by_cases hdriver : driver = .local
  · simp only [hdriver, if_true, true_or]
    exact hmoved path
  · simp only [hdriver, if_false, false_or]
    cases (env file.fieldname).unlink with
    | true => exact hmoved path
    | false =>
        show Function.update (s.disk.moved file.path (placeIn env content file) (content file))
          (placeIn env content file) none path = _
        by_cases hpath : path = placeIn env content file
        · simp [hpath]
        · simp [hpath, hmoved path]

theorem uploaded_doneWith (h : s.disk file.path = some (content file)) :
    Uploaded driver env content s (doneWith driver env content file s) [file] := by
  refine ⟨doneWith_rows, doneWith_stored, fun hdriver other hother => ?_,
    fun hdriver other hother => ?_, fun key hkey => ?_, fun path hpath => ?_⟩
  · obtain rfl := List.mem_singleton.1 hother
    rw [doneWith_bucket, if_neg hdriver]
    exact if_pos rfl
  · obtain rfl := List.mem_singleton.1 hother
    refine ⟨?_, fun hmoved => ?_⟩
    · simp [doneWith_disk h, hdriver]
    · simp [doneWith_disk h, Ne.symm hmoved]
  · rw [doneWith_bucket]
    split
    · rfl
    · exact if_neg (hkey file List.mem_cons_self)
  · obtain ⟨hold, hnew⟩ := hpath file List.mem_cons_self
    rw [doneWith_disk h, if_neg hnew, if_neg hold]

/-- One file after another. The second one must not touch what the first has left, and lies
elsewhere. -/
theorem Uploaded.cons {files : List UploadedFile}
    (hfile : Uploaded driver env content s s₁ [file])
    (hfiles : Uploaded driver env content s₁ s' files)
    (hkeys : ∀ other ∈ files, (objectIn env content file).key ≠ (objectIn env content other).key)
    (hpaths : ∀ other ∈ files, ∀ path ∈ [file.path, placeIn env content file],
      path ≠ other.path ∧ path ≠ placeIn env content other) :
    Uploaded driver env content s s' (file :: files) := by
  refine ⟨?_, ?_, fun hdriver other hother => ?_, fun hdriver other hother => ?_,
    fun key hkey => ?_, fun path hpath => ?_⟩
  · rw [hfiles.rows, hfile.rows]
    simp
  · rw [hfiles.stored, hfile.stored]
    by_cases hdriver : driver = .local <;> simp [hdriver]
  · rcases List.mem_cons.1 hother with rfl | hother
    · rw [hfiles.other_keys _ hkeys]
      exact hfile.object hdriver other List.mem_cons_self
    · exact hfiles.object hdriver other hother
  · rcases List.mem_cons.1 hother with rfl | hother
    · rw [hfiles.other_paths _ fun other' hother' => hpaths other' hother' _ (by simp),
        hfiles.other_paths _ fun other' hother' => hpaths other' hother' _ (by simp)]
      exact hfile.disk hdriver other List.mem_cons_self
    · exact hfiles.disk hdriver other hother
  · rw [hfiles.other_keys key fun other hother => hkey other (List.mem_cons_of_mem _ hother)]
    exact hfile.other_keys key fun other hother => hkey other (by simp_all)
  · rw [hfiles.other_paths path fun other hother => hpath other (List.mem_cons_of_mem _ hother)]
    exact hfile.other_paths path fun other hother => hpath other (by simp_all)

/-- Files of different fields that lie on the disk: what the loop finds before it comes to them. -/
structure Ready [LowerSlugify] (content : UploadedFile → List UInt8) (s : UploadState)
    (files : List UploadedFile) : Prop where
  fields : (files.map UploadedFile.fieldname).Nodup
  received : ∀ file ∈ files, file.IsFromMulter
  content : ∀ file ∈ files, s.disk file.path = some (content file)

/-- The others of the files are in other fields. -/
theorem Ready.other_fields [LowerSlugify] {files : List UploadedFile}
    (h : Ready content s (file :: files)) :
    ∀ other ∈ files, file.fieldname ≠ other.fieldname := by
  intro other hother heq
  have hnodup := h.fields
  rw [List.map_cons, List.nodup_cons] at hnodup
  exact hnodup.1 (heq ▸ List.mem_map_of_mem hother)

theorem Ready.other_keys [LowerSlugify] {files : List UploadedFile}
    (h : Ready content s (file :: files)) :
    ∀ other ∈ files, (objectIn env content file).key ≠ (objectIn env content other).key :=
  fun other hother => storageKey_ne (h.received file List.mem_cons_self)
    (h.received other (List.mem_cons_of_mem _ hother)) (h.other_fields other hother) _ _

variable (env) in
/-- The other files lie elsewhere. -/
theorem Ready.other_paths [LowerSlugify] {files : List UploadedFile}
    (h : Ready content s (file :: files)) : ∀ other ∈ files, ∀ path ∈ [file.path, placeIn env content file],
      path ≠ other.path ∧ path ≠ placeIn env content other := by
  intro other hother path hpath
  have hne : ∀ sniffed sniffed', reconcileExtension file.path sniffed ≠
      reconcileExtension other.path sniffed' :=
    reconcileExtension_ne (h.received file List.mem_cons_self)
      (h.received other (List.mem_cons_of_mem _ hother)) (h.other_fields other hother)
  rcases List.mem_pair.1 hpath with rfl | rfl
  · exact ⟨hne none none, hne none _⟩
  · exact ⟨hne _ none, hne _ _⟩

variable (driver env) in
theorem Ready.tail [LowerSlugify] {files : List UploadedFile} (h : Ready content s (file :: files)) :
    Ready content (doneWith driver env content file s) files := by
  refine ⟨(List.nodup_cons.1 h.fields).2,
    fun other hother => h.received other (List.mem_cons_of_mem _ hother), fun other hother => ?_⟩
  have hpaths := h.other_paths env other hother
  rw [doneWith_disk (h.content file List.mem_cons_self),
    if_neg (Ne.symm (hpaths (placeIn env content file) (by simp)).1),
    if_neg (Ne.symm (hpaths file.path (by simp)).1)]
  exact h.content other (List.mem_cons_of_mem _ hother)

/-- The first call for a file that fails. -/
def pointOf (driver : FileStorageDriver) (env : Fields → UploadFaults)
    (content : UploadedFile → List UInt8) (file : UploadedFile) : Option Point :=
  failurePoint driver (env file.fieldname) file (content file)

/-- The failure leaves a row: the insert went through, and its answer did not arrive. -/
def Point.leavesRow : Point → Bool
  | .saving .unanswered => true
  | _ => false

/-- The failure leaves an object: it was stored, and a later call fails or the answer did not
arrive. -/
def Point.leavesObject (driver : FileStorageDriver) : Point → Bool
  | .storing .unanswered => true
  | .saving _ => driver ≠ .local
  | _ => false

theorem run_uploadOne_ok (hcontent : s.disk file.path = some (content file))
    (hpoint : pointOf driver env content file = none) :
    (uploadOne driver (env file.fieldname) file).run s =
      (.ok (rowOf driver env content file), doneWith driver env content file s) := by
  rw [pointOf] at hpoint
  rw [run_uploadOne hcontent, hpoint]
  rfl

/-- A state that differs from `s` by what a failure leaves of a file. -/
structure Leaves (driver : FileStorageDriver) (point : Point) (key path : List Char)
    (s s' : UploadState) : Prop where
  rows : s'.rows = s.rows ++ if point.leavesRow then [path] else []
  stored : s'.stored = s.stored ++ if point.leavesObject driver then [key] else []
  object : point.leavesObject driver = true → (s'.bucket key).isSome = true

/-- Moving the file is no part of what a failure leaves. -/
theorem Leaves.of_moved {faults : UploadFaults} {content : List UInt8} {point : Point}
    {key path : List Char}
    (h : Leaves driver point key path (movedFile faults file content s) s') :
    Leaves driver point key path s s' := ⟨h.rows, h.stored, h.object⟩

theorem leaves_leftBy (driver : FileStorageDriver) (faults : UploadFaults) (file : UploadedFile)
    (content : List UInt8) (s : UploadState) (point : Point) :
    Leaves driver point (objectOf faults file content).key (rowPath driver faults file content) s
      (leftBy driver faults file content s point) := by
  -- Up to the insert of the row, what has been done is the same whether the file of the disk could
  -- be removed or not.
  have hput : ((putFile faults file content s).bucket (objectOf faults file content).key).isSome =
      true := by
    simp [putFile, UploadState.put, Bucket.upload, Bucket.put]
  have hkept : Leaves driver (.saving .refused) (objectOf faults file content).key
      (rowPath driver faults file content) s (keptFile driver faults file content s) := by
    unfold keptFile
    by_cases hdriver : driver = .local
    · exact ⟨by simp [hdriver, Point.leavesRow], by simp [hdriver, Point.leavesObject],
        by simp [hdriver, Point.leavesObject]⟩
    · rw [if_neg hdriver]
      cases faults.unlink with
      | true => exact ⟨by simp [Point.leavesRow, putFile, UploadState.put],
          by simp [hdriver, Point.leavesObject, putFile, UploadState.put], fun _ => hput⟩
      | false => exact ⟨by simp [Point.leavesRow, putFile, UploadState.put, UploadState.unlink],
          by simp [hdriver, Point.leavesObject, putFile, UploadState.put, UploadState.unlink],
          fun _ => hput⟩
  cases point with
  | saving fault =>
      cases fault with
      | refused => exact hkept
      | unanswered =>
          refine ⟨?_, hkept.stored, hkept.object⟩
          show (keptFile driver faults file content s).rows ++ _ = _
          rw [hkept.rows]
          simp [Point.leavesRow]
  | storing fault =>
      cases fault with
      | refused => exact ⟨by simp [leftBy, Point.leavesRow], by simp [leftBy, Point.leavesObject],
          by simp [Point.leavesObject]⟩
      | unanswered => exact ⟨by simp [leftBy, putFile, UploadState.put, Point.leavesRow],
          by simp [leftBy, putFile, UploadState.put, Point.leavesObject], fun _ => hput⟩
  | _ => exact ⟨by simp [leftBy, Point.leavesRow], by simp [leftBy, Point.leavesObject],
      by simp [Point.leavesObject]⟩

/-- What a failure leaves of a file. The cases are the calls of the loop, in their order. -/
theorem run_uploadOne_error (hcontent : s.disk file.path = some (content file)) {point : Point}
    (hpoint : pointOf driver env content file = some point) :
    ∃ failure s', (uploadOne driver (env file.fieldname) file).run s = (.error failure, s') ∧
      Leaves driver point (objectIn env content file).key (rowOf driver env content file) s s' := by
  rw [pointOf] at hpoint
  rw [run_uploadOne hcontent, hpoint]
  have hearly := leaves_leftBy driver (env file.fieldname) file (content file) s
  have hlate := fun point => (leaves_leftBy driver (env file.fieldname) file (content file)
    (movedFile (env file.fieldname) file (content file) s) point).of_moved
  cases point with
  | type => exact ⟨_, _, rfl, hearly .type⟩
  | rename => exact ⟨_, _, rfl, hearly .rename⟩
  | reading => exact ⟨_, _, rfl, hlate .reading⟩
  | storing fault => exact ⟨_, _, rfl, hlate (.storing fault)⟩
  | saving fault => exact ⟨_, _, rfl, hlate (.saving fault)⟩

theorem run_uploadFirsts_cons {files : List UploadedFile}
    (hcontent : s.disk file.path = some (content file))
    (hpoint : pointOf driver env content file = none) :
    (uploadFirsts driver env (file :: files)).run s =
      (((uploadFirsts driver env files).run (doneWith driver env content file s)).1.map
          ((file.fieldname, rowOf driver env content file) :: ·),
        ((uploadFirsts driver env files).run (doneWith driver env content file s)).2) := by
  simp only [uploadFirsts, Prog.run_bind, run_uploadOne_ok hcontent hpoint]
  rcases (uploadFirsts driver env files).run (doneWith driver env content file s) with ⟨_ | _, _⟩
  · rfl
  · rfl

/-- A call that fails for the first file ends the loop; the other files are not looked at. -/
theorem run_uploadFirsts_fails (files : List UploadedFile)
    (hcontent : s.disk file.path = some (content file)) {point : Point}
    (hpoint : pointOf driver env content file = some point) :
    ∃ failure s', (uploadFirsts driver env (file :: files)).run s = (.error failure, s') ∧
      Leaves driver point (objectIn env content file).key (rowOf driver env content file) s s' := by
  obtain ⟨failure, s', hrun, hleaves⟩ := run_uploadOne_error hcontent hpoint
  refine ⟨failure, s', ?_, hleaves⟩
  simp only [uploadFirsts, Prog.run_bind, hrun]

/-- **Files that nothing fails for are uploaded.** The induction is on the files; each finds the
others as they were. -/
theorem run_uploadFirsts_ok [LowerSlugify] {files : List UploadedFile} (hready : Ready content s files)
    (hall : ∀ file ∈ files, pointOf driver env content file = none) :
    ∃ response s', (uploadFirsts driver env files).run s = (.ok response, s') ∧
      Uploaded driver env content s s' files := by
  induction files generalizing s with
  | nil => exact ⟨[], s, rfl, by simp, by simp, by simp, by simp, by simp, by simp⟩
  | cons file files ih =>
      have hcontent := hready.content file List.mem_cons_self
      obtain ⟨response, s', hrun, huploaded⟩ := ih (hready.tail driver env) fun other hother =>
        hall other (List.mem_cons_of_mem _ hother)
      rw [run_uploadFirsts_cons hcontent (hall file List.mem_cons_self), hrun]
      exact ⟨_, s', rfl, (uploaded_doneWith hcontent).cons huploaded hready.other_keys
        (hready.other_paths env)⟩

/-- A call that fails for one of the files ends the request, and no row is taken back. -/
theorem run_uploadFirsts_error [LowerSlugify] {files : List UploadedFile}
    (hready : Ready content s files)
    (hsome : ∃ file ∈ files, pointOf driver env content file ≠ none) :
    ∃ failure s', (uploadFirsts driver env files).run s = (.error failure, s') ∧
      s.rows <+: s'.rows := by
  induction files generalizing s with
  | nil =>
      obtain ⟨file, hfile, -⟩ := hsome
      cases hfile
  | cons file files ih =>
      have hcontent := hready.content file List.mem_cons_self
      cases hpoint : pointOf driver env content file with
      -- Nothing fails for this file: the one that something fails for comes later, and the row of
      -- this one stays.
      | none =>
          obtain ⟨other, hother, hfails⟩ := hsome
          have hmem : other ∈ files := by
            rcases List.mem_cons.1 hother with rfl | hmem
            · exact absurd hpoint hfails
            · exact hmem
          obtain ⟨failure, s', hrun, hrows⟩ := ih (hready.tail driver env) ⟨other, hmem, hfails⟩
          rw [run_uploadFirsts_cons hcontent hpoint, hrun]
          refine ⟨failure, s', rfl, List.IsPrefix.trans ?_ hrows⟩
          rw [doneWith_rows]
          exact List.prefix_append _ _
      | some point =>
          obtain ⟨failure, s', hrun, hleaves⟩ := run_uploadFirsts_fails files hcontent hpoint
          refine ⟨failure, s', hrun, ?_⟩
          rw [hleaves.rows]
          exact List.prefix_append _ _

end

end FilesService

/-! ### First files and all files -/

namespace ReceivedFiles

theorem firsts_sublist (files : ReceivedFiles) : (firsts files).Sublist (all files) := by
  induction files with
  | nil => exact List.Sublist.refl _
  | cons entry files ih =>
      obtain ⟨key, others⟩ := entry
      cases others with
      | nil => exact ih
      | cons file others => exact (ih.trans (List.sublist_append_right others _)).cons_cons file

variable [LowerSlugify] {files : ReceivedFiles} {disk : Disk}

theorem map_firsts (h : IsReceived files disk) :
    (firsts files).map UploadedFile.fieldname = files.map Prod.fst := by
  obtain ⟨-, hnonempty, hfieldname, -⟩ := h
  induction files with
  | nil => rfl
  | cons entry files ih =>
      obtain ⟨key, others⟩ := entry
      rw [List.forall_mem_cons] at hnonempty hfieldname
      cases others with
      | nil => exact absurd rfl hnonempty.1
      | cons file others =>
          have hkey : file.fieldname = key := hfieldname.1 file List.mem_cons_self
          exact congrArg₂ List.cons hkey (ih hnonempty.2 hfieldname.2)

/-- No field has two files exactly when all files are first ones. -/
theorem all_eq_firsts_iff (h : IsReceived files disk) :
    all files = firsts files ↔ ((all files).map UploadedFile.fieldname).Nodup := by
  constructor
  · intro heq
    rw [heq, map_firsts h]
    exact h.keys
  · intro hnodup
    obtain ⟨-, hnonempty, hfieldname, -⟩ := h
    induction files with
    | nil => rfl
    | cons entry files ih =>
        obtain ⟨key, others⟩ := entry
        simp only [all, List.flatMap_cons, List.map_append, List.nodup_append] at hnodup
        rw [List.forall_mem_cons] at hnonempty hfieldname
        rcases others with _ | ⟨file, _ | ⟨file', others⟩⟩
        · exact absurd rfl hnonempty.1
        · exact congrArg (List.cons file) (ih hnodup.2.1 hnonempty.2 hfieldname.2)
        · -- two files of one field
          have hsame : file.fieldname = file'.fieldname :=
            (hfieldname.1 file (by simp)).trans (hfieldname.1 file' (by simp)).symm
          simp [hsame] at hnodup

/-- The bytes of a file on the disk. -/
def contents (disk : Disk) (file : UploadedFile) : List UInt8 := (disk file.path).getD []

/-- What multer hands over is ready to be uploaded: the fields differ, and the files are on the
disk. -/
theorem ready_firsts (h : IsReceived files disk) {s : UploadState} (hdisk : s.disk = disk) :
    FilesService.Ready (contents disk) s (firsts files) := by
  refine ⟨by rw [map_firsts h]; exact h.keys, fun file hfile => ?_, fun file hfile => ?_⟩
  · exact (h.written file ((firsts_sublist files).subset hfile)).received
  · obtain ⟨content, hcontent⟩ := (h.written file ((firsts_sublist files).subset hfile)).content
    rw [hdisk, contents, hcontent]
    rfl

end ReceivedFiles

/-! ### Lost files -/

open ReceivedFiles FilesService

/-- The state in which `uploadFile` is called. -/
def UploadState.received (disk : Disk) (bucket : Bucket) (rows : List (List Char)) : UploadState :=
  ⟨disk, bucket, [], rows⟩

/-- Each of the files has a row of its own; in an object storage it has an object, and it does not lie
on the disk any more. -/
structure NoneLost (driver : FileStorageDriver) (env : Fields → UploadFaults) (disk : Disk)
    (rows : List (List Char)) (files : List UploadedFile) (final : UploadState) : Prop where
  rows : ∃ created, final.rows = rows ++ created ∧
    created.Perm (files.map (rowOf driver env (contents disk)))
  stored : driver ≠ .local →
    final.stored.Perm (files.map fun file => (objectIn env (contents disk) file).key)
  object : driver ≠ .local → ∀ file ∈ files, ∃ object,
    final.bucket (objectIn env (contents disk) file).key = some object ∧
      object.body = contents disk file
  temporary : driver ≠ .local → ∀ file ∈ files,
    final.disk file.path = none ∧ final.disk (placeIn env (contents disk) file) = none

section

variable [LowerSlugify] {driver : FileStorageDriver} {env : Fields → UploadFaults}
  {fileSize : Option Nat} {parts : List FilePart} {disk₀ disk : Disk} {files : ReceivedFiles}

theorem received_of_receive (h : Multer.receive fileSize [] disk₀ parts = some (files, disk)) :
    IsReceived files disk ∧
      ((all files).map UploadedFile.fieldname).Perm (parts.map FilePart.fieldname) := by
  have hempty : IsReceived [] disk₀ := ⟨by simp, by simp, by simp, by simp [all]⟩
  exact Multer.receive_spec hempty h

theorem uploadFiles_eq (h : IsReceived files disk) :
    uploadFiles driver env (some files) = uploadFirsts driver env (firsts files) :=
  uploadEach_eq driver env h.nonempty h.fieldname

/-- A run that succeeds has uploaded the first files, and has not looked at the others. -/
theorem uploaded_of_run {bucket : Bucket} {rows : List (List Char)} {final : UploadState}
    {response : List (Fields × List Char)} (h : IsReceived files disk)
    (hrun : (uploadFiles driver env (some files)).run (.received disk bucket rows) =
      (.ok response, final)) :
    Uploaded driver env (contents disk) (.received disk bucket rows) final (firsts files) := by
  have hready := ready_firsts h (s := .received disk bucket rows) rfl
  rw [uploadFiles_eq h] at hrun
  by_cases hall : ∀ file ∈ firsts files, pointOf driver env (contents disk) file = none
  · obtain ⟨response', s', hok, huploaded⟩ := run_uploadFirsts_ok hready hall
    rw [hok] at hrun
    exact (Prod.mk.inj hrun).2 ▸ huploaded
  · push Not at hall
    obtain ⟨failure, s', herror, -⟩ := run_uploadFirsts_error hready hall
    rw [herror] at hrun
    cases (Prod.mk.inj hrun).1

/-- **Which uploads lose nothing**: those of at most one file for each field, whose temporary files can
be removed when they are stored elsewhere. -/
theorem none_lost_iff (bucket : Bucket) (rows : List (List Char))
    (hreceive : Multer.receive fileSize [] disk₀ parts = some (files, disk))
    {response : List (Fields × List Char)} {final : UploadState}
    (hrun : (uploadFiles driver env (some files)).run (.received disk bucket rows) =
      (.ok response, final)) :
    NoneLost driver env disk rows (all files) final ↔
      (parts.map FilePart.fieldname).Nodup ∧
        (driver ≠ .local → ∀ part ∈ parts, (env part.fieldname).unlink = false) := by
  obtain ⟨hreceived, hperm⟩ := received_of_receive hreceive
  have huploaded := uploaded_of_run hreceived hrun
  rw [← hperm.nodup_iff, ← all_eq_firsts_iff hreceived]
  constructor
  · intro h
    -- A row for every file: there are as many files as first ones, so all are first ones.
    have hfirst : all files = firsts files := by
      obtain ⟨created, hrows, hcreated⟩ := h.rows
      obtain rfl := List.append_cancel_left (huploaded.rows.symm.trans hrows)
      have hlength := hcreated.length_eq
      rw [List.length_map, List.length_map] at hlength
      exact ((firsts_sublist files).eq_of_length hlength).symm
    refine ⟨hfirst, fun hdriver part hpart => ?_⟩
    obtain ⟨file, hfile, hfieldname⟩ := List.mem_map.1
      (hperm.mem_iff.2 (List.mem_map_of_mem (f := FilePart.fieldname) hpart))
    -- The file of the disk is gone, which it is not if it could not be removed.
    have hstored := (huploaded.disk hdriver file (hfirst ▸ hfile)).1
    rw [(h.temporary hdriver file hfile).2, hfieldname] at hstored
    by_contra hunlink
    rw [Bool.not_eq_false] at hunlink
    simp [hunlink] at hstored
  · rintro ⟨hfirst, hunlink⟩
    rw [hfirst]
    refine ⟨⟨_, huploaded.rows, List.Perm.refl _⟩, fun hdriver => ?_, fun hdriver file hfile => ?_,
      fun hdriver file hfile => ?_⟩
    · simp [huploaded.stored, hdriver, UploadState.received]
    · exact ⟨_, huploaded.object hdriver file hfile, rfl⟩
    · obtain ⟨part, hpart, hfieldname⟩ := List.mem_map.1
        (hperm.mem_iff.1 (List.mem_map_of_mem (f := UploadedFile.fieldname) (hfirst ▸ hfile)))
      obtain ⟨hplace, hpath⟩ := huploaded.disk hdriver file hfile
      rw [← hfieldname, hunlink hdriver part hpart, if_neg Bool.false_ne_true] at hplace
      refine ⟨?_, hplace⟩
      -- A file whose path was not corrected lies where it is stored from.
      by_cases hsame : placeIn env (contents disk) file = file.path
      · rw [← hsame, hplace]
      · exact hpath hsame

/-! ### What a failed upload leaves -/

/-- Nothing is left of what the request has created. -/
structure NothingLeft (rows : List (List Char)) (final : UploadState) : Prop where
  rows : final.rows = rows
  objects : ∀ key ∈ final.stored, final.bucket key = none

/-- Before anything is created: no call fails, or the first that fails is one for the first file and
comes before its object and its row. -/
def FailsEarly (driver : FileStorageDriver) (env : Fields → UploadFaults)
    (content : UploadedFile → List UInt8) (files : List UploadedFile) : Prop :=
  (∀ file ∈ files, pointOf driver env content file = none) ∨
    ∃ first rest point, files = first :: rest ∧ pointOf driver env content first = some point ∧
      point.leavesRow = false ∧ point.leavesObject driver = false

omit [LowerSlugify] in
theorem failsEarly_cons_none {content : UploadedFile → List UInt8} {file : UploadedFile}
    {others : List UploadedFile} (h : pointOf driver env content file = none) :
    FailsEarly driver env content (file :: others) ↔
      ∀ other ∈ others, pointOf driver env content other = none := by
  rw [FailsEarly, List.forall_mem_cons]
  constructor
  · rintro (hall | ⟨first, rest, point, heq, hfirst, -⟩)
    · exact hall.2
    · obtain ⟨rfl, rfl⟩ := List.cons.inj heq
      rw [h] at hfirst
      cases hfirst
  · exact fun hall => Or.inl ⟨h, hall⟩

omit [LowerSlugify] in
theorem failsEarly_cons_some {content : UploadedFile → List UInt8} {file : UploadedFile}
    {others : List UploadedFile} {point : Point}
    (h : pointOf driver env content file = some point) :
    FailsEarly driver env content (file :: others) ↔
      point.leavesRow = false ∧ point.leavesObject driver = false := by
  rw [FailsEarly, List.forall_mem_cons]
  constructor
  · rintro (hall | ⟨first, rest, point', heq, hfirst, hearly⟩)
    · rw [hall.1] at h
      cases h
    · obtain ⟨rfl, rfl⟩ := List.cons.inj heq
      obtain rfl := Option.some.inj (h.symm.trans hfirst)
      exact hearly
  · exact fun hearly => Or.inr ⟨file, others, point, rfl, h, hearly⟩

omit [LowerSlugify] in
theorem nothingLeft_iff {point : Point} {key path : List Char} {bucket : Bucket}
    {rows : List (List Char)} {final : UploadState}
    (h : Leaves driver point key path (.received disk bucket rows) final) :
    NothingLeft rows final ↔ point.leavesRow = false ∧ point.leavesObject driver = false := by
  have hstored : final.stored = if point.leavesObject driver then [key] else [] := h.stored
  have hrows : final.rows = rows ++ if point.leavesRow then [path] else [] := h.rows
  constructor
  · intro hnothing
    constructor
    · have hsame := hnothing.rows
      rw [hrows] at hsame
      cases hrow : point.leavesRow with
      | false => rfl
      | true => simp [hrow] at hsame
    · cases hobject : point.leavesObject driver with
      | false => rfl
      | true =>
          have hkey := hnothing.objects key (by simp [hstored, hobject])
          have hsome := h.object hobject
          simp [hkey] at hsome
  · rintro ⟨hrow, hobject⟩
    exact ⟨by simp [hrows, hrow], by simp [hstored, hobject]⟩

/-- **Which failed uploads leave nothing**: those that fail before they have created anything. -/
theorem nothing_left_iff (bucket : Bucket) (rows : List (List Char))
    (hreceive : Multer.receive fileSize [] disk₀ parts = some (files, disk)) :
    (∀ failure final, (uploadFiles driver env (some files)).run (.received disk bucket rows) =
        (.error failure, final) → NothingLeft rows final) ↔
      FailsEarly driver env (contents disk) (firsts files) := by
  have hreceived := (received_of_receive hreceive).1
  rw [uploadFiles_eq hreceived]
  have hready := ready_firsts hreceived (s := .received disk bucket rows) rfl
  cases hfiles : firsts files with
  | nil =>
      refine iff_of_true (fun failure final hrun => ?_) (Or.inl (by simp))
      cases (Prod.mk.inj hrun).1
  | cons file others =>
      rw [hfiles] at hready
      have hcontent := hready.content file List.mem_cons_self
      cases hpoint : pointOf driver env (contents disk) file with
      | some point =>
          obtain ⟨failure, s', hrun, hleaves⟩ := run_uploadFirsts_fails others hcontent hpoint
          rw [hrun, failsEarly_cons_some hpoint, ← nothingLeft_iff hleaves]
          refine ⟨fun hnothing => hnothing failure s' rfl, fun hnothing failure' final hfinal => ?_⟩
          obtain ⟨-, rfl⟩ := Prod.mk.inj hfinal
          exact hnothing
      | none =>
          rw [run_uploadFirsts_cons hcontent hpoint, failsEarly_cons_none hpoint]
          by_cases hall : ∀ other ∈ others, pointOf driver env (contents disk) other = none
          · obtain ⟨response, s', hok, -⟩ := run_uploadFirsts_ok (hready.tail driver env) hall
            rw [hok]
            refine iff_of_true (fun failure final hrun => ?_) hall
            cases (Prod.mk.inj hrun).1
          · refine iff_of_false (fun hnothing => ?_) hall
            push Not at hall
            obtain ⟨failure, s', herror, hrows⟩ := run_uploadFirsts_error
              (hready.tail driver env) hall
            rw [herror] at hnothing
            -- the row of the first file stays
            rw [doneWith_rows, (hnothing failure s' rfl).rows] at hrows
            have hlength := hrows.length_le
            simp only [UploadState.received, List.length_append, List.length_cons, List.length_nil]
              at hlength
            omega

end

/-! ### A cat and a dog -/

section

attribute [local instance] plainSlug

def catPart : FilePart := ⟨.topic, "cat.jpg".toList, "image/jpeg", pngBytes, noon⟩

/-- One more picture, for a field. -/
def dogPart (fieldname : Fields) : FilePart :=
  ⟨fieldname, "dog.png".toList, "image/png", pngBytes, noon⟩

/-- What multer makes of it. -/
def dogFile (fieldname : Fields) : UploadedFile :=
  ⟨fieldname, "dog.png".toList, "image/png", Path.join [diskStorage.destination noon fieldname,
    diskStorage.filename noon fieldname "dog.png".toList]⟩

def catAndDogDisk (fieldname : Fields) : Disk :=
  Function.update (Function.update (fun _ => none) misnamedFile.path (some pngBytes))
    (dogFile fieldname).path (some pngBytes)

theorem cat_and_dog_received :
    Multer.receive none [] (fun _ => none) [catPart, dogPart .post] =
      some ([(.topic, [misnamedFile]), (.post, [dogFile .post])], catAndDogDisk .post) := rfl

/-- Two pictures in two fields. -/
theorem cat_and_dog_stored :
    ∃ response final, (uploadFiles .r2 (fun _ => {})
          (some [(.topic, [misnamedFile]), (.post, [dogFile .post])])).run
        (.received (catAndDogDisk .post) (fun _ => none) []) = (.ok response, final) ∧
      NoneLost .r2 (fun _ => {}) (catAndDogDisk .post) [] [misnamedFile, dogFile .post] final := by
  refine ⟨_, _, rfl, ?_⟩
  exact (none_lost_iff (fun _ => none) [] cat_and_dog_received rfl).2
    ⟨by decide, fun _ _ _ => rfl⟩

/-- Two pictures in one field: the second gets no row. -/
theorem second_picture_lost :
    ¬∀ fileSize parts disk₀ files disk driver env bucket rows response final,
      Multer.receive fileSize [] disk₀ parts = some (files, disk) →
      (uploadFiles driver env (some files)).run (.received disk bucket rows) = (.ok response, final) →
      NoneLost driver env disk rows (all files) final := by
  intro hkept
  obtain ⟨created, hrows, hcreated⟩ := (hkept none [catPart, dogPart .topic] (fun _ => none)
    [(.topic, [misnamedFile, dogFile .topic])] (catAndDogDisk .topic) .r2 (fun _ => {})
    (fun _ => none) [] _ _ rfl rfl).rows
  have hone : created = ["images/topics/cat.png".toList] := hrows.symm
  rw [hone] at hcreated
  exact absurd hcreated.length_eq (by simp [all])

/-- An object that the bucket refuses for the first picture. -/
theorem refused_object_leaves_nothing :
    ∃ final, (uploadFiles .r2 (fun _ => { put := some .refused })
          (some [(.topic, [misnamedFile]), (.post, [dogFile .post])])).run
        (.received (catAndDogDisk .post) (fun _ => none) []) = (.error CALL_FAILED, final) ∧
      NothingLeft [] final := by
  refine ⟨_, rfl, ?_⟩
  refine (@nothing_left_iff _ .r2 (fun _ => { put := some .refused }) _ _ _ _ _ (fun _ => none) []
    cat_and_dog_received).2 ?_ CALL_FAILED _ rfl
  exact Or.inr ⟨misnamedFile, [dogFile .post], .storing .refused, rfl, rfl, rfl, rfl⟩

/-- A row that the database refuses, when there is an object already. -/
theorem refused_row_leaves_object :
    ¬∀ fileSize parts disk₀ files disk driver env bucket rows failure final,
      Multer.receive fileSize [] disk₀ parts = some (files, disk) →
      (uploadFiles driver env (some files)).run (.received disk bucket rows) =
        (.error failure, final) → NothingLeft rows final := by
  intro hnothing
  have hleft := (hnothing none [catPart] (fun _ => none) [(.topic, [misnamedFile])]
    (Function.update (fun _ => none) misnamedFile.path (some pngBytes)) .r2
    (fun _ => { save := some .refused }) (fun _ => none) [] _ _ rfl rfl).objects
    "images/topics/cat.png".toList List.mem_cons_self
  cases hleft

end

end VetHealth
