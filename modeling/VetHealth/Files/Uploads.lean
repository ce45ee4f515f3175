import VetHealth.Files.SavedPaths
import VetHealth.Lib.Machine

/-!
# VetHealth.Files.Uploads

**Uploads do not overwrite each other, but for those of topics.** The key of a post's image ends with the
time and a random number. That of a topic's image is a slug of the name the file comes with, and
nothing looks whether the key is taken: the second `cat.svg` replaces the first.

A request with several files is one upload after another. An upload that the storage or the database
fails may have written its key all the same, but it leaves no row.
-/

namespace VetHealth

open Js ImageRefs Transition

structure UploadPresignedDto where
  fileName : List Char
  fileSize : Nat
  field : Fields
  contentType : Option String

/-- Why an upload leaves no row: it is refused, or it is interrupted after the key was written. -/
inductive UploadFailure
  | refused (failure : Failure)
  | payloadTooLarge (message : String)
  | interrupted

/-- What `storage.createPresignedUpload` is given. -/
structure FileStoragePresignedInput where
  key : List Char
  contentType : Option String
  contentLength : Nat

/-- `createPresignedUpload` up to the call of the storage. -/
def FilesService.createPresignedUpload [StrictSlugify] (maxFileSize : Nat)
    (storageDriver : FileStorageDriver) (moment : Moment) (input : UploadPresignedDto) :
    Except UploadFailure FileStoragePresignedInput :=
  match assertFileType input.fileName with
  | .error failure => .error (.refused failure)
  | .ok () =>
      if input.fileSize > maxFileSize then .error (.payloadTooLarge "fileTooLarge")
      else if storageDriver = .local then
        .error (.refused (.unprocessable "presignedUploadNotAvailable"))
      else
        .ok ⟨createStorageKey moment input.field input.fileName, input.contentType, input.fileSize⟩

/-- What an upload comes with. `content` is what its bytes are recognised as. -/
inductive UploadBody
  | multipart (fieldname : Fields) (originalname : List Char) (mimetype : String)
      (content : Option SniffedImage)
  | presigned (input : UploadPresignedDto)

/-- An upload, the clock and the random number at that time, and whether the object storage and the
database go along with it to the end. -/
structure Upload where
  moment : Moment
  completes : Bool
  body : UploadBody

/-- The key that is written to, or that a URL is signed for, and the path of the new row. -/
structure UploadResult where
  key : Option (List Char)
  row : Except UploadFailure (List Char)

namespace Upload

def field (upload : Upload) : Fields :=
  match upload.body with
  | .multipart fieldname _ _ _ => fieldname
  | .presigned input => input.field

/-- The row is saved after the object. An upload that does not complete may leave an object without
a row. -/
def settle (upload : Upload) (key : Option (List Char)) (path : List Char) : UploadResult :=
  ⟨key, if upload.completes then .ok path else .error .interrupted⟩

section

variable [LowerSlugify] [StrictSlugify] (maxFileSize : Nat) (driver : FileStorageDriver)

def respond (upload : Upload) : UploadResult :=
  match upload.body with
  | .multipart fieldname originalname mimetype content =>
      let saved := (receiveFile upload.moment fieldname originalname mimetype).bind fun file =>
        FilesService.uploadFile driver file content
      match saved with
      | .error failure => ⟨none, .error (.refused failure)⟩
      | .ok saved => upload.settle (saved.object.map StoredObject.key) saved.path
  | .presigned input =>
      match FilesService.createPresignedUpload maxFileSize driver upload.moment input with
      | .error failure => ⟨none, .error failure⟩
      | .ok object => upload.settle (some object.key) object.key

/-- The rows of files, by their paths. The uploads come one after the other; each may be refused,
complete or stop halfway. -/
def machine : Machine (List (List Char)) Upload UploadResult where
  step paths upload :=
    let result := upload.respond maxFileSize driver
    (result, match result.row with
      | .ok path => path :: paths
      | .error _ => paths)

/-- What the file of a topic is called below `images/topics/`. -/
def topicName (upload : Upload) : List Char :=
  match upload.body with
  | .multipart _ originalname _ content =>
      FilesService.reconcileExtension (LowerSlugify.slugify originalname) content
  | .presigned input => FilesService.nameOf upload.moment .topic input.fileName

end

/-- The name and the size are let through. -/
def isAccepted (maxFileSize : Nat) (upload : Upload) : Bool :=
  match upload.body with
  | .multipart _ originalname _ _ => isImageName originalname
  | .presigned input => isImageName input.fileName && input.fileSize ≤ maxFileSize

/-- What the names of posts' images end with, but for the extension. -/
def randomSuffix (upload : Upload) : List Char :=
  decimal upload.moment.now ++ '-' :: decimal upload.moment.random

abbrev Step := Entry (List (List Char)) Upload UploadResult

/-- The suffix of a post's image was not drawn before. -/
def DrawsFresh (earlier : List Step) (e : Step) : Prop :=
  e.request.field ≠ .topic →
    ∀ f ∈ earlier, f.request.field ≠ .topic → f.request.randomSuffix ≠ e.request.randomSuffix

/-- No row that was there before refers to the key: whoever has been shown a picture goes on being
shown that picture. -/
def NeverOverwrites (e : Step) : Prop := ∀ key, e.response.key = some key → key ∉ e.before

/-- A topic's image that is accepted is not called like one with a row. -/
def TakesNewName [LowerSlugify] [StrictSlugify] (maxFileSize : Nat) (earlier : List Step) (e : Step) :
    Prop :=
  e.request.isAccepted maxFileSize = true → e.request.field = .topic →
    ∀ f ∈ earlier, f.request.isAccepted maxFileSize = true → f.request.completes = true →
      f.request.field = .topic → f.request.topicName ≠ e.request.topicName

end Upload

/-! ### Extensions and the rest of a name -/

/-- What a name is called up to its first dot. A corrected extension does not touch it. -/
def stem (name : List Char) : List Char := name.takeWhile (· ≠ '.')

/-- An extension, if there is one. -/
def IsExtension (ending : List Char) : Prop := ending = [] ∨ ∃ rest, ending = '.' :: rest

theorem stem_append {ending : List Char} (h : IsExtension ending) (name : List Char) :
    stem (name ++ ending) = stem name := by
  rcases h with rfl | ⟨rest, rfl⟩
  · rw [List.append_nil]
  · rw [stem, stem, List.takeWhile_append]
    split
    · rename_i hall
      have hself : name.takeWhile (· ≠ '.') = name :=
        (List.takeWhile_prefix _).eq_of_length hall
      rw [List.takeWhile_cons_of_neg (by decide), List.append_nil, hself]
    · rfl

theorem isExtension_extname (path : List Char) : IsExtension (Path.extname path) := by
  rw [Path.extname]
  split
  · exact Or.inl rfl
  · exact Or.inr ⟨_, rfl⟩

theorem SniffedImage.isExtension (sniffed : SniffedImage) : IsExtension sniffed.extension := by
  cases sniffed <;> exact Or.inr ⟨_, rfl⟩

/-- A corrected extension leaves what comes before the first dot, and this is enough to keep two
drawn names apart. -/
theorem stem_reconcileExtension {name : List Char} (hname : Path.IsName name)
    (sniffed : Option SniffedImage) :
    stem (FilesService.reconcileExtension name sniffed) = stem name := by
  rcases reconcileExtension_cases hname sniffed with hsame | ⟨front, sniffed', hfront, hchanged⟩
  · rw [hsame]
  · rw [hchanged, stem_append sniffed'.isExtension, ← stem_append (isExtension_extname name),
      ← hfront]

/-! ### The keys -/

/-- A key below the directory of a field. -/
def keyBelow (today : Day) (field : Fields) (name : List Char) : List Char :=
  Path.render (keyDirectory today field ++ [name])

theorem keyBelow_inj {today today' : Day} {field field' : Fields} {name name' : List Char}
    (hname : '/' ∉ name) (hname' : '/' ∉ name')
    (h : keyBelow today field name = keyBelow today' field' name') :
    field = field' ∧ name = name' := by
  have hparts : ∀ (today : Day) (field : Fields) (name : List Char), '/' ∉ name →
      (keyBelow today field name).splitOn '/' = keyDirectory today field ++ [name] := by
    intro today field name hname
    refine List.splitOn_intercalate '/' (fun part hpart => ?_) (by simp)
    rcases List.mem_append.1 hpart with hpart | hpart
    · exact fun hslash =>
        (isSlugChar_ne ((keyDirectory_chars today field part hpart).2 _ hslash).1).1 rfl
    · exact List.mem_singleton.1 hpart ▸ hname
  have hlists := congrArg (List.splitOn '/') h
  rw [hparts today field name hname, hparts today' field' name' hname'] at hlists
  obtain ⟨hdirectory, hlast⟩ := List.append_inj' hlists rfl
  refine ⟨?_, List.cons.inj hlast |>.1⟩
  -- the directories are of different depths
  have hdepth := congrArg List.length hdirectory
  cases field <;> cases field' <;> first | rfl | exact absurd hdepth (by simp [keyDirectory])

/-- What the image of a post is called, but for the extension. -/
def postName (moment : Moment) (field : Fields) : List Char :=
  field.text ++ '-' :: (decimal moment.now ++ '-' :: decimal moment.random)

theorem postName_chars (moment : Moment) (field : Fields) :
    ∀ c ∈ postName moment field, c ≠ '.' ∧ c ≠ '/' := by
  have hdigits : ∀ n, ∀ c ∈ decimal n, c ≠ '.' ∧ c ≠ '/' := by
    intro n c hc
    have halnum := isAlphanum_decimal n c hc
    constructor
    · rintro rfl
      exact absurd halnum (by decide)
    · rintro rfl
      exact absurd halnum (by decide)
  have htext : ∀ c ∈ field.text, c ≠ '.' ∧ c ≠ '/' := by cases field <;> decide
  intro c hc
  simp only [postName, List.mem_append, List.mem_cons] at hc
  rcases hc with hc | rfl | hc | rfl | hc
  · exact htext c hc
  · decide
  · exact hdigits _ c hc
  · decide
  · exact hdigits _ c hc

theorem stem_postName (moment : Moment) (field : Fields) {ending : List Char}
    (h : IsExtension ending) : stem (postName moment field ++ ending) = postName moment field := by
  rw [stem_append h, stem, List.takeWhile_eq_self_iff]
  exact fun c hc => decide_eq_true (postName_chars moment field c hc).1

theorem no_slash_postName (moment : Moment) (field : Fields) {ending : List Char}
    (h : '/' ∉ ending) : '/' ∉ postName moment field ++ ending := by
  intro hmem
  rcases List.mem_append.1 hmem with hmem | hmem
  · exact (postName_chars moment field _ hmem).2 rfl
  · exact h hmem

theorem filename_posts [LowerSlugify] (moment : Moment) {fieldname : Fields}
    (hfield : fieldname ≠ .topic) (originalname : List Char) :
    diskStorage.filename moment fieldname originalname =
      postName moment fieldname ++ Path.extname originalname := by
  simp [diskStorage.filename, hfield, postName]

/-- The extension of a presigned upload. -/
theorem extension_lower {fileName : List Char} (himage : isImageName fileName = true) :
    IsExtension ((Path.extname fileName).map Char.toLower) ∧
      '/' ∉ (Path.extname fileName).map Char.toLower := by
  rcases extname_of_isImageName himage with hext | ⟨ending, hext, htype, -⟩
  · rw [hext]
    exact ⟨Or.inl rfl, List.not_mem_nil⟩
  · have htypes : ∀ type ∈ imageTypes, '/' ∉ '.' :: type := by decide
    rw [hext]
    exact ⟨Or.inr ⟨_, rfl⟩, htypes _ htype⟩

theorem keyBelow_eq (today : Day) (field : Fields) (name : List Char) :
    keyBelow today field name = (FilesService.directoryOf field).text ++
      if field = .post then today.text ++ '/' :: name else name := by
  cases field with
  | topic =>
      have htext : Path.render (keyDirectory today .topic ++ [name]) =
          "images/topics/".toList ++ name := by
        simp [Path.render, keyDirectory, List.intercalate_cons_cons]
      exact htext
  | post =>
      have htext : Path.render (keyDirectory today .post ++ [name]) =
          "images/posts/content/".toList ++ (today.text ++ '/' :: name) := by
        simp [Path.render, keyDirectory, List.intercalate_cons_cons]
      exact htext
  | postFeatured =>
      have htext : Path.render (keyDirectory today .postFeatured ++ [name]) =
          "images/posts/featured/".toList ++ name := by
        simp [Path.render, keyDirectory, List.intercalate_cons_cons]
      exact htext

theorem createStorageKey_topic [StrictSlugify] (moment : Moment) (fileName : List Char) :
    FilesService.createStorageKey moment .topic fileName =
      keyBelow moment.today .topic (FilesService.nameOf moment .topic fileName) := by
  rw [FilesService.createStorageKey_eq, keyBelow_eq, if_neg (by decide)]

theorem createStorageKey_posts [StrictSlugify] (moment : Moment) {field : Fields}
    (hfield : field ≠ .topic) (fileName : List Char) :
    FilesService.createStorageKey moment field fileName =
      keyBelow moment.today field
        (postName moment field ++ (Path.extname fileName).map Char.toLower) := by
  rw [FilesService.createStorageKey_eq, keyBelow_eq]
  cases field with
  | topic => exact absurd rfl hfield
  | post => rfl
  | postFeatured => rfl

/-- What is stored of a file that the disk storage has written. -/
theorem uploadFile_key [LowerSlugify] {driver : FileStorageDriver} (hdriver : driver ≠ .local)
    {moment : Moment} {fieldname : Fields} {originalname : List Char} {mimetype : String}
    {file : UploadedFile} (h : receiveFile moment fieldname originalname mimetype = .ok file)
    (sniffed : Option SniffedImage) :
    ∃ contentType, FilesService.uploadFile driver file sniffed =
      .ok ⟨keyBelow moment.today fieldname (FilesService.reconcileExtension
          (diskStorage.filename moment fieldname originalname) sniffed),
        some ⟨keyBelow moment.today fieldname (FilesService.reconcileExtension
          (diskStorage.filename moment fieldname originalname) sniffed), contentType⟩⟩ := by
  obtain ⟨himage, horiginal, hpath⟩ := receiveFile_path h
  have hfile := isFileName_filename moment fieldname horiginal
  have hname := isName_of_slug (Nat.le_of_succ_le hfile.length) hfile.chars
  obtain ⟨hlength, hchars, -⟩ := reconcileExtension_name hfile sniffed
  have hparts := isName_parts moment.today fieldname hlength hchars
  rw [FilesService.uploadFile, if_pos himage, if_neg hdriver, hpath,
    reconcileExtension_path hname, storageKey_render (by simp) fun part hpart => (hparts part hpart).2]
  exact ⟨_, rfl⟩

namespace Upload

variable [LowerSlugify] [StrictSlugify]

/-- What an upload calls a file in the directory of its key: the name of a topic's file is the
client's, that of a post's is drawn. -/
def Names (upload : Upload) (name : List Char) : Prop :=
  if upload.field = .topic then name = upload.topicName
  else stem name = postName upload.moment upload.field

theorem names_topic {upload : Upload} (h : upload.field = .topic) {name : List Char} :
    upload.Names name ↔ name = upload.topicName := by
  rw [Names, if_pos h]

theorem names_posts {upload : Upload} (h : upload.field ≠ .topic) {name : List Char} :
    upload.Names name ↔ stem name = postName upload.moment upload.field := by
  rw [Names, if_neg h]

theorem names_multipart (moment : Moment) (completes : Bool) (fieldname : Fields)
    {originalname : List Char} (himage : isImageName originalname = true) (mimetype : String)
    (content : Option SniffedImage) :
    Names ⟨moment, completes, .multipart fieldname originalname mimetype content⟩
      (FilesService.reconcileExtension (diskStorage.filename moment fieldname originalname)
        content) := by
  have hfile := isFileName_filename moment fieldname himage
  have hname := isName_of_slug (Nat.le_of_succ_le hfile.length) hfile.chars
  by_cases hfield : fieldname = .topic
  · subst hfield
    exact (names_topic rfl).2 rfl
  · have hstem : stem (FilesService.reconcileExtension
        (diskStorage.filename moment fieldname originalname) content) = postName moment fieldname := by
      rw [stem_reconcileExtension hname, filename_posts moment hfield,
        stem_postName moment fieldname (isExtension_extname originalname)]
    have hposts : field ⟨moment, completes, .multipart fieldname originalname mimetype content⟩ ≠
        .topic := hfield
    exact (names_posts hposts).2 hstem

theorem createStorageKey_names (moment : Moment) (completes : Bool) {input : UploadPresignedDto}
    (himage : isImageName input.fileName = true) :
    ∃ name, Names ⟨moment, completes, .presigned input⟩ name ∧ '/' ∉ name ∧
      FilesService.createStorageKey moment input.field input.fileName =
        keyBelow moment.today input.field name := by
  obtain ⟨hextension, hslash⟩ := extension_lower himage
  by_cases hfield : input.field = .topic
  · have htopic : field ⟨moment, completes, .presigned input⟩ = .topic := hfield
    refine ⟨FilesService.nameOf moment .topic input.fileName, (names_topic htopic).2 rfl, ?_, ?_⟩
    · intro hmem
      rcases List.mem_append.1 hmem with hmem | hmem
      · rcases StrictSlugify.chars _ _ hmem with halnum | hhyphen
        · exact absurd halnum (by decide)
        · exact absurd hhyphen (by decide)
      · exact hslash hmem
    · rw [hfield, createStorageKey_topic]
  · have hposts : field ⟨moment, completes, .presigned input⟩ ≠ .topic := hfield
    exact ⟨_, (names_posts hposts).2 (stem_postName moment input.field hextension),
      no_slash_postName moment input.field hslash,
      createStorageKey_posts moment hfield input.fileName⟩

/-! ### What an upload does -/

variable {maxFileSize : Nat} {driver : FileStorageDriver}

/-- An accepted upload writes a key below the directory of its field, and refers to it in its row,
when there is one. -/
theorem respond_accepted (hdriver : driver ≠ .local) {upload : Upload}
    (h : upload.isAccepted maxFileSize = true) :
    ∃ name, upload.Names name ∧ '/' ∉ name ∧
      upload.respond maxFileSize driver =
        upload.settle (some (keyBelow upload.moment.today upload.field name))
          (keyBelow upload.moment.today upload.field name) := by
  obtain ⟨moment, completes, body⟩ := upload
  cases body with
  | multipart fieldname originalname mimetype content =>
      have himage : isImageName originalname = true := h
      have hfile := isFileName_filename moment fieldname himage
      obtain ⟨hlength, hchars, -⟩ := reconcileExtension_name hfile content
      have hreceived : receiveFile moment fieldname originalname mimetype = .ok _ := if_pos himage
      obtain ⟨contentType, hstored⟩ := uploadFile_key hdriver hreceived content
      refine ⟨_, names_multipart moment completes fieldname himage mimetype content,
        fun hslash => (isSlugChar_ne (hchars _ hslash)).1 rfl, ?_⟩
      simp only [respond, hreceived, Except.bind, hstored, Option.map_some]
      rfl
  | presigned input =>
      obtain ⟨himage, hsize⟩ := Bool.and_eq_true_iff.1 h
      have htype : FilesService.assertFileType input.fileName = .ok () :=
        FilesService.assertFileType_eq_ok.2 himage
      have hfits : ¬input.fileSize > maxFileSize := Nat.not_lt.2 (of_decide_eq_true hsize)
      obtain ⟨name, hnames, hslash, hkey⟩ := createStorageKey_names moment completes himage
      refine ⟨name, hnames, hslash, ?_⟩
      simp only [respond, FilesService.createPresignedUpload, htype, if_neg hfits, if_neg hdriver,
        hkey]
      rfl

/-- An upload that is refused does nothing. -/
theorem respond_refused {upload : Upload} (h : upload.isAccepted maxFileSize = false) :
    ∃ failure, upload.respond maxFileSize driver = ⟨none, .error failure⟩ := by
  obtain ⟨moment, completes, body⟩ := upload
  cases body with
  | multipart fieldname originalname mimetype content =>
      have himage : ¬isImageName originalname = true := Bool.eq_false_iff.1 h
      have hreceived : receiveFile moment fieldname originalname mimetype = .error _ :=
        if_neg himage
      simp only [respond, hreceived, Except.bind]
      exact ⟨_, rfl⟩
  | presigned input =>
      cases himage : isImageName input.fileName with
      | false =>
          have htype : FilesService.assertFileType input.fileName = .error _ :=
            if_neg (Bool.eq_false_iff.1 himage)
          simp only [respond, FilesService.createPresignedUpload, htype]
          exact ⟨_, rfl⟩
      | true =>
          have htype : FilesService.assertFileType input.fileName = .ok () :=
            FilesService.assertFileType_eq_ok.2 himage
          have hsize : input.fileSize > maxFileSize := by simpa [isAccepted, himage] using h
          simp only [respond, FilesService.createPresignedUpload, htype, if_pos hsize]
          exact ⟨_, rfl⟩

/-- Two uploads with one key are of topics, with one name: the other names have the drawn suffix in
them. -/
theorem topicName_of_same_key {u v : Upload} {name name' : List Char} (hname : u.Names name)
    (hname' : v.Names name') (hslash : '/' ∉ name) (hslash' : '/' ∉ name')
    (hfresh : u.field ≠ .topic → v.field ≠ .topic → u.randomSuffix ≠ v.randomSuffix)
    (hkey : keyBelow u.moment.today u.field name = keyBelow v.moment.today v.field name') :
    u.field = .topic ∧ v.field = .topic ∧ u.topicName = v.topicName := by
  obtain ⟨hfield, rfl⟩ := keyBelow_inj hslash hslash' hkey
  by_cases htopic : u.field = .topic
  · have htopic' : v.field = .topic := hfield ▸ htopic
    rw [names_topic htopic] at hname
    rw [names_topic htopic'] at hname'
    exact ⟨htopic, htopic', hname ▸ hname'⟩
  · have htopic' : v.field ≠ .topic := hfield ▸ htopic
    rw [names_posts htopic] at hname
    rw [names_posts htopic', hname, postName, postName, hfield] at hname'
    have hsuffix : u.randomSuffix = v.randomSuffix := (List.cons.inj (List.append_cancel_left hname')).2
    exact absurd hsuffix (hfresh htopic htopic')

theorem keyBelow_of_topicName {u v : Upload} {name name' : List Char} (hname : u.Names name)
    (hname' : v.Names name') (hu : u.field = .topic) (hv : v.field = .topic)
    (h : u.topicName = v.topicName) :
    keyBelow u.moment.today u.field name = keyBelow v.moment.today v.field name' := by
  rw [(names_topic hu).1 hname, (names_topic hv).1 hname', h, hu, hv]
  rfl

/-! ### Runs -/

/-- The rows of a run are those that its uploads have left. No upload takes one away. -/
theorem mem_rows {past : List Step} {paths : List (List Char)}
    (h : (machine maxFileSize driver).Reach [] past paths) {path : List Char} :
    path ∈ paths ↔ ∃ f ∈ past, f.response.row = .ok path := by
  induction h with
  | init => simp
  | @step past paths upload _ ih =>
      have hresponse : ((machine maxFileSize driver).entry paths upload).response =
          upload.respond maxFileSize driver := rfl
      rw [List.exists_mem_cons_iff, hresponse, ← ih]
      show path ∈ (match (upload.respond maxFileSize driver).row with
        | .ok path => path :: paths
        | .error _ => paths) ↔ _
      cases (upload.respond maxFileSize driver).row with
      | ok saved => simp [eq_comm]
      | error failure => simp

/-- Of an accepted upload the row refers to the key. -/
theorem row_of_accepted (hdriver : driver ≠ .local) {upload : Upload} {path : List Char} :
    (upload.respond maxFileSize driver).row = .ok path ↔
      upload.isAccepted maxFileSize = true ∧ upload.completes = true ∧
        (upload.respond maxFileSize driver).key = some path := by
  cases haccepted : upload.isAccepted maxFileSize with
  | false =>
      obtain ⟨failure, hrespond⟩ := @respond_refused _ _ maxFileSize driver upload haccepted
      simp [hrespond]
  | true =>
      obtain ⟨name, -, -, hrespond⟩ := respond_accepted hdriver haccepted
      rw [hrespond, settle]
      cases upload.completes <;> simp

/-- An upload overwrites nothing exactly if it takes a new name. For the images of posts this is up
to what is drawn. -/
theorem neverOverwrites_iff (hdriver : driver ≠ .local) {past : List Step}
    {paths : List (List Char)} (h : (machine maxFileSize driver).Reach [] past paths)
    (upload : Upload) (hfresh : DrawsFresh past ((machine maxFileSize driver).entry paths upload)) :
    NeverOverwrites ((machine maxFileSize driver).entry paths upload) ↔
      TakesNewName maxFileSize past ((machine maxFileSize driver).entry paths upload) := by
  have hresponse : ∀ f ∈ past, f.response = f.request.respond maxFileSize driver :=
    fun f hf => congrArg Entry.response (h.eq_entry hf)
  constructor
  -- A row of an earlier topic with this name refers to the key that is written now.
  · intro hnever haccepted htopic f hf hfaccepted hcompletes hftopic hname
    obtain ⟨name, hnames, -, hrespond⟩ := respond_accepted hdriver haccepted
    obtain ⟨name', hnames', -, hrespond'⟩ := respond_accepted hdriver hfaccepted
    have hsame := keyBelow_of_topicName hnames' hnames hftopic htopic hname
    have hrow : f.response.row = .ok (keyBelow upload.moment.today upload.field name) := by
      rw [hresponse f hf, row_of_accepted hdriver, hrespond']
      exact ⟨hfaccepted, hcompletes, congrArg some hsame⟩
    exact hnever _ (congrArg UploadResult.key hrespond) ((mem_rows h).2 ⟨f, hf, hrow⟩)
  -- A row that refers to the key comes from an accepted upload with the same key, and that one is
  -- of a topic: the draws are fresh.
  · intro hnew key hkey hmem
    obtain ⟨f, hf, hrow⟩ := (mem_rows h).1 hmem
    rw [hresponse f hf, row_of_accepted hdriver] at hrow
    obtain ⟨hfaccepted, hcompletes, hfkey⟩ := hrow
    have haccepted : upload.isAccepted maxFileSize = true := by
      by_contra hrefused
      obtain ⟨failure, hrespond⟩ :=
        @respond_refused _ _ maxFileSize driver upload (Bool.eq_false_iff.2 hrefused)
      rw [Machine.entry_response] at hkey
      have hnone := congrArg UploadResult.key hrespond
      exact absurd (hkey.symm.trans hnone) (by simp)
    obtain ⟨name, hnames, hslash, hrespond⟩ := respond_accepted hdriver haccepted
    obtain ⟨name', hnames', hslash', hrespond'⟩ := respond_accepted hdriver hfaccepted
    have hkeys : keyBelow upload.moment.today upload.field name =
        keyBelow f.request.moment.today f.request.field name' := by
      have hleft : some (keyBelow upload.moment.today upload.field name) = some key :=
        (congrArg UploadResult.key hrespond).symm.trans hkey
      have hright := (congrArg UploadResult.key hrespond').symm.trans hfkey
      exact Option.some.inj (hleft.trans hright.symm)
    obtain ⟨htopic, hftopic, hname⟩ := topicName_of_same_key hnames hnames' hslash hslash'
      (fun hu hv => (hfresh hu f hf hv).symm) hkeys
    exact hnew haccepted htopic f hf hfaccepted hcompletes hftopic hname.symm

/-- Uploads do not overwrite each other in exactly those runs in which the images of topics are called
differently. -/
theorem uploads_never_overwrite (hdriver : driver ≠ .local) {past : List Step}
    {paths : List (List Char)} (h : (machine maxFileSize driver).Reach [] past paths)
    (hfresh : Machine.Along DrawsFresh past) :
    (∀ e ∈ past, NeverOverwrites e) ↔ Machine.Along (TakesNewName maxFileSize) past := by
  induction h with
  | init => simp [Machine.Along]
  | @step past paths upload h ih =>
      rw [List.forall_mem_cons, neverOverwrites_iff hdriver h upload hfresh.1, ih hfresh.2]
      rfl

end Upload

section

attribute [local instance] plainSlug plainStrictSlug

/-- The image of a topic, sent through the server. -/
def topicImage (originalname : String) : Upload :=
  ⟨noon, true, .multipart .topic originalname.toList "image/svg+xml" (some .svg)⟩

/-- The image of a topic, sent to the storage. -/
def presignedTopicImage (fileName : String) : Upload :=
  ⟨noon, true, .presigned ⟨fileName.toList, 2048, .topic, some "image/svg+xml"⟩⟩

def postImage (originalname : String) : Upload :=
  ⟨noon, true, .multipart .post originalname.toList "image/png" (some .png)⟩

def rows (uploads : List Upload) : List Upload.Step × List (List Char) :=
  (Upload.machine 1000000 .r2).run [] uploads

theorem cat_dog_and_photo_kept :
    (rows [topicImage "cat.svg", presignedTopicImage "dog.svg", postImage "Photo.PNG"]).2 =
        ["images/posts/content/2024-05-17/post-1715947200000-271828182.PNG".toList,
          "images/topics/dog.svg".toList, "images/topics/cat.svg".toList] ∧
      ∀ e ∈ (rows [topicImage "cat.svg", presignedTopicImage "dog.svg", postImage "Photo.PNG"]).1,
        Upload.NeverOverwrites e := by
  refine ⟨by decide +kernel, (Upload.uploads_never_overwrite (by decide)
    (Machine.reach_run (Upload.machine 1000000 .r2) [] _) ?_).2 ?_⟩
  · refine And.intro ?_ (And.intro (fun h => absurd rfl h) (And.intro (fun h => absurd rfl h) trivial))
    intro _ f hf hposts
    rcases List.mem_pair.1 hf with rfl | rfl
    · exact absurd rfl hposts
    · exact absurd rfl hposts
  · refine And.intro (fun _ h => by cases h) (And.intro ?_ (And.intro ?_ trivial))
    · intro _ _ f hf _ _ _
      rw [List.mem_singleton.1 hf]
      decide
    · intro _ _ f hf
      cases hf

/-- The second `cat.svg` is written to the key that the row of the first refers to. -/
theorem second_cat_overwrites :
    (Upload.machine 1000000 .r2).Reach [] (rows [topicImage "cat.svg", topicImage "cat.svg"]).1
        (rows [topicImage "cat.svg", topicImage "cat.svg"]).2 ∧
      Machine.Along Upload.DrawsFresh (rows [topicImage "cat.svg", topicImage "cat.svg"]).1 ∧
      ∃ e ∈ (rows [topicImage "cat.svg", topicImage "cat.svg"]).1,
        e.response.key = some "images/topics/cat.svg".toList ∧
          "images/topics/cat.svg".toList ∈ e.before := by
  refine ⟨Machine.reach_run _ _ _, ?_, _, List.mem_cons_self, by rfl, by decide⟩
  exact And.intro (fun h => absurd rfl h) (And.intro (fun h => absurd rfl h) trivial)

end

end VetHealth
