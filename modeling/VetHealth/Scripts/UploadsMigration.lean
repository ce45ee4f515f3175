import VetHealth.Files.ContentTypes
import VetHealth.Files.Config
import VetHealth.Lib.FileTree
import VetHealth.Lib.Shuffle
import VetHealth.Scripts.DotEnv

/-!
# VetHealth.Scripts.UploadsMigration

**The script that copies the uploads into the object storage.** It walks through the directory,
stores every file under the way to it, with a content type by its extension, and then asks the public
address for a sample of the keys.

A walk meets every file once, and files with different ways have different keys, so a run that fails
nowhere leaves the directory in the bucket and nothing else changed (`uploads_migrated`). A run that
is stopped has stored some of the same objects, which makes it harmless to begin anew
(`migration_restarts`).
-/

namespace VetHealth

open Js FileTree

namespace MigrateUploads

/-! ### The arguments -/

structure Args where
  execute : Bool
  uploadsDir : Path.Place
  dotenvFile : Path.Place
  keyPrefix : List Char
  /-- `none` is what is no finite number. -/
  sample : Option ℚ
  referer : Option String

/-- How the script ends before it has done anything. -/
inductive Stop
  | help
  | noValue
  | unknownArgument (token : String)
  | badSample
  | missingVariable (key : List Char)
  | noDirectory
  deriving DecidableEq

/-- `text.replace(/^\/+|\/+$/g, '')`. -/
def stripSlashes (text : List Char) : List Char :=
  (text.dropWhile (· = '/')).rdropWhile (· = '/')

def defaults (cwd : Path.Place) : Args where
  execute := false
  uploadsDir := Path.resolve cwd "uploads".toList
  dotenvFile := Path.resolve cwd ".env".toList
  keyPrefix := []
  sample := some 20
  referer := some ""

/-- The loop of `parseArgs`. -/
def readTokens (cwd : Path.Place) : Args → List String → Except Stop Args
  | args, [] => .ok args
  | args, token :: rest =>
      if token = "--execute" then readTokens cwd { args with execute := true } rest
      else if token = "--uploads-dir" then
        match rest with
        | [] => .error .noValue
        | value :: rest =>
            readTokens cwd { args with uploadsDir := Path.resolve cwd value.toList } rest
      else if token = "--dotenv-file" then
        match rest with
        | [] => .error .noValue
        | value :: rest =>
            readTokens cwd { args with dotenvFile := Path.resolve cwd value.toList } rest
      else if token = "--prefix" then
        match rest with
        | [] => .error .noValue
        | value :: rest => readTokens cwd { args with keyPrefix := stripSlashes value.toList } rest
      else if token = "--sample" then
        match rest with
        | [] => .ok { args with sample := none }
        | value :: rest => readTokens cwd { args with sample := stringToNumber value } rest
      else if token = "--referer" then
        match rest with
        | [] => .ok { args with referer := none }
        | value :: rest => readTokens cwd { args with referer := some value } rest
      else if token = "-h" ∨ token = "--help" then .error .help
      else .error (.unknownArgument token)

/-- `!Number.isInteger(sample) || sample < 1` is false. -/
def isSampleSize (sample : Option ℚ) : Bool := sample.any fun n => n.den = 1 ∧ 1 ≤ n

def parseArgs (cwd : Path.Place) (argv : List String) : Except Stop Args :=
  (readTokens cwd (defaults cwd) argv).bind fun args =>
    if isSampleSize args.sample then .ok args else .error .badSample

/-- The number of a sample that has been checked. -/
def Args.count (args : Args) : Nat := (args.sample.getD 0).num.toNat

/-! ### The directory -/

/-- The entries of a directory. -/
abbrev Directory := List (Entry (List Char) (List UInt8))

structure LocalFile where
  path : List Char
  content : List UInt8

mutual

/-- What `walk` does for an entry of `currentDir`: a file is taken, a directory walked, anything
else passed over. -/
def walkEntry (currentDir : List Char) : Entry (List Char) (List UInt8) → List LocalFile
  | .file name content => [⟨Path.join [currentDir, name], content⟩]
  | .directory name entries => walk (Path.join [currentDir, name]) entries
  | .other _ => []

/-- `walk` of `listFilesRecursive`. -/
def walk (currentDir : List Char) : Directory → List LocalFile
  | [] => []
  | entry :: entries => walkEntry currentDir entry ++ walk currentDir entries

end

def listFilesRecursive (dir : List Char) (entries : Directory) : List LocalFile := walk dir entries

def mimeFromExtension (filePath : List Char) : String :=
  let ext := (Path.extname filePath).map Char.toLower
  if ext = ".jpg".toList ∨ ext = ".jpeg".toList then "image/jpeg"
  else if ext = ".png".toList then "image/png"
  else if ext = ".gif".toList then "image/gif"
  else if ext = ".webp".toList then "image/webp"
  else if ext = ".svg".toList then "image/svg+xml"
  else if ext = ".avif".toList then "image/avif"
  else if ext = ".bmp".toList then "image/bmp"
  else "application/octet-stream"

/-! ### The upload -/

/-- What goes wrong for a file: it cannot be read, it is not stored, or it is and the answer is
lost. -/
inductive Fault
  | read
  | refused
  | lost
  deriving DecidableEq

/-- The object of a `PutObjectCommand`. -/
def LocalFile.object (file : LocalFile) : BucketObject where
  body := file.content
  contentType := some (mimeFromExtension file.path)
  cacheControl := none

def LocalFile.key (keyPrefix uploadsDir : List Char) (file : LocalFile) : List Char :=
  toObjectKey keyPrefix uploadsDir file.path

/-- The loop of `uploadFiles`, which ends at the first file that something goes wrong for. -/
def sendFiles (keyPrefix uploadsDir : List Char) (fault : List Char → Option Fault) :
    List LocalFile → Bucket → Option Fault × Bucket
  | [], bucket => (none, bucket)
  | file :: files, bucket =>
      let stored := bucket.put (file.key keyPrefix uploadsDir) file.object
      match fault file.path with
      | none => sendFiles keyPrefix uploadsDir fault files stored
      | some .lost => (some .lost, stored)
      | some fault => (some fault, bucket)

def uploadFiles (keyPrefix uploadsDir : List Char) (execute : Bool)
    (fault : List Char → Option Fault) (files : List LocalFile) (bucket : Bucket) :
    Option Fault × Bucket :=
  if execute then sendFiles keyPrefix uploadsDir fault files bucket else (none, bucket)

/-! ### The smoke check -/

def sampleArray {α : Type} (draws : Shuffle.Draws) (items : List α) (count : Nat) : List α :=
  if items.length ≤ count then items
  else (Shuffle.shuffle draws items.toArray).toList.take count

structure Smoke where
  ok : Nat
  fail : Nat
  total : Nat

/-- The public URL of a key. -/
def smokeUrl (publicUrl : String) (key : List Char) : String :=
  trimSlash publicUrl ++ "/" ++ String.ofList key

/-- `fetch` answers a URL and a referer with a status, unless it throws. The keys are asked for one
after the other; one that is not served fails the check. -/
def smokeCheck (fetch : String → Option String → Option Nat) (publicUrl : String)
    (keys : List (List Char)) (referer : Option String) : Smoke :=
  keys.foldl (fun smoke key =>
    let status := (fetch (smokeUrl publicUrl key) (referer.filter (· ≠ ""))).getD 0
    if status = 200 then { smoke with ok := smoke.ok + 1 }
    else { smoke with fail := smoke.fail + 1 }) ⟨0, 0, keys.length⟩

/-! ### The script -/

/-- What a run meets. The files of the machine, the network and the random numbers are given; the
bucket is what the script changes. -/
structure World where
  cwd : Path.Place
  env : Environment
  /-- The file at a place. -/
  file : Path.Place → Option (List Char)
  /-- The directory at a place. -/
  directory : Path.Place → Option Directory
  fault : List Char → Option Fault
  draws : Shuffle.Draws
  fetch : Bucket → String → Option String → Option Nat

inductive Ending
  | stopped (why : Stop)
  | nothing
  | failed (fault : Fault)
  | finished (smoke : Smoke) (execute : Bool)

def Ending.exitCode : Ending → Nat
  | .stopped .help | .nothing => 0
  | .stopped _ | .failed _ => 1
  | .finished smoke execute => if execute = true ∧ smoke.fail > 0 then 2 else 0

def required : List (List Char) :=
  ["FILE_S3_ENDPOINT".toList, "FILE_S3_BUCKET".toList, "FILE_S3_ACCESS_KEY".toList,
    "FILE_S3_SECRET_KEY".toList, "FILE_S3_PUBLIC_URL".toList]

/-- The part of `main` that only reads: the arguments, the environment and the files. -/
def prepare (world : World) (argv : List String) :
    Except Stop (Args × Environment × List LocalFile) :=
  (parseArgs world.cwd argv).bind fun args =>
    let env := (MigrateToR2.loadEnvFileIfExists (world.file args.dotenvFile) world.env).2
    match required.find? fun key => !env.isTruthy key with
    | some key => .error (.missingVariable key)
    | none =>
        match world.directory args.uploadsDir with
        | none => .error .noDirectory
        | some entries => .ok (args, env, listFilesRecursive args.uploadsDir.text entries)

/-- The second step of `main`. -/
def checkSample (world : World) (args : Args) (env : Environment) (files : List LocalFile)
    (bucket : Bucket) : Smoke :=
  let sampledFiles := sampleArray world.draws files args.count
  let sampledKeys := sampledFiles.map (LocalFile.key args.keyPrefix args.uploadsDir.text)
  smokeCheck (world.fetch bucket) (.ofList (env.textOr "FILE_S3_PUBLIC_URL".toList)) sampledKeys
    args.referer

def main (world : World) (argv : List String) (bucket : Bucket) : Ending × Bucket :=
  match prepare world argv with
  | .error why => (.stopped why, bucket)
  | .ok (args, env, files) =>
      if files = [] then (.nothing, bucket)
      else
        match uploadFiles args.keyPrefix args.uploadsDir.text args.execute world.fault files
            bucket with
        | (some fault, bucket) => (.failed fault, bucket)
        | (none, bucket) =>
            (.finished (checkSample world args env files bucket) args.execute, bucket)

/-! ### The arguments that matter -/

theorem head_stripSlashes (text : List Char) : (stripSlashes text).head? ≠ some '/' := by
  intro hhead
  obtain ⟨rest, hrest⟩ := List.head?_eq_some_iff.1 hhead
  have hkeyed : stripSlashes text <+: text.dropWhile (· = '/') := List.rdropWhile_prefix _ _
  have hdrop := List.head?_dropWhile_not (· = '/') text
  obtain ⟨more, hmore⟩ := hkeyed
  rw [← hmore, hrest, List.cons_append, List.head?_cons] at hdrop
  simp at hdrop

/-- What reading the arguments leaves of a property of the settings: `--execute` is the only token
that may break one that does not speak of the other options. -/
theorem readTokens_keeps {p : Args → Prop} (cwd : Path.Place)
    (huploads : ∀ args place, p args → p { args with uploadsDir := place })
    (hdotenv : ∀ args place, p args → p { args with dotenvFile := place })
    (hkeyed : ∀ args text, p args → p { args with keyPrefix := stripSlashes text })
    (hsample : ∀ args n, p args → p { args with sample := n })
    (hreferer : ∀ args text, p args → p { args with referer := text })
    {argv : List String} {args args' : Args}
    (hexecute : "--execute" ∈ argv → ∀ args, p args → p { args with execute := true })
    (hargs : p args) (h : readTokens cwd args argv = .ok args') : p args' := by
  have hrest : ∀ {token : String} {rest : List String}, token ∈ rest → ∀ a b : String,
      token ∈ a :: b :: rest := fun hmem _ _ =>
    List.mem_cons_of_mem _ (List.mem_cons_of_mem _ hmem)
  -- The cases are those of the loop over the tokens: a flag, an option with its value, the last
  -- option without one, or a token that is refused.
  fun_induction readTokens cwd args argv with
  | case1 args => exact Except.ok.inj h ▸ hargs
  | case2 args rest ih =>
      exact ih (fun hmem => hexecute (List.mem_cons_of_mem _ hmem))
        (hexecute List.mem_cons_self _ hargs) h
  | case3 => cases h
  | case4 args _ value rest ih => exact ih (fun hmem => hexecute (hrest hmem _ _)) (huploads _ _ hargs) h
  | case5 => cases h
  | case6 args _ _ value rest ih => exact ih (fun hmem => hexecute (hrest hmem _ _)) (hdotenv _ _ hargs) h
  | case7 => cases h
  | case8 args _ _ _ value rest ih =>
      exact ih (fun hmem => hexecute (hrest hmem _ _)) (hkeyed _ _ hargs) h
  | case9 args => exact Except.ok.inj h ▸ hsample _ _ hargs
  | case10 args _ _ _ _ value rest ih =>
      exact ih (fun hmem => hexecute (hrest hmem _ _)) (hsample _ _ hargs) h
  | case11 args => exact Except.ok.inj h ▸ hreferer _ _ hargs
  | case12 args _ _ _ _ _ value rest ih =>
      exact ih (fun hmem => hexecute (hrest hmem _ _)) (hreferer _ _ hargs) h
  | case13 => cases h
  | case14 => cases h

theorem parseArgs_eq_ok {cwd : Path.Place} {argv : List String} {args : Args} :
    parseArgs cwd argv = .ok args ↔
      readTokens cwd (defaults cwd) argv = .ok args ∧ isSampleSize args.sample = true := by
  rw [parseArgs]
  cases hread : readTokens cwd (defaults cwd) argv with
  | error why => simp [Except.bind]
  | ok read =>
      show (if isSampleSize read.sample then Except.ok read else Except.error Stop.badSample) = _ ↔ _
      by_cases hsample : isSampleSize read.sample = true
      · rw [if_pos hsample, Except.ok.injEq]
        exact ⟨fun h => ⟨h, h ▸ hsample⟩, And.left⟩
      · rw [if_neg hsample, Except.ok.injEq]
        refine iff_of_false (fun h => by cases h) ?_
        rintro ⟨rfl, hok⟩
        exact hsample hok

/-- A prefix begins with no slash, as the slashes around it are stripped. -/
theorem head_keyPrefix {cwd : Path.Place} {argv : List String} {args : Args}
    (h : parseArgs cwd argv = .ok args) : args.keyPrefix.head? ≠ some '/' :=
  readTokens_keeps (p := fun args => args.keyPrefix.head? ≠ some '/') cwd (fun _ _ h => h)
    (fun _ _ h => h) (fun _ text _ => head_stripSlashes text) (fun _ _ h => h) (fun _ _ h => h)
    (fun _ _ h => h) (by simp [defaults]) (parseArgs_eq_ok.1 h).1

/-- Only one argument makes the script write. -/
theorem execute_eq_false {cwd : Path.Place} {argv : List String} {args : Args}
    (hargv : "--execute" ∉ argv) (h : parseArgs cwd argv = .ok args) : args.execute = false :=
  readTokens_keeps (p := fun args => args.execute = false) cwd (fun _ _ h => h) (fun _ _ h => h)
    (fun _ _ h => h) (fun _ _ h => h) (fun _ _ h => h) (fun hmem => absurd hmem hargv) rfl
    (parseArgs_eq_ok.1 h).1

/-! ### The keys of a directory -/

mutual

theorem walkEntry_eq (currentDir : List Char) (entry : Entry (List Char) (List UInt8)) :
    walkEntry currentDir entry = (filesOf entry).map fun file =>
      ⟨listFilesRecursive.walk currentDir file.1, file.2⟩ := by
  cases entry with
  | file name content => rfl
  | directory name entries =>
      rw [walkEntry, walk_eq, filesOf, List.map_map]
      rfl
  | other name => rfl

/-- The walk comes to every file below the directory, with the way to it, and to no file twice. -/
theorem walk_eq (currentDir : List Char) (entries : Directory) :
    walk currentDir entries = (filesIn entries).map fun file =>
      ⟨listFilesRecursive.walk currentDir file.1, file.2⟩ := by
  cases entries with
  | nil => rfl
  | cons entry entries => rw [walk, walkEntry_eq, walk_eq, filesIn, List.map_append]

end

/-- The key of a file below the directory: the prefix, if there is one, and the way to the file. -/
def keyAt (keyPrefix : List Char) (way : List (List Char)) : List Char :=
  if keyPrefix = [] then Path.render way else keyPrefix ++ '/' :: Path.render way

/-- The object of a file below the directory: its type is by its name. -/
def objectAt (file : List (List Char) × List UInt8) : BucketObject where
  body := file.2
  contentType := some (mimeFromExtension (file.1.getLastD []))
  cacheControl := none

section

variable {way : List (List Char)} (hne : way ≠ []) (hname : ∀ part ∈ way, Path.IsName part)
  (uploads : Path.Place)

include hne hname

theorem toObjectKey_keyAt {keyPrefix : List Char} (hkeyed : keyPrefix.head? ≠ some '/') :
    toObjectKey keyPrefix uploads.text (listFilesRecursive.walk uploads.text way) =
      keyAt keyPrefix way := by
  obtain ⟨below, hparts, hwalk⟩ := walk_below hname uploads
  have hsplit : Path.render ((Path.render way).splitOn '/') = Path.render way :=
    List.intercalate_splitOn '/'
  cases keyPrefix with
  | nil => exact toObjectKey_walk hne hname uploads
  | cons c cs =>
      have hc : c ≠ '/' := fun hslash => hkeyed (congrArg some hslash)
      rw [toObjectKey, hwalk, Path.relative_below hparts, hsplit, keyAt,
        if_neg (List.cons_ne_nil _ _)]
      simp [hc]

theorem mimeFromExtension_walk :
    mimeFromExtension (listFilesRecursive.walk uploads.text way) =
      mimeFromExtension (way.getLastD []) := by
  obtain ⟨below, hparts, hwalk⟩ := walk_below hname uploads
  obtain ⟨front, last, rfl⟩ : ∃ front last, way = front ++ [last] :=
    ⟨_, _, (List.dropLast_concat_getLast hne).symm⟩
  have hlast : Path.IsName last := hname last (List.mem_append_right _ List.mem_cons_self)
  have hext : Path.extname below.text = Path.extname last := by
    rw [Path.Place.text, hparts, ← List.append_assoc]
    by_cases hfront : uploads.parts ++ front = []
    · have hlead : '/' :: Path.render ([] ++ [last]) = ['/'] ++ last := by simp [Path.render]
      rw [hfront, hlead]
      exact Path.extname_append hlast rfl
    · rw [Path.render_append_singleton hfront]
      have hlead : '/' :: (Path.render (uploads.parts ++ front) ++ '/' :: last) =
          ('/' :: Path.render (uploads.parts ++ front) ++ ['/']) ++ last := by simp
      rw [hlead]
      exact Path.extname_append hlast (by simp)
  rw [hwalk, mimeFromExtension, hext, List.getLastD_concat, mimeFromExtension]

end

/-- Different ways have different keys, so that no file is stored over another one. -/
theorem keyAt_injective {keyPrefix : List Char} {way way' : List (List Char)}
    (hname : ∀ part ∈ way, Path.IsName part) (hname' : ∀ part ∈ way', Path.IsName part)
    (h : keyAt keyPrefix way = keyAt keyPrefix way') : way = way' := by
  have hrender : Path.render way = Path.render way' := by
    rw [keyAt, keyAt] at h
    split at h
    · exact h
    · exact (List.cons.inj (List.append_cancel_left h)).2
  rw [← Path.names_render hname, hrender, Path.names_render hname']

/-! ### The files of a directory -/

section

variable {entries : Directory} (hvalid : AreValid Path.IsName entries) (uploads : Path.Place)
  {keyPrefix : List Char} (hkeyed : keyPrefix.head? ≠ some '/')

include hvalid

theorem object_of_mem {file : List (List Char) × List UInt8} (h : file ∈ filesIn entries) :
    (⟨listFilesRecursive.walk uploads.text file.1, file.2⟩ : LocalFile).object = objectAt file := by
  rw [LocalFile.object, mimeFromExtension_walk (ne_nil_of_mem_filesIn h)
    (isName_of_mem_filesIn hvalid h)]
  rfl

include hkeyed

theorem key_of_mem {file : List (List Char) × List UInt8} (h : file ∈ filesIn entries) :
    (⟨listFilesRecursive.walk uploads.text file.1, file.2⟩ : LocalFile).key keyPrefix uploads.text =
      keyAt keyPrefix file.1 :=
  toObjectKey_keyAt (ne_nil_of_mem_filesIn h) (isName_of_mem_filesIn hvalid h) uploads hkeyed

theorem keys_eq : (MigrateUploads.listFilesRecursive uploads.text entries).map
    (LocalFile.key keyPrefix uploads.text) = (filesIn entries).map fun file =>
      keyAt keyPrefix file.1 := by
  rw [MigrateUploads.listFilesRecursive, walk_eq, List.map_map]
  exact List.map_congr_left fun file hfile => key_of_mem hvalid uploads hkeyed hfile

omit hkeyed in
theorem nodup_keys (keyPrefix : List Char) : ((filesIn entries).map fun file => keyAt keyPrefix file.1).Nodup := by
  have hways : ((filesIn entries).map fun file => keyAt keyPrefix file.1) =
      ((filesIn entries).map Prod.fst).map (keyAt keyPrefix) := by rw [List.map_map]; rfl
  rw [hways]
  refine List.Nodup.map_on ?_ (nodup_filesIn hvalid)
  intro way hway way' hway' heq
  obtain ⟨file, hfile, rfl⟩ := List.mem_map.1 hway
  obtain ⟨file', hfile', rfl⟩ := List.mem_map.1 hway'
  exact keyAt_injective (isName_of_mem_filesIn hvalid hfile) (isName_of_mem_filesIn hvalid hfile') heq

end

/-! ### Storing files -/

/-- The bucket when these files have been stored, one after the other. -/
def storeAll (keyPrefix uploadsDir : List Char) (files : List LocalFile) (bucket : Bucket) : Bucket :=
  files.foldl (fun bucket file => bucket.put (file.key keyPrefix uploadsDir) file.object) bucket

section

variable {keyPrefix uploadsDir : List Char}

theorem storeAll_other {files : List LocalFile} {key : List Char}
    (h : ∀ file ∈ files, key ≠ file.key keyPrefix uploadsDir) (bucket : Bucket) :
    storeAll keyPrefix uploadsDir files bucket key = bucket key := by
  induction files generalizing bucket with
  | nil => rfl
  | cons file files ih =>
      rw [List.forall_mem_cons] at h
      rw [storeAll, List.foldl_cons]
      exact (ih h.2 _).trans (if_neg h.1)

theorem storeAll_same {files : List LocalFile}
    (hnodup : (files.map (LocalFile.key keyPrefix uploadsDir)).Nodup) {file : LocalFile}
    (h : file ∈ files) (bucket : Bucket) :
    storeAll keyPrefix uploadsDir files bucket (file.key keyPrefix uploadsDir) =
      some file.object := by
  induction files generalizing bucket with
  | nil => cases h
  | cons first files ih =>
      rw [List.map_cons, List.nodup_cons] at hnodup
      rw [storeAll, List.foldl_cons]
      rcases List.mem_cons.1 h with rfl | h
      · have hlater : ∀ later ∈ files, file.key keyPrefix uploadsDir ≠ later.key keyPrefix uploadsDir :=
          fun later hlater heq => hnodup.1 (List.mem_map.2 ⟨later, hlater, heq.symm⟩)
        exact (storeAll_other hlater _).trans (if_pos rfl)
      · exact ih hnodup.2 h _

/-- **What a run stores**: the first files, and all of them when nothing goes wrong. -/
theorem sendFiles_spec (keyPrefix uploadsDir : List Char) (fault : List Char → Option Fault) (files : List LocalFile)
    (bucket : Bucket) :
    ∃ n, (sendFiles keyPrefix uploadsDir fault files bucket).2 =
        storeAll keyPrefix uploadsDir (files.take n) bucket ∧
      ((∀ file ∈ files, fault file.path = none) →
        (sendFiles keyPrefix uploadsDir fault files bucket).1 = none ∧ files.take n = files) := by
  induction files generalizing bucket with
  | nil => exact ⟨0, rfl, fun _ => ⟨rfl, rfl⟩⟩
  | cons file files ih =>
      rw [sendFiles]
      cases hfault : fault file.path with
      | none =>
          obtain ⟨n, hbucket, hall⟩ := ih (bucket.put (file.key keyPrefix uploadsDir) file.object)
          refine ⟨n + 1, hbucket, fun hnone => ?_⟩
          obtain ⟨hdone, htake⟩ := hall fun f hf => hnone f (List.mem_cons_of_mem _ hf)
          exact ⟨hdone, by rw [List.take_succ_cons, htake]⟩
      | some reason =>
          have hfails : ¬∀ f ∈ file :: files, fault f.path = none := by
            intro hnone
            rw [hnone file List.mem_cons_self] at hfault
            cases hfault
          cases reason with
          | lost => exact ⟨1, rfl, fun hnone => absurd hnone hfails⟩
          | read => exact ⟨0, rfl, fun hnone => absurd hnone hfails⟩
          | refused => exact ⟨0, rfl, fun hnone => absurd hnone hfails⟩

end

/-! ### The sample -/

section

variable {α : Type} (draws : Shuffle.Draws) (items : List α) (count : Nat)

theorem length_sampleArray : (sampleArray draws items count).length = min count items.length := by
  rw [sampleArray]
  split
  · rename_i hle
    exact (Nat.min_eq_right hle).symm
  · have hlength := (Shuffle.shuffle_perm draws items.toArray).length_eq
    rw [List.length_take, hlength]

theorem sampleArray_subset : sampleArray draws items count ⊆ items := by
  rw [sampleArray]
  split
  · exact List.Subset.refl _
  · exact fun item hitem =>
      (Shuffle.shuffle_perm draws items.toArray).subset (List.take_subset _ _ hitem)

theorem nodup_sampleArray {items : List α} (h : items.Nodup) :
    (sampleArray draws items count).Nodup := by
  rw [sampleArray]
  split
  · exact h
  · exact ((Shuffle.shuffle_perm draws items.toArray).nodup_iff.2 h).sublist (List.take_sublist _ _)

end

/-- A status that the smoke check accepts. -/
def isServed (fetch : String → Option String → Option Nat) (publicUrl : String)
    (referer : Option String) (key : List Char) : Bool :=
  (fetch (smokeUrl publicUrl key) (referer.filter (· ≠ ""))).getD 0 = 200

theorem smokeCheck_eq (fetch : String → Option String → Option Nat) (publicUrl : String)
    (keys : List (List Char)) (referer : Option String) :
    smokeCheck fetch publicUrl keys referer =
      ⟨keys.countP (isServed fetch publicUrl referer),
        keys.countP (fun key => !isServed fetch publicUrl referer key), keys.length⟩ := by
  have hfold : ∀ smoke : Smoke, keys.foldl (fun smoke key =>
      let status := (fetch (smokeUrl publicUrl key) (referer.filter (· ≠ ""))).getD 0
      if status = 200 then { smoke with ok := smoke.ok + 1 }
      else { smoke with fail := smoke.fail + 1 }) smoke =
        ⟨smoke.ok + keys.countP (isServed fetch publicUrl referer),
          smoke.fail + keys.countP (fun key => !isServed fetch publicUrl referer key),
          smoke.total⟩ := by
    induction keys with
    | nil => exact fun smoke => rfl
    | cons key keys ih =>
        intro smoke
        rw [List.foldl_cons, ih, List.countP_cons, List.countP_cons]
        dsimp only
        by_cases hserved : (fetch (smokeUrl publicUrl key) (referer.filter (· ≠ ""))).getD 0 = 200
        · have htrue : isServed fetch publicUrl referer key = true := decide_eq_true hserved
          rw [if_pos hserved, htrue]
          simp [Nat.add_assoc, Nat.add_comm 1]
        · have hfalse : isServed fetch publicUrl referer key = false := decide_eq_false hserved
          rw [if_neg hserved, hfalse]
          simp [Nat.add_assoc, Nat.add_comm 1]
  rw [smokeCheck, hfold]
  simp

/-- The check fails for a key that is not served, wherever in the sample it is. -/
theorem smokeCheck_fails {fetch : String → Option String → Option Nat} {publicUrl : String}
    {keys : List (List Char)} {referer : Option String} :
    (smokeCheck fetch publicUrl keys referer).fail > 0 ↔
      ¬∀ key ∈ keys, isServed fetch publicUrl referer key = true := by
  rw [smokeCheck_eq, gt_iff_lt, List.countP_pos_iff, not_forall]
  simp

/-! ### A run -/

section

variable {world : World} {argv : List String}

theorem prepare_eq_ok {args : Args} {env : Environment} {files : List LocalFile} :
    prepare world argv = .ok (args, env, files) ↔
      parseArgs world.cwd argv = .ok args ∧
        env = (MigrateToR2.loadEnvFileIfExists (world.file args.dotenvFile) world.env).2 ∧
        (∀ key ∈ required, env.isTruthy key = true) ∧
        ∃ entries, world.directory args.uploadsDir = some entries ∧
          files = MigrateUploads.listFilesRecursive args.uploadsDir.text entries := by
  rw [prepare]
  cases hparse : parseArgs world.cwd argv with
  | error why => simp [Except.bind]
  | ok read =>
      simp only [Except.bind]
      -- A variable that is missing ends the preparation, and one that is there does not.
      cases hmissing : required.find? fun key =>
          !(MigrateToR2.loadEnvFileIfExists (world.file read.dotenvFile) world.env).2.isTruthy key with
      | some key =>
          refine iff_of_false (fun h => by cases h) ?_
          rintro ⟨hread, rfl, hall, -⟩
          cases hread
          have hkey := List.find?_some hmissing
          rw [hall key (List.mem_of_find?_eq_some hmissing)] at hkey
          cases hkey
      | none =>
          have hall : ∀ key ∈ required, (MigrateToR2.loadEnvFileIfExists
              (world.file read.dotenvFile) world.env).2.isTruthy key = true := by
            intro key hkey
            have hnot := List.find?_eq_none.1 hmissing key hkey
            simpa using hnot
          -- An unreadable directory ends it, too; otherwise the walk through it gives the files.
          cases hdirectory : world.directory read.uploadsDir with
          | none =>
              refine iff_of_false (fun h => by cases h) ?_
              rintro ⟨hread, -, -, entries, hentries, -⟩
              cases hread
              rw [hdirectory] at hentries
              cases hentries
          | some entries =>
              dsimp only
              constructor
              · intro h
                cases h
                exact ⟨rfl, rfl, hall, entries, hdirectory, rfl⟩
              · rintro ⟨hread, rfl, -, entries', hentries, rfl⟩
                cases hread
                rw [hdirectory] at hentries
                cases hentries
                rfl

/-- **What a run does to the bucket**: nothing, or it stores the first files of the directory. Where
it stops is up to what goes wrong. -/
theorem main_bucket (world : World) (argv : List String) (bucket : Bucket) :
    (main world argv bucket).2 = bucket ∨ ∃ args env files n,
      prepare world argv = .ok (args, env, files) ∧ args.execute = true ∧
        (main world argv bucket).2 =
          storeAll args.keyPrefix args.uploadsDir.text (files.take n) bucket := by
  rw [main]
  cases hprepare : prepare world argv with
  | error why => exact Or.inl rfl
  | ok prepared =>
      obtain ⟨args, env, files⟩ := prepared
      dsimp only
      by_cases hnil : files = []
      · rw [if_pos hnil]
        exact Or.inl rfl
      rw [if_neg hnil]
      have hbucket : ∀ uploaded : Option Fault × Bucket, (match uploaded with
          | (some fault, bucket) => (Ending.failed fault, bucket)
          | (none, bucket) =>
              (Ending.finished (checkSample world args env files bucket) args.execute, bucket)).2 =
            uploaded.2 := by
        rintro ⟨_ | fault, bucket⟩ <;> rfl
      rw [hbucket, uploadFiles]
      cases hexecute : args.execute with
      | false => exact Or.inl rfl
      | true =>
          obtain ⟨n, hstored, -⟩ := sendFiles_spec args.keyPrefix args.uploadsDir.text world.fault files bucket
          exact Or.inr ⟨args, env, files, n, rfl, hexecute, hstored⟩

/-- A run that nothing goes wrong in stores all files and then checks the sample. -/
theorem main_done {args : Args} {env : Environment} {files : List LocalFile}
    (hprepare : prepare world argv = .ok (args, env, files)) (hexecute : args.execute = true)
    (hfault : ∀ file ∈ files, world.fault file.path = none) (bucket : Bucket) :
    let stored := storeAll args.keyPrefix args.uploadsDir.text files bucket
    (main world argv bucket).2 = stored ∧ (main world argv bucket).1.exitCode =
      if (checkSample world args env files stored).fail > 0 then 2 else 0 := by
  intro stored
  rw [main, hprepare]
  dsimp only
  -- An empty directory ends a run early, with nothing to ask for.
  by_cases hnil : files = []
  · rw [if_pos hnil]
    refine ⟨by simp only [stored, hnil]; rfl, ?_⟩
    have hnone : (checkSample world args env files stored).fail = 0 := by
      rw [checkSample, hnil]
      have hempty : sampleArray world.draws ([] : List LocalFile) args.count = [] :=
        if_pos (Nat.zero_le _)
      rw [hempty, smokeCheck_eq]
      rfl
    rw [hnone]
    rfl
  -- No file fails, so that all of them are stored, and the check decides on the exit code.
  · obtain ⟨n, hbucket, hall⟩ :=
      sendFiles_spec args.keyPrefix args.uploadsDir.text world.fault files bucket
    obtain ⟨hdone, htake⟩ := hall hfault
    have hsent : uploadFiles args.keyPrefix args.uploadsDir.text args.execute world.fault files
        bucket = (none, stored) := by
      rw [uploadFiles, if_pos hexecute, ← @Prod.mk.eta _ _ (sendFiles _ _ _ _ _), hdone, hbucket,
        htake]
    rw [if_neg hnil, hsent]
    refine ⟨rfl, ?_⟩
    simp only [Ending.exitCode, hexecute, true_and]

end

/-! ### The bucket afterwards -/

/-- A directory lies in a bucket under a prefix, and nothing else in it has changed. It says of
every key what is stored there. -/
structure Mirrors (keyPrefix : List Char) (entries : Directory) (bucket bucket' : Bucket) : Prop where
  stored : ∀ file ∈ filesIn entries, bucket' (keyAt keyPrefix file.1) = some (objectAt file)
  kept : ∀ key, (∀ file ∈ filesIn entries, key ≠ keyAt keyPrefix file.1) → bucket' key = bucket key

/-- A bucket in which some of a directory lies. It does not matter which files, nor how many runs
have brought them there. -/
def Begun (keyPrefix : List Char) (entries : Directory) (bucket bucket' : Bucket) : Prop :=
  ∀ key, bucket' key = bucket key ∨
    ∃ file ∈ filesIn entries, key = keyAt keyPrefix file.1 ∧ bucket' key = some (objectAt file)

section

variable {keyPrefix : List Char} {entries entries' : Directory} {bucket bucket' bucket'' : Bucket}

theorem Begun.refl : Begun keyPrefix entries bucket bucket := fun _ => Or.inl rfl

theorem Begun.trans (h : Begun keyPrefix entries bucket bucket')
    (h' : Begun keyPrefix entries bucket' bucket'') : Begun keyPrefix entries bucket bucket'' := by
  intro key
  rcases h' key with hsame | hstored
  · rw [hsame]
    exact h key
  · exact Or.inr hstored

theorem Begun.mirrors (h : Begun keyPrefix entries bucket bucket')
    (h' : Mirrors keyPrefix entries bucket' bucket'') : Mirrors keyPrefix entries bucket bucket'' := by
  refine ⟨h'.stored, fun key hkey => (h'.kept key hkey).trans ?_⟩
  rcases h key with hsame | ⟨file, hfile, heq, -⟩
  · exact hsame
  · exact absurd heq (hkey file hfile)

theorem Begun.congr (hsame : ∀ file, file ∈ filesIn entries' ↔ file ∈ filesIn entries)
    (h : Begun keyPrefix entries' bucket bucket') : Begun keyPrefix entries bucket bucket' := by
  intro key
  refine (h key).imp_right ?_
  rintro ⟨file, hfile, hkey⟩
  exact ⟨file, (hsame file).1 hfile, hkey⟩

theorem Mirrors.congr (hsame : ∀ file, file ∈ filesIn entries' ↔ file ∈ filesIn entries)
    (h : Mirrors keyPrefix entries' bucket bucket') : Mirrors keyPrefix entries bucket bucket' :=
  ⟨fun file hfile => h.stored file ((hsame file).2 hfile),
    fun key hkey => h.kept key fun file hfile => hkey file ((hsame file).1 hfile)⟩

variable (hvalid : AreValid Path.IsName entries) (uploads : Path.Place)
  (hkeyed : keyPrefix.head? ≠ some '/')

include hvalid hkeyed

theorem mirrors_storeAll (bucket : Bucket) : Mirrors keyPrefix entries bucket
    (storeAll keyPrefix uploads.text (MigrateUploads.listFilesRecursive uploads.text entries)
      bucket) := by
  have hlisted := walk_eq uploads.text entries
  constructor
  · intro file hfile
    have hnodup := nodup_keys hvalid keyPrefix
    rw [← keys_eq hvalid uploads hkeyed] at hnodup
    have hmem : (⟨listFilesRecursive.walk uploads.text file.1, file.2⟩ : LocalFile) ∈
        MigrateUploads.listFilesRecursive uploads.text entries := by
      rw [MigrateUploads.listFilesRecursive, hlisted]
      exact List.mem_map_of_mem hfile
    have hstored := storeAll_same hnodup hmem bucket
    rwa [key_of_mem hvalid uploads hkeyed hfile, object_of_mem hvalid uploads hfile] at hstored
  · intro key hkey
    refine storeAll_other (fun local' hlocal => ?_) bucket
    rw [MigrateUploads.listFilesRecursive, hlisted] at hlocal
    obtain ⟨file, hfile, rfl⟩ := List.mem_map.1 hlocal
    rw [key_of_mem hvalid uploads hkeyed hfile]
    exact hkey file hfile

theorem begun_storeAll (n : Nat) (bucket : Bucket) : Begun keyPrefix entries bucket
    (storeAll keyPrefix uploads.text
      ((MigrateUploads.listFilesRecursive uploads.text entries).take n) bucket) := by
  have hlisted := walk_eq uploads.text entries
  have hnodup := nodup_keys hvalid keyPrefix
  rw [← keys_eq hvalid uploads hkeyed] at hnodup
  intro key
  by_cases hkey : ∃ stored ∈ (MigrateUploads.listFilesRecursive uploads.text entries).take n,
      key = stored.key keyPrefix uploads.text
  · obtain ⟨stored, hmem, rfl⟩ := hkey
    have hfiles := List.mem_of_mem_take hmem
    rw [MigrateUploads.listFilesRecursive, hlisted] at hfiles
    obtain ⟨file, hfile, rfl⟩ := List.mem_map.1 hfiles
    refine Or.inr ⟨file, hfile, key_of_mem hvalid uploads hkeyed hfile, ?_⟩
    rw [storeAll_same (List.Nodup.sublist ((List.take_sublist n _).map _) hnodup) hmem,
      object_of_mem hvalid uploads hfile]
  · refine Or.inl (storeAll_other (fun stored hmem heq => hkey ⟨stored, hmem, heq⟩) bucket)

end

/-! ### The migration -/

/-- What the variables are for a run. -/
def loadedEnv (world : World) (args : Args) : Environment :=
  (MigrateToR2.loadEnvFileIfExists (world.file args.dotenvFile) world.env).2

/-- A run that is to copy a directory, for which nothing goes wrong: it is configured, it can read
the directory and every file, and every object is stored. -/
structure Completes (world : World) (argv : List String) (args : Args) (entries : Directory) :
    Prop where
  parsed : parseArgs world.cwd argv = .ok args
  execute : args.execute = true
  configured : ∀ key ∈ required, (loadedEnv world args).isTruthy key = true
  directory : world.directory args.uploadsDir = some entries
  valid : AreValid Path.IsName entries
  unfailing : ∀ path, world.fault path = none

theorem Completes.prepare {world : World} {argv : List String} {args : Args} {entries : Directory}
    (h : Completes world argv args entries) : prepare world argv =
      .ok (args, loadedEnv world args,
        MigrateUploads.listFilesRecursive args.uploadsDir.text entries) :=
  prepare_eq_ok.2 ⟨h.parsed, rfl, h.configured, entries, h.directory, rfl⟩

theorem Completes.mirrors {world : World} {argv : List String} {args : Args} {entries : Directory}
    (h : Completes world argv args entries) (bucket : Bucket) :
    Mirrors args.keyPrefix entries bucket (main world argv bucket).2 := by
  rw [(main_done h.prepare h.execute (fun file _ => h.unfailing file.path) bucket).1]
  exact mirrors_storeAll h.valid args.uploadsDir (head_keyPrefix h.parsed) bucket

/-- The keys that the smoke check asks for: those of the sampled files. The random numbers, the
arguments and the directory determine them, and nothing that the public address answers does. -/
def sampledKeys (draws : Shuffle.Draws) (args : Args) (entries : Directory) : List (List Char) :=
  (sampleArray draws (MigrateUploads.listFilesRecursive args.uploadsDir.text entries) args.count).map
    (LocalFile.key args.keyPrefix args.uploadsDir.text)

/-- The sample has no key twice, and is of the size that was asked for, or of all files. -/
theorem sampledKeys_spec {world : World} {argv : List String} {args : Args} {entries : Directory}
    (h : Completes world argv args entries) (draws : Shuffle.Draws) :
    (sampledKeys draws args entries).Nodup ∧
      sampledKeys draws args entries ⊆
        (filesIn entries).map (fun file => keyAt args.keyPrefix file.1) ∧
      (sampledKeys draws args entries).length = min args.count (filesIn entries).length := by
  have hkeys := keys_eq h.valid args.uploadsDir (head_keyPrefix h.parsed)
  have hnodup := nodup_keys h.valid args.keyPrefix
  rw [← hkeys] at hnodup
  have hsubset := sampleArray_subset draws
    (MigrateUploads.listFilesRecursive args.uploadsDir.text entries) args.count
  refine ⟨?_, ?_, ?_⟩
  · refine List.Nodup.map_on (fun file hfile file' hfile' heq => ?_)
      (nodup_sampleArray draws args.count hnodup.of_map)
    exact List.inj_on_of_nodup_map hnodup (hsubset hfile) (hsubset hfile') heq
  · rw [← hkeys]
    exact List.map_subset _ hsubset
  · rw [sampledKeys, List.length_map, length_sampleArray]
    have hlength := congrArg List.length hkeys
    rw [List.length_map, List.length_map] at hlength
    rw [hlength]

/-- **A run that nothing goes wrong in** leaves the directory in the bucket, and nothing else changed.
It asks for the keys of the sample, each of which is the key of a file and none of which it asks for
twice, and ends without an error exactly when all of them are served. -/
theorem uploads_migrated {world : World} {argv : List String} {args : Args} {entries : Directory}
    (h : Completes world argv args entries) (bucket : Bucket) :
    Mirrors args.keyPrefix entries bucket (main world argv bucket).2 ∧
      (sampledKeys world.draws args entries).Nodup ∧
      sampledKeys world.draws args entries ⊆
        (filesIn entries).map (fun file => keyAt args.keyPrefix file.1) ∧
      (sampledKeys world.draws args entries).length = min args.count (filesIn entries).length ∧
      (main world argv bucket).1.exitCode =
        if ∀ key ∈ sampledKeys world.draws args entries,
            isServed (world.fetch (main world argv bucket).2)
              (.ofList ((loadedEnv world args).textOr "FILE_S3_PUBLIC_URL".toList)) args.referer key =
                true then 0 else 2 := by
  obtain ⟨hnodup, hsubset, hlength⟩ := sampledKeys_spec h world.draws
  refine ⟨h.mirrors bucket, hnodup, hsubset, hlength, ?_⟩
  obtain ⟨hbucket, hexit⟩ :=
    main_done h.prepare h.execute (fun file _ => h.unfailing file.path) bucket
  rw [hexit, ← hbucket, sampledKeys]
  split
  · rename_i hfail
    exact (if_neg (smokeCheck_fails.1 hfail)).symm
  · rename_i hfail
    exact (if_pos (not_not.1 fun hnot => hfail (smokeCheck_fails.2 hnot))).symm

/-! ### A run for two files -/

/-- A working directory with two uploads. -/
def twoUploads : Directory :=
  [.directory "images".toList [.file "cat.PNG".toList [1], .other "link".toList],
    .file "notes".toList [2, 3]]

/-- Everything is configured, and whatever is stored is served. -/
def healthy : World where
  cwd := .srv
  env := fun _ => some "https://cdn.vethealth.test/".toList
  file := fun _ => none
  directory := fun _ => some twoUploads
  fault := fun _ => none
  draws := fun i => ⟨0, i.succ_pos⟩
  fetch := fun _ _ _ => some 200

def executing : Args := { defaults healthy.cwd with execute := true }

theorem isName_twoUploads : AreValid Path.IsName twoUploads := by
  simp only [twoUploads, AreValid, IsValid, List.forall_mem_cons, Entry.name]
  decide

theorem completes_healthy : Completes healthy ["--execute"] executing twoUploads where
  parsed := parseArgs_eq_ok.2 ⟨rfl, by decide⟩
  execute := rfl
  configured := by decide
  directory := rfl
  valid := isName_twoUploads
  unfailing _ := rfl

/-- Both files are copied and both are asked for, and the run ends without an error. -/
theorem two_uploads_migrated :
    (main healthy ["--execute"] fun _ => none).2 "images/cat.PNG".toList =
        some ⟨[1], some "image/png", none⟩ ∧
      (sampledKeys healthy.draws executing twoUploads).length = 2 ∧
      (main healthy ["--execute"] fun _ => none).1.exitCode = 0 := by
  obtain ⟨hmirrors, -, -, hlength, hexit⟩ := uploads_migrated completes_healthy fun _ => none
  have hfile : (["images".toList, "cat.PNG".toList], [1]) ∈ filesIn twoUploads := by decide
  refine ⟨hmirrors.stored _ hfile, hlength, hexit.trans (if_pos fun key _ => ?_)⟩
  exact decide_eq_true rfl

/-! ### Beginning anew -/

/-- A run that, if it writes at all, copies the same files under the same prefix. The directory may
be read in another order, which is what makes a run that was stopped hard to resume: the files that
it did not come to may be any of them. A run with another prefix, or after a file has changed, is no
resumption of the first but another migration. -/
def CopiesFrom (keyPrefix : List Char) (entries : Directory) (world : World) (argv : List String) :
    Prop :=
  ∀ args env files, prepare world argv = .ok (args, env, files) → args.execute = true →
    args.keyPrefix = keyPrefix ∧ ∃ entries', world.directory args.uploadsDir = some entries' ∧
      AreValid Path.IsName entries' ∧ ∀ file, file ∈ filesIn entries' ↔ file ∈ filesIn entries

theorem CopiesFrom.begun {keyPrefix : List Char} {entries : Directory} {world : World}
    {argv : List String} (h : CopiesFrom keyPrefix entries world argv) (bucket : Bucket) :
    Begun keyPrefix entries bucket (main world argv bucket).2 := by
  rcases main_bucket world argv bucket with hsame | ⟨args, env, files, n, hprepare, hexecute, hbucket⟩
  · rw [hsame]
    exact Begun.refl
  · obtain ⟨rfl, entries', hdirectory, hvalid, hfiles⟩ := h args env files hprepare hexecute
    obtain ⟨hparsed, -, -, listed, hlisted, rfl⟩ := prepare_eq_ok.1 hprepare
    rw [hdirectory] at hlisted
    obtain rfl := Option.some.inj hlisted
    rw [hbucket]
    exact (begun_storeAll hvalid args.uploadsDir (head_keyPrefix hparsed) n bucket).congr hfiles

/-- What runs one after the other make of the bucket, the first of the list first. -/
def attempts (runs : List (World × List String)) (bucket : Bucket) : Bucket :=
  runs.foldl (fun bucket run => (main run.1 run.2 bucket).2) bucket

theorem begun_attempts {keyPrefix : List Char} {entries : Directory}
    {runs : List (World × List String)}
    (h : ∀ run ∈ runs, CopiesFrom keyPrefix entries run.1 run.2) (bucket : Bucket) :
    Begun keyPrefix entries bucket (attempts runs bucket) := by
  induction runs generalizing bucket with
  | nil => exact Begun.refl
  | cons run runs ih =>
      rw [List.forall_mem_cons] at h
      exact (h.1.begun bucket).trans (ih h.2 _)

/-- **A migration may be begun anew**, with the same prefix and over the same files. However many runs
were stopped, wherever and for whatever reason, the bucket holds at every key what it held or the
file that belongs there; a run that nothing goes wrong in then does what it would have done at first.
Without `--execute` nothing changes. -/
theorem migration_restarts {keyPrefix : List Char} {entries : Directory}
    {runs : List (World × List String)}
    (hruns : ∀ run ∈ runs, CopiesFrom keyPrefix entries run.1 run.2)
    {world : World} {argv : List String} {args : Args} {entries' : Directory}
    (hlast : Completes world argv args entries') (hcopies : CopiesFrom keyPrefix entries world argv)
    (bucket : Bucket) :
    Begun keyPrefix entries bucket (attempts runs bucket) ∧
      Mirrors keyPrefix entries bucket (main world argv (attempts runs bucket)).2 ∧
      ((∀ run ∈ runs, "--execute" ∉ run.2) → attempts runs bucket = bucket) := by
  refine ⟨begun_attempts hruns bucket, ?_, fun hdry => ?_⟩
  -- What is mirrored are the files of the last run, and these are those of the former ones, in
  -- whatever order they are read.
  · obtain ⟨hkeyed, listed, hlisted, -, hfiles⟩ := hcopies _ _ _ hlast.prepare hlast.execute
    rw [hlast.directory] at hlisted
    obtain rfl := Option.some.inj hlisted
    have hmirrors := (hlast.mirrors (attempts runs bucket)).congr hfiles
    rw [hkeyed] at hmirrors
    exact (begun_attempts hruns bucket).mirrors hmirrors
  · clear hruns
    induction runs generalizing bucket with
    | nil => rfl
    | cons run runs ih =>
        rw [List.forall_mem_cons] at hdry
        -- A run without the flag never writes: what it does to the bucket would have needed it.
        have hsame : (main run.1 run.2 bucket).2 = bucket := by
          rcases main_bucket run.1 run.2 bucket with hsame | ⟨args, env, files, n, hprepare, hexecute, -⟩
          · exact hsame
          · rw [execute_eq_false hdry.1 (prepare_eq_ok.1 hprepare).1] at hexecute
            cases hexecute
        rw [attempts, List.foldl_cons, hsame]
        exact ih bucket hdry.2

/-- The second file cannot be read. -/
def unreadable : World :=
  { healthy with
    fault := fun path => if path = "/srv/uploads/notes".toList then some .read else none }

theorem copiesFrom_healthy (fault : List Char → Option Fault) :
    CopiesFrom [] twoUploads { healthy with fault := fault } ["--execute"] := by
  intro args env files hprepare _
  have hargs : parseArgs healthy.cwd ["--execute"] = .ok executing := completes_healthy.parsed
  obtain rfl := Except.ok.inj (hargs.symm.trans (prepare_eq_ok.1 hprepare).1)
  exact ⟨rfl, twoUploads, rfl, isName_twoUploads, fun _ => Iff.rfl⟩

/-- A run that is stopped at the second file, and one that is not. -/
theorem two_uploads_restarted :
    (main healthy ["--execute"] (attempts [(unreadable, ["--execute"])] fun _ => none)).2
      "notes".toList = some ⟨[2, 3], some "application/octet-stream", none⟩ := by
  have hruns : ∀ run ∈ [(unreadable, ["--execute"])], CopiesFrom [] twoUploads run.1 run.2 := by
    intro run hrun
    rw [List.mem_singleton.1 hrun]
    exact copiesFrom_healthy unreadable.fault
  have hmirrors := (migration_restarts hruns completes_healthy (copiesFrom_healthy healthy.fault)
    fun _ => none).2.1
  have hfile : (["notes".toList], [2, 3]) ∈ filesIn twoUploads := by decide
  exact hmirrors.stored _ hfile

/-! ### The choice of a sample -/

/-- **The sample is unbiased**: of the draws of a shuffle, which are as many as the orders of the
items, each sample is taken by as many as the orders of the items it leaves out. -/
theorem sample_unbiased {α : Type} [DecidableEq α] {items : List α} (hnodup : items.Nodup)
    {sample : List α} (hsample : sample.Nodup) (hsub : sample ⊆ items)
    (hcount : sample.length < items.length) :
    Fintype.card (Shuffle.DrawsFor items.length) = items.length.factorial ∧
      (Finset.univ.filter fun draws : Shuffle.DrawsFor items.length =>
        sampleArray draws.extend items sample.length = sample).card =
          (items.length - sample.length).factorial := by
  refine ⟨Shuffle.card_drawsFor _, ?_⟩
  have hcard := @Shuffle.card_sample α _ items.toArray hnodup sample hsample hsub
  simp only [sampleArray, if_neg (Nat.not_le.2 hcount)]
  exact hcard

theorem sample_of_three :
    (Finset.univ.filter fun draws : Shuffle.DrawsFor 3 =>
      sampleArray draws.extend [1, 2, 3] 1 = [2]).card = 2 :=
  (@sample_unbiased Nat _ [1, 2, 3] (by decide) [2] (by decide) (by decide) (by decide)).2

end MigrateUploads

end VetHealth
