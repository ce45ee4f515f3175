import Mathlib.Data.List.DropRight
import VetHealth.Common.Validation
import VetHealth.Files.Keys

/-!
# VetHealth.Files.Config

**The configuration of the file storage**, as `file.config` makes it of the environment: it refuses
an environment that names an object storage without what the storage needs, and one that gives
neither of the two public addresses. From a configuration `FileEntity.updatePath` and
`S3CompatibleFileStorageService.getPublicUrl` compute the public URL of a key.
-/

namespace VetHealth

open Js

/-! ### Texts that may be absent or empty -/

/-- A text that `||` takes. -/
def truthyText (value : Option String) : Option String := value.filter (· ≠ "")

/-- `text.replace(/\/$/, '')`. -/
def trimSlash (text : String) : String :=
  if text.toList.getLast? = some '/' then .ofList text.toList.dropLast else text

/-- `text.replace(/\/+$/, '')`. -/
def trimSlashes (text : String) : String := .ofList (text.toList.rdropWhile (· = '/'))

/-- `text.replace(/^\/+/, '')`. -/
def dropSlashes (text : String) : String := .ofList (text.toList.dropWhile (· = '/'))

/-! ### The environment -/

/-- The variables of `process.env` that concern the file storage. -/
structure ProcessEnv where
  FILE_STORAGE_DRIVER : Option String := none
  FILE_S3_ENDPOINT : Option String := none
  FILE_S3_ACCESS_KEY : Option String := none
  FILE_S3_SECRET_KEY : Option String := none
  FILE_S3_BUCKET : Option String := none
  FILE_S3_REGION : Option String := none
  FILE_S3_PUBLIC_URL : Option String := none
  FILE_CDN_BASE_URL : Option String := none
  FILE_S3_FORCE_PATH_STYLE : Option String := none
  FILE_CDN_INCLUDE_BUCKET_IN_PATH : Option String := none
  FILE_MAX_SIZE : Option String := none

namespace FileStorageDriver

def text : FileStorageDriver → String
  | .local => "local"
  | .s3 => "s3"
  | .r2 => "r2"
  | .seaweed => "seaweed"

def ofText (text : String) : Option FileStorageDriver :=
  [.local, .s3, .r2, .seaweed].find? fun driver => driver.text = text

/-- `[FileStorageDriver.S3, FileStorageDriver.R2, FileStorageDriver.Seaweed].includes(driver)`. -/
def isObjectStorage (driver : FileStorageDriver) : Bool := [.s3, .r2, .seaweed].contains driver

theorem isObjectStorage_eq_true {driver : FileStorageDriver} :
    driver.isObjectStorage = true ↔ driver ≠ .local := by
  cases driver <;> decide

end FileStorageDriver

/-- Why a configuration is refused: variables that fail their checks, or a message. Either stops the
start of the backend. -/
inductive ConfigError
  | invalid (names : List String)
  | error (message : String)
  deriving DecidableEq

namespace EnvironmentVariablesValidator

variable (env : ProcessEnv)

/-- A variable that is checked only with an object storage: `@IsString()`, also when it is absent. -/
def required (name : String) (value : Option String) : Property :=
  ⟨name, !(env.FILE_STORAGE_DRIVER.bind FileStorageDriver.ofText).any
      FileStorageDriver.isObjectStorage, [(value.isSome, name ++ " must be a string")]⟩

/-- A variable with `@IsOptional()`. -/
def optional (name : String) (value : Option String) (check : String → Bool) (message : String) :
    Property :=
  ⟨name, value.isNone, [(value.any check, name ++ message)]⟩

/-- The checks, on the values that the implicit conversion makes: every text is a string, and every
text is a boolean. -/
def properties : List Property :=
  [optional "FILE_STORAGE_DRIVER" env.FILE_STORAGE_DRIVER
      (fun text => (FileStorageDriver.ofText text).isSome)
      " must be one of the following values: local, s3, r2, seaweed",
    required env "FILE_S3_ENDPOINT" env.FILE_S3_ENDPOINT,
    required env "FILE_S3_ACCESS_KEY" env.FILE_S3_ACCESS_KEY,
    required env "FILE_S3_SECRET_KEY" env.FILE_S3_SECRET_KEY,
    required env "FILE_S3_BUCKET" env.FILE_S3_BUCKET,
    required env "FILE_S3_REGION" env.FILE_S3_REGION,
    optional "FILE_S3_PUBLIC_URL" env.FILE_S3_PUBLIC_URL (fun _ => true) " must be a string",
    optional "FILE_CDN_BASE_URL" env.FILE_CDN_BASE_URL (fun _ => true) " must be a string",
    optional "FILE_S3_FORCE_PATH_STYLE" env.FILE_S3_FORCE_PATH_STYLE (fun _ => true)
      " must be a boolean value",
    optional "FILE_CDN_INCLUDE_BUCKET_IN_PATH" env.FILE_CDN_INCLUDE_BUCKET_IN_PATH (fun _ => true)
      " must be a boolean value",
    -- `@IsInt() @Min(1)`
    optional "FILE_MAX_SIZE" env.FILE_MAX_SIZE
      (fun text => (stringToNumber text).any fun n => n.den = 1 ∧ 1 ≤ n)
      " must be an integer number"]

end EnvironmentVariablesValidator

/-- What a `FileConfig` says about where files are and how they are addressed. -/
structure FileConfig where
  storageDriver : FileStorageDriver
  s3PublicUrl : Option String
  s3Bucket : Option String
  cdnBaseUrl : Option String
  cdnIncludeBucketInPath : Bool
  deriving DecidableEq

/-- `s3PublicUrl?.includes('r2.cloudflarestorage.com')`. -/
def isApiEndpoint (s3PublicUrl : Option String) : Bool :=
  s3PublicUrl.any fun url => url.toList.tails.any ("r2.cloudflarestorage.com".toList.isPrefixOf ·)

/-- The configuration `file`. -/
def fileConfig (env : ProcessEnv) : Except ConfigError FileConfig :=
  let errors := validate (EnvironmentVariablesValidator.properties env)
  let storageDriver := (env.FILE_STORAGE_DRIVER.bind FileStorageDriver.ofText).getD .local
  let s3PublicUrl := env.FILE_S3_PUBLIC_URL
  let cdnBaseUrl := env.FILE_CDN_BASE_URL
  if errors ≠ [] then .error (.invalid (errors.map ValidationError.property))
  else if storageDriver.isObjectStorage ∧ truthyText s3PublicUrl = none ∧
      truthyText cdnBaseUrl = none then
    .error (.error
      "FILE_S3_PUBLIC_URL or FILE_CDN_BASE_URL is required for non-local file storage.")
  else if storageDriver = .r2 ∧ isApiEndpoint s3PublicUrl then
    .error (.error ("FILE_S3_PUBLIC_URL must point to a public R2 URL (r2.dev or a custom domain), " ++
      "not the S3 API endpoint."))
  else .ok {
    storageDriver
    s3PublicUrl
    s3Bucket := env.FILE_S3_BUCKET
    cdnBaseUrl
    cdnIncludeBucketInPath := env.FILE_CDN_INCLUDE_BUCKET_IN_PATH = some "true" }

/-- The configuration of an environment that is accepted. An object storage has a public address,
since the checks ask for one. -/
theorem fileConfig_eq_ok {env : ProcessEnv} {config : FileConfig} (h : fileConfig env = .ok config) :
    config = {
        storageDriver := (env.FILE_STORAGE_DRIVER.bind FileStorageDriver.ofText).getD .local
        s3PublicUrl := env.FILE_S3_PUBLIC_URL
        s3Bucket := env.FILE_S3_BUCKET
        cdnBaseUrl := env.FILE_CDN_BASE_URL
        cdnIncludeBucketInPath := env.FILE_CDN_INCLUDE_BUCKET_IN_PATH = some "true" } ∧
      (config.storageDriver ≠ .local →
        truthyText env.FILE_CDN_BASE_URL = none → truthyText env.FILE_S3_PUBLIC_URL ≠ none) := by
  unfold fileConfig at h
  dsimp only at h
  split at h
  · cases h
  · split at h
    · cases h
    · rename_i haddress
      split at h
      · cases h
      · cases h
        refine ⟨rfl, fun hdriver hcdn hs3 => haddress ⟨?_, hs3, hcdn⟩⟩
        exact FileStorageDriver.isObjectStorage_eq_true.2 hdriver

/-! ### The URL of a key -/

/-- What `app.config` says about the address of the application. -/
structure AppConfig where
  backendDomain : String

/-- A row of `files`. -/
structure FileEntity where
  path : String
  relativePath : Option String := none
  deriving DecidableEq

/-- `path.startsWith('http://') || path.startsWith('https://')`. -/
def IsUrlText (text : String) : Prop :=
  "http://".toList <+: text.toList ∨ "https://".toList <+: text.toList

instance (text : String) : Decidable (IsUrlText text) := inferInstanceAs (Decidable (_ ∨ _))

/-- `appConfig()` and `fileConfig()` are the configurations that the application has started with. -/
def FileEntity.updatePath (appConfig : AppConfig) (storageConfig : FileConfig) (file : FileEntity) :
    FileEntity :=
  if IsUrlText file.path then
    { file with relativePath := file.path }
  else if file.path.toList.head? = some '/' then
    { path := appConfig.backendDomain ++ file.path
      relativePath := appConfig.backendDomain ++ file.path }
  else if storageConfig.storageDriver ≠ .local then
    let publicUrl := (truthyText storageConfig.cdnBaseUrl).getD
      ((truthyText storageConfig.s3PublicUrl).getD "")
    let normalizedPath := dropSlashes file.path
    let bucket := storageConfig.s3Bucket.getD ""
    { path :=
        if storageConfig.cdnIncludeBucketInPath ∧ bucket ≠ "" then
          trimSlash publicUrl ++ "/" ++ bucket ++ "/" ++ normalizedPath
        else trimSlash publicUrl ++ "/" ++ normalizedPath
      relativePath := normalizedPath }
  else file

/-- `configService.getOrThrow`. -/
def getOrThrow (value : Option String) : Except InternalError String :=
  match value with
  | some text => .ok text
  | none => .error .typeError

def S3CompatibleFileStorageService.getPublicUrl (config : FileConfig) (key : String) :
    Except InternalError String := do
  let publicUrl ← (truthyText config.cdnBaseUrl).elim (getOrThrow config.s3PublicUrl) .ok
  let bucket := config.s3Bucket.getD ""
  let normalizedKey := dropSlashes key
  if config.cdnIncludeBucketInPath ∧ bucket ≠ "" then
    return trimSlash publicUrl ++ "/" ++ bucket ++ "/" ++ normalizedKey
  return trimSlash publicUrl ++ "/" ++ normalizedKey

/-! ### What stands before a key -/

/-- The public address that is taken: that of the CDN, and that of the storage where there is none.
-/
def FileConfig.publicUrl (config : FileConfig) : String :=
  (truthyText config.cdnBaseUrl).getD ((truthyText config.s3PublicUrl).getD "")

/-- The optional segment of the bucket. -/
def bucketSegment (includeBucket : Bool) (bucket : Option String) : String :=
  if includeBucket ∧ bucket.getD "" ≠ "" then "/" ++ bucket.getD "" else ""

/-- What stands before a key in its URL. Three places of the source build it, and they build it
alike where the claim about them holds. -/
def FileConfig.publicBase (config : FileConfig) : String :=
  trimSlash config.publicUrl ++ bucketSegment config.cdnIncludeBucketInPath config.s3Bucket

/-- A base with the bucket and without it. What is proved about bases does not split on the flag
again. -/
theorem append_bucketSegment (base : String) (includeBucket : Bool) (bucket : Option String) :
    base ++ bucketSegment includeBucket bucket =
      if includeBucket ∧ bucket.getD "" ≠ "" then base ++ "/" ++ bucket.getD "" else base := by
  unfold bucketSegment
  split
  · rw [String.append_assoc]
  · rw [String.append_empty]

/-- A URL with the bucket and without it. -/
theorem FileConfig.url_eq (config : FileConfig) (key : String) :
    (if config.cdnIncludeBucketInPath ∧ config.s3Bucket.getD "" ≠ "" then
      trimSlash config.publicUrl ++ "/" ++ config.s3Bucket.getD "" ++ "/" ++ key
    else trimSlash config.publicUrl ++ "/" ++ key) = config.publicBase ++ "/" ++ key := by
  rw [publicBase, append_bucketSegment]
  split <;> rfl

/-- A bare key of the object storage: it begins with neither a slash nor `http`. -/
structure IsBareKey (key : String) : Prop where
  no_slash : key.toList.head? ≠ some '/'
  no_scheme : ¬"http".toList <+: key.toList

theorem IsBareKey.dropSlashes {key : String} (h : IsBareKey key) : dropSlashes key = key := by
  have hdrop : key.toList.dropWhile (· = '/') = key.toList := by
    cases hkey : key.toList with
    | nil => rfl
    | cons c cs =>
        have hc : c ≠ '/' := fun hslash => h.no_slash (by rw [hkey, hslash]; rfl)
        simp [hc]
  rw [VetHealth.dropSlashes, hdrop, String.ofList_toList]

theorem IsBareKey.no_url {key : String} (h : IsBareKey key) : ¬IsUrlText key := by
  rintro (hurl | hurl)
  · exact h.no_scheme (List.IsPrefix.trans (by decide) hurl)
  · exact h.no_scheme (List.IsPrefix.trans (by decide) hurl)

/-- The path that a row with a bare key is given. -/
theorem FileEntity.updatePath_key (appConfig : AppConfig) {config : FileConfig} {file : FileEntity}
    (hdriver : config.storageDriver ≠ .local) (hkey : IsBareKey file.path) :
    file.updatePath appConfig config =
      ⟨config.publicBase ++ "/" ++ file.path, some file.path⟩ := by
  rw [updatePath, if_neg hkey.no_url, if_neg hkey.no_slash, if_pos hdriver, hkey.dropSlashes,
    ← config.url_eq]
  rfl

/-- The URL of a bare key, where there is a public address. -/
theorem S3CompatibleFileStorageService.getPublicUrl_key {config : FileConfig} {key : String}
    (haddress : truthyText config.cdnBaseUrl = none → truthyText config.s3PublicUrl ≠ none)
    (hkey : IsBareKey key) :
    getPublicUrl config key = .ok (config.publicBase ++ "/" ++ key) := by
  have hurl : (truthyText config.cdnBaseUrl).elim (getOrThrow config.s3PublicUrl) .ok =
      .ok config.publicUrl := by
    unfold FileConfig.publicUrl
    cases hcdn : truthyText config.cdnBaseUrl with
    | some url => rfl
    | none =>
        obtain ⟨url, htruthy⟩ := Option.ne_none_iff_exists'.1 (haddress hcdn)
        obtain ⟨hs3, -⟩ := Option.filter_eq_some_iff.1 htruthy
        rw [htruthy, hs3]
        rfl
  rw [← config.url_eq, getPublicUrl, hurl, hkey.dropSlashes]
  dsimp only [bind, Except.bind]
  split <;> rfl

end VetHealth
