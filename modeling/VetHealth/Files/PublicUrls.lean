import VetHealth.Files.Config

/-!
# VetHealth.Files.PublicUrls

**One public URL per key.** The entity and the storage service put the same text before a key
(`FileConfig.publicBase`). The script that rewrites the content has a rule of its own,
`derivePublicBase`: it drops all slashes from the end of an address where they drop one, it does so
before it chooses between the two addresses, and it reads `TRUE` as `true`. So the three agree on the
environments where none of this makes a difference (`ProcessEnv.basesAgree`).
-/

namespace VetHealth

/-! ### The script -/

/-- `String(process.env.FILE_CDN_INCLUDE_BUCKET_IN_PATH).toLowerCase() === 'true'`. Only letters of
ASCII have one of these letters as their lower case. -/
def ProcessEnv.readsTrue (env : ProcessEnv) : Bool :=
  (env.FILE_CDN_INCLUDE_BUCKET_IN_PATH.getD "undefined").toList.map Char.toLower = "true".toList

def derivePublicBase (env : ProcessEnv) : String :=
  let cdnBaseUrl := trimSlashes ((truthyText env.FILE_CDN_BASE_URL).getD "")
  let s3PublicUrl := trimSlashes ((truthyText env.FILE_S3_PUBLIC_URL).getD "")
  let base := if cdnBaseUrl ≠ "" then cdnBaseUrl else s3PublicUrl
  if base = "" then ""
  else
    let includeBucket := env.readsTrue
    let bucket := env.FILE_S3_BUCKET.getD ""
    if includeBucket ∧ bucket ≠ "" then base ++ "/" ++ bucket else base

/-! ### Slashes at the end of a text -/

/-- How many slashes a text ends with. The application drops one of them, and the script all. -/
def finalSlashes (text : String) : Nat := (text.toList.rtakeWhile (· = '/')).length

/-- A text without other characters than slashes. -/
def onlySlashes (text : String) : Bool := text.toList.all (· = '/')

theorem toList_trimSlashes (text : String) :
    (trimSlashes text).toList = text.toList.rdropWhile (· = '/') := String.toList_ofList

/-- A text is what is left without its last slashes, and these. Both ways of trimming are then about
a number. -/
theorem split_finalSlashes (text : String) :
    text.toList = (trimSlashes text).toList ++ List.replicate (finalSlashes text) '/' := by
  have hslashes : text.toList.rtakeWhile (· = '/') = List.replicate (finalSlashes text) '/' := by
    refine List.eq_replicate_iff.2 ⟨rfl, fun c hc => ?_⟩
    have hslash := List.mem_rtakeWhile_imp hc
    exact of_decide_eq_true hslash
  rw [toList_trimSlashes, ← hslashes, List.rdropWhile_append_rtakeWhile]

/-- No slash is left at the end. -/
theorem last_trimSlashes (text : String) : (trimSlashes text).toList.getLast? ≠ some '/' := by
  intro hlast
  rw [toList_trimSlashes] at hlast
  have hne : text.toList.rdropWhile (· = '/') ≠ [] := by
    intro hnil
    rw [hnil] at hlast
    cases hlast
  rw [List.getLast?_eq_some_getLast hne] at hlast
  exact List.rdropWhile_last_not _ _ hne (decide_eq_true (Option.some.inj hlast))

theorem trimSlashes_eq_empty {text : String} : trimSlashes text = "" ↔ onlySlashes text = true := by
  rw [← String.toList_inj, toList_trimSlashes]
  simp [onlySlashes]

/-- All slashes but one are left where only one is dropped; without any the two ways are the same.
-/
theorem toList_trimSlash (text : String) : (trimSlash text).toList =
    (trimSlashes text).toList ++ List.replicate (finalSlashes text - 1) '/' := by
  have hsplit := split_finalSlashes text
  unfold trimSlash
  cases hcount : finalSlashes text with
  | zero =>
      rw [hcount, List.replicate_zero, List.append_nil] at hsplit
      have hlast := last_trimSlashes text
      rw [← hsplit] at hlast
      rw [if_neg hlast, hsplit]
      simp
  | succ n =>
      rw [hcount, List.replicate_succ', ← List.append_assoc] at hsplit
      have hlast : text.toList.getLast? = some '/' := by rw [hsplit]; simp
      rw [if_pos hlast, String.toList_ofList, hsplit, List.dropLast_concat]
      rfl

/-- Slashes do not begin with a text that ends with something else. -/
theorem eq_nil_of_isPrefix_slashes {core : List Char} {n : Nat}
    (hlast : core.getLast? ≠ some '/') (h : core <+: List.replicate n '/') : core = [] := by
  by_contra hne
  have hmem : core.getLast hne ∈ List.replicate n '/' := h.subset (List.getLast_mem hne)
  rw [List.getLast?_eq_some_getLast hne, List.eq_of_mem_replicate hmem] at hlast
  exact hlast rfl

theorem onlySlashes_iff {text : String} :
    onlySlashes text = true ↔ text.toList = List.replicate text.toList.length '/' := by
  simp [onlySlashes, List.eq_replicate_iff]

/-! ### The three rules -/

/-- The address that the application takes. -/
def ProcessEnv.publicUrl (env : ProcessEnv) : String :=
  (truthyText env.FILE_CDN_BASE_URL).getD ((truthyText env.FILE_S3_PUBLIC_URL).getD "")

/-- `TRUE` and the like. -/
def ProcessEnv.trueInOtherCase (env : ProcessEnv) : Bool :=
  env.readsTrue && env.FILE_CDN_INCLUDE_BUCKET_IN_PATH ≠ some "true"

/-- The base of the script, by what the application takes: the same address, trimmed in another way,
and the bucket under another condition. -/
theorem derivePublicBase_eq (env : ProcessEnv) :
    derivePublicBase env =
      let base := if onlySlashes env.publicUrl then
        trimSlashes ((truthyText env.FILE_S3_PUBLIC_URL).getD "") else trimSlashes env.publicUrl
      if base = "" then "" else base ++ bucketSegment env.readsTrue env.FILE_S3_BUCKET := by
  have hbase : (if trimSlashes ((truthyText env.FILE_CDN_BASE_URL).getD "") ≠ "" then
        trimSlashes ((truthyText env.FILE_CDN_BASE_URL).getD "")
      else trimSlashes ((truthyText env.FILE_S3_PUBLIC_URL).getD "")) =
      if onlySlashes env.publicUrl then trimSlashes ((truthyText env.FILE_S3_PUBLIC_URL).getD "")
      else trimSlashes env.publicUrl := by
    unfold ProcessEnv.publicUrl
    cases truthyText env.FILE_CDN_BASE_URL with
    | none => exact (if_neg (by decide)).trans (ite_self _).symm
    | some url =>
        by_cases honly : onlySlashes url = true
        · exact (if_neg (not_not.2 (trimSlashes_eq_empty.2 honly))).trans (if_pos honly).symm
        · exact (if_pos fun hnil => honly (trimSlashes_eq_empty.1 hnil)).trans (if_neg honly).symm
  unfold derivePublicBase
  dsimp only
  rw [hbase, append_bucketSegment]

/-- The environments in which the script and the application put the same before a key: the address
ends with at most one slash, and the bucket is not left to a `TRUE`. The other cases are an address
or a bucket that consists of slashes. -/
def ProcessEnv.basesAgree (env : ProcessEnv) : Bool :=
  let bucket := env.FILE_S3_BUCKET.getD ""
  if onlySlashes env.publicUrl then
    env.publicUrl = "/" && onlySlashes ((truthyText env.FILE_S3_PUBLIC_URL).getD "") &&
      (env.FILE_CDN_INCLUDE_BUCKET_IN_PATH ≠ some "true" || bucket = "")
  else if env.trueInOtherCase && bucket ≠ "" then
    onlySlashes bucket && finalSlashes env.publicUrl = bucket.toList.length + 2
  else finalSlashes env.publicUrl ≤ 1

/-! ### Where they agree -/

theorem readsTrue_of_true {env : ProcessEnv}
    (h : env.FILE_CDN_INCLUDE_BUCKET_IN_PATH = some "true") : env.readsTrue = true := by
  rw [ProcessEnv.readsTrue, h]
  decide

/-- An address of slashes only. Nothing is left of it by the script, so that this case has a rule of
its own. -/
theorem slashes_agree_iff {text address : String} {segment segment' : String}
    (hne : text ≠ "") (honly : onlySlashes text = true)
    (hsegment : segment = segment' ∨ segment = "") :
    trimSlash text ++ segment =
        (if trimSlashes address = "" then "" else trimSlashes address ++ segment') ↔
      text = "/" ∧ onlySlashes address = true ∧ segment = "" := by
  have hcore : (trimSlashes text).toList = [] :=
    congrArg String.toList (trimSlashes_eq_empty.2 honly)
  have htext : text.toList = List.replicate (finalSlashes text) '/' := by
    rw [split_finalSlashes text, hcore, List.nil_append]
  have hpos : finalSlashes text ≠ 0 := by
    intro hzero
    rw [hzero] at htext
    exact hne (String.toList_inj.1 htext)
  have hslash : text = "/" ↔ finalSlashes text = 1 := by
    rw [← String.toList_inj, htext]
    exact @List.replicate_left_inj _ '/' (finalSlashes text) 1
  -- Nothing is left of the address by the script, which then takes no bucket either; else there is
  -- a text without a slash at its end on one side only.
  by_cases haddress : trimSlashes address = ""
  · rw [if_pos haddress, trimSlashes_eq_empty.1 haddress, ← String.toList_inj, String.toList_append,
      toList_trimSlash, hcore, hslash]
    have hone : finalSlashes text - 1 = 0 ↔ finalSlashes text = 1 := by omega
    simp [hone]
  · have hother : onlySlashes address = false := by
      rw [← Bool.not_eq_true, ← trimSlashes_eq_empty]
      exact haddress
    rw [if_neg haddress, hother]
    refine iff_of_false (fun heq => haddress ?_) (by simp)
    have hlists := congrArg String.toList heq
    rw [String.toList_append, String.toList_append, toList_trimSlash, hcore, List.nil_append]
      at hlists
    -- The segments are one, or the application has none: the core of the script's address begins a
    -- row of slashes in both cases.
    have hstart : (trimSlashes address).toList <+: List.replicate (finalSlashes text - 1) '/' := by
      rcases hsegment with rfl | rfl
      · exact ⟨[], by rw [List.append_nil]; exact (List.append_cancel_right hlists).symm⟩
      · exact ⟨segment'.toList, by rw [← hlists]; exact List.append_nil _⟩
    exact String.toList_inj.1 (eq_nil_of_isPrefix_slashes (last_trimSlashes address) hstart)

/-- An address with other characters: the slashes that the application leaves have to be made up for
by the segment of the script. -/
theorem trimmed_agree_iff {text segment segment' : String} :
    trimSlash text ++ segment = trimSlashes text ++ segment' ↔
      List.replicate (finalSlashes text - 1) '/' ++ segment.toList = segment'.toList := by
  rw [← String.toList_inj, String.toList_append, String.toList_append, toList_trimSlash,
    List.append_assoc]
  exact List.append_right_inj _

theorem bucketSegment_eq_empty {includeBucket : Bool} {bucket : Option String} :
    bucketSegment includeBucket bucket = "" ↔ includeBucket = false ∨ bucket.getD "" = "" := by
  cases includeBucket with
  | false => simp [bucketSegment]
  | true =>
      by_cases hbucket : bucket.getD "" = ""
      · simp [bucketSegment, hbucket]
      · simp [bucketSegment, hbucket, ← String.toList_inj]

/-- A bucket that only one side inserts can make up for the slashes that the other leaves. It is
then made of slashes itself. -/
theorem slashes_eq_bucket_iff {n : Nat} {bucket : String} (hne : bucket ≠ "") :
    List.replicate (n - 1) '/' = '/' :: bucket.toList ↔
      onlySlashes bucket = true ∧ n = bucket.toList.length + 2 := by
  have hpos : 0 < bucket.toList.length :=
    List.length_pos_of_ne_nil fun hnil => hne (String.toList_inj.1 hnil)
  constructor
  · intro heq
    have hlength := congrArg List.length heq
    rw [List.length_replicate, List.length_cons] at hlength
    rw [hlength, List.replicate_succ, List.cons_inj_right] at heq
    exact ⟨onlySlashes_iff.2 heq.symm, by omega⟩
  · rintro ⟨honly, rfl⟩
    rw [Nat.add_sub_assoc (by decide), List.replicate_succ, ← onlySlashes_iff.1 honly]

/-- The two segments, when the bucket is not left to a `TRUE`. -/
theorem bucketSegment_eq {env : ProcessEnv}
    (h : ¬(env.trueInOtherCase = true ∧ env.FILE_S3_BUCKET.getD "" ≠ "")) :
    bucketSegment (decide (env.FILE_CDN_INCLUDE_BUCKET_IN_PATH = some "true")) env.FILE_S3_BUCKET =
      bucketSegment env.readsTrue env.FILE_S3_BUCKET := by
  by_cases hbucket : env.FILE_S3_BUCKET.getD "" = ""
  · rw [bucketSegment_eq_empty.2 (Or.inr hbucket), bucketSegment_eq_empty.2 (Or.inr hbucket)]
  · have hother : env.trueInOtherCase = false := Bool.not_eq_true _ ▸ fun h' => h ⟨h', hbucket⟩
    by_cases htrue : env.FILE_CDN_INCLUDE_BUCKET_IN_PATH = some "true"
    · rw [readsTrue_of_true htrue, decide_eq_true htrue]
    · rw [ProcessEnv.trueInOtherCase, decide_eq_true htrue, Bool.and_true] at hother
      rw [hother, decide_eq_false htrue]

/-- The bases agree exactly in the environments described. The cases are whether the address is of
slashes only, and who inserts the bucket. -/
theorem publicBase_eq_iff {env : ProcessEnv} {config : FileConfig} (h : fileConfig env = .ok config)
    (hdriver : config.storageDriver ≠ .local) :
    config.publicBase = derivePublicBase env ↔ env.basesAgree = true := by
  obtain ⟨rfl, haddress⟩ := fileConfig_eq_ok h
  have hne : env.publicUrl ≠ "" := by
    unfold ProcessEnv.publicUrl
    cases hcdn : truthyText env.FILE_CDN_BASE_URL with
    | some url => simpa using (Option.filter_eq_some_iff.1 hcdn).2
    | none =>
        obtain ⟨url, hs3⟩ := Option.ne_none_iff_exists'.1 (haddress hdriver hcdn)
        rw [hs3]
        simpa using (Option.filter_eq_some_iff.1 hs3).2
  rw [derivePublicBase_eq, ProcessEnv.basesAgree]
  show trimSlash env.publicUrl ++ bucketSegment
    (decide (env.FILE_CDN_INCLUDE_BUCKET_IN_PATH = some "true")) env.FILE_S3_BUCKET = _ ↔ _
  dsimp only
  by_cases honly : onlySlashes env.publicUrl = true
  · rw [if_pos honly, if_pos honly, slashes_agree_iff hne honly, bucketSegment_eq_empty]
    · simp [and_assoc]
    · by_cases htrue : env.FILE_CDN_INCLUDE_BUCKET_IN_PATH = some "true"
      · exact Or.inl (by rw [readsTrue_of_true htrue, decide_eq_true htrue])
      · exact Or.inr (bucketSegment_eq_empty.2 (Or.inl (decide_eq_false htrue)))
  · have hcore : trimSlashes env.publicUrl ≠ "" := fun hnil => honly (trimSlashes_eq_empty.1 hnil)
    rw [if_neg honly, if_neg honly, if_neg hcore, trimmed_agree_iff]
    by_cases hother : env.trueInOtherCase = true ∧ env.FILE_S3_BUCKET.getD "" ≠ ""
    · -- only the script inserts the bucket
      obtain ⟨htrue, hbucket⟩ := hother
      obtain ⟨hreads, hnot⟩ := Bool.and_eq_true_iff.1 htrue
      rw [htrue, bucketSegment_eq_empty.2 (Or.inl (decide_eq_false (of_decide_eq_true hnot))),
        bucketSegment, if_pos ⟨hreads, hbucket⟩, if_pos (by simp [hbucket])]
      have hiff := @slashes_eq_bucket_iff (finalSlashes env.publicUrl) _ hbucket
      simpa using hiff
    · -- both insert the bucket, or neither does
      rw [if_neg (by simpa using hother), bucketSegment_eq hother]
      have hzero : finalSlashes env.publicUrl - 1 = 0 ↔ finalSlashes env.publicUrl ≤ 1 := by omega
      simp [hzero]

/-- The entity, the storage service and the script give a key one URL, whichever of them is asked.
-/
def OnePublicUrl (appConfig : AppConfig) (env : ProcessEnv) (config : FileConfig)
    (file : FileEntity) : Prop :=
  ∃ url, (file.updatePath appConfig config).path = url ∧
    S3CompatibleFileStorageService.getPublicUrl config file.path = .ok url ∧
      derivePublicBase env ++ "/" ++ file.path = url

/-- The entity and the storage service always agree, and with the script they do so exactly in the
environments described, whatever the key is. -/
theorem one_public_url_iff {env : ProcessEnv} {config : FileConfig} (h : fileConfig env = .ok config)
    (hdriver : config.storageDriver ≠ .local) (appConfig : AppConfig) {file : FileEntity}
    (hkey : IsBareKey file.path) :
    OnePublicUrl appConfig env config file ↔ env.basesAgree = true := by
  obtain ⟨hconfig, haddress⟩ := fileConfig_eq_ok h
  have hentity := FileEntity.updatePath_key appConfig hdriver hkey
  have hservice : S3CompatibleFileStorageService.getPublicUrl config file.path =
      .ok (config.publicBase ++ "/" ++ file.path) := by
    refine S3CompatibleFileStorageService.getPublicUrl_key ?_ hkey
    rw [hconfig]
    exact haddress hdriver
  rw [← publicBase_eq_iff h hdriver, OnePublicUrl, hentity, hservice]
  constructor
  · rintro ⟨url, rfl, -, hscript⟩
    rw [String.append_assoc, String.append_assoc] at hscript
    exact (String.append_left_inj _).1 hscript.symm
  · intro hbase
    exact ⟨_, rfl, rfl, by rw [hbase]⟩

/-- A second slash at the end is dropped by the script alone. -/
example : ({ FILE_CDN_BASE_URL := some "https://cdn.vethealth.test//" } : ProcessEnv).basesAgree =
    false := by decide +kernel

/-- An object storage behind a CDN, with the variable that inserts the bucket. -/
def behindCdn (includeBucket : String) : ProcessEnv where
  FILE_STORAGE_DRIVER := some "r2"
  FILE_S3_ENDPOINT := some "https://account.r2.cloudflarestorage.com"
  FILE_S3_ACCESS_KEY := some "access"
  FILE_S3_SECRET_KEY := some "secret"
  FILE_S3_BUCKET := some "media"
  FILE_S3_REGION := some "auto"
  FILE_CDN_BASE_URL := some "https://cdn.vethealth.test/"
  FILE_CDN_INCLUDE_BUCKET_IN_PATH := some includeBucket

def behindCdn.config (includeBucket : Bool) : FileConfig where
  storageDriver := .r2
  s3PublicUrl := none
  s3Bucket := some "media"
  cdnBaseUrl := some "https://cdn.vethealth.test/"
  cdnIncludeBucketInPath := includeBucket

theorem one_public_url_behind_cdn :
    fileConfig (behindCdn "true") = .ok (behindCdn.config true) ∧
      OnePublicUrl ⟨"http://localhost"⟩ (behindCdn "true") (behindCdn.config true)
        ⟨"images/topics/cat.svg", none⟩ := by
  have hconfig : fileConfig (behindCdn "true") = .ok (behindCdn.config true) := by decide +kernel
  have hagree : (behindCdn "true").basesAgree = true := by decide +kernel
  exact ⟨hconfig,
    (one_public_url_iff hconfig (by decide) ⟨"http://localhost"⟩ ⟨by decide, by decide⟩).2 hagree⟩

/-- The script inserts the bucket into the URL, and the application does not. -/
theorem bucket_of_script_only :
    fileConfig (behindCdn "TRUE") = .ok (behindCdn.config false) ∧
      IsBareKey "images/topics/cat.svg" ∧
      S3CompatibleFileStorageService.getPublicUrl (behindCdn.config false)
        "images/topics/cat.svg" = .ok "https://cdn.vethealth.test/images/topics/cat.svg" ∧
      derivePublicBase (behindCdn "TRUE") = "https://cdn.vethealth.test/media" ∧
      ¬OnePublicUrl ⟨"http://localhost"⟩ (behindCdn "TRUE") (behindCdn.config false)
        ⟨"images/topics/cat.svg", none⟩ := by
  have hservice : S3CompatibleFileStorageService.getPublicUrl (behindCdn.config false)
      "images/topics/cat.svg" = .ok "https://cdn.vethealth.test/images/topics/cat.svg" := by
    decide +kernel
  have hbase : derivePublicBase (behindCdn "TRUE") = "https://cdn.vethealth.test/media" := by
    decide +kernel
  refine ⟨by decide +kernel, ⟨by decide, by decide⟩, hservice, hbase, ?_⟩
  rintro ⟨url, -, hurl, hscript⟩
  rw [hservice] at hurl
  rw [hbase, ← Except.ok.inj hurl] at hscript
  exact absurd hscript (by decide)

end VetHealth
