import VetHealth.Files.PublicUrls
import VetHealth.Files.StorageKeys

/-!
# VetHealth.Files.SavedPaths

**A path survives being saved back.** `FileEntity.updatePath` turns the path of a row into a URL when
the row is loaded, and the URL may be saved. It is then left as it is, and the script that repairs
the rows reads the key out of it: whatever the URL begins with names no directory of the keys, so
that the first key found is the one that was put there.
-/

namespace VetHealth

open Js ImageRefs

/-- The addresses under which files are found are URLs that name no directory of the keys. The public
address matters only to an object storage. -/
structure IsDeployment (appConfig : AppConfig) (config : FileConfig) : Prop where
  domain_url : IsUrlText appConfig.backendDomain
  domain_free : NoDirectory (appConfig.backendDomain.toList ++ ['/'])
  base_url : config.storageDriver ≠ .local → IsUrlText config.publicUrl
  base_free : config.storageDriver ≠ .local → NoDirectory (config.publicBase.toList ++ ['/'])

theorem IsUrlText.append {text : String} (h : IsUrlText text) (rest : String) :
    IsUrlText (text ++ rest) := by
  rw [IsUrlText, String.toList_append]
  exact h.imp (fun hurl => hurl.trans (List.prefix_append _ _))
    fun hurl => hurl.trans (List.prefix_append _ _)

/-- A slash is put where one was dropped. -/
theorem IsUrlText.trimSlash {text : String} (h : IsUrlText text) (rest : String) :
    IsUrlText (trimSlash text ++ "/" ++ rest) := by
  unfold VetHealth.trimSlash
  split
  · rename_i hlast
    obtain ⟨front, hfront⟩ := List.getLast?_eq_some_iff.1 hlast
    have htext : String.ofList text.toList.dropLast ++ "/" = text := by
      rw [← String.toList_inj, String.toList_append, String.toList_ofList, hfront,
        List.dropLast_concat]
      rfl
    rw [htext]
    exact h.append rest
  · exact (h.append "/").append rest

theorem IsUrlText.publicBase {config : FileConfig} (h : IsUrlText config.publicUrl)
    (key : String) : IsUrlText (config.publicBase ++ "/" ++ key) := by
  unfold FileConfig.publicBase bucketSegment
  split
  · have hsplit : VetHealth.trimSlash config.publicUrl ++ ("/" ++ config.s3Bucket.getD "") ++ "/" ++
        key = VetHealth.trimSlash config.publicUrl ++ "/" ++
          (config.s3Bucket.getD "" ++ "/" ++ key) := by
      simp only [String.append_assoc]
    rw [hsplit]
    exact h.trimSlash _
  · rw [String.append_empty]
    exact h.trimSlash key

/-! ### Rows -/

section

variable (appConfig : AppConfig) (config : FileConfig)

theorem FileEntity.updatePath_url {file : FileEntity} (h : IsUrlText file.path) :
    (file.updatePath appConfig config).path = file.path := by
  rw [updatePath, if_pos h]

theorem FileEntity.updatePath_local {file : FileEntity} (h : IsBareKey file.path)
    (hdriver : config.storageDriver = .local) : file.updatePath appConfig config = file := by
  rw [updatePath, if_neg h.no_url, if_neg h.no_slash, if_neg (not_not.2 hdriver)]

/-- A path on the server is put behind the domain. -/
theorem FileEntity.updatePath_slash {file : FileEntity} (h : file.path.toList.head? = some '/') :
    (file.updatePath appConfig config).path = appConfig.backendDomain ++ file.path := by
  have hurl : ¬IsUrlText file.path := by
    rintro (⟨rest, hrest⟩ | ⟨rest, hrest⟩)
    · rw [← hrest] at h
      cases h
    · rw [← hrest] at h
      cases h
  rw [updatePath, if_neg hurl, if_pos h]

/-- A row whose path does not change when it is loaded again, and is read as the key. This is what
the rows of the repository rest on when the deployment changes. -/
def Survives (row key : String) : Prop :=
  ∀ file : FileEntity, file.path = row →
    ((file.updatePath appConfig config).updatePath appConfig config).path =
        (file.updatePath appConfig config).path ∧
      normalizeFileKey (file.updatePath appConfig config).path = key

end

namespace ImageRefs

theorem Key.chars (key : Key) : ∀ c ∈ key.text, isKeyChar c = true :=
  List.forall_mem_append.2 ⟨key.directory.chars, key.name_chars⟩

/-- A key is bare: it begins with its directory. -/
theorem Key.isBareKey (key : Key) : IsBareKey (.ofList key.text) := by
  have hdirectory : key.directory.text.head? = some 'i' := by
    cases key.directory <;> decide
  obtain ⟨rest, hrest⟩ := List.head?_eq_some_iff.1 hdirectory
  have htext : (String.ofList key.text).toList = 'i' :: (rest ++ key.name) := by
    rw [String.toList_ofList, Key.text, hrest]
    rfl
  constructor
  · rw [htext]
    simp
  · rw [htext]
    exact fun h => absurd (List.cons_prefix_cons.1 h).1 (by decide)

/-- The key is read out of a path that ends with it, as long as what stands before it names no
directory of the keys. -/
theorem Key.normalizeFileKey_append (key : Key) {lead : String}
    (h : NoDirectory (lead.toList ++ ['/'])) :
    normalizeFileKey (lead ++ "/" ++ .ofList key.text) = .ofList key.text := by
  have htext : lead ++ "/" ++ String.ofList key.text = .ofList (lead.toList ++ '/' :: key.text) := by
    rw [← String.toList_inj]
    simp
  rw [htext, normalizeFileKey_after_lead key.isKey key.chars h]

/-- The key is read as it is. -/
theorem Key.normalizeFileKey_text (key : Key) :
    normalizeFileKey (.ofList key.text) = .ofList key.text := by
  rw [normalizeFileKey, String.toList_ofList, find_word key.chars, firstKey_of_isKey key.isKey]
  rfl

end ImageRefs

/-! ### The two rows of a key -/

section

variable {appConfig : AppConfig} {config : FileConfig}

/-- The row of a bare key: nothing is put before it when the files are on the disk, and a base when
they are in an object storage. -/
theorem survives_key (h : IsDeployment appConfig config) (key : Key) :
    Survives appConfig config (.ofList key.text) (.ofList key.text) := by
  intro file hrow
  have hkey : IsBareKey file.path := hrow ▸ key.isBareKey
  by_cases hdriver : config.storageDriver = .local
  · rw [FileEntity.updatePath_local appConfig config hkey hdriver,
      FileEntity.updatePath_local appConfig config hkey hdriver, hrow]
    exact ⟨rfl, key.normalizeFileKey_text⟩
  · rw [FileEntity.updatePath_key appConfig hdriver hkey, hrow]
    exact ⟨FileEntity.updatePath_url appConfig config ((h.base_url hdriver).publicBase _),
      key.normalizeFileKey_append (h.base_free hdriver)⟩

/-- The row of a path on the server: the domain is put before it, whatever the driver is. -/
theorem survives_upload (h : IsDeployment appConfig config) (key : Key) :
    Survives appConfig config ("/uploads/" ++ .ofList key.text) (.ofList key.text) := by
  intro file hrow
  have hslash : file.path.toList.head? = some '/' := by
    rw [hrow, String.toList_append]
    rfl
  have hfree : NoDirectory ((appConfig.backendDomain ++ "/uploads").toList ++ ['/']) := by
    have happend : NoDirectory (appConfig.backendDomain.toList ++ '/' :: "uploads/".toList) :=
      h.domain_free.append (by decide) (by decide) (by decide)
    have htext : "/uploads".toList ++ ['/'] = '/' :: "uploads/".toList := by decide
    rwa [String.toList_append, List.append_assoc, htext]
  have hkey := key.normalizeFileKey_append hfree
  have hpath : (file.updatePath appConfig config).path =
      appConfig.backendDomain ++ "/uploads" ++ "/" ++ .ofList key.text := by
    have huploads : "/uploads/" = "/uploads" ++ "/" := by decide
    rw [FileEntity.updatePath_slash appConfig config hslash, hrow, huploads]
    simp only [String.append_assoc]
  rw [hpath]
  refine ⟨?_, hkey⟩
  have hurl : IsUrlText (file.updatePath appConfig config).path := by
    rw [FileEntity.updatePath_slash appConfig config hslash]
    exact h.domain_url.append _
  rw [FileEntity.updatePath_url appConfig config hurl, hpath]

end

/-- Whatever name the key is minted for, and however files are stored and addressed later. The row
survives every change of the configuration that is a deployment. -/
theorem saved_paths_survive [StrictSlugify] {appConfig : AppConfig} {config : FileConfig}
    (h : IsDeployment appConfig config) (moment : Moment) (field : Fields) {fileName : List Char}
    (haccepted : FilesService.assertFileType fileName = .ok ())
    (hextension : Path.extname fileName ≠ []) :
    let key := String.ofList (FilesService.createStorageKey moment field fileName)
    Survives appConfig config key key ∧ Survives appConfig config ("/uploads/" ++ key) key := by
  obtain ⟨key, hkey⟩ := FilesService.createStorageKey_eq_text moment field haccepted hextension
  rw [hkey]
  exact ⟨survives_key h key, survives_upload h key⟩

/-- `slugify` on names of letters, digits, dots and single spaces. -/
@[reducible] def plainStrictSlug : StrictSlugify where
  slugify text := text.flatMap fun c =>
    if c = ' ' then ['-'] else if c.isAlphanum = true then [c.toLower] else []
  chars text c hc := by
    obtain ⟨d, -, hd⟩ := List.mem_flatMap.1 hc
    split at hd
    · exact Or.inr (List.mem_singleton.1 hd)
    · split at hd
      · rename_i halnum
        rw [List.mem_singleton.1 hd]
        refine Or.inl ?_
        exact forall_isSlugChar (p := fun d => d.isAlphanum = true → d.toLower.isAlphanum = true)
          (by decide +kernel) (uncut_of_isAlphanum halnum).1 halnum
      · cases hd

section

attribute [local instance] plainStrictSlug

def photoKey : List Char :=
  FilesService.createStorageKey ⟨⟨2024, 5, 17⟩, 1715947200000, 271828182⟩ .topic
    "Cat photo.png".toList

/-- A photo of a topic, whose URL has the bucket in it. -/
theorem saved_photo_survives :
    String.ofList photoKey = "images/topics/cat-photo.png" ∧
      Survives ⟨"http://localhost"⟩ (behindCdn.config true) (.ofList photoKey) (.ofList photoKey) ∧
      Survives ⟨"http://localhost"⟩ (behindCdn.config true) ("/uploads/" ++ .ofList photoKey)
        (.ofList photoKey) := by
  have hdeployment : IsDeployment ⟨"http://localhost"⟩ (behindCdn.config true) :=
    ⟨by decide, by decide, fun _ => by decide +kernel, fun _ => by decide +kernel⟩
  have haccepted : FilesService.assertFileType "Cat photo.png".toList = .ok () := by decide
  have hextension : Path.extname "Cat photo.png".toList ≠ [] := by decide
  exact ⟨by decide +kernel, saved_paths_survive hdeployment _ _ haccepted hextension⟩

end

end VetHealth
