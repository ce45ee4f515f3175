import VetHealth.Posts.Publication

/-!
# VetHealth.Posts.FeaturedImage

**One featured image.** A post shows an uploaded file or an address, and `getFeaturedImage` prefers
the file. `FeaturedImagePipe` refuses a body that gives both, but it sees one body at a time, and an
update leaves out what it does not change: a file that is given to a post with an address stands
before it, and hides it.

`one_featured_image` says which updates keep a post from having both. The pipe asks whether the
address is truthy, so `false` and `0`, which the column stores as texts, pass it as well.
-/

namespace VetHealth

open Js Store Transition

/-- `getFeaturedImage`; `pathOf` is the path of a file. The file wins over the address, so that a
post with both shows one that nobody asked for last. -/
def PostEntity.getFeaturedImage (pathOf : Uuid → String) (post : PostEntity) : Option String :=
  ((post.featuredImageFile.map pathOf).filter fun path => path ≠ "").or post.featuredImageUrl

/-- The address of a post, where it is not empty. -/
def PostEntity.address (post : PostEntity) : Option String :=
  post.featuredImageUrl.filter fun url => url ≠ ""

/-- No post has both kinds of featured image. It is the invariant of the run, and the requests have
to keep it. -/
def OneFeaturedImage (posts : PostsTable) : Prop :=
  ∀ post ∈ posts, post.featuredImageFile = none ∨ post.address = none

instance (posts : PostsTable) : Decidable (OneFeaturedImage posts) :=
  inferInstanceAs (Decidable (∀ post ∈ posts.rows, _))

section

variable [Mysql]

/-- The body gives a file. -/
def CreatePostDto.givesFile (dto : CreatePostDto) : Bool := !isNullish dto.featuredImageFile

/-- The body gives an address that is not stored as an empty text. The pipe tests the address for
truth, where the column takes what the value converts to. -/
def CreatePostDto.givesAddress (dto : CreatePostDto) : Bool :=
  dto.featuredImageUrl.any fun url => (Mysql.textOf url).any fun text => text ≠ ""

/-- A body that gives a file gives no address, and an update with one of the two does not leave the
other in the stored post: it clears it, or there is none. -/
def PostRequest.KeepsOneImage (posts : PostsTable) : PostRequest → Prop
  | .create _ _ _ body => body.givesFile = true → body.givesAddress = false
  | .update _ _ body => ∀ post ∈ posts, body.id.bind Json.asString? = some post.id.text →
      (body.givesFile = true → body.givesAddress = false ∧
        (body.featuredImageUrl.isNone = true → post.address = none)) ∧
      (body.givesAddress = true → body.featuredImageFile.isNone = true →
        post.featuredImageFile = none)

instance (posts : PostsTable) : (request : PostRequest) → Decidable (request.KeepsOneImage posts)
  | .create _ _ _ body => inferInstanceAs (Decidable (body.givesFile = true → _))
  | .update _ _ body =>
      inferInstanceAs (Decidable (∀ post ∈ posts.rows,
        body.id.bind Json.asString? = some post.id.text → _))

/-! ### One payload -/

variable {site : Site} {posts : PostsTable} {patch : PostPatch}

/-- The images of the payload are those of the body, since nothing rewrites them after the checks.
-/
theorem CreatePostDto.toPatch_images {dto : CreatePostDto} (h : dto.toPatch site = some patch) :
    Column.ofRelation (Mysql.uuidOf site.files) dto.featuredImageFile = some patch.featuredImageFile ∧
      Column.ofJson Mysql.textOf dto.featuredImageUrl = some patch.featuredImageUrl := by
  simp only [CreatePostDto.toPatch, Option.pure_def, Option.bind_eq_bind,
    Option.bind_eq_some_iff, Option.some.injEq] at h
  obtain ⟨title, -, content, -, slug, -, file, hfile, url, hurl, status, -, categories, -, topics, -,
    author, -, rfl⟩ := h
  exact ⟨hfile, hurl⟩

omit [Mysql] in
theorem Column.ofJson_eq_keep {α : Type} {resolve : Json → Option α} {value : Option Json}
    (h : ofJson resolve value = some keep) : value = none := by
  cases value with
  | none => rfl
  | some j =>
      cases j with
      | null => cases h
      | _ => simp [ofJson] at h

omit [Mysql] in
theorem Column.value?_eq {α : Type} (column : Column α) : column.value? = column.apply none := by
  cases column with
  | _ => rfl

/-- An accepted body that gives a file names one by an id that is truthy. -/
theorem CreatePostDto.file_of_accepted {optional : Bool} {currentId : Option Json}
    {dto : CreatePostDto} {properties : List Property} (h : validate properties = [])
    (hall : postProperties site posts optional currentId dto ⊆ properties)
    (hgives : dto.givesFile = true) :
    ∃ id, get? dto.featuredImageFile "id" = some id ∧ id.truthy = true := by
  have hmem : (⟨"featuredImageFile", isNullish dto.featuredImageFile,
      [(existsIn site.files dto.featuredImageFile, ErrorMessage.IMAGE_IS_NOT_VALID)]⟩ : Property) ∈
        properties := hall (by simp [postProperties])
  have hcheck := validate_eq_nil.1 h _ hmem (by simpa [givesFile] using hgives) _ List.mem_cons_self
  obtain ⟨id, hid, htruthy, -⟩ := IsExist.validate_eq_true.1 hcheck
  exact ⟨id, hid, htruthy⟩

/-- A payload that leaves the file alone comes from an accepted body without the property: what
clears it or names no file is told apart. -/
theorem CreatePostDto.file_of_keep {optional : Bool} {currentId : Option Json}
    {dto : CreatePostDto} {properties : List Property} (h : validate properties = [])
    (hall : postProperties site posts optional currentId dto ⊆ properties)
    (hpatch : Column.ofRelation (Mysql.uuidOf site.files) dto.featuredImageFile = some .keep) :
    dto.featuredImageFile = none := by
  by_contra hsome
  cases hgives : dto.givesFile with
  | false =>
      have hnull : dto.featuredImageFile = some .null :=
        (isNullish_iff.1 (by simpa [givesFile] using hgives)).resolve_left hsome
      rw [hnull] at hpatch
      cases hpatch
  | true =>
      obtain ⟨id, hid, htruthy⟩ := file_of_accepted h hall hgives
      rw [Column.ofRelation_of_get hid] at hpatch
      cases id with
      | null => cases htruthy
      | _ => simp [Column.ofJson] at hpatch

/-- A payload with a file comes from a body that gives one. -/
theorem CreatePostDto.givesFile_of_set {dto : CreatePostDto} {u : Uuid}
    (h : Column.ofRelation (Mysql.uuidOf site.files) dto.featuredImageFile = some (.set u)) :
    dto.givesFile = true := by
  rw [givesFile, Bool.not_eq_true']
  cases hnull : isNullish dto.featuredImageFile with
  | false => rfl
  | true =>
      rcases isNullish_iff.1 hnull with hnone | hnone
      · rw [hnone] at h
        cases h
      · rw [hnone] at h
        cases h

/-- A payload with an address that is not empty comes from a body that gives one. -/
theorem CreatePostDto.givesAddress_of_set {dto : CreatePostDto} {url : String}
    (h : Column.ofJson Mysql.textOf dto.featuredImageUrl = some (.set url)) (hurl : url ≠ "") :
    dto.givesAddress = true := by
  obtain ⟨j, hj, htext⟩ := Column.ofJson_eq_set h
  rw [givesAddress, hj, Option.any_some, htext, Option.any_some]
  exact decide_eq_true hurl

/-! ### One request -/

variable [Slugify] {posts' : PostsTable} {caller : JwtPayload}

omit [Mysql] in
theorem PostPatch.toEntity_images {id : Uuid} {post : PostEntity} (h : patch.toEntity id = some post) :
    post.featuredImageFile = patch.featuredImageFile.value? ∧
      post.featuredImageUrl = patch.featuredImageUrl.value? := by
  simp only [PostPatch.toEntity, Option.pure_def, Option.bind_eq_bind,
    Option.bind_eq_some_iff, Option.some.injEq] at h
  obtain ⟨title, -, content, -, slug, -, rfl⟩ := h
  exact ⟨rfl, rfl⟩

omit [Mysql] in
/-- The hook leaves the images alone. -/
theorem PostPatch.createSlug_images (post : PostEntity) :
    (patch.createSlug.applyTo post).featuredImageFile =
        patch.featuredImageFile.apply post.featuredImageFile ∧
      (patch.createSlug.applyTo post).featuredImageUrl =
        patch.featuredImageUrl.apply post.featuredImageUrl := by
  unfold createSlug
  split
  · exact ⟨rfl, rfl⟩
  · exact ⟨rfl, rfl⟩

omit [Mysql] [Slugify] in
theorem PostEntity.address_eq_some {post : PostEntity} {url : String} :
    post.address = some url ↔ post.featuredImageUrl = some url ∧ url ≠ "" := by
  simp [address, Option.filter_eq_some_iff]

omit [Slugify] in
/-- A body that gives no address leaves none, if it clears the old one or there is none. -/
theorem address_of_column {dto : CreatePostDto} {column : Column String} {old : Option String}
    (hurl : Column.ofJson Mysql.textOf dto.featuredImageUrl = some column)
    (hno : dto.givesAddress = false)
    (hold : dto.featuredImageUrl.isNone = true → (old.filter fun url => url ≠ "") = none) :
    ((column.apply old).filter fun url => url ≠ "") = none := by
  cases column with
  | clear => rfl
  | keep => exact hold (Option.isNone_iff_eq_none.2 (Column.ofJson_eq_keep hurl))
  | set url =>
      by_contra hsome
      have hne : url ≠ "" := by
        rintro rfl
        exact hsome rfl
      exact absurd (hno.symm.trans (CreatePostDto.givesAddress_of_set hurl hne)) Bool.false_ne_true

/-- A creation adds no post with both images, when its body gives one of the two. -/
theorem create_keepsOneImage {id : Uuid} {body : CreatePostDto} (hposts : OneFeaturedImage posts)
    (hkeeps : (PostRequest.create site caller id body).KeepsOneImage posts)
    (h : PostsController.create site posts caller id body = .ok posts') :
    OneFeaturedImage posts' := by
  obtain ⟨-, slug, -, -, hcreate⟩ := PostsController.create_eq_ok h
  obtain ⟨patch, post, hpatch, hentity, hget⟩ := PostsService.create_row hcreate
  obtain ⟨hfile, hurl⟩ := CreatePostDto.toPatch_images hpatch
  obtain ⟨hpostFile, hpostUrl⟩ := PostPatch.toEntity_images hentity
  intro stored hstored
  have hrow := Table.get_eq_some.2 ⟨hstored, rfl⟩
  rw [hget] at hrow
  by_cases hid : id = stored.id
  · rw [if_pos hid, Option.some.injEq] at hrow
    subst hrow
    rw [hpostFile, PostEntity.address, hpostUrl, Column.value?_eq, Column.value?_eq]
    cases hcolumn : patch.featuredImageFile with
    | keep => exact Or.inl rfl
    | clear => exact Or.inl rfl
    | set u =>
        have hno := hkeeps (CreatePostDto.givesFile_of_set (hcolumn ▸ hfile))
        exact Or.inr (address_of_column hurl hno fun _ => rfl)
  · rw [if_neg hid] at hrow
    exact hposts stored (Table.get_eq_some.1 hrow).1

/-- An update leaves no post with both images, when it clears the one that it does not give. -/
theorem update_keepsOneImage {body : UpdatePostDto} (hposts : OneFeaturedImage posts)
    (hkeeps : (PostRequest.update site caller body).KeepsOneImage posts)
    (h : PostsController.update site posts caller body = .ok posts') :
    OneFeaturedImage posts' := by
  obtain ⟨topics, categories, slug, -, hvalid, hupdate⟩ := PostsController.update_eq_ok h
  obtain ⟨post, patch, hmutate, hpatch, -, hsave⟩ := PostsService.update_row hupdate
  obtain ⟨hfile, hurl⟩ := CreatePostDto.toPatch_images hpatch
  obtain ⟨text, htext⟩ := UpdatePostDto.id_of_accepted hvalid
  have hpost := Table.get_eq_some.1 (PostsService.assertCanMutate_ok hmutate)
  -- The row that is saved is that of the post whose id the body gives.
  have hid : body.id.bind Json.asString? = some post.id.text := by
    have hbody : body.id = some (.str text) := htext
    rw [show ({ body with topics, categories, slug } : UpdatePostDto).id = body.id from rfl, hbody]
      at hmutate
    rw [hbody, PostsService.assertCanMutate_text hmutate]
    rfl
  obtain ⟨hfits, hfits'⟩ := hkeeps post hpost.1 hid
  obtain ⟨hnewFile, hnewUrl⟩ := @PostPatch.createSlug_images patch _ post
  intro stored hstored
  have hrow := Table.get_eq_some.2 ⟨hstored, rfl⟩
  by_cases hk : stored.id = post.id
  · rw [hk, Repository.get_save hsave, PostsService.assertCanMutate_ok hmutate, Option.map_some,
      Option.some.injEq] at hrow
    subst hrow
    show (patch.createSlug.applyTo post).featuredImageFile = none ∨
      (patch.createSlug.applyTo post).address = none
    rw [hnewFile, PostEntity.address, hnewUrl]
    -- The file that the body gives decides: none any more, a new one, or the stored one.
    cases hcolumn : patch.featuredImageFile with
    | clear => exact Or.inl rfl
    | set u =>
        have hgives : body.givesFile = true := CreatePostDto.givesFile_of_set (hcolumn ▸ hfile)
        obtain ⟨hno, hstored⟩ := hfits hgives
        exact Or.inr (address_of_column hurl hno hstored)
    | keep =>
        have hnone : ({ body with topics, categories, slug } : UpdatePostDto).featuredImageFile =
            none := by
          rw [hcolumn] at hfile
          exact CreatePostDto.file_of_keep hvalid (List.subset_append_left _ _) hfile
        rcases hposts post hpost.1 with hpostFile | haddress
        · exact Or.inl hpostFile
        · cases hgives : body.givesAddress with
          | true => exact Or.inl (hfits' hgives (Option.isNone_iff_eq_none.2 hnone))
          | false => exact Or.inr (address_of_column hurl hgives fun _ => haddress)
  · rw [Repository.get_save_ne hsave hk] at hrow
    exact hposts stored (Table.get_eq_some.1 hrow).1

/-! ### Every run -/

/-- **A post has one featured image.** In a run from the empty table whose accepted requests all
keep one image, no post has a file and an address at once, so that `getFeaturedImage` shows every
stored address. -/
theorem one_featured_image {past : List (Entry PostsTable PostRequest (Except Failure Unit))}
    (h : postMachine.Reach Table.empty past posts)
    (hkeeps : ∀ e ∈ past, e.response = .ok () → e.request.KeepsOneImage e.before) :
    OneFeaturedImage posts ∧ ∀ pathOf, ∀ post ∈ posts, ∀ url, post.address = some url →
      post.getFeaturedImage pathOf = some url := by
  have hone : OneFeaturedImage posts := by
    refine Machine.Reach.guarded_invariant (P := OneFeaturedImage)
      (C := fun posts request => (∃ posts', request.respond posts = .ok posts') →
        request.KeepsOneImage posts) (by simp [OneFeaturedImage]) ?_ h ?_
    · intro posts request posts' hposts hrequest hok
      have hkeeps := hrequest ⟨posts', hok⟩
      cases request with
      | create site caller id body => exact create_keepsOneImage hposts hkeeps hok
      | update site caller body => exact update_keepsOneImage hposts hkeeps hok
    · intro e he hok
      refine hkeeps e he ?_
      obtain ⟨posts', hok⟩ := hok
      rw [h.eq_entry he]
      simp [postMachine, Machine.guarded, hok]
  refine ⟨hone, fun pathOf post hpost url haddress => ?_⟩
  have hfile := (hone post hpost).resolve_right (by rw [haddress]; exact Option.some_ne_none url)
  rw [PostEntity.getFeaturedImage, hfile]
  exact (PostEntity.address_eq_some.1 haddress).1

end

/-! ### An address and then a file -/

section

attribute [local instance] Mysql.strict slugsAsGiven

def photo : Uuid := ⟨"photo", by decide⟩

/-- The tables beside the posts: one file. -/
def gallery : Site := { users := staff, topics := [], categories := [], files := [photo] }

/-- `POST /posts` with an address. -/
def postWithAddress : PostRequest :=
  .create gallery owner.signedIn postId
    { title := some (.str "vaccines"), content := some (.str "text"),
      status := some (.obj [("id", .num ⟨1, "1", stringToNumber_one⟩)]),
      featuredImageUrl := some (.str "https://cdn.vethealth.test/dog.jpg") }

/-- `PATCH /posts` with a file. -/
def giveFile (featuredImageUrl : Option Json) : PostRequest :=
  .update gallery owner.signedIn
    { id := some (.str postId.text), topics := some (.arr []), categories := some (.arr []),
      featuredImageFile := some (.obj [("id", .str photo.text)]), featuredImageUrl }

/-- The file hides the address. -/
theorem file_hides_address :
    ¬ ∀ past posts, postMachine.Reach .empty past posts → OneFeaturedImage posts := by
  intro h
  exact absurd (h _ _ (Machine.reach_run postMachine .empty [postWithAddress, giveFile none]))
    (by decide +kernel)

/-- A file that clears the address takes its place. -/
theorem file_replaces_address :
    let run := postMachine.run .empty [postWithAddress, giveFile (some .null)]
    (∀ e ∈ run.1, e.response = .ok () ∧ e.request.KeepsOneImage e.before) ∧
      OneFeaturedImage run.2 := by
  have hkeeps : ∀ e ∈ (postMachine.run .empty [postWithAddress, giveFile (some .null)]).1,
      e.response = .ok () ∧ e.request.KeepsOneImage e.before := by decide +kernel
  exact ⟨hkeeps, (one_featured_image (Machine.reach_run postMachine .empty _)
    fun e he _ => (hkeeps e he).2).1⟩

end

end VetHealth
