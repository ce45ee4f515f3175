import VetHealth.Posts.Dto
import VetHealth.Users.Controller
import Mathlib.Data.List.Infix

/-!
# VetHealth.Posts.Controller

`POST /posts` and `PATCH /posts`: guard, interceptor, pipes and service call, in the order in
which a request meets them.

Both endpoints keep writers from publishing. `CreatePostGuard` compares the raw body's status
id with the number `1` by `===`, and looks the caller's role up in the database.
`PostsService.update` converts the id with `Number()`, and takes the role from the token.
-/

namespace VetHealth

open Js Store

variable [Mysql]

/-! ### Before the pipes -/

/-- `body.topics.includes(item)` for a loaded topic: no element of a parsed array is that
object, a text is searched for the text of an object, and nothing else can be asked. -/
def includesEntity (topics : Option Json) : Except Failure Bool :=
  match topics with
  | some (.arr _) => .ok false
  | some (.str s) => .ok ("[object Object]".toList <:+: s.toList)
  | _ => .error (.internal .typeError)

/-- The role that `CreatePostGuard` sees: the one the caller's row has now, where the other guards
go by the token. -/
def storedRole (users : UsersTable) (caller : JwtPayload) : Option RoleEnum :=
  (UsersService.findOne users (some (.str caller.id.text))).bind UserEntity.role

/-- Whether some live topic of the user is missing from the body's topics, for a user who is no
administrator. An author without topics is asked nothing. -/
def CreatePostGuard.isNotAllowedTopics (site : Site) (user : UserEntity)
    (isSuperAdminOrAdmin : Bool) (body : CreatePostDto) : Except Failure Bool :=
  let topics := user.topics.filter fun id => site.topics.any fun topic => topic.id = id
  if !isSuperAdminOrAdmin && !topics.isEmpty then
    topics.anyM fun _ => return !(← includesEntity body.topics)
  else .ok false

/-- `CreatePostGuard.canActivate`. -/
def CreatePostGuard.canActivate (site : Site) (caller : JwtPayload) (body : CreatePostDto) :
    Except Failure Unit :=
  match UsersService.findOne site.users (some (.str caller.id.text)) with
  | none => .error (.internal .typeError)
  | some user =>
      match user.role with
      | none => .error (.internal .typeError)
      | some role => do
          let isSuperAdminOrAdmin := isAdminRole (some role)
          let refused ← isNotAllowedTopics site user isSuperAdminOrAdmin body
          if refused then .error (.forbidden "Some topics are not allowed")
          else if (get? body.status "id").any (Json.eqNumber PostStatusEnum.published.id) &&
              !isSuperAdminOrAdmin then
            .error .forbiddenResource
          else .ok ()

/-- The guard lets the number `1` for the status pass only for a caller whose row has an
administrator's role. The comparison is `===`, and other values that denote the status pass it. -/
theorem CreatePostGuard.canActivate_ok {site : Site} {caller : JwtPayload} {body : CreatePostDto}
    (h : canActivate site caller body = .ok ()) :
    isAdminRole (storedRole site.users caller) = true ∨
      ∀ id, get? body.status "id" = some id → id.eqNumber 1 = false := by
  unfold canActivate at h
  unfold storedRole
  cases hfound : UsersService.findOne site.users (some (.str caller.id.text)) with
  | none => rw [hfound] at h; cases h
  | some user =>
      rw [hfound] at h
      dsimp only at h
      cases hrole : user.role with
      | none => rw [hrole] at h; cases h
      | some role =>
          rw [hrole] at h
          obtain ⟨refused, -, h⟩ := bind_eq_ok.1 h
          rw [ite_error_eq_ok, ite_error_eq_ok] at h
          obtain ⟨-, hstatus, -⟩ := h
          rw [Option.bind_some, hrole]
          cases hadmin : isAdminRole (some role) with
          | true => exact Or.inl rfl
          | false =>
              refine Or.inr fun id hid => ?_
              rw [hid, hadmin] at hstatus
              simpa [PostStatusEnum.id] using hstatus

/-- The live parent of the row that an id denotes; an absent or `null` id selects the first row
that has a parent. -/
def ChildrenInterceptor.parentOf (rows : List TreeEntity) (id : Option Json) : Option Uuid :=
  let entity : Option TreeEntity := match id with
    | none | some .null => rows.find? fun row => row.parent.isSome
    | some j => rows.find? fun row => Mysql.textOf j = some row.id.text && row.parent.isSome
  (entity.bind TreeEntity.parent).filter fun parent => rows.any fun row => row.id = parent

/-- A list of relations followed by the parents of its elements. Anything but an array of
values with properties makes the interceptor throw. -/
def ChildrenInterceptor.expand (rows : List TreeEntity) (relations : Option Json) :
    Except Failure (Option Json) :=
  match relations with
  | some (.arr items) =>
      if items.any fun item => isNullish (some item) then .error (.internal .typeError)
      else
        let parents := items.filterMap fun item => parentOf rows (item.get "id")
        .ok (some (.arr (items ++ parents.map fun id => .obj [("id", .str id.text)])))
  | _ => .error (.internal .typeError)

/-- `ChildrenInterceptor.intercept`. -/
def ChildrenInterceptor.intercept (site : Site) (body : UpdatePostDto) :
    Except Failure UpdatePostDto := do
  let topics ← expand site.topics body.topics
  let categories ← expand site.categories body.categories
  return { body with topics, categories }

omit [Mysql] in
/-- `FeaturedImagePipe.transform`. -/
def FeaturedImagePipe.transform (value : CreatePostDto) : Except Failure Unit :=
  if truthy (get? value.featuredImageFile "id") && truthy value.featuredImageUrl then
    .error (.rejected ErrorMessage.FEATURED_IMAGE_NOT_VALID)
  else .ok ()

/-! ### `PostsService` -/

namespace PostsService

variable [Slugify]

def create (site : Site) (posts : PostsTable) (id : Uuid) (dto : CreatePostDto) :
    Except Failure PostsTable :=
  match (dto.toPatch site).bind (PostPatch.toEntity id) with
  | none => .error (.internal .queryFailed)
  | some post => PostsRepository.insert posts post

omit [Slugify] in
/-- `assertCanMutate`: the post, if the caller may change it. The author that is loaded with
the post is a live user. -/
def assertCanMutate (site : Site) (posts : PostsTable) (postId : Option Json)
    (caller : JwtPayload) : Except Failure PostEntity :=
  match findById posts (fun post => post.id.text) PostEntity.deletedAt postId with
  | none => .error .notFound
  | some post =>
      let author := (post.author.bind site.users.get).filter fun user => !user.deletedAt
      let isOwner := author.any fun user => caller.id = user.id
      if !isAdminRole caller.role && !isOwner then .error .forbidden' else .ok post

omit [Slugify] in
/-- The post that may be changed is a stored row, and not deleted. -/
theorem assertCanMutate_ok {site : Site} {posts : PostsTable} {postId : Option Json}
    {caller : JwtPayload} {post : PostEntity}
    (h : assertCanMutate site posts postId caller = .ok post) : posts.get post.id = some post := by
  unfold assertCanMutate at h
  split at h
  · cases h
  · next found hfound =>
      rw [ite_error_eq_ok] at h
      obtain rfl := Except.ok.inj h.2
      exact Table.get_eq_some.2 ⟨findById_mem hfound, rfl⟩

omit [Slugify] in
/-- A post named by a text has it for its id. -/
theorem assertCanMutate_text {site : Site} {posts : PostsTable} {id : String}
    {caller : JwtPayload} {post : PostEntity}
    (h : assertCanMutate site posts (some (.str id)) caller = .ok post) : post.id.text = id := by
  unfold assertCanMutate at h
  split at h
  · cases h
  · next found hfound =>
      rw [ite_error_eq_ok] at h
      obtain rfl := Except.ok.inj h.2
      exact (findById_text hfound).1

omit [Slugify] in
/-- Only an administrator and the author may change a post. A post without an author is an
administrator's. -/
theorem assertCanMutate_owner {site : Site} {posts : PostsTable} {postId : Option Json}
    {caller : JwtPayload} {post : PostEntity}
    (h : assertCanMutate site posts postId caller = .ok post) :
    isAdminRole caller.role = true ∨ post.author = some caller.id := by
  unfold assertCanMutate at h
  split at h
  · cases h
  · rw [ite_error_eq_ok] at h
    obtain ⟨hgate, h⟩ := h
    obtain rfl := Except.ok.inj h
    cases hadmin : isAdminRole caller.role with
    | true => exact Or.inl rfl
    | false =>
        rw [hadmin, Bool.not_false, Bool.true_and, Bool.not_eq_true, Bool.not_eq_false',
          Option.any_eq_true] at hgate
        obtain ⟨user, huser, hid⟩ := hgate
        obtain ⟨id, hauthor, hget⟩ :=
          Option.bind_eq_some_iff.1 (Option.filter_eq_some_iff.1 huser).1
        rw [hauthor, of_decide_eq_true hid, (Table.get_eq_some.1 hget).2]
        exact Or.inr rfl

/-- `update`. The row with the payload's id is the post that `assertCanMutate` found. -/
def update (site : Site) (posts : PostsTable) (payload : UpdatePostDto) (caller : JwtPayload) :
    Except Failure PostsTable := do
  let post ← assertCanMutate site posts payload.id caller
  let wantsToPublish :=
    (get? payload.status "id").any fun id => id.toNumber = some (PostStatusEnum.published.id : ℚ)
  let alreadyPublished := post.status.any fun status => status.name = "Published"
  if wantsToPublish && !alreadyPublished && !isAdminRole caller.role then .error .forbidden'
  else
    match payload.toPatch site with
    | none => .error (.internal .queryFailed)
    | some patch => PostsRepository.save posts post.id patch

variable {site : Site} {posts posts' : PostsTable} {caller : JwtPayload}

/-- A successful creation adds the one row that the body stands for. -/
theorem create_row {id : Uuid} {dto : CreatePostDto} (h : create site posts id dto = .ok posts') :
    ∃ patch post, dto.toPatch site = some patch ∧ patch.toEntity id = some post ∧
      ∀ k, posts'.get k = if id = k then some post else posts.get k := by
  unfold create at h
  cases hentity : (dto.toPatch site).bind (PostPatch.toEntity id) with
  | none => rw [hentity] at h; cases h
  | some post =>
      rw [hentity] at h
      obtain ⟨patch, hpatch, htoEntity⟩ := Option.bind_eq_some_iff.1 hentity
      refine ⟨patch, post, hpatch, htoEntity, fun k => ?_⟩
      rw [← (PostPatch.toEntity_eq_some htoEntity).1]
      exact Repository.get_insert h k

/-- The status of the new row is the one the body names. -/
theorem create_eq_ok {id : Uuid} {dto : CreatePostDto}
    (h : create site posts id dto = .ok posts') :
    ∃ post status, Column.ofRelation Mysql.postStatusOf dto.status = some status ∧
      post.status = status.value? ∧
      ∀ k, posts'.get k = if id = k then some post else posts.get k := by
  obtain ⟨patch, post, hpatch, htoEntity, hget⟩ := create_row h
  exact ⟨post, patch.status, CreatePostDto.toPatch_status hpatch,
    (PostPatch.toEntity_eq_some htoEntity).2, hget⟩

/-- A successful update saves the payload over the post that the caller may change. -/
theorem update_row {payload : UpdatePostDto} (h : update site posts payload caller = .ok posts') :
    ∃ post patch, assertCanMutate site posts payload.id caller = .ok post ∧
      payload.toPatch site = some patch ∧
      ¬ (((get? payload.status "id").any fun id =>
            id.toNumber = some (PostStatusEnum.published.id : ℚ)) &&
          !(post.status.any fun status => status.name = "Published") &&
          !isAdminRole caller.role) = true ∧
      PostsRepository.save posts post.id patch = .ok posts' := by
  obtain ⟨post, hpost, h⟩ := bind_eq_ok.1 h
  rw [ite_error_eq_ok] at h
  obtain ⟨hgate, h⟩ := h
  cases hpatch : payload.toPatch site with
  | none => rw [hpatch] at h; cases h
  | some patch =>
      rw [hpatch] at h
      exact ⟨post, patch, hpost, rfl, hgate, h⟩

/-- A successful update overwrites the row of one live post, and a caller whose token names
no administrator does not turn it into a published one by an id that `Number()` reads as
`1`. -/
theorem update_eq_ok {payload : UpdatePostDto} (h : update site posts payload caller = .ok posts') :
    ∃ post, ∃ patch : PostPatch, posts.get post.id = some post ∧
      Column.ofRelation Mysql.postStatusOf payload.status = some patch.status ∧
      (isAdminRole caller.role = true ∨ post.status = some .published ∨
        ∀ id, get? payload.status "id" = some id → id.toNumber ≠ some 1) ∧
      posts'.get post.id = some (patch.createSlug.applyTo post) ∧
      ∀ k, k ≠ post.id → posts'.get k = posts.get k := by
  obtain ⟨post, patch, hpost, hpatch, hgate, h⟩ := update_row h
  have hget := assertCanMutate_ok hpost
  refine ⟨post, patch, hget, CreatePostDto.toPatch_status hpatch, ?_, ?_,
    fun k hk => Repository.get_save_ne h hk⟩
  · -- the three ways past the comparison with `Number()`
    cases hadmin : isAdminRole caller.role with
    | true => exact Or.inl rfl
    | false =>
        by_cases hpublished : post.status = some .published
        · exact Or.inr (Or.inl hpublished)
        · have halready : (post.status.any fun status => status.name = "Published") = false := by
            cases hstatus : post.status with
            | none => rfl
            | some status =>
                rw [hstatus, Option.some.injEq] at hpublished
                simpa [PostStatusEnum.name_eq_published] using hpublished
          refine Or.inr (Or.inr fun id hid hnumber => hgate ?_)
          rw [hid, halready, hadmin, Option.any_some, hnumber]
          rfl
  · rw [Repository.get_save h, hget, Option.map_some]
    rfl

end PostsService

/-! ### The endpoints -/

namespace PostsController

variable [Slugify]

/-- `POST /posts`; the database generates `id`. -/
def create (site : Site) (posts : PostsTable) (caller : JwtPayload) (id : Uuid)
    (body : CreatePostDto) : Except Failure PostsTable := do
  CreatePostGuard.canActivate site caller body
  let slug ← transformSlug body.slug
  let dto := { body with slug }
  validationPipe (dto.properties site posts)
  FeaturedImagePipe.transform dto
  PostsService.create site posts id dto

/-- `PATCH /posts`. -/
def update (site : Site) (posts : PostsTable) (caller : JwtPayload) (body : UpdatePostDto) :
    Except Failure PostsTable := do
  let body ← ChildrenInterceptor.intercept site body
  let slug ← transformSlug body.slug
  let dto := { body with slug }
  validationPipe (dto.properties site posts)
  FeaturedImagePipe.transform dto.toCreatePostDto
  PostsService.update site posts dto caller

variable {site : Site} {posts posts' : PostsTable} {caller : JwtPayload}

/-- **What a successful `POST /posts` is.** -/
theorem create_eq_ok {id : Uuid} {body : CreatePostDto}
    (h : create site posts caller id body = .ok posts') :
    CreatePostGuard.canActivate site caller body = .ok () ∧
      ∃ slug, transformSlug body.slug = .ok slug ∧
        validate ({ body with slug }.properties site posts) = [] ∧
        PostsService.create site posts id { body with slug } = .ok posts' := by
  obtain ⟨hguard, h⟩ := seq_eq_ok.1 h
  obtain ⟨slug, hslug, h⟩ := bind_eq_ok.1 h
  obtain ⟨hvalid, h⟩ := seq_eq_ok.1 h
  obtain ⟨-, h⟩ := seq_eq_ok.1 h
  exact ⟨hguard, slug, hslug, validationPipe_eq_ok.1 hvalid, h⟩

/-- **What a successful `PATCH /posts` is.** The interceptor replaces the topics and the categories
of the body. -/
theorem update_eq_ok {body : UpdatePostDto} (h : update site posts caller body = .ok posts') :
    ∃ topics categories slug, transformSlug body.slug = .ok slug ∧
      validate ({ body with topics, categories, slug }.properties site posts) = [] ∧
      PostsService.update site posts { body with topics, categories, slug } caller = .ok posts' := by
  obtain ⟨expanded, hexpanded, h⟩ := bind_eq_ok.1 h
  obtain ⟨slug, hslug, h⟩ := bind_eq_ok.1 h
  obtain ⟨hvalid, h⟩ := seq_eq_ok.1 h
  obtain ⟨-, h⟩ := seq_eq_ok.1 h
  obtain ⟨topics, -, hexpanded⟩ := bind_eq_ok.1 hexpanded
  obtain ⟨categories, -, hexpanded⟩ := bind_eq_ok.1 hexpanded
  obtain rfl := Except.ok.inj hexpanded
  exact ⟨topics, categories, slug, hslug, validationPipe_eq_ok.1 hvalid, h⟩

end PostsController

end VetHealth
