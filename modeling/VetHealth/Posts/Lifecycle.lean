import VetHealth.Posts.Publication
import VetHealth.Posts.Reading

/-!
# VetHealth.Posts.Lifecycle

**Whether a stored post can be read.** `PostsService.findOne` reads the name of the post's status,
so a live post without one makes it throw. A creation names a status, a deletion keeps it, and an
update replaces it; but the `@IsOptional()` that `PartialType` puts on the status skips the check
for `null` too, and the save clears the column. `reads_in_run` says that every read of every other
run returns a post or finds none.
-/

namespace VetHealth

open Js Store Transition

section

variable [Mysql]

/-! ### Deletion, and the three requests -/

namespace PostsService

/-- `softDelete`. -/
def softDelete (site : Site) (posts : PostsTable) (id : String) (caller : JwtPayload) :
    Except Failure PostsTable := do
  let _ ← assertCanMutate site posts (some (.str id)) caller
  return posts.modify (fun post => post.id.text = id)
    ⟨fun post => { post with deletedAt := true }, fun _ => rfl⟩

end PostsService

/-- A request that writes the posts: a creation, an update or a deletion, which leaves the row with
a mark. -/
inductive PostWrite
  | save (request : PostRequest)
  | delete (site : Site) (caller : JwtPayload) (id : String)

namespace PostWrite

def respond [Slugify] (posts : PostsTable) : PostWrite → Except Failure PostsTable
  | save request => request.respond posts
  | delete site caller id => PostsService.softDelete site posts id caller

/-- The request is no update that clears the status. -/
def KeepsStatus : PostWrite → Prop
  | save (.update _ _ body) => body.status ≠ some .null
  | _ => True

end PostWrite

def postLifecycle [Slugify] : Machine PostsTable PostWrite (Except Failure Unit) :=
  .guarded fun posts write => write.respond posts

/-! ### What a write does to the statuses -/

/-- Every post has a status, deleted ones included. It is the invariant that keeps reads from
throwing. -/
def HaveStatus (posts : PostsTable) : Prop :=
  ∀ k post, posts.get k = some post → post.status ≠ none

/-- A status that is checked and accepted is one that the column takes. Only `null` on an update
gets past the check without one. -/
theorem column_of_postStatus {properties : List Property} {optional : Bool} {status : Option Json}
    {column : Column PostStatusEnum} (h : validate properties = [])
    (hmem : postStatusProperty optional status ∈ properties)
    (hcolumn : Column.ofRelation Mysql.postStatusOf status = some column) :
    (optional = true ∧ isNullish status = true) ∨ ∃ s, column = .set s := by
  have hchecks := validate_eq_nil.1 h _ hmem
  cases hskip : optional && isNullish status with
  | true => exact Or.inl (Bool.and_eq_true_iff.1 hskip)
  | false =>
      obtain ⟨id, hid, htruthy, hrow⟩ :=
        IsExist.validate_eq_true.1 (hchecks hskip _ List.mem_cons_self)
      obtain ⟨s, hs⟩ := Option.isSome_iff_exists.1 hrow
      rw [Column.ofRelation_of_get hid] at hcolumn
      refine Or.inr ⟨s, ?_⟩
      cases id with
      | null => cases htruthy
      | _ =>
          simp only [Column.ofJson, hs, Option.map_some, Option.some.injEq] at hcolumn
          exact hcolumn.symm

variable [Slugify] {posts posts' : PostsTable}

/-- A created post has a status: on create the check is not optional. -/
theorem haveStatus_create {site : Site} {caller : JwtPayload} {id : Uuid} {body : CreatePostDto}
    (h : PostsController.create site posts caller id body = .ok posts') (hposts : HaveStatus posts) :
    HaveStatus posts' := by
  obtain ⟨-, slug, -, hvalid, hcreate⟩ := PostsController.create_eq_ok h
  obtain ⟨post, column, hcolumn, hvalue, hget⟩ := PostsService.create_eq_ok hcreate
  intro k row hrow
  rw [hget] at hrow
  split at hrow
  · obtain rfl := Option.some.inj hrow
    have hmem : postStatusProperty false body.status ∈
        CreatePostDto.properties site posts { body with slug } := by
      simp [CreatePostDto.properties, postProperties]
    rcases column_of_postStatus hvalid hmem hcolumn with ⟨hfalse, -⟩ | ⟨s, rfl⟩
    · cases hfalse
    · rw [hvalue]
      exact Option.some_ne_none s
  · exact hposts k row hrow

/-- An updated post keeps a status, unless the body clears it. -/
theorem haveStatus_update {site : Site} {caller : JwtPayload} {body : UpdatePostDto}
    (h : PostsController.update site posts caller body = .ok posts')
    (hbody : body.status ≠ some .null) (hposts : HaveStatus posts) : HaveStatus posts' := by
  obtain ⟨topics, categories, slug, -, hvalid, hupdate⟩ := PostsController.update_eq_ok h
  obtain ⟨post, patch, hget, hcolumn, -, hsaved, hother⟩ := PostsService.update_eq_ok hupdate
  have hmem : postStatusProperty true body.status ∈
      UpdatePostDto.properties site posts { body with topics, categories, slug } := by
    simp [UpdatePostDto.properties, postProperties]
  intro k row hrow
  by_cases hk : k = post.id
  · rw [hk, hsaved] at hrow
    obtain rfl := Option.some.inj hrow
    have happly : (patch.createSlug.applyTo post).status = patch.status.apply post.status := by
      simp [PostPatch.applyTo]
    rw [happly]
    rcases column_of_postStatus hvalid hmem hcolumn with ⟨-, hnullish⟩ | ⟨s, hs⟩
    · -- only an absent status is left, which keeps the column
      have hnone : body.status = none := (isNullish_iff.1 hnullish).resolve_right hbody
      have hkeep : patch.status = .keep := by
        rw [show ({ body with topics, categories, slug } : UpdatePostDto).status = none from hnone]
          at hcolumn
        exact (Option.some.inj hcolumn).symm
      rw [hkeep]
      exact hposts post.id post hget
    · rw [hs]
      exact Option.some_ne_none s
  · rw [hother k hk] at hrow
    exact hposts k row hrow

omit [Slugify] in
/-- A deletion leaves the statuses alone. -/
theorem haveStatus_softDelete {site : Site} {id : String} {caller : JwtPayload}
    (h : PostsService.softDelete site posts id caller = .ok posts') (hposts : HaveStatus posts) :
    HaveStatus posts' := by
  obtain ⟨-, -, h⟩ := bind_eq_ok.1 h
  obtain rfl := Except.ok.inj h
  intro k row hrow
  rw [Table.get_modify, Option.map_eq_some_iff] at hrow
  obtain ⟨old, hold, rfl⟩ := hrow
  split
  · exact hposts k old hold
  · exact hposts k old hold

/-- **The step lemma.** -/
theorem haveStatus_respond {write : PostWrite} (h : write.respond posts = .ok posts')
    (hkeeps : write.KeepsStatus) (hposts : HaveStatus posts) : HaveStatus posts' := by
  cases write with
  | save request =>
      cases request with
      | create site caller id body => exact haveStatus_create h hposts
      | update site caller body => exact haveStatus_update h hkeeps hposts
  | delete site caller id => exact haveStatus_softDelete h hposts

variable {posts₀ : PostsTable} {past : List (Entry PostsTable PostWrite (Except Failure Unit))}

/-- The statuses of a run in which no update that goes through clears one. -/
theorem haveStatus_of_reach (h : postLifecycle.Reach posts₀ past posts) (hinit : HaveStatus posts₀)
    (hkeeps : ∀ e ∈ past, e.response = .ok () → e.request.KeepsStatus) : HaveStatus posts := by
  have hsteps : ∀ e ∈ past, ∀ posts', e.request.respond e.before = .ok posts' →
      e.request.KeepsStatus := by
    intro e he posts' hok
    refine hkeeps e he ?_
    rw [h.eq_entry he, Machine.entry_response]
    simp only [postLifecycle, Machine.guarded, hok]
  exact h.guarded_invariant (P := HaveStatus)
    (C := fun posts write => ∀ posts', write.respond posts = .ok posts' → write.KeepsStatus) hinit
    (fun posts write posts' hposts hC hok => haveStatus_respond hok (hC posts' hok) hposts) hsteps

end

/-! ### Reading -/

section

variable [Collation]

namespace PostsService

variable {content : Content}

/-- A read returns a post, or it says that there is none. -/
def Reads (content : Content) : Prop :=
  ∀ (fields : RowKey) («include» : List PostRelation) (user : Option JwtPayload),
    (∃ loaded, findOne content fields «include» user = .ok loaded) ∨
      findOne content fields «include» user = .error .notFound

/-- **When every read is answered**: when every live post has a status. -/
theorem reads_iff : Reads content ↔ ∀ post ∈ content.livePosts, post.status ≠ none := by
  constructor
  · intro h post hpost hnone
    have hlive := mem_livePosts.1 hpost
    have hfind := find_id content post.id
    rw [Table.get_eq_some.2 ⟨hlive.1, rfl⟩, Option.filter_some, hlive.2, if_pos (by rfl)] at hfind
    -- A post without a status is found by its id, and reading its name throws.
    have hthrows : findOne content (.id post.id.text) [] none = .error (.internal .typeError) := by
      unfold findOne
      rw [hfind]
      dsimp only
      rw [hnone]
    rcases h (.id post.id.text) [] none with ⟨loaded, hloaded⟩ | hmissing
    · rw [hthrows] at hloaded
      cases hloaded
    · rw [hthrows] at hmissing
      cases hmissing
  · intro h fields relations user
    cases hfound : content.livePosts.find? fun post => fields.names post.id post.slug with
    | none =>
        refine Or.inr ?_
        unfold findOne
        rw [hfound]
    | some post =>
        obtain ⟨status, hstatus⟩ :=
          Option.ne_none_iff_exists'.1 (h post (List.mem_of_find?_eq_some hfound))
        rw [findOne_of_found hfound hstatus]
        cases visibleTo content user post with
        | true => exact Or.inl ⟨_, rfl⟩
        | false => exact Or.inr rfl

end PostsService

/-- The stored rows of the content are those of the table. -/
def Content.Stores (content : Content) (posts : PostsTable) : Prop :=
  content.posts.rows.map PostRow.toPostEntity = posts.rows

/-- **Reading a post never crashes**, in every state of a run in which no update that goes through
clears a status. -/
theorem reads_in_run [Mysql] [Slugify] {posts₀ posts : PostsTable}
    {past : List (Entry PostsTable PostWrite (Except Failure Unit))}
    (h : postLifecycle.Reach posts₀ past posts) (hinit : HaveStatus posts₀)
    (hkeeps : ∀ e ∈ past, e.response = .ok () → e.request.KeepsStatus)
    {content : Content} (hcontent : content.Stores posts) : PostsService.Reads content := by
  refine PostsService.reads_iff.2 fun post hpost => ?_
  have hrow : post.toPostEntity ∈ posts := by
    rw [Table.mem_def, ← hcontent]
    exact List.mem_map_of_mem (PostsService.mem_livePosts.1 hpost).1
  exact haveStatus_of_reach h hinit hkeeps _ _ (Table.get_eq_some.2 ⟨hrow, rfl⟩)

end

/-! ### A draft whose status is cleared -/

section

attribute [local instance] Mysql.strict slugsAsGiven Collation.ascii

/-- `POST /posts` of a draft by the owner of the site. -/
def drafted : PostWrite := .save (posting owner (.num ⟨2, "2", stringToNumber_two⟩))

/-- `PATCH /posts` of the draft, with `status: null`. -/
def statusCleared : PostWrite :=
  .save (.update { users := staff, topics := [], categories := [], files := [] } owner.signedIn
    { id := some (.str "post"), status := some .null, topics := some (.arr []),
      categories := some (.arr []) })

/-- The one post that these requests leave. -/
def draft (status : Option PostStatusEnum) : PostRow :=
  { vaccines with id := postId, title := "vaccines", status := status, topics := [] }

def draftOnly (status : Option PostStatusEnum) : Content :=
  { newsroom with
    posts := ⟨[draft status], List.nodup_singleton _⟩
    unique_titles := List.pairwise_singleton _ _
    unique_slugs := List.pairwise_singleton _ _ }

theorem draft_is_read : PostsService.Reads (draftOnly (some .draft)) :=
  reads_in_run (postLifecycle.reach_run .empty [drafted])
    (fun k post h => by rw [Table.get_eq_none.2 (by simp)] at h; cases h)
    (fun e he _ => by rw [List.mem_singleton.1 he]; trivial)
    (show (draftOnly (some .draft)).Stores (postLifecycle.run .empty [drafted]).2 by
      unfold Content.Stores
      decide +kernel)

/-- After the update nobody can read the post. -/
theorem cleared_draft_crashes :
    (draftOnly none).Stores (postLifecycle.run .empty [drafted, statusCleared]).2 ∧
      ¬ PostsService.Reads (draftOnly none) := by
  refine ⟨by unfold Content.Stores; decide +kernel, fun h => ?_⟩
  exact PostsService.reads_iff.1 h (draft none) (by decide) rfl

end

end VetHealth
