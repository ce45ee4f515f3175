import VetHealth.Posts.Publication

/-!
# VetHealth.Posts.Ownership

**Who owns a new post.** The author of a post is what `assertCanMutate` lets its owner change the
post by. The body of `POST /posts` documents an author, but the pipe refuses a body that has one,
and the service never sees the caller: every post is created without an author, and gets one only
by an update that names it (`creators_own_nothing`).
-/

namespace VetHealth

open Js Store Transition

section

variable [Mysql] [Slugify]

/-- The author of the post `k`. A post that is not there has none either. -/
def postAuthor (posts : PostsTable) (k : Uuid) : Option Uuid :=
  (posts.get k).bind PostEntity.author

/-- The request has created the post `k` for `caller`. -/
def creates (e : Entry PostsTable PostRequest (Except Failure Unit)) (caller : JwtPayload)
    (k : Uuid) : Prop :=
  ∃ site body, e.request = .create site caller k body ∧ e.response = .ok ()

/-- An update of the post `k` whose body has an author. It is the one way by which a post gets an
author at all. -/
def namesAuthor (request : PostRequest) (k : Uuid) : Prop :=
  ∃ site caller body, request = .update site caller body ∧ body.id = some (.str k.text) ∧
    body.author ≠ none

/-- The creator of the post `k` is its author in every state that follows, until an update names
an author, and so passes `assertCanMutate`. -/
def CreatorOwns (e : Entry PostsTable PostRequest (Except Failure Unit)) (caller : JwtPayload)
    (k : Uuid) : Prop :=
  ∀ later posts, postMachine.Reach (postMachine.after e) later posts →
    (∀ g ∈ later, ¬ namesAuthor g.request k) → postAuthor posts k = some caller.id

/-! ### One request -/

variable {posts posts' : PostsTable} {k : Uuid}

/-- A created post has no author. -/
theorem create_author {site : Site} {caller : JwtPayload} {body : CreatePostDto}
    (h : PostsController.create site posts caller k body = .ok posts') :
    postAuthor posts' k = none := by
  obtain ⟨-, slug, -, hvalid, hcreate⟩ := PostsController.create_eq_ok h
  obtain ⟨patch, post, hpatch, hentity, hget⟩ := PostsService.create_row hcreate
  have hcolumn := CreatePostDto.toPatch_author hpatch
  rw [CreatePostDto.author_of_accepted hvalid] at hcolumn
  rw [postAuthor, hget, if_pos rfl, Option.bind_some, PostPatch.toEntity_author hentity,
    ← Option.some.inj hcolumn]
  rfl

/-- A creation leaves the authors of the other posts alone, as it inserts a row. -/
theorem create_author_ne {site : Site} {caller : JwtPayload} {id : Uuid} {body : CreatePostDto}
    (h : PostsController.create site posts caller id body = .ok posts') (hk : id ≠ k) :
    postAuthor posts' k = postAuthor posts k := by
  obtain ⟨-, slug, -, -, hcreate⟩ := PostsController.create_eq_ok h
  obtain ⟨patch, post, -, -, hget⟩ := PostsService.create_row hcreate
  rw [postAuthor, hget, if_neg hk, postAuthor]

/-- An update changes the author of a post only if its body names the post and has an author. -/
theorem update_author {site : Site} {caller : JwtPayload} {body : UpdatePostDto}
    (h : PostsController.update site posts caller body = .ok posts')
    (hnot : ¬ namesAuthor (.update site caller body) k) : postAuthor posts' k = postAuthor posts k := by
  obtain ⟨topics, categories, slug, -, hvalid, hupdate⟩ := PostsController.update_eq_ok h
  obtain ⟨post, patch, hpost, hpatch, -, hsave⟩ := PostsService.update_row hupdate
  obtain ⟨text, htext⟩ := UpdatePostDto.id_of_accepted hvalid
  by_cases hk : k = post.id
  -- the pipe accepts a text as the id only, so the body names this very post
  · have hbody : body.id = some (.str k.text) := by
      rw [htext] at hpost
      rw [hk, PostsService.assertCanMutate_text hpost]
      exact htext
    have hnone : body.author = none := by
      by_contra hsome
      exact hnot ⟨site, caller, body, rfl, hbody, hsome⟩
    have hcolumn := CreatePostDto.toPatch_author hpatch
    rw [hnone] at hcolumn
    rw [postAuthor, postAuthor, hk, Repository.get_save hsave, PostsService.assertCanMutate_ok hpost,
      Option.map_some, Option.bind_some, Option.bind_some]
    show patch.createSlug.author.apply post.author = post.author
    rw [PostPatch.createSlug_author, ← Option.some.inj hcolumn]
    rfl
  · rw [postAuthor, Repository.get_save_ne hsave hk, postAuthor]

/-- **The step lemma.** A request that names no author for a post leaves the author alone, or
creates the post without one. -/
theorem next_author (posts : PostsTable) (request : PostRequest)
    (hnot : ¬ namesAuthor request k) :
    postAuthor (postMachine.next posts request) k = postAuthor posts k ∨
      postAuthor (postMachine.next posts request) k = none := by
  rcases @Machine.guarded_next _ _ _ (fun posts request => PostRequest.respond posts request) posts
    request with hsame | hok
  · exact Or.inl (congrArg (postAuthor · k) hsame)
  · cases request with
    | create site caller id body =>
        by_cases hid : id = k
        · subst hid
          exact Or.inr (create_author hok)
        · exact Or.inl (create_author_ne hok hid)
    | update site caller body => exact Or.inl (update_author hok hnot)

omit [Slugify] in
/-- Nobody but an administrator may change a post without an author. -/
theorem refused_of_no_author (hauthor : postAuthor posts k = none) {caller : JwtPayload}
    (hcaller : isAdminRole caller.role = false) (site : Site) (post : PostEntity) :
    PostsService.assertCanMutate site posts (some (.str k.text)) caller ≠ .ok post := by
  intro h
  have hid : post.id = k := Uuid.ext (PostsService.assertCanMutate_text h)
  rw [postAuthor, ← hid, PostsService.assertCanMutate_ok h, Option.bind_some] at hauthor
  rcases PostsService.assertCanMutate_owner h with hadmin | howner
  · rw [hcaller] at hadmin
    cases hadmin
  · rw [hauthor] at howner
    cases howner

/-! ### Runs -/

variable {posts₀ : PostsTable} {past : List (Entry PostsTable PostRequest (Except Failure Unit))}

/-- An author was there from the start, or comes from an update that named one. The rule for origins
gives the step. -/
theorem exists_namesAuthor (h : postMachine.Reach posts₀ past posts) {u : Uuid}
    (hauthor : postAuthor posts k = some u) :
    postAuthor posts₀ k = some u ∨ ∃ e ∈ past, namesAuthor e.request k := by
  refine (h.origin (P := fun posts => postAuthor posts k = some u) hauthor).imp_right ?_
  rintro ⟨e, he, hbefore, hafter⟩
  refine ⟨e, he, not_not.1 fun hnames => ?_⟩
  rcases next_author e.before e.request hnames with hsame | hnone
  · exact hbefore (hsame ▸ hafter)
  · rw [Machine.after, hnone] at hafter
    cases hafter

/-- A creation of a run leaves a post without an author: the body of a creation that goes through
has none. -/
theorem author_of_creates (h : postMachine.Reach posts₀ past posts)
    {e : Entry PostsTable PostRequest (Except Failure Unit)} (he : e ∈ past) {caller : JwtPayload}
    (hcreates : creates e caller k) : postAuthor (postMachine.after e) k = none := by
  obtain ⟨site, body, hrequest, hresponse⟩ := hcreates
  rw [h.eq_entry he, Machine.entry_response] at hresponse
  have hok := Machine.guarded_of_ok hresponse
  rw [hrequest] at hok
  rw [Machine.after, hrequest]
  exact create_author hok

/-- **Creators own nothing.** Whenever a run creates a post, the post has no author: it is not its
creator's, who may not change it without an administrator's role, nor anybody else's. A post has an
author only if it had it before the run or an update of the run has named one. -/
theorem creators_own_nothing (h : postMachine.Reach posts₀ past posts) :
    (∀ e ∈ past, ∀ caller k, creates e caller k →
      postAuthor (postMachine.after e) k = none ∧ ¬ CreatorOwns e caller k ∧
        (isAdminRole caller.role = false → ∀ site post,
          PostsService.assertCanMutate site (postMachine.after e) (some (.str k.text)) caller ≠
            .ok post)) ∧
    ∀ k u, postAuthor posts k = some u →
      postAuthor posts₀ k = some u ∨ ∃ e ∈ past, namesAuthor e.request k := by
  refine ⟨fun e he caller k hcreates => ?_, fun k u hauthor => exists_namesAuthor h hauthor⟩
  have hnone := author_of_creates h he hcreates
  refine ⟨hnone, fun howns => ?_, refused_of_no_author hnone⟩
  have hauthor := howns [] _ .init (by simp)
  rw [hnone] at hauthor
  cases hauthor

end

/-! ### A writer writes a draft -/

section

attribute [local instance] Mysql.strict slugsAsGiven

/-- `POST /posts` of a draft. -/
def drafting : PostRequest := posting author (.num ⟨2, "2", stringToNumber_two⟩)

theorem drafting_creates : creates (postMachine.entry .empty drafting) author.signedIn postId :=
  ⟨_, _, rfl, by decide +kernel⟩

/-- The writer is not the author of the draft, and may not change it. -/
theorem writer_loses_draft :
    creates (postMachine.entry .empty drafting) author.signedIn postId ∧
      ¬ CreatorOwns (postMachine.entry .empty drafting) author.signedIn postId ∧
      PostsService.assertCanMutate { users := staff, topics := [], categories := [], files := [] }
        (postMachine.next .empty drafting) (some (.str postId.text)) author.signedIn =
          .error .forbidden' := by
  refine ⟨drafting_creates, fun howns => ?_, by decide +kernel⟩
  have hauthor := howns [] _ .init (by simp)
  exact absurd hauthor (by decide +kernel)

/-- The run of one creation, which the general result is about. -/
theorem draft_without_author :
    postAuthor (postMachine.after (postMachine.entry .empty drafting)) postId = none :=
  ((creators_own_nothing (.step drafting .init)).1 _ List.mem_cons_self _ _ drafting_creates).1

end

end VetHealth
