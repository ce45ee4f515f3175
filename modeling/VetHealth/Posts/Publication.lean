import VetHealth.Posts.Controller
import VetHealth.Lib.Machine

/-!
# VetHealth.Posts.Publication

**The publication gate.** Only an administrator brings a post into the Published status, on
either endpoint, whatever the order of the requests.

The update path keeps the gate for every scalar id: whatever MySQL takes for the id `1`,
`Number()` reads as `1`. The create path compares with the number `1` by `===`, so the text
`"1"` and `true` pass the guard and denote the Published row all the same. The gate holds of
every run in which nobody but an administrator creates a post that way.
-/

namespace VetHealth

open Js Store Transition

/-- A request to one of the two endpoints, with the other tables as the request finds them. -/
inductive PostRequest
  | create (site : Site) (caller : JwtPayload) (id : Uuid) (body : CreatePostDto)
  | update (site : Site) (caller : JwtPayload) (body : UpdatePostDto)

section

variable [Mysql]

namespace PostRequest

def respond [Slugify] (posts : PostsTable) : PostRequest → Except Failure PostsTable
  | create site caller id body => PostsController.create site posts caller id body
  | update site caller body => PostsController.update site posts caller body

/-- The role that the endpoint consults: the one the caller's row has on create, the one of the
token on update. The two may differ while a token is valid. -/
def actingRole : PostRequest → Option RoleEnum
  | create site caller _ _ => storedRole site.users caller
  | update _ caller _ => caller.role

/-- The `status.id` of the body. -/
def statusId : PostRequest → Option Json
  | create _ _ _ body => get? body.status "id"
  | update _ _ body => get? body.status "id"

/-- A creation by somebody who is no administrator names the Published row, if it does, by the
number `1`. Only that value is what the guard compares with. -/
def NamesPublishedByNumber : PostRequest → Prop
  | create site caller _ body =>
      isAdminRole (storedRole site.users caller) = false →
        ∀ id, get? body.status "id" = some id → Mysql.postStatusOf id = some .published →
          id.eqNumber 1 = true
  | update _ _ _ => True

end PostRequest

def postMachine [Slugify] : Machine PostsTable PostRequest (Except Failure Unit) :=
  .guarded fun posts request => request.respond posts

/-- The post `k` is stored with the status Published. -/
def isPublished (posts : PostsTable) (k : Uuid) : Prop :=
  (posts.get k).bind PostEntity.status = some .published

omit [Mysql] in
instance (posts : PostsTable) (k : Uuid) : Decidable (isPublished posts k) :=
  inferInstanceAs (Decidable (_ = _))

/-- The request turned the post `k` from an unpublished or absent one into a published one. It is
what the gate is about: who does this. -/
def publishes [Slugify] (e : Entry PostsTable PostRequest (Except Failure Unit)) (k : Uuid) : Prop :=
  ¬ isPublished e.before k ∧ isPublished (postMachine.after e) k

variable [Slugify] {posts posts' : PostsTable} {k : Uuid}

omit [Slugify] in
/-- The status column that an id becomes is Published only if the id denotes that row. Whatever the
value, the database decides what it denotes. -/
theorem postStatusOf_of_column {status : Option Json} {id : Json} {column : Column PostStatusEnum}
    (hcolumn : Column.ofRelation Mysql.postStatusOf status = some column)
    (hid : get? status "id" = some id) (hset : column = .set .published) :
    Mysql.postStatusOf id = some .published := by
  rw [Column.ofRelation_of_get hid, hset] at hcolumn
  obtain ⟨j, hj, hdenotes⟩ := Column.ofJson_eq_set hcolumn
  rw [Option.some.inj hj]
  exact hdenotes

/-- **The step lemma for creations.** Only an administrator's creation publishes a post: for anybody
else the guard refuses the number `1`, and by no other value may the request name the Published row.
-/
theorem create_publishes {site : Site} {caller : JwtPayload} {id : Uuid} {body : CreatePostDto}
    (h : PostsController.create site posts caller id body = .ok posts')
    (hplain : (PostRequest.create site caller id body).NamesPublishedByNumber)
    (hbefore : ¬ isPublished posts k) (hafter : isPublished posts' k) :
    isAdminRole (storedRole site.users caller) = true := by
  obtain ⟨hguard, slug, -, hvalid, hcreate⟩ := PostsController.create_eq_ok h
  obtain ⟨post, column, hcolumn, hvalue, hget⟩ := PostsService.create_eq_ok hcreate
  obtain ⟨j, hj⟩ := CreatePostDto.status_of_accepted hvalid
  rcases CreatePostGuard.canActivate_ok hguard with hadmin | hnumber
  · exact hadmin
  · by_contra hnot
    rw [Bool.not_eq_true] at hnot
    rw [isPublished, hget k] at hafter
    by_cases hk : id = k
    · -- the new row is the published one: its column was set, to what the body's id denotes
      rw [if_pos hk, Option.bind_some, hvalue] at hafter
      have hset : column = .set .published := by
        cases column with
        | set s => rw [Column.value?, Option.some.injEq] at hafter; rw [hafter]
        | _ => cases hafter
      have hdenotes := postStatusOf_of_column hcolumn hj hset
      have heq := hplain hnot j hj hdenotes
      rw [hnumber j hj] at heq
      cases heq
    · rw [if_neg hk] at hafter
      exact hbefore hafter

/-- **The step lemma for updates.** Only an administrator's update publishes a post: the comparison
is by `Number(id)`, which reads every scalar that denotes the Published row as `1`. -/
theorem update_publishes {site : Site} {caller : JwtPayload} {body : UpdatePostDto}
    (h : PostsController.update site posts caller body = .ok posts')
    (hscalar : ∀ id, get? body.status "id" = some id → id.isScalar = true)
    (hbefore : ¬ isPublished posts k) (hafter : isPublished posts' k) :
    isAdminRole caller.role = true := by
  obtain ⟨topics, categories, slug, -, hvalid, hupdate⟩ := PostsController.update_eq_ok h
  obtain ⟨post, patch, hget, hcolumn, hgate, hsaved, hother⟩ := PostsService.update_eq_ok hupdate
  by_cases hk : k = post.id
  · subst hk
    rw [isPublished, hget, Option.bind_some] at hbefore
    rw [isPublished, hsaved, Option.bind_some] at hafter
    have happly : patch.status.apply post.status = some .published := by
      simpa [PostPatch.applyTo] using hafter
    have hset : patch.status = .set .published := by
      cases hcol : patch.status with
      | keep => rw [hcol] at happly; exact absurd happly hbefore
      | clear => rw [hcol] at happly; cases happly
      | set s => rw [hcol] at happly; rw [Option.some.inj happly]
    rcases hgate with hadmin | hpublished | hnumber
    · exact hadmin
    · exact absurd hpublished hbefore
    · -- the id denotes the Published row, so `Number()` has read it as `1`
      rcases UpdatePostDto.status_of_accepted hvalid with hnullish | ⟨id, hid⟩
      · rcases isNullish_iff.1 hnullish with hnone | hnull
        · rw [hnone, hset] at hcolumn; cases hcolumn
        · rw [hnull, hset] at hcolumn; cases hcolumn
      · have hdenotes := postStatusOf_of_column hcolumn hid hset
        exact absurd (Mysql.toNumber_of_published (hscalar id hid) hdenotes) (hnumber id hid)
  · rw [isPublished, hother k hk] at hafter
    exact absurd hafter hbefore

/-- A step that publishes a post is an administrator's. -/
theorem admin_of_publishes {request : PostRequest}
    (hscalar : ∀ id, request.statusId = some id → id.isScalar = true)
    (hplain : request.NamesPublishedByNumber)
    (h : publishes (postMachine.entry posts request) k) :
    isAdminRole request.actingRole = true := by
  obtain ⟨hbefore, hafter⟩ := h
  rw [Machine.after_entry] at hafter
  rcases Machine.guarded_next with hsame | hok
  · rw [postMachine, hsame] at hafter
    exact absurd hafter hbefore
  · cases request with
    | create site caller id body => exact create_publishes hok hplain hbefore hafter
    | update site caller body => exact update_publishes hok hscalar hbefore hafter

/-- Every published post of a run that starts without posts was published by a step of it. The rule
for origins gives the step. -/
theorem exists_publishes {past : List (Entry PostsTable PostRequest (Except Failure Unit))}
    (h : postMachine.Reach Table.empty past posts) (hk : isPublished posts k) :
    ∃ e ∈ past, publishes e k := by
  refine (h.origin (P := fun posts => isPublished posts k) hk).resolve_left fun hinit => ?_
  have hempty : (Table.empty : PostsTable).get k = none := Table.get_eq_none.2 (by simp)
  rw [isPublished, hempty] at hinit
  cases hinit

/-- **The publication gate.** In a run in which no creation by anyone but an administrator
names the Published row otherwise than by the number `1`, every published post was made so
by an administrator's request, and no other request publishes a post. -/
theorem publication_gate {past : List (Entry PostsTable PostRequest (Except Failure Unit))}
    (h : postMachine.Reach Table.empty past posts)
    (hscalar : ∀ e ∈ past, ∀ id, e.request.statusId = some id → id.isScalar = true)
    (hplain : ∀ e ∈ past, e.request.NamesPublishedByNumber) :
    (∀ k, isPublished posts k →
      ∃ e ∈ past, publishes e k ∧ isAdminRole e.request.actingRole = true) ∧
    ∀ e ∈ past, ∀ k, publishes e k → isAdminRole e.request.actingRole = true := by
  have hadmin : ∀ e ∈ past, ∀ k, publishes e k → isAdminRole e.request.actingRole = true := by
    intro e he k hpub
    rw [h.eq_entry he] at hpub
    exact admin_of_publishes (hscalar e he) (hplain e he) hpub
  refine ⟨fun k hk => ?_, hadmin⟩
  obtain ⟨e, he, hpub⟩ := exists_publishes h hk
  exact ⟨e, he, hpub, hadmin e he k hpub⟩

end

/-! ### Two runs -/

section

/-- Titles that are slugs already. -/
@[reducible] def slugsAsGiven : Slugify := ⟨id⟩

attribute [local instance] Mysql.strict slugsAsGiven

def postId : Uuid := ⟨"post", by decide⟩

/-- `POST /posts` by `caller` with the given status id. -/
def posting (caller : UserEntity) (statusId : Json) : PostRequest :=
  .create { users := staff, topics := [], categories := [], files := [] } caller.signedIn postId
    { title := some (.str "vaccines"), content := some (.str "text"),
      status := some (.obj [("id", statusId)]) }

/-- A writer publishes a post by sending the status id as a text. -/
theorem writer_publishes_by_text :
    (∀ id, (posting author (.str "1")).statusId = some id → id.isScalar = true) ∧
      isAdminRole (posting author (.str "1")).actingRole = false ∧
      publishes (postMachine.entry .empty (posting author (.str "1"))) postId :=
  ⟨fun id hid => by obtain rfl := Option.some.inj hid; rfl, by decide,
    by decide, by decide +kernel⟩

/-- The owner publishes a post, by the number `1`. -/
theorem owner_publishes :
    let request := posting owner (.num ⟨1, "1", stringToNumber_one⟩)
    ∃ e ∈ [postMachine.entry .empty request],
      publishes e postId ∧ isAdminRole e.request.actingRole = true := by
  intro request
  refine (publication_gate (.step request .init) ?_ ?_).1 postId (by decide +kernel)
  · intro e he id hid
    rw [List.mem_singleton.1 he] at hid
    obtain rfl := Option.some.inj hid
    rfl
  · intro e he
    rw [List.mem_singleton.1 he]
    intro hcaller
    exact absurd hcaller (by decide)

end

end VetHealth
