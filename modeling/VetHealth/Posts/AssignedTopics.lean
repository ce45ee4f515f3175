import VetHealth.Posts.Controller

/-!
# VetHealth.Posts.AssignedTopics

**Which posts an author with assigned topics may create.** `CreatePostGuard` asks of every
assigned topic, and not of every topic of the body, whether the other list has it, and it asks
for the loaded object itself. No parsed list has it, so a list of topics is always refused, and
a body without topics makes the guard throw. `decidesTopics_iff` says for which bodies that is
the right answer, and `PostsController.create_ne_ok` what it means for the endpoint.
-/

namespace VetHealth

open Js Store

/-- Topics of a body as the DTO declares them: absent, `null`, or a list of objects with an id. -/
def IsTopics : Option Json → Prop
  | none | some .null => True
  | some (.arr items) => ∀ item ∈ items, ∃ fields id, item = .obj fields ∧ item.get "id" = some id
  | _ => False

/-- The topics of a body name an id that is none of `allowed`. It is what the guard should refuse,
and all that it should refuse. -/
def NamesOutside (allowed : List Uuid) (topics : Option Json) : Prop :=
  ∃ items, topics = some (.arr items) ∧
    ∃ item ∈ items, ∀ id ∈ allowed, item.get "id" ≠ some (.str id.text)

/-- The live topics that a user is assigned to. -/
def UserEntity.assignedTopics (site : Site) (user : UserEntity) : List Uuid :=
  user.topics.filter fun id => site.topics.any fun topic => topic.id = id

/-- A list whose elements are all asked the same question gets the same answer, if there are any
elements at all. -/
theorem anyM_const {α : Type} {l : List α} (h : l ≠ []) (r : Except Failure Bool) :
    l.anyM (fun _ => r) = r := by
  induction l with
  | nil => exact absurd rfl h
  | cons a l ih =>
      rw [List.anyM_cons]
      cases r with
      | error e => rfl
      | ok b =>
          cases b with
          | true => rfl
          | false =>
              cases l with
              | nil => rfl
              | cons a' l => exact ih (List.cons_ne_nil a' l)

section

variable [Mysql]

namespace CreatePostGuard

/-- The refusal because of topics. -/
def topicsRefusal : Failure := .forbidden "Some topics are not allowed"

/-- The guard refuses because of topics exactly when the body names one that the user is not
assigned to, and it fails in no other way than by a refusal. -/
def DecidesTopics (site : Site) (caller : JwtPayload) (user : UserEntity) (body : CreatePostDto) :
    Prop :=
  (canActivate site caller body = .error topicsRefusal ↔
      NamesOutside (user.assignedTopics site) body.topics) ∧
    ∀ failure, canActivate site caller body = .error failure →
      ∃ message, failure = .forbidden message

variable {site : Site} {caller : JwtPayload} {user : UserEntity} {body : CreatePostDto}

omit [Mysql] in
/-- An author with assigned topics is refused unless the body's topics include the loaded object of
one. A parsed body never holds that object. -/
theorem isNotAllowedTopics_assigned (h : user.assignedTopics site ≠ []) :
    isNotAllowedTopics site user false body = (includesEntity body.topics).map (!·) := by
  have hempty : (user.assignedTopics site).isEmpty = false := List.isEmpty_eq_false_iff.2 h
  have hunfold : isNotAllowedTopics site user false body =
      if !false && !(user.assignedTopics site).isEmpty then
        (user.assignedTopics site).anyM fun _ => return !(← includesEntity body.topics)
      else .ok false := rfl
  rw [hunfold, hempty, if_pos (by rfl), anyM_const h]
  cases includesEntity body.topics <;> rfl

section Outcomes

variable (huser : UsersService.findOne site.users (some (.str caller.id.text)) = some user)

include huser

/-- A caller whose role is gone makes the guard throw. -/
theorem canActivate_roleless (hrole : user.role = none) :
    canActivate site caller body = .error (.internal .typeError) := by
  unfold canActivate
  rw [huser]
  dsimp only
  rw [hrole]

/-- What the guard makes of the topics of an author with assigned ones: the body is looked at as a
whole, and no id in it. -/
theorem canActivate_assigned {role : RoleEnum} (hrole : user.role = some role)
    (hadmin : isAdminRole user.role = false) (hassigned : user.assignedTopics site ≠ []) :
    canActivate site caller body = ((includesEntity body.topics).map (!·) >>= fun refused =>
      if refused then .error topicsRefusal
      else if (get? body.status "id").any (Json.eqNumber PostStatusEnum.published.id) then
        .error .forbiddenResource
      else .ok ()) := by
  rw [hrole] at hadmin
  unfold canActivate
  rw [huser]
  dsimp only
  rw [hrole]
  dsimp only
  rw [hadmin, isNotAllowedTopics_assigned hassigned]
  simp only [Bool.not_false, Bool.and_true]
  rfl

/-- Only a text gets past the comparison of the topics. -/
theorem topics_of_canActivate (hadmin : isAdminRole user.role = false)
    (hassigned : user.assignedTopics site ≠ []) (h : canActivate site caller body = .ok ()) :
    ∃ s, body.topics = some (.str s) := by
  cases hrole : user.role with
  | none => rw [canActivate_roleless huser hrole] at h; cases h
  | some role =>
      rw [canActivate_assigned huser hrole hadmin hassigned] at h
      match htopics : body.topics with
      | some (.str s) => exact ⟨s, rfl⟩
      | none | some .null | some (.bool _) | some (.num _) | some (.arr _) | some (.obj _) =>
          rw [htopics] at h
          cases h

/-- **When the guard decides the topics.** For an author with assigned topics it does so exactly
for a body with a list of topics of which one is not assigned. -/
theorem decidesTopics_iff (hadmin : isAdminRole user.role = false)
    (hassigned : user.assignedTopics site ≠ []) (hbody : IsTopics body.topics) :
    DecidesTopics site caller user body ↔
      user.role ≠ none ∧ NamesOutside (user.assignedTopics site) body.topics := by
  cases hrole : user.role with
  | none =>
      refine ⟨fun h => ?_, fun h => absurd rfl h.1⟩
      obtain ⟨message, hmessage⟩ := h.2 _ (canActivate_roleless huser hrole)
      cases hmessage
  | some role =>
      have hguard : canActivate site caller body = _ :=
        canActivate_assigned huser hrole hadmin hassigned
      match htopics : body.topics, hbody with
      | none, _ | some .null, _ =>
          -- `body.topics.includes` of nothing
          rw [htopics] at hguard
          refine ⟨fun h => ?_, fun ⟨_, items, hitems, _⟩ => (by cases hitems)⟩
          obtain ⟨message, hmessage⟩ := h.2 _ hguard
          cases hmessage
      | some (.arr items), _ =>
          rw [htopics] at hguard
          have hrefused : canActivate site caller body = .error topicsRefusal := hguard
          refine ⟨fun h => ⟨Option.some_ne_none role, htopics ▸ h.1.1 hrefused⟩,
            fun h => ⟨⟨fun _ => htopics ▸ h.2, fun _ => hrefused⟩, fun failure hfailure => ?_⟩⟩
          rw [hrefused] at hfailure
          exact ⟨_, (Except.error.inj hfailure).symm⟩

end Outcomes

end CreatePostGuard

/-- An author with assigned topics creates no post: the one kind of topics that the guard lets pass
is not a list, and the DTO asks for a list. -/
theorem PostsController.create_ne_ok [Slugify] {site : Site} {posts posts' : PostsTable}
    {caller : JwtPayload} {user : UserEntity} {id : Uuid} {body : CreatePostDto}
    (huser : UsersService.findOne site.users (some (.str caller.id.text)) = some user)
    (hadmin : isAdminRole user.role = false) (hassigned : user.assignedTopics site ≠ []) :
    create site posts caller id body ≠ .ok posts' := by
  intro h
  obtain ⟨hguard, slug, -, hvalid, -⟩ := create_eq_ok h
  obtain ⟨s, hs⟩ :=
    CreatePostGuard.topics_of_canActivate huser hadmin hassigned hguard
  have hall := validate_eq_nil.1 hvalid
  simp only [CreatePostDto.properties, postProperties, List.forall_mem_cons] at hall
  obtain ⟨-, -, -, -, -, -, -, -, htopics, -⟩ := hall
  have harray : isArray body.topics = true := (htopics (by rw [hs]; rfl)).1
  rw [hs] at harray
  cases harray

end

/-! ### A writer for one topic -/

section

attribute [local instance] Mysql.strict

/-- The topic that a list of topics names. -/
def topicsOf (id : String) : Option Json := some (.arr [.obj [("id", .str id)]])

theorem parasites_nonempty : "parasites" ≠ "" := by decide

def specialist : UserEntity := { author with topics := [⟨"parasites", parasites_nonempty⟩] }

def clinic : Site where
  users := ⟨[specialist], by decide⟩
  topics := [⟨⟨"parasites", parasites_nonempty⟩, none⟩, ⟨⟨"surgery", by decide⟩, none⟩]
  categories := []
  files := []

/-- A topic of another author is refused. -/
theorem other_topic_refused :
    CreatePostGuard.DecidesTopics clinic specialist.signedIn specialist
      { topics := topicsOf "surgery" } := by
  refine (CreatePostGuard.decidesTopics_iff rfl (by decide) (by decide) ?_).2 ⟨by decide, ?_⟩
  · intro item hitem
    exact ⟨_, _, List.mem_singleton.1 hitem, by rw [List.mem_singleton.1 hitem]; rfl⟩
  · refine ⟨_, rfl, _, List.mem_cons_self, ?_⟩
    rintro id hid hsame
    obtain rfl := List.mem_singleton.1 hid
    simp [Json.get] at hsame

/-- And so is the one that the writer is assigned to. -/
theorem assigned_topic_refused :
    ¬ CreatePostGuard.DecidesTopics clinic specialist.signedIn specialist
      { topics := topicsOf "parasites" } := by
  intro h
  obtain ⟨items, hitems, item, hitem, hnone⟩ := h.1.1 rfl
  cases hitems
  obtain rfl := List.mem_singleton.1 hitem
  exact hnone ⟨"parasites", parasites_nonempty⟩ (by decide) rfl

end

end VetHealth
