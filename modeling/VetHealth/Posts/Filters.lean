import VetHealth.Posts.Reading

/-!
# VetHealth.Posts.Filters

**Which filters a list of posts obeys.** The filters of a query are shared by all alternatives of
its criteria. The alternative that adds the own posts of a signed-in caller names the author by the
id, and that takes the place of the author's name: the own posts are listed whoever the query asks
for. `filters_respected_iff` says when no page shows it.
-/

namespace VetHealth

open Paging

section

variable [Collation]

namespace PostsService

/-- The filters of a query other than the author's name. -/
def otherFilters (queryDto : PostQueryDto) : PostWhere :=
  { title := queryDto.title, topicSlug := queryDto.topic, categorySlug := queryDto.category }

/-- The filters of a query. -/
def filters (queryDto : PostQueryDto) : PostWhere :=
  { otherFilters queryDto with authorFirstname := queryDto.author }

/-- The author of the post goes by the name, as the database compares names. -/
def isBy (content : Content) (firstname : String) (post : PostRow) : Bool :=
  (content.authorOf post).any fun author => Collation.eq author.firstname firstname

/-- The live posts of a caller that pass the filters other than the author's name. -/
def ownPosts (content : Content) (queryDto : PostQueryDto) (caller : JwtPayload) : List PostRow :=
  content.livePosts.filter fun post =>
    (content.authorOf post).any (fun author => author.id = caller.id) &&
      content.satisfies (otherFilters queryDto) post

/-- The query asks for the caller by name, or the caller has no post to be listed. The alternative
for the own posts drops the author's name from the filters and puts the caller's id in its place. -/
def OwnPostsFit (content : Content) (queryDto : PostQueryDto) (user : Option JwtPayload) : Prop :=
  ∀ caller ∈ user, isAdminRole caller.role = false →
    ∀ firstname ∈ queryDto.author, ∀ post ∈ ownPosts content queryDto caller,
      isBy content firstname post = true

variable {content : Content} {queryDto : PostQueryDto} {user : Option JwtPayload} {post : PostRow}

/-- The filters together are the author's name and the others. -/
theorem satisfies_filters :
    content.satisfies (filters queryDto) post = true ↔
      content.satisfies (otherFilters queryDto) post = true ∧
        ∀ firstname ∈ queryDto.author, isBy content firstname post = true := by
  have hauthor : (∀ firstname ∈ queryDto.author, isBy content firstname post = true) ↔
      (queryDto.author.all fun firstname => isBy content firstname post) = true := by
    cases queryDto.author <;> simp
  rw [hauthor, ← Bool.and_eq_true]
  unfold Content.satisfies filters otherFilters isBy
  simp only [Option.all_none, Bool.true_and, Bool.and_assoc, Bool.and_comm, Bool.and_left_comm]

/-- Criteria with a status select posts that pass the criteria without it: a status only narrows. -/
theorem satisfies_of_status {statusName : Option String}
    (h : content.satisfies { filters queryDto with statusName } post = true) :
    content.satisfies (filters queryDto) post = true := by
  unfold Content.satisfies at h ⊢
  rw [Bool.and_eq_true] at h ⊢
  exact ⟨h.1, rfl⟩

/-- The alternative for the own posts selects those that pass the other filters. -/
theorem satisfies_own (caller : JwtPayload) :
    content.satisfies { filters queryDto with authorFirstname := none, authorId := some caller.id }
        post =
      ((content.authorOf post).any (fun author => author.id = caller.id) &&
        content.satisfies (otherFilters queryDto) post) := by
  unfold Content.satisfies filters otherFilters
  simp only [Option.all_none, Option.all_some, Bool.true_and, Bool.and_assoc, Bool.and_comm,
    Bool.and_left_comm]

/-- A caller who is given one object of criteria sees posts that pass the filters. -/
theorem satisfies_of_single {statusName : Option String}
    (hcriteria : criteria queryDto user = [{ filters queryDto with statusName }])
    (h : ((criteria queryDto user).any fun c => content.satisfies c post) = true) :
    content.satisfies (filters queryDto) post = true := by
  rw [hcriteria, List.any_cons, List.any_nil, Bool.or_false] at h
  exact satisfies_of_status h

/-- All selected posts pass the filters exactly when the own posts do, because the other alternative
has all the filters. -/
theorem forall_selected_iff :
    (∀ post ∈ selected content queryDto user, content.satisfies (filters queryDto) post = true) ↔
      OwnPostsFit content queryDto user := by
  unfold selected
  simp only [List.mem_filter]
  cases user with
  -- Only a caller who is no administrator is given a list of criteria; the others are given one.
  | none => exact iff_of_true (fun post hpost => satisfies_of_single rfl hpost.2) nofun
  | some caller =>
      cases hadmin : isAdminRole caller.role with
      | true =>
          refine iff_of_true (fun post hpost => ?_) fun _ h hrole => ?_
          · have hcriteria : ∃ statusName, criteria queryDto (some caller) =
                [{ filters queryDto with statusName }] := ⟨_, if_pos hadmin⟩
            obtain ⟨statusName, hcriteria⟩ := hcriteria
            exact satisfies_of_single hcriteria hpost.2
          · obtain rfl := Option.some.inj h
            rw [hadmin] at hrole
            cases hrole
      | false =>
          -- The own posts are selected by all filters but the author's name, which the id of the
          -- caller has replaced.
          have hcriteria : ∀ post, ((criteria queryDto (some caller)).any fun c =>
              content.satisfies c post) =
                (content.satisfies { filters queryDto with statusName := some "Published" } post ||
                  ((content.authorOf post).any (fun author => author.id = caller.id) &&
                    content.satisfies (otherFilters queryDto) post)) := by
            intro post
            rw [← satisfies_own, criteria]
            simp [hadmin, filters, otherFilters]
          simp only [hcriteria, Bool.or_eq_true]
          constructor
          · intro h caller' hcaller _ firstname hfirstname post hpost
            obtain rfl := Option.some.inj hcaller
            obtain ⟨hlive, hown⟩ := List.mem_filter.1 hpost
            exact (satisfies_filters.1 (h post ⟨hlive, Or.inr hown⟩)).2 firstname hfirstname
          · rintro h post ⟨hlive, hpublished | hown⟩
            · exact satisfies_of_status hpublished
            · refine satisfies_filters.2 ⟨(Bool.and_eq_true_iff.1 hown).2, fun firstname hname => ?_⟩
              exact h caller rfl hadmin firstname hname post (List.mem_filter.2 ⟨hlive, hown⟩)

/-! ### All pages -/

variable {listing : Listing PostOrder PostRow PostOrder.isOrderable}

/-- The posts of the pages are the selected posts. So a statement about every page is one about the
selection. -/
theorem returned_iff (horder : (postOrder queryDto.orderBy queryDto.sort).isOrderable = true) :
    (∃ p hp result,
      findManyWithPagination content listing.list { queryDto with page := p, page_pos := hp } user =
        .ok result ∧ ∃ loaded ∈ result.items, loaded.post = post) ↔
      post ∈ selected content queryDto user := by
  obtain ⟨listed, hlisted, hperm⟩ :=
    listing.accepts _ (selected content queryDto user) horder
  have hpage : ∀ p hp, findManyWithPagination content listing.list
      { queryDto with page := p, page_pos := hp } user =
        .ok (PaginationQueryDto.paginate { queryDto with page := p, page_pos := hp }
          (selected content queryDto user).length listed (content.loadPost queryDto.include)) := by
    intro p hp
    have hquery : listing.list (postOrder queryDto.orderBy queryDto.sort)
        (selected content { queryDto with page := p, page_pos := hp } user) = some listed := hlisted
    simp only [findManyWithPagination, hquery]
    rfl
  rw [← hperm.mem_iff]
  constructor
  · rintro ⟨p, hp, result, hresult, loaded, hloaded, rfl⟩
    obtain rfl := Except.ok.inj ((hpage p hp).symm.trans hresult)
    obtain ⟨row, hrow, rfl⟩ := List.mem_map.1 hloaded
    exact (List.mem_of_mem_take hrow |> List.mem_of_mem_drop)
  · intro hpost
    obtain ⟨i, hi⟩ := List.mem_iff_getElem?.1 hpost
    refine ⟨i / queryDto.size + 1, Nat.succ_pos _, _, hpage _ _,
      content.loadPost queryDto.include post, ?_, rfl⟩
    exact List.mem_map_of_mem ((mem_page queryDto.size_pos).2 ⟨i, hi, rfl⟩)

/-- **When a list obeys its filters.** No page of a query shows a post that fails one of the
filters exactly when the query asks for the caller by name, or the caller has no post of the own to
be listed; or the ORM refuses the order, and there are no pages. -/
theorem filters_respected_iff :
    (∀ p hp result,
      findManyWithPagination content listing.list { queryDto with page := p, page_pos := hp } user =
        .ok result →
      ∀ loaded ∈ result.items, content.satisfies (filters queryDto) loaded.post = true) ↔
      ((postOrder queryDto.orderBy queryDto.sort).isOrderable = true →
        OwnPostsFit content queryDto user) := by
  rw [← forall_selected_iff]
  constructor
  · intro h horder post hpost
    obtain ⟨p, hp, result, hresult, loaded, hloaded, rfl⟩ := (returned_iff horder).2 hpost
    exact h p hp result hresult loaded hloaded
  · intro h p hp result hresult loaded hloaded
    have horder : (postOrder queryDto.orderBy queryDto.sort).isOrderable = true := by
      by_contra hrefused
      have hnone := listing.refuses (postOrder queryDto.orderBy queryDto.sort)
        (selected content { queryDto with page := p, page_pos := hp } user) (by simpa using hrefused)
      simp only [findManyWithPagination, hnone] at hresult
      cases hresult
    exact h horder _ ((returned_iff horder).1 ⟨p, hp, result, hresult, loaded, hloaded, rfl⟩)

end PostsService

end

/-! ### Another author -/

section

attribute [local instance] Collation.ascii

/-- The database lists the rows as they come. -/
def asStored : Listing PostOrder PostRow PostOrder.isOrderable where
  list order rows := if order.isOrderable then some rows else none
  accepts order rows h := ⟨rows, if_pos h, List.Perm.refl rows⟩
  refuses order rows h := if_neg (by rw [h]; exact Bool.false_ne_true)

/-- The author asks for the posts of somebody else, and gets the own draft. -/
theorem own_draft_for_another_author :
    ¬ ∀ result, PostsService.findManyWithPagination newsroom asStored.list
        { firstPage with author := some "Somebody" } (some author.signedIn) = .ok result →
      ∀ loaded ∈ result.items, newsroom.satisfies
        (PostsService.filters { firstPage with author := some "Somebody" }) loaded.post = true := by
  intro h
  exact absurd (h _ rfl) (by decide)

end

end VetHealth
