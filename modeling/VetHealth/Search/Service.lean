import VetHealth.Content.LexicalText
import VetHealth.Posts.Reading

/-!
# VetHealth.Search.Service

**What a search finds.** The database picks the candidates: the published posts whose title or whose
stored content matches the pattern of the query. The service then keeps those whose title or whose
visible text contains the query, and cuts the page out of what it keeps.

The content is stored as JSON, so a visible text may hold a word that the stored content does not:
the word is spread over two leaves, or over two blocks, or the content escapes one of its
characters. `search_exact_iff` says that the search is exact when no published post is of this
kind, and only then.
-/

namespace VetHealth

open Js Collation Paging

/-- An accepted query. -/
structure SearchQueryDto extends PaginationQueryDto where
  query : Option String := none

namespace SearchService

/-- The text that a reader of the content sees. Content that is no JSON is read as it is. -/
def visibleText (content : String) : String :=
  if content = "" then "" else ((JSON.parse content).bind extractLexicalText).getD content

/-- The trimmed query, where it is not blank. A blank one is answered with an empty page, without a
look at the posts. -/
def trimmed (queryDto : SearchQueryDto) : Option String :=
  (queryDto.query.map fun query => String.ofList (trim query.toList)).filter fun query => query ≠ ""

/-- The pattern that the database is given. -/
def pattern (query : String) : String := "%" ++ String.ofList (escape query.toList) ++ "%"

section

variable [Collation]

/-- The posts that the database picks. It sees the content as it is stored, markup and keys
included, so it may pick too much, and it may miss a word that markup divides. -/
def candidates (content : Content) (query : String) : List PostRow :=
  content.livePosts.filter fun post =>
    (post.status.any fun status => Collation.eq status.name "Published") &&
      (like (pattern query) post.title || like (pattern query) post.content)

variable [LowerCase]

/-- `text.toLowerCase().includes(query.toLowerCase())`. -/
def includes (text query : String) : Bool :=
  (LowerCase.toLowerCase query).toList <:+: (LowerCase.toLowerCase text).toList

/-- The title or the visible text contains the query, in whatever case the letters are. -/
def contains (query : String) (post : PostRow) : Bool :=
  includes post.title query || includes (visibleText post.content) query

/-- `listing` is the order in which the database lists the candidates. -/
def findManyWithPagination (content : Content) (listing : List PostRow → List PostRow)
    (queryDto : SearchQueryDto) : PaginationType LoadedPost :=
  match trimmed queryDto with
  | none => ⟨[], 0, queryDto.page, 0⟩
  | some query =>
      -- the page is cut out after the filter, so its count is exact
      let found := (listing (candidates content query)).filter (contains query)
      queryDto.paginate found.length found (content.loadPost [.topics])

/-- What the pages `1, …, totalPages` report, one after the other: what a reader sees who turns all
of them. -/
def reported (content : Content) (listing : List PostRow → List PostRow)
    (queryDto : SearchQueryDto) : List LoadedPost :=
  let ask (q : Nat) := findManyWithPagination content listing
    { queryDto with page := q + 1, page_pos := Nat.succ_pos q }
  (List.range (ask 0).totalPages).flatMap fun q => (ask q).items

/-- The posts that a search for the query is about: those a reader would name who sees titles and
visible texts only. -/
def wanted (content : Content) (query : String) : List PostRow :=
  content.livePosts.filter fun post => post.status = some .published && contains query post

end

/-- The database lists the newest posts first, in any order among those of one age. -/
def NewestFirst (listing : List PostRow → List PostRow) : Prop :=
  ∀ rows, Arranges (fun a b => b.createdAt ≤ a.createdAt) rows (listing rows)

section

variable [Collation]

/-- The candidates are the published posts that contain the query somewhere in the row. `LIKE` is
gone from here on: what is left is whether one text occurs in another. -/
theorem candidates_eq (content : Content) (query : String) :
    candidates content query = content.livePosts.filter fun post =>
      post.status = some .published && (decide (fold query <:+: fold post.title) ||
        decide (fold query <:+: fold post.content)) := by
  have hlike : ∀ s, like (pattern query) s = decide (fold query <:+: fold s) := by
    intro s
    rw [Bool.eq_iff_iff, pattern, like_contains, decide_eq_true_eq]
  unfold candidates
  simp only [PostsService.any_eq_published, hlike]

variable [LowerCase] {content : Content} {listing : List PostRow → List PostRow}
  {queryDto : SearchQueryDto} {query : String}

/-- The pages report what the service keeps, in its order. Neither the size of the pages nor how
ties are listed matters for what is found. -/
theorem reported_posts (hquery : trimmed queryDto = some query) :
    (reported content listing queryDto).map LoadedPost.post =
      (listing (candidates content query)).filter (contains query) := by
  have hask : ∀ q : Nat, trimmed { queryDto with page := q + 1, page_pos := Nat.succ_pos q } =
      some query := fun _ => hquery
  have hload : LoadedPost.post ∘ content.loadPost [.topics] = id := rfl
  unfold reported
  simp only [findManyWithPagination, hask, PaginationQueryDto.paginate]
  rw [List.map_flatMap]
  simp only [List.map_map, hload, List.map_id]
  exact collected_self queryDto.size_pos _

/-- A title that contains the query makes a candidate: the database folds more letters together than
`toLowerCase` does. -/
theorem infix_of_includes {text : String} (h : includes text query = true) :
    fold query <:+: fold text :=
  LowerCase.fold_infix (by simpa [includes] using h)

/-- **When the search is exact.** The pages report the published posts whose title or visible text
contains the query, each once, exactly when every published post whose visible text contains it
contains it in its title or in its stored content too. -/
theorem search_exact_iff (hlisting : NewestFirst listing) (hquery : trimmed queryDto = some query) :
    ((reported content listing queryDto).map LoadedPost.post).Perm (wanted content query) ↔
      ∀ post ∈ content.livePosts, post.status = some .published →
        includes (visibleText post.content) query = true →
          fold query <:+: fold post.title ∨ fold query <:+: fold post.content := by
  -- what is reported are the live posts that are kept and are candidates
  have hperm : ((listing (candidates content query)).filter (contains query)).Perm
      (content.livePosts.filter fun post => contains query post &&
        (post.status = some .published && (decide (fold query <:+: fold post.title) ||
          decide (fold query <:+: fold post.content)))) := by
    rw [← List.filter_filter, ← candidates_eq]
    exact (hlisting (candidates content query)).perm.filter (contains query)
  rw [reported_posts hquery]
  constructor
  · intro h post hpost hpublished hvisible
    have hwanted : post ∈ wanted content query := by
      simp [wanted, hpost, hpublished, contains, hvisible]
    have hfound := (hperm.symm.trans h).mem_iff.2 hwanted
    have hcandidate := (Bool.and_eq_true_iff.1 (List.mem_filter.1 hfound).2).2
    simpa [hpublished] using hcandidate
  · intro h
    refine hperm.trans (List.Perm.of_eq (List.filter_congr fun post hpost => ?_))
    rw [Bool.eq_iff_iff]
    simp only [Bool.and_eq_true, decide_eq_true_eq, Bool.or_eq_true]
    constructor
    · rintro ⟨hcontains, hpublished, -⟩
      exact ⟨hpublished, hcontains⟩
    · rintro ⟨hpublished, hcontains⟩
      refine ⟨hcontains, hpublished, ?_⟩
      rcases Bool.or_eq_true_iff.1 hcontains with htitle | hvisible
      · exact Or.inl (infix_of_includes htitle)
      · exact h post hpost hpublished hvisible

end

/-! ### The pattern -/

/-- **The pattern matches literally.** A string matches the pattern of a query exactly when the
query occurs in it. -/
theorem pattern_literal (query s : String) :
    likeMatches (pattern query).toList s.toList = true ↔ query.toList <:+: s.toList := by
  have hpattern : (pattern query).toList = '%' :: (escape query.toList ++ ['%']) := by
    simp [pattern]
  rw [hpattern]
  exact likeMatches_infix query.toList s.toList

example : likeMatches (pattern "50%_a\\").toList "a 50%_a\\!".toList = true := by decide +kernel

/-! ### What is thrown and caught -/

/-- What reading a content may throw. Both kinds end in the same `catch`, which falls back on the
content as it is. -/
inductive Thrown
  | syntaxError
  | typeError

/-- `extractLexicalText(JSON.parse(content))`. -/
def parsedText (content : String) : Except Thrown String :=
  match JSON.parse content with
  | none => throw .syntaxError
  | some json =>
      match extractLexicalText json with
      | none => throw .typeError
      | some text => pure text

/-- `visibleText` with its `try`. -/
def visibleTextRun (content : String) : Except Thrown String :=
  if content = "" then pure "" else tryCatch (parsedText content) fun _ => pure content

theorem visibleTextRun_eq (content : String) : visibleTextRun content = pure (visibleText content) := by
  unfold visibleTextRun visibleText parsedText
  by_cases hempty : content = ""
  · rw [if_pos hempty, if_pos hempty]
  · rw [if_neg hempty, if_neg hempty]
    cases JSON.parse content with
    | none => rfl
    | some json =>
        cases hextract : extractLexicalText json with
        | none => simp only [hextract, Option.bind_some]; rfl
        | some text => simp only [hextract, Option.bind_some]; rfl

/-- A content that is no JSON is its own text. -/
theorem visibleText_of_not_json {content : String} (h : JSON.parse content = none) :
    visibleText content = content := by
  unfold visibleText
  split
  · next hempty => exact hempty.symm
  · rw [h]
    rfl

section

variable [Collation] [LowerCase]

/-- What keeps a candidate. The content is not read when the title contains the query, so that it
cannot fail there. -/
def containsRun (query : String) (item : PostRow) : Except Thrown Bool :=
  if includes item.title query then pure true
  else do return includes (← visibleTextRun item.content) query

/-- The filter of the candidates, one after the other. -/
def matchesRun (query : String) : List PostRow → Except Thrown (List PostRow)
  | [] => pure []
  | item :: candidates => do
      let kept ← containsRun query item
      let rest ← matchesRun query candidates
      return if kept then item :: rest else rest

/-- `findManyWithPagination` with what it throws: the same steps as above, each in the order of the
source. -/
def findManyWithPaginationRun (content : Content) (listing : List PostRow → List PostRow)
    (queryDto : SearchQueryDto) : Except Thrown (PaginationType LoadedPost) :=
  match trimmed queryDto with
  | none => pure ⟨[], 0, queryDto.page, 0⟩
  | some query => do
      let found ← matchesRun query (listing (candidates content query))
      return queryDto.paginate found.length found (content.loadPost [.topics])

theorem containsRun_eq (query : String) (item : PostRow) :
    containsRun query item = pure (contains query item) := by
  rw [containsRun, visibleTextRun_eq, contains]
  cases includes item.title query with
  | true => rfl
  | false => rfl

/-- No candidate stops the filter, whatever its content is: the only reading that may throw stands
under a `try`. -/
theorem matchesRun_eq (query : String) (rows : List PostRow) :
    matchesRun query rows = pure (rows.filter (contains query)) := by
  induction rows with
  | nil => rfl
  | cons item rows ih =>
      rw [matchesRun, containsRun_eq, ih, List.filter_cons]
      rfl

variable (content : Content) (listing : List PostRow → List PostRow) (queryDto : SearchQueryDto)

/-- No content makes a search fail. -/
theorem findManyWithPaginationRun_eq :
    findManyWithPaginationRun content listing queryDto =
      .ok (findManyWithPagination content listing queryDto) := by
  unfold findManyWithPaginationRun findManyWithPagination
  cases trimmed queryDto with
  | none => rfl
  | some query =>
      simp only [matchesRun_eq]
      rfl

variable {content : Content} {listing : List PostRow → List PostRow} {queryDto : SearchQueryDto}
  {query : String}

/-- **The pages of a search are the matches.** No page fails, whatever the contents of the
candidates are. Every page counts the candidates that match, the pages together list them in
their order, and every page but the last is full. A content that is no JSON is searched as it is. -/
theorem search_pages_partition (hquery : trimmed queryDto = some query) :
    let rows := listing (candidates content query)
    let found := rows.filter (contains query)
    let total := totalPages queryDto.size found.length
    let ask (p : Nat) (hp : 0 < p) : SearchQueryDto := { queryDto with page := p, page_pos := hp }
    (∀ p hp, ∃ result,
        findManyWithPaginationRun content listing (ask p hp) = .ok result ∧
        result.count = rows.countP (contains query) ∧ result.totalPages = total ∧
        (p < total → result.items.length = queryDto.size) ∧
        (p = total → 1 ≤ result.items.length ∧ result.items.length ≤ queryDto.size) ∧
        (total < p → result.items = [])) ∧
      ((List.range total).mapM fun q =>
          (findManyWithPaginationRun content listing (ask (q + 1) (Nat.succ_pos q))).map
            PaginationType.items).map List.flatten = .ok (found.map (content.loadPost [.topics])) ∧
      ∀ post ∈ rows, JSON.parse post.content = none →
        contains query post = (includes post.title query || includes post.content query) := by
  intro rows found total ask
  have hask : ∀ p hp, findManyWithPaginationRun content listing (ask p hp) =
      .ok ((ask p hp).paginate found.length found (content.loadPost [.topics])) := by
    intro p hp
    have htrimmed : trimmed (ask p hp) = some query := hquery
    rw [findManyWithPaginationRun_eq, findManyWithPagination, htrimmed]
  -- All pages are cuts from the one filtered list: what is left is arithmetic on pages.
  refine ⟨fun p hp => ⟨_, hask p hp, ?_, rfl, fun hlt => ?_, fun hlast => ?_, fun hlater => ?_⟩,
    ?_, fun post _ hjson => ?_⟩
  · exact List.countP_eq_length_filter.symm
  · exact (List.length_map _).trans (length_page_of_lt queryDto.size_pos hp hlt)
  · rw [PaginationQueryDto.paginate, List.length_map]
    exact length_page_last queryDto.size_pos hp hlast
  · exact List.map_eq_nil_iff.2 (page_eq_nil_of_lt queryDto.size_pos hlater)
  -- No page fails, so the traversal is that of the pages themselves, and these make up the list
  -- again.
  · have hpages : ((List.range total).mapM fun q =>
        (findManyWithPaginationRun content listing (ask (q + 1) (Nat.succ_pos q))).map
          PaginationType.items) =
        pure ((List.range total).map fun q =>
          (page queryDto.size (q + 1) found).map (content.loadPost [.topics])) := by
      rw [← List.mapM_pure]
      simp only [hask]
      rfl
    rw [hpages]
    show Except.ok (List.flatten _) = _
    rw [← List.flatMap_def, ← List.map_flatMap]
    exact congrArg (fun xs => Except.ok (xs.map (content.loadPost [.topics])))
      (collected_self queryDto.size_pos found)
  · rw [contains, visibleText_of_not_json hjson]

end

/-! ### A word in two formats -/

section

attribute [local instance] Collation.ascii Collation.asciiLowerCase

/-- A published post that shows `vaccines` with the first letters in bold. -/
def emphasised : PostRow :=
  { vaccines with
    title := "A healthy dog"
    content := "\x7b\"root\":\x7b\"children\":[\x7b\"type\":\"paragraph\",\"children\":[" ++
      "\x7b\"type\":\"text\",\"format\":1,\"text\":\"Vac\"\x7d," ++
      "\x7b\"type\":\"text\",\"text\":\"cines\"\x7d]\x7d]\x7d\x7d" }

example : visibleText emphasised.content = "Vaccines" := by decide +kernel

/-- A newsroom with that post alone. -/
def clinic : Content :=
  { newsroom with
    posts := ⟨[emphasised], by decide⟩
    unique_titles := by decide
    unique_slugs := by decide }

def newestFirst (rows : List PostRow) : List PostRow :=
  rows.mergeSort fun a b => b.createdAt ≤ a.createdAt

theorem newestFirst_newestFirst : NewestFirst newestFirst := by
  intro rows
  refine exists_arranges (fun a b c hab hbc => ?_) (fun a b => ?_) rows
  · simp only [decide_eq_true_eq] at hab hbc ⊢
    omega
  · simp only [decide_eq_true_eq]
    omega

def searching : SearchQueryDto := { firstPage with query := some " vaccines " }

/-- The search misses the word that the post shows. -/
theorem emphasised_not_found :
    NewestFirst newestFirst ∧ trimmed searching = some "vaccines" ∧
      ¬ ((reported clinic newestFirst searching).map LoadedPost.post).Perm
        (wanted clinic "vaccines") :=
  ⟨newestFirst_newestFirst, by decide +kernel, by decide +kernel⟩

/-- The search finds the post that has the word in its title. -/
theorem vaccines_found :
    ((reported newsroom newestFirst searching).map LoadedPost.post).Perm
      (wanted newsroom "vaccines") :=
  (search_exact_iff newestFirst_newestFirst (by decide +kernel)).2 (by decide +kernel)

/-- A post whose content is not JSON, and one that has the word in its title. -/
def legacy : PostRow := { vaccines with title := "A dog", content := "old vaccines" }

def archive (_ : List PostRow) : List PostRow := [vaccines, legacy, parasites]

def onePerPage : SearchQueryDto := { searching with size := 1, size_pos := Nat.one_pos }

/-- Two of the three candidates match, each on a page of its own. -/
theorem archive_pages :
    trimmed onePerPage = some "vaccines" ∧
      ((List.range 2).mapM fun q =>
          (findManyWithPaginationRun newsroom archive
            { onePerPage with page := q + 1, page_pos := Nat.succ_pos q }).map
              PaginationType.items).map List.flatten =
        .ok ([vaccines, legacy].map (newsroom.loadPost [.topics])) := by
  have hquery : trimmed onePerPage = some "vaccines" := by decide +kernel
  have hfound : (archive (candidates newsroom "vaccines")).filter (contains "vaccines") =
      [vaccines, legacy] := by decide +kernel
  have hpages := (@search_pages_partition _ _ newsroom archive onePerPage _ hquery).2.1
  rw [hfound] at hpages
  exact ⟨hquery, hpages⟩

end

end SearchService

end VetHealth
