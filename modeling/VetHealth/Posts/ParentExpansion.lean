import VetHealth.Posts.Controller
import Mathlib.Data.List.Pairwise

/-!
# VetHealth.Posts.ParentExpansion

**What an update makes of its topics and categories.** `ChildrenInterceptor` appends to each list
the parent of every element, one element at a time. It looks neither at the list nor at the
parents that are already appended, and it expects both lists to be there. `intercept_expands_iff`
says for which bodies the expanded lists are the given ids and their parents, each of them once.
-/

namespace VetHealth

open Js Store

/-- A list with the images of its elements behind it repeats nothing exactly when no two elements
have one image and no image is an element. -/
theorem nodup_append_filterMap {α : Type} {f : α → Option α} {l : List α} (h : l.Nodup) :
    (l ++ l.filterMap f).Nodup ↔
      (∀ a ∈ l, ∀ b ∈ l, a ≠ b → ∀ c, f a = some c → f b ≠ some c) ∧
        ∀ a ∈ l, ∀ c, f a = some c → c ∉ l := by
  rw [List.nodup_append, List.nodup_iff_pairwise_ne (l := l.filterMap f), List.pairwise_filterMap]
  constructor
  · rintro ⟨-, himages, hdisjoint⟩
    refine ⟨fun a ha b hb hne c hac hbc => ?_, fun a ha c hac hc => ?_⟩
    · have : Std.Symm fun a a' => ∀ b, f a = some b → ∀ b', f a' = some b' → b ≠ b' :=
        ⟨fun a a' hR b hb b' hb' => (hR b' hb' b hb).symm⟩
      exact himages.forall ha hb hne c hac c hbc rfl
    · exact hdisjoint c hc c (List.mem_filterMap.2 ⟨a, ha, hac⟩) rfl
  · rintro ⟨himages, hdisjoint⟩
    refine ⟨h, h.pairwise_of_forall_ne fun a ha b hb hne c hac c' hbc' hcc' => ?_,
      fun c hc c' hc' hcc' => ?_⟩
    · exact himages a ha b hb hne c hac (hcc' ▸ hbc')
    · obtain ⟨a, ha, hac⟩ := List.mem_filterMap.1 hc'
      exact hdisjoint a ha c' hac (hcc' ▸ hc)

/-! ### Lists of relations -/

/-- The elements of a list name these ids, one each. The elements may have other properties, which
the interceptor drops. -/
def Names (items : List Json) (ids : List Uuid) : Prop :=
  items.map (Json.get "id") = ids.map fun id => some (.str id.text)

namespace Names

variable {items items' : List Json} {ids ids' : List Uuid}

theorem unique (h : Names items ids) (h' : Names items ids') : ids = ids' := by
  refine List.map_injective_iff.2 (fun id id' hid => ?_) (h.symm.trans h')
  exact Uuid.ext (Json.str.inj (Option.some.inj hid))

theorem append (h : Names items ids) (h' : Names items' ids') :
    Names (items ++ items') (ids ++ ids') := by
  unfold Names at h h' ⊢
  rw [List.map_append, List.map_append, h, h']

/-- The objects that the interceptor makes. -/
theorem ofIds (ids : List Uuid) : Names (ids.map fun id => .obj [("id", .str id.text)]) ids := by
  unfold Names
  rw [List.map_map]
  exact List.map_congr_left fun id _ => by simp [Json.get]

/-- An element that names an id is an object. -/
theorem not_isNullish (h : Names items ids) :
    (items.any fun item => isNullish (some item)) = false := by
  rw [List.any_eq_false]
  intro item hitem hnull
  have hget : item.get "id" ∈ ids.map fun id => some (.str id.text) :=
    h ▸ List.mem_map_of_mem hitem
  obtain ⟨id, -, hid⟩ := List.mem_map.1 hget
  cases item with
  | null => cases hid
  | _ => cases hnull

end Names

/-- `parent` is the live parent of the row with the id. A parent that is deleted is not joined. -/
def IsParent (rows : List TreeEntity) (id parent : Uuid) : Prop :=
  (∃ row ∈ rows, row.id = id ∧ row.parent = some parent) ∧ ∃ row ∈ rows, row.id = parent

/-- Topics or categories of an update: absent, `null`, or a list of distinct existing ids. -/
def IsRelation (rows : List TreeEntity) : Option Json → Prop
  | none | some .null => True
  | some (.arr items) =>
      ∃ ids : List Uuid, Names items ids ∧ ids.Nodup ∧ ∀ id ∈ ids, ∃ row ∈ rows, row.id = id
  | _ => False

/-- `result` names the ids of the list and the parents of these, and none of them twice; what is
no list stays as it is. -/
def Expanded (rows : List TreeEntity) (given result : Option Json) : Prop :=
  match given with
  | some (.arr items) => ∀ ids, Names items ids →
      ∃ items' ids', result = some (.arr items') ∧ Names items' ids' ∧ ids'.Nodup ∧
        ∀ id, id ∈ ids' ↔ id ∈ ids ∨ ∃ child ∈ ids, IsParent rows child id
  | _ => result = given

/-- A list in which no two elements have one parent, and none has another for its parent. Otherwise
a parent is named twice, since nobody removes repetitions. -/
def Unrelated (rows : List TreeEntity) : Option Json → Prop
  | some (.arr items) => ∀ ids, Names items ids →
      (∀ a ∈ ids, ∀ b ∈ ids, a ≠ b → ∀ parent, IsParent rows a parent → ¬IsParent rows b parent) ∧
        ∀ a ∈ ids, ∀ parent, IsParent rows a parent → parent ∉ ids
  | _ => False

section

variable [Mysql]

namespace ChildrenInterceptor

variable {rows : List TreeEntity}

/-- What the interceptor finds for an existing id is its parent. -/
theorem parentOf_eq_some (hrows : (rows.map TreeEntity.id).Nodup) {id parent : Uuid} :
    parentOf rows (some (.str id.text)) = some parent ↔ IsParent rows id parent := by
  have hp : (fun row : TreeEntity =>
        decide (Mysql.textOf (.str id.text) = some row.id.text) && row.parent.isSome) =
      fun row => decide (row.id = id) && row.parent.isSome := by
    funext row
    simp [Mysql.text_str, Uuid.ext_iff, eq_comm]
  have hparentOf : parentOf rows (some (.str id.text)) =
      ((rows.find? fun row => decide (row.id = id) && row.parent.isSome).bind
        TreeEntity.parent).filter fun parent => rows.any fun row => row.id = parent := by
    rw [← hp]
    rfl
  rw [hparentOf, Option.filter_eq_some_iff, Option.bind_eq_some_iff]
  simp only [List.any_eq_true, decide_eq_true_eq, IsParent]
  refine and_congr_left fun _ => ⟨?_, ?_⟩
  · rintro ⟨row, hfind, hparent⟩
    have hrow := List.find?_some hfind
    exact ⟨row, List.mem_of_find?_eq_some hfind, by simp_all, hparent⟩
  · rintro ⟨row, hrow, rfl, hparent⟩
    -- The query may find any row with the id and a parent; ids being unique, there is one.
    cases hfind : rows.find? fun other => decide (other.id = row.id) && other.parent.isSome with
    | none =>
        rw [List.find?_eq_none] at hfind
        exact absurd (hfind row hrow) (by simp [hparent])
    | some other =>
        have hother := List.find?_some hfind
        have hid : other.id = row.id := by simp_all
        obtain rfl := List.inj_on_of_nodup_map hrows (List.mem_of_find?_eq_some hfind) hrow hid
        exact ⟨other, rfl, hparent⟩

/-- A list of existing ids is followed by the parents of these, in their order, once for every
child. -/
theorem expand_names (rows : List TreeEntity) {items : List Json} {ids : List Uuid} (h : Names items ids) :
    ∃ items', expand rows (some (.arr items)) = .ok (some (.arr items')) ∧
      Names items' (ids ++ ids.filterMap fun id => parentOf rows (some (.str id.text))) := by
  have hparents : (items.filterMap fun item => parentOf rows (item.get "id")) =
      ids.filterMap fun id => parentOf rows (some (.str id.text)) :=
    calc (items.filterMap fun item => parentOf rows (item.get "id"))
        = (items.map (Json.get "id")).filterMap (parentOf rows) := by
          rw [List.filterMap_map]
          rfl
      _ = (ids.map fun id => some (Json.str id.text)).filterMap (parentOf rows) := by rw [h]
      _ = _ := by
          rw [List.filterMap_map]
          rfl
  refine ⟨_, if_neg (by rw [h.not_isNullish]; exact Bool.false_ne_true), ?_⟩
  rw [hparents]
  exact h.append (Names.ofIds _)

/-- When one of the two properties is expanded as it should be: it is a list, as `map` is called on
it, and the list is unrelated. -/
theorem expand_iff (hrows : (rows.map TreeEntity.id).Nodup) {given : Option Json}
    (hgiven : IsRelation rows given) :
    (∃ result, expand rows given = .ok result ∧ Expanded rows given result) ↔
      Unrelated rows given := by
  match given, hgiven with
  | none, _ | some .null, _ =>
      exact ⟨fun ⟨_, h, _⟩ => (by cases h), fun h => h.elim⟩
  | some (.arr items), ⟨ids, hnames, hnodup, _⟩ =>
      obtain ⟨items', hexpand, hnames'⟩ := expand_names rows hnames
      have hunrelated := nodup_append_filterMap
        (f := fun id : Uuid => parentOf rows (some (.str id.text))) hnodup
      simp only [ne_eq, parentOf_eq_some hrows] at hunrelated
      constructor
      · rintro ⟨result, hresult, hexpanded⟩ ids₁ hnames₁
        obtain rfl := hnames.unique hnames₁
        obtain ⟨items₂, ids₂, rfl, hnames₂, hnodup₂, -⟩ := hexpanded ids hnames
        rw [hexpand] at hresult
        obtain rfl := Json.arr.inj (Option.some.inj (Except.ok.inj hresult))
        obtain rfl := hnames'.unique hnames₂
        exact hunrelated.1 hnodup₂
      · intro h
        refine ⟨_, hexpand, fun ids₁ hnames₁ => ⟨items', _, rfl, hnames', ?_, fun id => ?_⟩⟩
        · exact hunrelated.2 (h ids hnames)
        · obtain rfl := hnames.unique hnames₁
          simp only [List.mem_append, List.mem_filterMap, parentOf_eq_some hrows]

variable {site : Site}

/-- **When the parents are expanded as they should be.** It takes two lists, and in neither of
them two siblings or a row beside its parent. -/
theorem intercept_expands_iff {body : UpdatePostDto}
    (htopicRows : (site.topics.map TreeEntity.id).Nodup)
    (hcategoryRows : (site.categories.map TreeEntity.id).Nodup)
    (htopics : IsRelation site.topics body.topics)
    (hcategories : IsRelation site.categories body.categories) :
    (∃ body', intercept site body = .ok body' ∧
      Expanded site.topics body.topics body'.topics ∧
      Expanded site.categories body.categories body'.categories) ↔
    Unrelated site.topics body.topics ∧ Unrelated site.categories body.categories := by
  rw [← expand_iff htopicRows htopics, ← expand_iff hcategoryRows hcategories]
  constructor
  · rintro ⟨body', h, htopics', hcategories'⟩
    obtain ⟨topics, hexpandTopics, h⟩ := bind_eq_ok.1 h
    obtain ⟨categories, hexpandCategories, h⟩ := bind_eq_ok.1 h
    obtain rfl := Except.ok.inj h
    exact ⟨⟨topics, hexpandTopics, htopics'⟩, categories, hexpandCategories, hcategories'⟩
  · rintro ⟨⟨topics, hexpandTopics, htopics'⟩, categories, hexpandCategories, hcategories'⟩
    refine ⟨{ body with topics, categories }, ?_, htopics', hcategories'⟩
    unfold intercept
    rw [hexpandTopics, hexpandCategories]
    rfl

end ChildrenInterceptor

end

/-! ### Dogs, their ticks and their worms -/

section

attribute [local instance] Mysql.strict

theorem dogs_nonempty : "dogs" ≠ "" := by decide

/-- Two topics under one. -/
def kennel : Site where
  users := staff
  topics := [⟨⟨"dogs", dogs_nonempty⟩, none⟩, ⟨⟨"ticks", by decide⟩, some ⟨"dogs", dogs_nonempty⟩⟩,
    ⟨⟨"worms", by decide⟩, some ⟨"dogs", dogs_nonempty⟩⟩]
  categories := []
  files := []

/-- The elements of a list of relations. -/
def named (ids : List String) : List Json := ids.map fun id => .obj [("id", .str id)]

/-- One of the two is listed with their parent. -/
theorem ticks_expanded :
    ∃ body', ChildrenInterceptor.intercept kennel
        { topics := some (.arr (named ["ticks"])), categories := some (.arr []) } = .ok body' ∧
      Expanded kennel.topics (some (.arr (named ["ticks"]))) body'.topics ∧
      Expanded kennel.categories (some (.arr [])) body'.categories := by
  have hticks : Names (named ["ticks"]) [⟨"ticks", by decide⟩] := rfl
  have hnothing : Names [] [] := rfl
  refine (@ChildrenInterceptor.intercept_expands_iff _ kennel
    { topics := some (.arr (named ["ticks"])), categories := some (.arr []) }
    (by decide) List.nodup_nil ⟨_, hticks, by decide, by decide⟩
    ⟨[], hnothing, List.nodup_nil, fun _ h => absurd h List.not_mem_nil⟩).2 ⟨?_, ?_⟩
  · intro ids hids
    obtain rfl := hticks.unique hids
    refine ⟨fun a ha b hb hne => absurd ?_ hne, fun a ha parent hparent hmem => ?_⟩
    · rw [List.mem_singleton.1 ha, List.mem_singleton.1 hb]
    · rw [List.mem_singleton.1 ha, List.mem_singleton.1 hmem] at hparent
      obtain ⟨row, hrow, hid, hself⟩ := hparent.1
      revert hid hself
      revert row
      decide
  · intro ids hids
    obtain rfl := hnothing.unique hids
    exact ⟨fun a ha => absurd ha List.not_mem_nil, fun a ha => absurd ha List.not_mem_nil⟩

/-- An update that leaves the lists out does not get through, and one with two topics of one
parent names the parent twice. -/
theorem not_expanded :
    (¬ ∃ body', ChildrenInterceptor.intercept kennel {} = .ok body' ∧
      Expanded kennel.topics none body'.topics ∧
      Expanded kennel.categories none body'.categories) ∧
    ¬ ∃ body', ChildrenInterceptor.intercept kennel
        { topics := some (.arr (named ["ticks", "worms"])), categories := some (.arr []) } =
          .ok body' ∧
      Expanded kennel.topics (some (.arr (named ["ticks", "worms"]))) body'.topics ∧
      Expanded kennel.categories (some (.arr [])) body'.categories := by
  constructor
  · rintro ⟨body', h, -⟩
    cases h
  · rintro ⟨body', h, htopics, -⟩
    obtain ⟨items, ids, hitems, hnames, hnodup, -⟩ :=
      htopics [⟨"ticks", by decide⟩, ⟨"worms", by decide⟩] rfl
    have hfour : body'.topics = some (.arr (named ["ticks", "worms", "dogs", "dogs"])) := by
      rw [← Except.ok.inj h]
      rfl
    rw [hfour] at hitems
    obtain rfl := Json.arr.inj (Option.some.inj hitems)
    have hids : Names (named ["ticks", "worms", "dogs", "dogs"])
      [⟨"ticks", by decide⟩, ⟨"worms", by decide⟩, ⟨"dogs", dogs_nonempty⟩, ⟨"dogs", dogs_nonempty⟩] := rfl
    rw [hnames.unique hids] at hnodup
    exact absurd hnodup (by decide)

end

end VetHealth
