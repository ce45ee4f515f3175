import VetHealth.Posts.Entity

/-!
# VetHealth.Content.Slugs

**The slug hook of a payload.** Posts, pages, topics and categories share `createSlug`: before a row
is inserted or updated, the slug of the entity that was built from the payload is replaced by
`slugify(slug || title)`, unless both are empty or absent. (A category has a `name` for a title.)
-/

namespace VetHealth

variable [Slugify]

/-- `createSlug`, on the columns of a payload. It runs before an insert and before an update, and on
an update the payload may have neither column. -/
def hookSlug (slug title : Column String) : Column String :=
  match slugFrom slug.value? title.value? with
  | some slug => .set slug
  | none => slug

/-- What the hook of the entity finds is a text that is not empty. -/
theorem slugFrom_eq_none {slug title : Option String} :
    slugFrom slug title = none ↔ (∀ s, slug = some s → s = "") ∧ ∀ t, title = some t → t = "" := by
  unfold slugFrom
  cases slug with
  | none => cases title <;> simp [Option.filter]
  | some s =>
      by_cases hs : s = ""
      · cases title <;> simp [Option.filter, hs]
      · simp [Option.filter, hs]

/-- A slug that is given wins over the title, and is itself made a slug. -/
theorem hookSlug_set {s : String} (h : s ≠ "") (title : Column String) :
    hookSlug (.set s) title = .set (Slugify.slugify s) := by
  simp [hookSlug, slugFrom, Column.value?, Option.filter, h]

/-- A slug that is absent or empty gives way to a title that is not. -/
theorem hookSlug_title {slug : Column String} (hslug : ∀ s, slug = .set s → s = "") {t : String}
    (h : t ≠ "") : hookSlug slug (.set t) = .set (Slugify.slugify t) := by
  cases slug with
  | set s => simp [hookSlug, slugFrom, Column.value?, Option.filter, h, hslug s rfl]
  | _ => simp [hookSlug, slugFrom, Column.value?, Option.filter, h]

/-- Without a slug and a title the column stays what the payload makes it. -/
theorem hookSlug_self {slug title : Column String} (hslug : ∀ s, slug = .set s → s = "")
    (htitle : ∀ t, title = .set t → t = "") : hookSlug slug title = slug := by
  have hnone : slugFrom slug.value? title.value? = none := by
    rw [slugFrom_eq_none]
    constructor
    · intro s hs
      cases slug with
      | set s' => exact Option.some.inj hs ▸ hslug s' rfl
      | _ => cases hs
    · intro t ht
      cases title with
      | set t' => exact Option.some.inj ht ▸ htitle t' rfl
      | _ => cases ht
  rw [hookSlug, hnone]

/-- **Where a slug comes from**: from the slug of the payload, or else from its title. -/
theorem hookSlug_eq_set {slug title : Column String} {made : String}
    (h : hookSlug slug title = .set made) :
    (∃ s, slug = .set s ∧ s ≠ "" ∧ Slugify.slugify s = made) ∨
      (∃ t, title = .set t ∧ t ≠ "" ∧ Slugify.slugify t = made ∧ ∀ s, slug = .set s → s = "") ∨
      slug = .set "" ∧ made = "" := by
  by_cases hslug : ∃ s, slug = .set s ∧ s ≠ ""
  · obtain ⟨s, rfl, hs⟩ := hslug
    rw [hookSlug_set hs, Column.set.injEq] at h
    exact Or.inl ⟨s, rfl, hs, h⟩
  · have hempty : ∀ s, slug = .set s → s = "" := fun s hs => by_contra fun hne => hslug ⟨s, hs, hne⟩
    by_cases htitle : ∃ t, title = .set t ∧ t ≠ ""
    · obtain ⟨t, rfl, ht⟩ := htitle
      rw [hookSlug_title hempty ht, Column.set.injEq] at h
      exact Or.inr (Or.inl ⟨t, rfl, ht, h, hempty⟩)
    · rw [hookSlug_self hempty fun t ht => by_contra fun hne => htitle ⟨t, ht, hne⟩] at h
      obtain rfl := hempty made h
      exact Or.inr (Or.inr ⟨h, rfl⟩)

/-- **A payload without a slug keeps the slug** exactly when it has no title, or one that the slug
is made of. -/
theorem hookSlug_keeps {title : Column String} {old : String} :
    (hookSlug .keep title).applyRequired old = old ↔
      ∀ t, title = .set t → t ≠ "" → Slugify.slugify t = old := by
  have hkeep : ∀ s : String, Column.keep = .set s → s = "" := by
    intro s h
    cases h
  cases title with
  | set t =>
      by_cases ht : t = ""
      · rw [hookSlug_self hkeep (by simp [ht])]
        simp [Column.applyRequired, ht]
      · rw [hookSlug_title hkeep ht]
        simp [Column.applyRequired, ht]
  | _ =>
      rw [hookSlug_self hkeep (by simp)]
      simp [Column.applyRequired]

end VetHealth
