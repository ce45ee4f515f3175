import VetHealth.Common.Repository
import VetHealth.Content.References
import VetHealth.Lib.Forest

/-!
# VetHealth.Content.Trees

**Saving a row of a tree.** Topics and categories refer to their own table by `parent`, and a payload
may give a row its parent and its list of children. `save` writes the row, then makes every listed
row its child, and takes the parent away from the rows that were its children and are not listed.
It does not see rows with a deletion mark among the children that were there.
-/

namespace VetHealth

open Store Forest

/-! ### `save` of a payload whose id the client has chosen -/

namespace Repository

variable {ρ κ : Type} [DecidableEq κ] {key : ρ → κ} {t t' : Table key} {id : κ} {accepted : Bool}
  {e : Edit key} {row : Option ρ}

/-- `save` of a payload with an id: it changes the row with this id, and inserts one when there is
none. `row` is the row to be inserted, if the payload makes one. -/
def upsert (t : Table key) (id : κ) (accepted : Bool) (e : Edit key) (row : Option ρ) :
    Except Failure (Table key) :=
  match t.get id, row with
  | some _, _ => save t id accepted e
  | none, some row => insert t accepted row
  | none, none => .error (.internal .queryFailed)

/-- `save` of a payload without an id: the database generates `id`, and `saved` is the save with it. -/
def generate (t : Table key) (id : κ) (saved : Except Failure (Table key)) :
    Except Failure (Table key) :=
  match t.get id with
  | some _ => .error (.internal .queryFailed)
  | none => saved

/-- A save under a generated id is a save under one that was free, which is all that is relied on of
the generator. -/
theorem generate_eq_ok {saved : Except Failure (Table key)} :
    generate t id saved = .ok t' ↔ t.get id = none ∧ saved = .ok t' := by
  unfold generate
  cases t.get id with
  | none => simp
  | some r => simp

/-- The row that a save leaves under its id. -/
def saved (t : Table key) (id : κ) (e : Edit key) (row : Option ρ) : Option ρ :=
  match t.get id with
  | some stored => some (e.apply stored)
  | none => row

/-- What a save that goes through is: it changes a stored row, or inserts one. -/
theorem upsert_eq_ok (h : upsert t id accepted e row = .ok t') :
    (∃ stored, t.get id = some stored ∧ save t id accepted e = .ok t') ∨
      ∃ r, t.get id = none ∧ row = some r ∧ insert t accepted r = .ok t' := by
  unfold upsert at h
  split at h
  · next stored hget => exact Or.inl ⟨stored, hget, h⟩
  · next r hget => exact Or.inr ⟨r, hget, rfl, h⟩
  · cases h

/-- A save that goes through writes the one row, and leaves all others as they were. -/
theorem get_upsert (hrow : ∀ r, row = some r → key r = id) (h : upsert t id accepted e row = .ok t')
    (k : κ) : t'.get k = if k = id then saved t id e row else t.get k := by
  unfold saved
  rcases upsert_eq_ok h with ⟨stored, hget, hsave⟩ | ⟨r, hget, rfl, hinsert⟩
  · rw [hget]
    by_cases hk : k = id
    · rw [if_pos hk, hk, get_save hsave, hget]
      rfl
    · rw [if_neg hk, get_save_ne hsave hk]
  · rw [hget, get_insert hinsert k, hrow r rfl]
    simp only [eq_comm]

/-- A save that goes through was accepted, and leaves a row. -/
theorem upsert_ok (h : upsert t id accepted e row = .ok t') :
    accepted = true ∧ ∃ r, saved t id e row = some r := by
  unfold saved
  rcases upsert_eq_ok h with ⟨stored, hget, hsave⟩ | ⟨r, hget, rfl, hinsert⟩
  · rw [hget]
    exact ⟨(exists_save.1 ⟨t', hsave⟩).2, _, rfl⟩
  · rw [hget]
    exact ⟨(exists_insert.1 ⟨t', hinsert⟩).2, _, rfl⟩

end Repository

/-! ### Children -/

section Children

variable {ρ : Type} {key : ρ → String} (column : ParentColumn key) (isDeleted : ρ → Bool)

/-- The rows that a list of children leaves out. -/
def droppedBy (id : String) (children : Option (List String)) (r : ρ) : Bool :=
  match children with
  | none => false
  | some ids => column.get r = some id && !ids.contains (key r) && !isDeleted r

/-- What the save of the row `id` makes of its children: the rows that the list names get it for a
parent, and those that had it and are not named lose theirs. -/
def saveChildren (t : Table key) (id : String) (children : Option (List String)) : Table key :=
  column.adopt t id (children.getD []) (droppedBy column isDeleted id children)

/-- The parent and the children that a payload gives to the row `id` are no loop: the chain of links
up from the parent, without those of the children that are left out, meets neither the row nor one
of its children. -/
def NoLoop (t : Table key) (id : String) (parent : Option String) (children : Option (List String)) :
    Prop :=
  Apart (column.cut t (droppedBy column isDeleted id children)) id parent
    fun k => k ∈ children.getD []

variable {column isDeleted} {t t₁ : Table key} {id : String} {parent : Option String}
  {children : Option (List String)}

/-- Of the other columns the children keep all, since only the reference is written. -/
theorem get_saveChildren {β : Type} (f : ρ → β) (hf : ∀ p r, f ((column.set p).apply r) = f r)
    (k : String) : ((saveChildren column isDeleted t id children).get k).map f = (t.get k).map f := by
  unfold saveChildren ParentColumn.adopt
  rw [Table.get_modify, Table.get_modify]
  cases t.get k with
  | none => rfl
  | some r =>
      have hone : ∀ (b : Bool) p q, f (if b then (column.set p).apply q else q) = f q := by
        intro b p q
        cases b
        · rfl
        · exact hf p q
      exact congrArg some ((hone _ _ _).trans (hone _ _ _))

/-- **Saving a row of a forest leaves a forest**, if its parent and its children are no loop. The
new links are grafted onto those that are left when the dropped children are cut off. -/
theorem acyclic_saveChildren (hacyclic : Acyclic (column.links t))
    (hother : ∀ k, k ≠ id → t₁.get k = t.get k) {row : ρ} (hrow : t₁.get id = some row)
    (hparent : column.get row = parent) (hloop : NoLoop column isDeleted t id parent children) :
    Acyclic (column.links (saveChildren column isDeleted t₁ id children)) := by
  obtain ⟨hself, hchain⟩ := hloop
  have hne : parent ≠ some id := fun h => (hchain id ⟨id, h, .refl⟩).1 rfl
  have hkept : droppedBy column isDeleted id children row = false := by
    unfold droppedBy
    split
    · rfl
    · simp [hparent, hne]
  have hgrafts : Grafts (column.cut t (droppedBy column isDeleted id children)) id parent
      (fun k => k ∈ children.getD [] ∧ (t₁.get k).isSome)
      (column.links (saveChildren column isDeleted t₁ id children)) := by
    refine ⟨?_, ?_, ?_⟩
    · intro htaken
      rw [saveChildren, ParentColumn.links_adopt, if_neg htaken]
      simp [ParentColumn.cut, hrow, hkept, hparent]
    · intro k hk
      rw [saveChildren, ParentColumn.links_adopt, if_pos hk]
    · intro k hk htaken
      rw [saveChildren, ParentColumn.links_adopt, if_neg htaken, ParentColumn.cut, ParentColumn.cut,
        hother k hk]
  exact (column.acyclic_cut hacyclic _).graft hgrafts
    ⟨fun h => hself h.1, fun k hk => ⟨(hchain k hk).1, fun h => (hchain k hk).2 h.1⟩⟩

/-- `save` of a payload for a row of a tree: first the row itself with its parent, then its
children. -/
def saveTree (column : ParentColumn key) (isDeleted : ρ → Bool) (t : Table key) (id : String)
    (accepted : Bool) (e : Edit key) (row : Option ρ) (children : Option (List String)) :
    Except Failure (Table key) := do
  let written ← Repository.upsert t id accepted e row
  return saveChildren column isDeleted written id children

variable {accepted : Bool} {e : Edit key} {row : Option ρ}

/-- The row that a save writes before it turns to the children. -/
theorem saveTree_eq_ok (hkey : ∀ r, row = some r → key r = id)
    (h : saveTree column isDeleted t id accepted e row children = .ok t₁) :
    ∃ written r, t₁ = saveChildren column isDeleted written id children ∧
      (∀ k, k ≠ id → written.get k = t.get k) ∧ written.get id = some r ∧
      Repository.saved t id e row = some r := by
  obtain ⟨written, hwritten, h⟩ := bind_eq_ok.1 h
  obtain rfl := Except.ok.inj h
  have hget := Repository.get_upsert hkey hwritten
  obtain ⟨-, r, hr⟩ := Repository.upsert_ok hwritten
  exact ⟨written, r, rfl, fun k hk => by rw [hget, if_neg hk], by rw [hget, if_pos rfl, hr], hr⟩

/-- What the saved row has in the columns other than its parent. -/
theorem map_saveTree (hkey : ∀ r, row = some r → key r = id)
    (h : saveTree column isDeleted t id accepted e row children = .ok t₁) {β : Type} (f : ρ → β)
    (hf : ∀ p r, f ((column.set p).apply r) = f r) :
    (t₁.get id).map f = (Repository.saved t id e row).map f := by
  obtain ⟨written, r, rfl, -, hr, hsaved⟩ := saveTree_eq_ok hkey h
  rw [get_saveChildren f hf, hr, hsaved]

/-- **A save keeps a forest a forest** when the parent and the children that it gives are no loop.
The parent that counts is the one that the row has after the save. -/
theorem acyclic_saveTree (hacyclic : Acyclic (column.links t)) (hkey : ∀ r, row = some r → key r = id)
    (hparent : ∀ r, Repository.saved t id e row = some r → column.get r = parent)
    (h : saveTree column isDeleted t id accepted e row children = .ok t₁)
    (hloop : NoLoop column isDeleted t id parent children) : Acyclic (column.links t₁) := by
  obtain ⟨written, r, rfl, hother, hr, hsaved⟩ := saveTree_eq_ok hkey h
  exact acyclic_saveChildren hacyclic hother hr (hparent r hsaved) hloop

/-- The parent of the saved row, when edit and new row agree on it. -/
theorem parent_of_saved {c : Column String} (hedit : ∀ r, column.get (e.apply r) = c.apply (column.get r))
    (hnew : ∀ r, row = some r → column.get r = c.value?) (r : ρ)
    (h : Repository.saved t id e row = some r) : column.get r = c.apply (column.links t id) := by
  unfold Repository.saved at h
  unfold ParentColumn.links
  cases hget : t.get id with
  | some stored =>
      rw [hget] at h
      obtain rfl := Option.some.inj h
      exact hedit stored
  | none =>
      rw [hget] at h
      rw [hnew r h]
      cases c <;> rfl

end Children

end VetHealth
