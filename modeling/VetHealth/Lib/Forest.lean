import Mathlib.Logic.Relation
import VetHealth.Lib.Table

/-!
# VetHealth.Lib.Forest

**Parent links.** A function that gives a node its parent, if it has one, is a forest when no chain
of links returns to where it started (`Acyclic`).

Giving a node a new parent and taking other nodes in as its children keeps a forest one when the
chain that leads up from the new parent meets neither the node nor one of those it takes in
(`Acyclic.graft`). Links may be cut at the same time, and the chain is followed over what is left.

The links of a table are a column that refers to the table's own key; the second part reads what the
statements of a `Table` do to them.
-/

namespace Forest

variable {κ : Type}

/-- One step up. -/
def Step (parent : κ → Option κ) (k p : κ) : Prop := parent k = some p

/-- No chain of links returns to its start. For a table this says that going up from a row ends,
since there are finitely many rows. -/
def Acyclic (parent : κ → Option κ) : Prop := ∀ k, ¬Relation.TransGen (Step parent) k k

/-- The chain of links that begins at `start`, if there is one, comes to `k`. It is what has to be
looked at before a node is put below `start`. -/
def Meets (parent : κ → Option κ) (start : Option κ) (k : κ) : Prop :=
  ∃ s, start = some s ∧ Relation.ReflTransGen (Step parent) s k

theorem acyclic_none : Acyclic fun _ : κ => none := by
  intro k h
  obtain ⟨p, hstep, -⟩ := Relation.TransGen.head'_iff.1 h
  cases hstep

/-- A forest with some of its links cut. A chain of the links that are left is one of the old links,
so nothing has to be checked. -/
theorem Acyclic.cut {parent parent' : κ → Option κ} (h : Acyclic parent)
    (hcut : ∀ k, parent' k = parent k ∨ parent' k = none) : Acyclic parent' := by
  intro k hcycle
  refine h k (Relation.TransGen.mono (fun a b hstep => ?_) k k hcycle)
  rcases hcut a with hsame | hnone
  · exact hsame.symm.trans hstep
  · rw [Step, hnone] at hstep
    cases hstep

/-- The node `x` has the parent `p` and the children `taken`; every other link is that of `parent`.
It says what a saved node does to the links of its table, whether it was there before or not. -/
structure Grafts (parent : κ → Option κ) (x : κ) (p : Option κ) (taken : κ → Prop)
    (parent' : κ → Option κ) : Prop where
  root : ¬taken x → parent' x = p
  child : ∀ k, taken k → parent' k = some x
  other : ∀ k, k ≠ x → ¬taken k → parent' k = parent k

section Graft

variable {parent parent' : κ → Option κ} {x : κ} {p : Option κ} {taken : κ → Prop}

/-- The chain from the new parent meets neither the node nor one that it takes in. Without this the
new links would close a loop: up from the parent to the node, and back down by the link that is
grafted. -/
def Apart (parent : κ → Option κ) (x : κ) (p : Option κ) (taken : κ → Prop) : Prop :=
  ¬taken x ∧ ∀ k, Meets parent p k → k ≠ x ∧ ¬taken k

/-- From `x` the new links lead where the old ones led from the new parent. The chain never comes
back to what is grafted, so that its links are old ones. -/
theorem Grafts.meets (h : Grafts parent x p taken parent') (hapart : Apart parent x p taken) {k : κ}
    (hup : Relation.TransGen (Step parent') x k) : Meets parent p k := by
  induction hup with
  | single hstep => exact ⟨_, (h.root hapart.1).symm.trans hstep, .refl⟩
  | tail _ hstep ih =>
      obtain ⟨hne, hnot⟩ := hapart.2 _ ih
      obtain ⟨s, hs, hchain⟩ := ih
      exact ⟨s, hs, hchain.tail ((h.other _ hne hnot).symm.trans hstep)⟩

/-- A chain of new links is one of old links, or it passes through `x`. The induction is on the
chain: the one new link that does not begin at `x` ends there. -/
theorem Grafts.old_or_through (h : Grafts parent x p taken parent') {k q : κ}
    (hup : Relation.TransGen (Step parent') k q) :
    Relation.TransGen (Step parent) k q ∨
      Relation.ReflTransGen (Step parent') k x ∧ Relation.ReflTransGen (Step parent') x q := by
  have hstep : ∀ a b, Step parent' a b → Step parent a b ∨
      Relation.ReflTransGen (Step parent') a x ∧ Relation.ReflTransGen (Step parent') x b := by
    intro a b hab
    by_cases ha : a = x
    · subst ha
      exact Or.inr ⟨.refl, .single hab⟩
    · by_cases hta : taken a
      · obtain rfl := Option.some.inj ((h.child a hta).symm.trans hab)
        exact Or.inr ⟨.single hab, .refl⟩
      · exact Or.inl ((h.other a ha hta).symm.trans hab)
  induction hup with
  | single hab =>
      rcases hstep _ _ hab with hold | hthrough
      · exact Or.inl (.single hold)
      · exact Or.inr hthrough
  | tail hchain hab ih =>
      rcases ih with hold | ⟨hto, hfrom⟩
      · rcases hstep _ _ hab with hlast | ⟨hto, hfrom⟩
        · exact Or.inl (hold.tail hlast)
        · exact Or.inr ⟨hchain.to_reflTransGen.trans hto, hfrom⟩
      · exact Or.inr ⟨hto, hfrom.tail hab⟩

/-- **Grafting keeps a forest a forest**, when the new parent is apart from what is grafted. A loop
of new links would pass through `x`, and up from there no chain comes back. -/
theorem Acyclic.graft (hacyclic : Acyclic parent) (h : Grafts parent x p taken parent')
    (hapart : Apart parent x p taken) : Acyclic parent' := by
  intro k hcycle
  rcases h.old_or_through hcycle with hold | ⟨hto, hfrom⟩
  · exact hacyclic k hold
  · have hself : Relation.TransGen (Step parent') x x :=
      Relation.TransGen.trans_left (Relation.TransGen.trans_right hfrom hcycle) hto
    exact (hapart.2 x (h.meets hapart hself)).1 rfl

end Graft

/-! ### The parent column of a table -/

open Store

variable {ρ : Type} {key : ρ → κ}

/-- A column that refers to the key of its own table, as the `parentId` of a tree that is kept in
one table does. -/
structure ParentColumn (key : ρ → κ) where
  get : ρ → Option κ
  set : Option κ → Edit key
  get_set : ∀ p r, get ((set p).apply r) = p

namespace ParentColumn

variable [DecidableEq κ] (column : ParentColumn key)

/-- The links that the rows of a table make. A key without a row has none, so that a reference to a
missing row ends a chain. -/
def links (t : Table key) : κ → Option κ := fun k => (t.get k).bind column.get

/-- The rows of `ids` become the children of `x`, and those that `dropped` selects its children no
longer. Dropping comes first: a row in both is adopted. -/
def adopt (t : Table key) (x : κ) (ids : List κ) (dropped : ρ → Bool) : Table key :=
  (t.modify dropped (column.set none)).modify (fun r => decide (key r ∈ ids)) (column.set (some x))

variable {column} {t : Table key}

/-- The links without those of the rows that are selected. -/
def cut (column : ParentColumn key) (t : Table key) (dropped : ρ → Bool) : κ → Option κ :=
  fun k => (t.get k).bind fun r => if dropped r then none else column.get r

theorem links_adopt (x : κ) (ids : List κ) (dropped : ρ → Bool) (k : κ) :
    column.links (column.adopt t x ids dropped) k =
      if k ∈ ids ∧ (t.get k).isSome then some x else column.cut t dropped k := by
  unfold links adopt cut
  rw [Table.get_modify, Table.get_modify]
  cases hget : t.get k with
  | none => simp
  | some r =>
      have hkey : key r = k := (Table.get_eq_some.1 hget).2
      simp only [Option.map_some, Option.bind_some, Option.isSome_some, and_true]
      have hkept : key (if dropped r = true then (column.set none).apply r else r) = k := by
        split
        · exact ((column.set none).key_apply r).trans hkey
        · exact hkey
      by_cases hmem : k ∈ ids
      · rw [if_pos hmem, if_pos (decide_eq_true (hkept.symm ▸ hmem)), column.get_set]
      · rw [if_neg hmem, if_neg (by simpa [hkept] using hmem)]
        split
        · exact column.get_set none r
        · rfl

/-- Cutting links of a forest. -/
theorem acyclic_cut (h : Acyclic (column.links t)) (dropped : ρ → Bool) :
    Acyclic (column.cut t dropped) := by
  refine h.cut fun k => ?_
  unfold cut links
  cases t.get k with
  | none => exact Or.inl rfl
  | some r =>
      by_cases hdropped : dropped r = true
      · exact Or.inr (by simp [hdropped])
      · exact Or.inl (by simp [hdropped])

end ParentColumn

end Forest
