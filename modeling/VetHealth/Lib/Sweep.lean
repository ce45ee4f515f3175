import VetHealth.Lib.Table

/-!
# VetHealth.Lib.Sweep

**Rewriting a table row by row.** A data migration reads rows and then issues one statement for each
of them in turn. A `Selection` is what it read: the rows of the table, in any order. A statement is
an `Edit` of the row with the key that was read, or nothing.

Since a row is visited once, what a sweep does to a row depends on that row alone (`get_sweep`). From
this follows `restart`: a sweep may be stopped anywhere and begun anew, when no row that was
rewritten is rewritten again.
-/

namespace Store

variable {κ ρ : Type} [DecidableEq κ] {key : ρ → κ}

/-- The rows of a table, in the order in which a query returned them. A query without `ORDER BY`
promises no order at all. -/
structure Selection (t : Table key) where
  rows : List ρ
  perm : rows.Perm t.rows

omit [DecidableEq κ] in
theorem Selection.mem {t : Table key} (s : Selection t) {r : ρ} : r ∈ s.rows ↔ r ∈ t := s.perm.mem_iff

omit [DecidableEq κ] in
theorem Selection.nodup {t : Table key} (s : Selection t) : (s.rows.map key).Nodup :=
  (s.perm.map key).nodup_iff.2 t.nodup

/-- What a statement makes of the row that it is for. -/
def effect (e : Option (Edit key)) (r : ρ) : ρ := e.elim r fun e => e.apply r

namespace Table

/-- Issue the statement for the row that was read as `r`. The statement finds its row by the key,
and the row may have changed since it was read. -/
def visit (t : Table key) (r : ρ) : Option (Edit key) → Table key
  | none => t
  | some e => t.modify (fun q => key q = key r) e

/-- Issue the statements for `rows`, one after the other. The rows were all read before the first
statement. -/
def sweep (statement : ρ → Option (Edit key)) (rows : List ρ) (t : Table key) : Table key :=
  rows.foldl (fun t r => t.visit r (statement r)) t

/-- The same where a statement may fail, which ends the sweep. What the statements before it have
done stays. -/
def sweep? (statement : ρ → Option (Option (Edit key))) (rows : List ρ) (t : Table key) :
    Option (Table key) :=
  rows.foldlM (fun t r => (statement r).map (t.visit r)) t

theorem get_visit (t : Table key) (r : ρ) (e : Option (Edit key)) (k : κ) :
    (t.visit r e).get k = if key r = k then (t.get k).map (effect e) else t.get k := by
  cases e with
  | none =>
      have hid : effect (none : Option (Edit key)) = id := rfl
      rw [hid, Option.map_id]
      exact (ite_self _).symm
  | some e =>
      rw [visit, get_modify]
      cases hget : t.get k with
      | none => simp
      | some q =>
          have hq : key q = k := (get_eq_some.1 hget).2
          by_cases hk : key r = k
          · rw [if_pos hk, Option.map_some, if_pos (decide_eq_true (hq.trans hk.symm))]
            rfl
          · rw [if_neg hk, Option.map_some, if_neg]
            simpa [hq] using Ne.symm hk

/-- A key that was not read keeps its row. -/
theorem get_sweep_of_not_mem (statement : ρ → Option (Edit key)) {rows : List ρ} {k : κ}
    (h : k ∉ rows.map key) (t : Table key) : (t.sweep statement rows).get k = t.get k := by
  induction rows generalizing t with
  | nil => rfl
  | cons r rows ih =>
      rw [List.map_cons, List.mem_cons, not_or] at h
      show ((t.visit r (statement r)).sweep statement rows).get k = _
      rw [ih h.2, get_visit, if_neg (Ne.symm h.1)]

/-- A row that was read is rewritten by its own statement, and by no other: the keys that were read
are different. -/
theorem get_sweep (statement : ρ → Option (Edit key)) {rows : List ρ} (hnodup : (rows.map key).Nodup)
    {r : ρ} (hr : r ∈ rows) (t : Table key) :
    (t.sweep statement rows).get (key r) = (t.get (key r)).map (effect (statement r)) := by
  induction rows generalizing t with
  | nil => cases hr
  | cons q rows ih =>
      rw [List.map_cons, List.nodup_cons] at hnodup
      show ((t.visit q (statement q)).sweep statement rows).get (key r) = _
      rcases List.mem_cons.1 hr with rfl | hr
      · rw [get_sweep_of_not_mem statement hnodup.1, get_visit, if_pos rfl]
      · have hne : key q ≠ key r := fun heq => hnodup.1 (heq ▸ List.mem_map_of_mem hr)
        rw [ih hnodup.2 hr, get_visit, if_neg hne]

/-- **A full sweep** rewrites every row by its own statement. -/
theorem get_sweep_selection (statement : ρ → Option (Edit key)) {t : Table key} (s : Selection t)
    (k : κ) :
    (t.sweep statement s.rows).get k = (t.get k).map fun r => effect (statement r) r := by
  cases hget : t.get k with
  | none =>
      have hk : k ∉ s.rows.map key := by
        intro hmem
        obtain ⟨r, hr, hkey⟩ := List.mem_map.1 hmem
        exact get_eq_none.1 hget r (s.mem.1 hr) hkey
      rw [get_sweep_of_not_mem statement hk, hget, Option.map_none]
  | some r =>
      obtain ⟨hr, rfl⟩ := get_eq_some.1 hget
      rw [get_sweep statement s.nodup (s.mem.2 hr), hget, Option.map_some, Option.map_some]

/-- A sweep that was stopped has rewritten a row or left it. There is nothing in between, as a
statement is atomic. -/
theorem get_sweep_take (statement : ρ → Option (Edit key)) {t : Table key} (s : Selection t) (n : Nat)
    {r : ρ} (hr : r ∈ t) :
    (t.sweep statement (s.rows.take n)).get (key r) = some (effect (statement r) r) ∨
      (t.sweep statement (s.rows.take n)).get (key r) = some r := by
  have hget : t.get (key r) = some r := get_eq_some.2 ⟨hr, rfl⟩
  by_cases hmem : r ∈ s.rows.take n
  · have hnodup : ((s.rows.take n).map key).Nodup :=
      s.nodup.sublist ((List.take_sublist n s.rows).map key)
    rw [get_sweep statement hnodup hmem, hget, Option.map_some]
    exact Or.inl rfl
  · have hk : key r ∉ (s.rows.take n).map key := by
      intro hkey
      obtain ⟨q, hq, hqr⟩ := List.mem_map.1 hkey
      have hqt : q ∈ t := s.mem.1 (List.mem_of_mem_take hq)
      exact hmem (eq_of_key_eq hqt hr hqr ▸ hq)
    rw [get_sweep_of_not_mem statement hk, hget]
    exact Or.inr rfl

/-- **Restarting.** `first` was stopped after `n` rows and `again` was then run to its end. When
`again` leaves alone what `first` rewrote, this comes to what the one run of `whole` does, up to a
relation that the three statements keep. -/
theorem restart {first again whole : ρ → Option (Edit key)} {R : ρ → ρ → Prop}
    (hsettled : ∀ r e, first r = some e → again (e.apply r) = none)
    (hfirst : ∀ r e, first r = some e → R (e.apply r) (effect (whole r) r))
    (hagain : ∀ r, R (effect (again r) r) (effect (whole r) r))
    {t : Table key} (s₁ : Selection t) (n : Nat) (s₂ : Selection (t.sweep first (s₁.rows.take n)))
    (s₃ : Selection t) (k : κ) :
    Option.Rel R (((t.sweep first (s₁.rows.take n)).sweep again s₂.rows).get k)
      ((t.sweep whole s₃.rows).get k) := by
  rw [get_sweep_selection, get_sweep_selection]
  cases hget : t.get k with
  | none =>
      have hk : k ∉ (s₁.rows.take n).map key := by
        intro hmem
        obtain ⟨r, hr, hkey⟩ := List.mem_map.1 hmem
        exact get_eq_none.1 hget r (s₁.mem.1 (List.mem_of_mem_take hr)) hkey
      rw [get_sweep_of_not_mem first hk, hget]
      exact Option.Rel.none
  | some r =>
      obtain ⟨hr, rfl⟩ := get_eq_some.1 hget
      -- The first sweep has come to the row or not; the second one comes to it in any case.
      rcases get_sweep_take first s₁ n hr with hstop | hstop
      · rw [hstop]
        refine Option.Rel.some ?_
        cases he : first r with
        | none => exact hagain r
        | some e =>
            show R (effect (again (e.apply r)) (e.apply r)) _
            rw [hsettled r e he]
            exact hfirst r e he
      · rw [hstop]
        exact Option.Rel.some (hagain r)

/-- A sweep whose statements all succeed is the sweep by what they are. -/
theorem sweep?_eq_some {statement : ρ → Option (Option (Edit key))} {rows : List ρ}
    {t t' : Table key} :
    t.sweep? statement rows = some t' ↔
      (∀ r ∈ rows, (statement r).isSome) ∧
        t' = t.sweep (fun r => (statement r).getD none) rows := by
  induction rows generalizing t with
  | nil =>
      show some t = some t' ↔ _
      rw [Option.some.injEq, eq_comm]
      exact ⟨fun h => ⟨fun r hr => absurd hr List.not_mem_nil, h⟩, And.right⟩
  | cons r rows ih =>
      show ((statement r).map (t.visit r)).bind (fun t => t.sweep? statement rows) = some t' ↔ _
      cases hr : statement r with
      | none => simp [hr]
      | some e =>
          rw [Option.map_some, Option.bind_some, ih, List.forall_mem_cons, hr]
          simp [sweep, hr]

end Table

end Store
