import Mathlib.Data.List.Nodup

/-!
# VetHealth.Lib.Table

**Keyed tables.** A `Table key` is a list of rows whose keys are pairwise
distinct, the shape a relational table with a primary key has. The three ways
to change it are the three statements a repository issues:

* `insert` refuses a row whose key is taken (the primary-key violation);
* `modify` rewrites the rows a criterion selects, by an `Edit` that cannot touch
  the key;
* `erase` removes the rows a criterion selects.

Because keys are distinct, `get` and membership are two views of one fact
(`get_eq_some`), and a search for a key together with any further condition is
a filter on `get` (`find_key`). Later proofs use those two and never look at
the list.
-/

namespace Store

variable {κ ρ : Type} [DecidableEq κ] {key : ρ → κ}

/-- Rows with pairwise distinct keys, in insertion order. That the keys are distinct is a field, so
that no operation can break it; a database enforces it by the primary key. -/
structure Table (key : ρ → κ) where
  rows : List ρ
  nodup : (rows.map key).Nodup

/-- A row update that keeps the key. Statements that would change a primary key are not made
anywhere. -/
structure Edit (key : ρ → κ) where
  apply : ρ → ρ
  key_apply : ∀ r, key (apply r) = key r

namespace Table

instance : Membership ρ (Table key) := ⟨fun t r => r ∈ t.rows⟩

omit [DecidableEq κ] in
theorem mem_def {t : Table key} {r : ρ} : r ∈ t ↔ r ∈ t.rows := Iff.rfl

/-- The table without rows. -/
def empty : Table key := ⟨[], List.nodup_nil⟩

omit [DecidableEq κ] in
@[simp] theorem not_mem_empty (r : ρ) : r ∉ (empty : Table key) := by
  simp [mem_def, empty]

/-- The first row that satisfies `p`. -/
def find (t : Table key) (p : ρ → Bool) : Option ρ := t.rows.find? p

/-- The row with key `k`. -/
def get (t : Table key) (k : κ) : Option ρ := t.find fun r => key r = k

/-- Append a row, unless its key is taken; `none` is the error that the database reports for a
duplicate key. -/
def insert (t : Table key) (r : ρ) : Option (Table key) :=
  if h : key r ∈ t.rows.map key then none
  else some ⟨t.rows ++ [r], by
    rw [List.map_append, List.map_singleton, List.nodup_append]
    exact ⟨t.nodup, List.nodup_singleton _, fun a ha b hb => by
      rw [List.mem_singleton.1 hb]
      exact fun hab => h (hab ▸ ha)⟩⟩

/-- Apply `e` to every row that satisfies `p`. -/
def modify (t : Table key) (p : ρ → Bool) (e : Edit key) : Table key :=
  ⟨t.rows.map fun r => if p r then e.apply r else r, by
    have hkeys : (t.rows.map fun r => if p r then e.apply r else r).map key = t.rows.map key := by
      rw [List.map_map]
      refine List.map_congr_left fun r _ => ?_
      simp only [Function.comp]
      split
      · exact e.key_apply r
      · rfl
    rw [hkeys]
    exact t.nodup⟩

/-- Remove every row that satisfies `p`. -/
def erase (t : Table key) (p : ρ → Bool) : Table key :=
  ⟨t.rows.filter fun r => !p r, t.nodup.sublist (List.filter_sublist.map key)⟩

/-! ### Searching -/

omit [DecidableEq κ] in
theorem find_mem {t : Table key} {p : ρ → Bool} {r : ρ} (h : t.find p = some r) : r ∈ t :=
  List.mem_of_find?_eq_some h

omit [DecidableEq κ] in
theorem find_prop {t : Table key} {p : ρ → Bool} {r : ρ} (h : t.find p = some r) : p r = true :=
  List.find?_some h

omit [DecidableEq κ] in
theorem find_eq_none {t : Table key} {p : ρ → Bool} :
    t.find p = none ↔ ∀ r ∈ t, p r = false := by
  simp [find, List.find?_eq_none, mem_def]

omit [DecidableEq κ] in
/-- Two rows with one key are one row. -/
theorem eq_of_key_eq {t : Table key} {r q : ρ} (hr : r ∈ t) (hq : q ∈ t) (h : key r = key q) :
    r = q :=
  List.inj_on_of_nodup_map t.nodup hr hq h

/-- `get` finds exactly the row with that key. It is the rule by which most proofs go from a row to
what a query answers. -/
theorem get_eq_some {t : Table key} {k : κ} {r : ρ} :
    t.get k = some r ↔ r ∈ t ∧ key r = k := by
  constructor
  · intro h
    exact ⟨find_mem h, by simpa using find_prop h⟩
  · rintro ⟨hr, rfl⟩
    cases h : t.get (key r) with
    | none => simpa using find_eq_none.1 h r hr
    | some q =>
        have hq : key q = key r := by simpa using find_prop h
        rw [eq_of_key_eq (find_mem h) hr hq]

theorem get_eq_none {t : Table key} {k : κ} : t.get k = none ↔ ∀ r ∈ t, key r ≠ k := by
  simp [get, find_eq_none]

/-- No row that meets `q` has the key `k`. -/
theorem filter_get_eq_none {t : Table key} {q : ρ → Bool} {k : κ} :
    (t.get k).filter q = none ↔ k ∉ (t.rows.filter q).map key := by
  rw [List.mem_map, Option.filter_eq_none_iff]
  simp only [List.mem_filter]
  constructor
  · rintro hnone ⟨r, ⟨hr, hq⟩, rfl⟩
    exact hnone r (get_eq_some.2 ⟨hr, rfl⟩) hq
  · intro hk r hr hq
    obtain ⟨hmem, hkey⟩ := get_eq_some.1 hr
    exact hk ⟨r, ⟨hmem, hq⟩, hkey⟩

/-- A search for a key and a further condition filters the row with that key. -/
theorem find_key (t : Table key) (k : κ) (q : ρ → Bool) :
    (t.find fun r => decide (key r = k) && q r) = (t.get k).filter q := by
  cases hget : t.get k with
  | none =>
      rw [Option.filter_none, find_eq_none]
      intro r hr
      simp [get_eq_none.1 hget r hr]
  | some r =>
      obtain ⟨hr, hk⟩ := get_eq_some.1 hget
      cases hq : q r with
      | true =>
          rw [Option.filter_some, if_pos hq]
          cases hfind : t.find fun r => decide (key r = k) && q r with
          | none => simpa [hk, hq] using find_eq_none.1 hfind r hr
          | some s =>
              have hs := find_prop hfind
              simp only [Bool.and_eq_true, decide_eq_true_eq] at hs
              rw [eq_of_key_eq (find_mem hfind) hr (hs.1.trans hk.symm)]
      | false =>
          rw [Option.filter_some, hq, if_neg Bool.false_ne_true, find_eq_none]
          intro s hs
          by_cases hsk : key s = k
          · rw [eq_of_key_eq hs hr (hsk.trans hk.symm), hq, Bool.and_false]
          · simp [hsk]

/-! ### What each statement does to the rows -/

theorem insert_eq_some {t t' : Table key} {r : ρ} (h : t.insert r = some t') :
    t'.rows = t.rows ++ [r] ∧ ∀ q ∈ t, key q ≠ key r := by
  unfold insert at h
  split at h
  · cases h
  · next hfresh =>
      obtain rfl := Option.some.inj h
      exact ⟨rfl, fun q hq hkey => hfresh (hkey ▸ List.mem_map_of_mem hq)⟩

/-- An insert goes through when the key is free. -/
theorem exists_insert {t : Table key} {r : ρ} :
    (∃ t', t.insert r = some t') ↔ t.get (key r) = none := by
  constructor
  · intro ⟨t', h⟩
    exact get_eq_none.2 (insert_eq_some h).2
  · intro h
    rw [get_eq_none] at h
    unfold insert
    rw [dif_neg]
    · exact ⟨_, rfl⟩
    · intro hmem
      obtain ⟨q, hq, hkey⟩ := List.mem_map.1 hmem
      exact h q hq hkey

theorem mem_insert {t t' : Table key} {r q : ρ} (h : t.insert r = some t') :
    q ∈ t' ↔ q ∈ t ∨ q = r := by
  rw [mem_def, (insert_eq_some h).1, List.mem_append, List.mem_singleton, mem_def]

theorem get_insert {t t' : Table key} {r : ρ} (h : t.insert r = some t') (k : κ) :
    t'.get k = if key r = k then some r else t.get k := by
  by_cases hk : key r = k
  · rw [if_pos hk, get_eq_some]
    exact ⟨(mem_insert h).2 (Or.inr rfl), hk⟩
  · rw [if_neg hk]
    cases hget : t.get k with
    | none =>
        rw [get_eq_none]
        intro q hq
        rcases (mem_insert h).1 hq with hq | rfl
        · exact get_eq_none.1 hget q hq
        · exact hk
    | some q =>
        obtain ⟨hq, hqk⟩ := get_eq_some.1 hget
        exact get_eq_some.2 ⟨(mem_insert h).2 (Or.inl hq), hqk⟩

omit [DecidableEq κ] in
theorem mem_modify {t : Table key} {p : ρ → Bool} {e : Edit key} {q : ρ} :
    q ∈ t.modify p e ↔ ∃ r ∈ t, (if p r then e.apply r else r) = q := by
  simp [mem_def, modify]

/-- A row after `modify` is the old row with that key, edited if it was selected. So what a
statement does can be read off row by row. -/
theorem get_modify (t : Table key) (p : ρ → Bool) (e : Edit key) (k : κ) :
    (t.modify p e).get k = (t.get k).map fun r => if p r then e.apply r else r := by
  have hkey : ∀ r, key (if p r then e.apply r else r) = key r := by
    intro r
    split
    · exact e.key_apply r
    · rfl
  cases hget : t.get k with
  | none =>
      rw [Option.map_none, get_eq_none]
      intro q hq
      obtain ⟨r, hr, rfl⟩ := mem_modify.1 hq
      rw [hkey]
      exact get_eq_none.1 hget r hr
  | some r =>
      obtain ⟨hr, hk⟩ := get_eq_some.1 hget
      exact get_eq_some.2 ⟨mem_modify.2 ⟨r, hr, rfl⟩, (hkey r).trans hk⟩

omit [DecidableEq κ] in
theorem mem_erase {t : Table key} {p : ρ → Bool} {q : ρ} :
    q ∈ t.erase p ↔ q ∈ t ∧ p q = false := by
  simp [mem_def, erase]

end Table

end Store
