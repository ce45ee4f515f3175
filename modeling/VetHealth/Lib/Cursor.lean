import Mathlib.Data.List.Basic

/-!
# VetHealth.Lib.Cursor

**Reading a listing that comes in pages.** A service hands out a page for a cursor, and with it the
cursor of the next page, if there is one. `Lists fetch cursor items` says what the pages from a cursor
on hold together; every page but the last names the next one, and any of them may be empty.

`drain` reads page after page and visits the items. A visit may end the whole reading with a result.
`Lists.drain` says that it ends, and with what: the pages cannot be told from the result, which is
that of visiting the items of the listing one after the other (`visitAll`).
-/

namespace Cursor

variable {τ α σ ρ ε : Type}

/-- A page, and the cursor of the next one. A service that lists more than it sends at once gives
out cursors; only the one of the page before leads to the next page. -/
structure Page (τ α : Type) where
  items : List α
  next : Option τ

/-- What the pages from a cursor on hold. The pages may be cut anywhere, empty ones included; that
there is a last one is part of the statement, since the listing is built from there. -/
inductive Lists (fetch : Option τ → Except ε (Page τ α)) : Option τ → List α → Prop
  | last {cursor : Option τ} {page : Page τ α} :
      fetch cursor = .ok page → page.next = none → Lists fetch cursor page.items
  | more {cursor : Option τ} {page : Page τ α} {next : τ} {rest : List α} :
      fetch cursor = .ok page → page.next = some next → Lists fetch (some next) rest →
      Lists fetch cursor (page.items ++ rest)

/-- Visit the items in turn. A visit goes on with a state, or ends with a result: the early `return`
of a loop over the items of a page, which ends the loop over the pages as well. -/
def visitAll (visit : σ → α → Except ρ σ) (finish : σ → ρ) (items : List α) (state : σ) : ρ :=
  match items.foldlM visit state with
  | .error result => result
  | .ok state => finish state

/-- Read at most `pages` pages; `none` when there are more. The number stands for the patience of
whoever watches a loop that has no bound of its own. -/
def drain (fetch : Option τ → Except ε (Page τ α)) (visit : σ → α → Except ρ σ) (finish : σ → ρ) :
    Nat → Option τ → σ → Option (Except ε ρ)
  | 0, _, _ => none
  | pages + 1, cursor, state =>
      match fetch cursor with
      | .error error => some (.error error)
      | .ok page =>
          match page.items.foldlM visit state with
          | .error result => some (.ok result)
          | .ok state =>
              match page.next with
              | none => some (.ok (finish state))
              | some next => drain fetch visit finish pages (some next) state

variable {fetch : Option τ → Except ε (Page τ α)} {visit : σ → α → Except ρ σ} {finish : σ → ρ}

@[simp] theorem visitAll_nil (state : σ) : visitAll visit finish [] state = finish state := rfl

theorem visitAll_cons (item : α) (items : List α) (state : σ) :
    visitAll visit finish (item :: items) state =
      match visit state item with
      | .error result => result
      | .ok state => visitAll visit finish items state := by
  rw [visitAll, List.foldlM_cons]
  cases visit state item with
  | error result => rfl
  | ok state => rfl

theorem visitAll_append (items rest : List α) (state : σ) :
    visitAll visit finish (items ++ rest) state =
      match items.foldlM visit state with
      | .error result => result
      | .ok state => visitAll visit finish rest state := by
  rw [visitAll, List.foldlM_append]
  cases items.foldlM visit state with
  | error result => rfl
  | ok state => rfl

/-- **Pages do not matter.** The reading ends, with what visiting the whole listing comes to. So a
statement about a loop over pages is one about a loop over a list, for every way of cutting it. -/
theorem Lists.drain {cursor : Option τ} {items : List α} (h : Lists fetch cursor items)
    (visit : σ → α → Except ρ σ) (finish : σ → ρ) :
    ∃ enough, ∀ pages, enough ≤ pages → ∀ state,
      Cursor.drain fetch visit finish pages cursor state =
        some (.ok (visitAll visit finish items state)) := by
  induction h with
  | @last cursor page hpage hnext =>
      refine ⟨1, fun pages hpages state => ?_⟩
      obtain ⟨pages, rfl⟩ := Nat.exists_eq_add_of_le' hpages
      rw [Cursor.drain, hpage]
      dsimp only
      rw [visitAll]
      cases page.items.foldlM visit state with
      | error result => rfl
      | ok state => simp [hnext]
  | @more cursor page next rest hpage hnext _ ih =>
      obtain ⟨enough, ih⟩ := ih
      refine ⟨enough + 1, fun pages hpages state => ?_⟩
      obtain ⟨pages, rfl⟩ := Nat.exists_eq_add_of_le' (Nat.le_trans (Nat.le_add_left 1 enough) hpages)
      rw [Cursor.drain, hpage, visitAll_append]
      dsimp only
      cases page.items.foldlM visit state with
      | error result => rfl
      | ok state => simp only [hnext, ih pages (Nat.le_of_succ_le_succ hpages)]

end Cursor
