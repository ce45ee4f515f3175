import Mathlib.Algebra.BigOperators.Fin
import Mathlib.Algebra.BigOperators.Intervals
import Mathlib.Data.Fintype.BigOperators
import Mathlib.Data.List.Permutation
import Mathlib.Data.Nat.Factorial.BigOperators
import Mathlib.Logic.Function.Basic

/-!
# VetHealth.Lib.Shuffle

**The shuffle that goes down an array**, swapping every element with one of those up to it. The
position for index `i` is drawn from `0` to `i`, so the draws of a run are a dependent function.

The last element is settled by the first swap, the one before it by the second, and so on: what the
draws put into a settled position tells them back. An array that repeats nothing is therefore brought
into every order by exactly one choice of draws (`exists_unique_draws`), and every sample from its
front is taken by the same number of them (`card_sample`).
-/

namespace Shuffle

variable {α : Type}

/-- A draw for every index. -/
abbrev Draws := (i : Nat) → Fin (i + 1)

/-- `for (i = last; i > 0; i--) swap(xs, i, draws(i))`. -/
def shuffleFrom (draws : Draws) : Nat → Array α → Array α
  | 0, xs => xs
  | i + 1, xs => shuffleFrom draws i (xs.swapIfInBounds (i + 1) (draws (i + 1)))

def shuffle (draws : Draws) (xs : Array α) : Array α := shuffleFrom draws (xs.size - 1) xs

@[simp] theorem size_shuffleFrom (draws : Draws) (i : Nat) (xs : Array α) :
    (shuffleFrom draws i xs).size = xs.size := by
  induction i generalizing xs with
  | zero => rfl
  | succ i ih => rw [shuffleFrom, ih, Array.size_swapIfInBounds]

theorem swapIfInBounds_perm (xs : Array α) (i j : Nat) :
    (xs.swapIfInBounds i j).toList.Perm xs.toList := by
  rw [Array.swapIfInBounds_def]
  split
  · split
    · exact Array.perm_iff_toList_perm.1 (Array.swap_perm _ _)
    · exact List.Perm.refl _
  · exact List.Perm.refl _

/-- A shuffle loses nothing and repeats nothing: every step is a swap. -/
theorem shuffleFrom_perm (draws : Draws) (i : Nat) (xs : Array α) :
    (shuffleFrom draws i xs).toList.Perm xs.toList := by
  induction i generalizing xs with
  | zero => exact List.Perm.refl _
  | succ i ih => exact (ih _).trans (swapIfInBounds_perm xs _ _)

theorem shuffle_perm (draws : Draws) (xs : Array α) : (shuffle draws xs).toList.Perm xs.toList :=
  shuffleFrom_perm draws _ xs

theorem getElem?_swapIfInBounds {xs : Array α} {i j : Nat} (hi : i < xs.size) (hj : j < xs.size)
    (k : Nat) : (xs.swapIfInBounds i j)[k]? =
      if j = k then xs[i]? else if i = k then xs[j]? else xs[k]? := by
  rw [Array.swapIfInBounds_def, dif_pos hi, dif_pos hj, Array.getElem?_swap,
    Array.getElem?_eq_getElem hi, Array.getElem?_eq_getElem hj]

/-- Positions above the index are settled. The loop goes down, and swaps nothing above its index
again. -/
theorem getElem?_shuffleFrom (draws : Draws) {i k : Nat} {xs : Array α} (hi : i < xs.size)
    (hk : i < k) : (shuffleFrom draws i xs)[k]? = xs[k]? := by
  induction i generalizing xs with
  | zero => rfl
  | succ i ih =>
      have hdraw : (draws (i + 1)).val < i + 1 + 1 := (draws (i + 1)).isLt
      rw [shuffleFrom, ih (by rw [Array.size_swapIfInBounds]; omega) (Nat.lt_of_succ_lt hk),
        getElem?_swapIfInBounds hi (by omega), if_neg (by omega), if_neg (by omega)]

/-- The first swap settles the last position. -/
theorem getElem?_shuffleFrom_succ (draws : Draws) {i : Nat} {xs : Array α} (hi : i + 1 < xs.size) :
    (shuffleFrom draws (i + 1) xs)[i + 1]? = xs[(draws (i + 1)).val]? := by
  have hdraw : (draws (i + 1)).val < i + 1 + 1 := (draws (i + 1)).isLt
  rw [shuffleFrom, getElem?_shuffleFrom draws (by rw [Array.size_swapIfInBounds]; omega)
      (Nat.lt_succ_self i), getElem?_swapIfInBounds hi (by omega)]
  split
  · next heq => rw [heq]
  · exact if_pos rfl

/-- The draws above the index are not used. -/
theorem shuffleFrom_congr {draws draws' : Draws} {i : Nat} (h : ∀ k, k ≤ i → draws k = draws' k)
    (xs : Array α) : shuffleFrom draws i xs = shuffleFrom draws' i xs := by
  induction i generalizing xs with
  | zero => rfl
  | succ i ih =>
      rw [shuffleFrom, shuffleFrom, h (i + 1) (Nat.le_refl _)]
      exact ih (fun k hk => h k (Nat.le_succ_of_le hk)) _

/-! ### Every order has its draws -/

theorem index_unique {xs : Array α} (hnodup : xs.toList.Nodup) {i j : Nat} (hi : i < xs.size)
    (h : xs[i]? = xs[j]?) : i = j := by
  rw [← Array.getElem?_toList, ← Array.getElem?_toList] at h
  exact (List.getElem?_inj (by rwa [Array.length_toList]) hnodup).1 h

/-- **The order tells the draws back**, from the last position down: what stands there was drawn,
and before the swap it stood where the draw says. -/
theorem draws_of_shuffleFrom {draws draws' : Draws} {i : Nat} {xs : Array α}
    (hnodup : xs.toList.Nodup) (hi : i < xs.size)
    (h : shuffleFrom draws i xs = shuffleFrom draws' i xs) : ∀ k, k ≤ i → draws k = draws' k := by
  induction i generalizing xs with
  | zero =>
      intro k hk
      obtain rfl := Nat.le_zero.1 hk
      exact Fin.ext ((Nat.lt_one_iff.1 (draws 0).isLt).trans (Nat.lt_one_iff.1 (draws' 0).isLt).symm)
  | succ i ih =>
      have hlast : draws (i + 1) = draws' (i + 1) := by
        have hsettled := congrArg (fun zs : Array α => zs[i + 1]?) h
        rw [getElem?_shuffleFrom_succ draws hi, getElem?_shuffleFrom_succ draws' hi] at hsettled
        have hdraw : (draws (i + 1)).val < i + 1 + 1 := (draws (i + 1)).isLt
        exact Fin.ext (index_unique hnodup (by omega) hsettled)
      rw [shuffleFrom, shuffleFrom, hlast] at h
      have hrest := ih ((swapIfInBounds_perm xs _ _).nodup_iff.2 hnodup)
        (by rw [Array.size_swapIfInBounds]; omega) h
      intro k hk
      rcases Nat.lt_or_eq_of_le hk with hlt | rfl
      · exact hrest k (Nat.le_of_lt_succ hlt)
      · exact hlast

/-- Two orders that agree above the first position are one. -/
theorem eq_of_settled {xs ys : Array α} (hnodup : xs.toList.Nodup)
    (hperm : ys.toList.Perm xs.toList) (h : ∀ k, 0 < k → ys[k]? = xs[k]?) : ys = xs := by
  have htail : ys.toList.tail = xs.toList.tail := by
    refine List.ext_getElem? fun k => ?_
    rw [List.getElem?_tail, List.getElem?_tail, Array.getElem?_toList, Array.getElem?_toList,
      h (k + 1) (Nat.succ_pos k)]
  refine Array.toList_inj.1 ?_
  cases hys : ys.toList with
  | nil =>
      rw [hys] at hperm
      exact (List.nil_perm.1 hperm).symm
  | cons y rest =>
      cases hxs : xs.toList with
      | nil =>
          rw [hys, hxs] at hperm
          exact absurd (List.perm_nil.1 hperm) (List.cons_ne_nil _ _)
      | cons x rest' =>
          rw [hys, hxs] at htail hperm
          obtain rfl : rest = rest' := htail
          -- the first element is no other, since it is not among the rest
          have hfirst := hperm.nodup_iff.2 (hxs ▸ hnodup)
          have hmem := hperm.mem_iff.1 (List.mem_cons_self : y ∈ y :: rest)
          rw [(List.mem_cons.1 hmem).resolve_right (List.nodup_cons.1 hfirst).1]

theorem exists_draws {i : Nat} {xs ys : Array α} (hnodup : xs.toList.Nodup)
    (hperm : ys.toList.Perm xs.toList) (hi : i < xs.size)
    (hsettled : ∀ k, i < k → ys[k]? = xs[k]?) : ∃ draws, shuffleFrom draws i xs = ys := by
  induction i generalizing xs with
  | zero => exact ⟨fun k => 0, (eq_of_settled hnodup hperm hsettled).symm⟩
  | succ i ih =>
      have hsize : ys.size = xs.size := by simpa using hperm.length_eq
      -- where the element for the last position comes from
      obtain ⟨j, hj, hfrom⟩ : ∃ j, j < xs.size ∧ xs[j]? = ys[i + 1]? := by
        have hlast : ys[i + 1]? = some ys[i + 1] := Array.getElem?_eq_getElem (hsize ▸ hi)
        have hmem : ys[i + 1] ∈ ys.toList := Array.getElem_mem_toList _
        obtain ⟨j, hj, hget⟩ := List.getElem_of_mem (hperm.mem_iff.1 hmem)
        refine ⟨j, by simpa using hj, ?_⟩
        rw [hlast, ← Array.getElem?_toList, List.getElem?_eq_getElem hj, hget]
      have hle : j ≤ i + 1 := by
        by_contra hlt
        have hsame := (hsettled j (by omega)).trans hfrom
        have heq := index_unique (hperm.nodup_iff.2 hnodup) (by omega) hsame
        omega
      have hswapped := swapIfInBounds_perm xs (i + 1) j
      obtain ⟨draws, hdraws⟩ := ih (hswapped.nodup_iff.2 hnodup) (hperm.trans hswapped.symm)
        (by rw [Array.size_swapIfInBounds]; omega) (by
          intro k hk
          rw [getElem?_swapIfInBounds hi hj]
          by_cases hlast : i + 1 = k
          · subst hlast
            split
            · next heq => rw [← hfrom, heq]
            · rw [if_pos rfl, hfrom]
          · rw [if_neg (by omega), if_neg hlast]
            exact hsettled k (by omega))
      refine ⟨Function.update draws (i + 1) ⟨j, Nat.lt_succ_of_le hle⟩, ?_⟩
      rw [shuffleFrom, Function.update_self, ← hdraws]
      refine shuffleFrom_congr (fun k hk => ?_) _
      have hne : k ≠ i + 1 := by omega
      exact Function.update_of_ne hne _ _

/-- **Every order is drawn in exactly one way.** There are as many orders as choices of draws, so
that a map that loses nothing is one to one. -/
theorem exists_unique_draws {xs ys : Array α} (hnodup : xs.toList.Nodup)
    (hperm : ys.toList.Perm xs.toList) :
    ∃ draws, shuffle draws xs = ys ∧
      ∀ draws', shuffle draws' xs = ys → ∀ i, i < xs.size → draws' i = draws i := by
  by_cases hsize : 0 < xs.size
  · obtain ⟨draws, hdraws⟩ := exists_draws hnodup hperm (Nat.sub_lt hsize Nat.one_pos) (by
      intro k hk
      have hlength : ys.size = xs.size := by simpa using hperm.length_eq
      rw [Array.getElem?_eq_none (by omega), Array.getElem?_eq_none (by omega)])
    refine ⟨draws, hdraws, fun draws' hdraws' i hi => ?_⟩
    exact draws_of_shuffleFrom hnodup (Nat.sub_lt hsize Nat.one_pos) (hdraws'.trans hdraws.symm) i
      (by omega)
  · have hempty : ∀ zs : Array α, zs.size = 0 → zs = #[] := fun zs h => Array.size_eq_zero_iff.1 h
    have hxs := hempty xs (by omega)
    have hys := hempty ys (by have hlength : ys.size = xs.size := by simpa using hperm.length_eq
                              omega)
    exact ⟨fun i => 0, by rw [hxs, hys]; rfl, fun _ _ i hi => absurd hi (by omega)⟩

/-! ### Samples -/

/-- The draws that a shuffle of `n` elements uses. -/
abbrev DrawsFor (n : Nat) := (i : Fin n) → Fin (i.val + 1)

def DrawsFor.extend {n : Nat} (draws : DrawsFor n) : Draws :=
  fun i => if h : i < n then draws ⟨i, h⟩ else 0

def DrawsFor.restrict (n : Nat) (draws : Draws) : DrawsFor n := fun i => draws i.val

theorem card_drawsFor (n : Nat) : Fintype.card (DrawsFor n) = n.factorial := by
  rw [Fintype.card_pi]
  simp only [Fintype.card_fin]
  rw [Fin.prod_univ_eq_prod_range (fun i => i + 1) n, Finset.prod_range_add_one_eq_factorial]

/-- The order that draws bring an array into. -/
def order {n : Nat} (xs : Array α) (draws : DrawsFor n) : List α := (shuffle draws.extend xs).toList

theorem order_perm {n : Nat} (xs : Array α) (draws : DrawsFor n) :
    (order xs draws).Perm xs.toList := shuffle_perm _ xs

theorem shuffle_extend_restrict (draws : Draws) (xs : Array α) :
    shuffle (DrawsFor.restrict xs.size draws).extend xs = shuffle draws xs := by
  by_cases hsize : xs.size = 0
  · rw [shuffle, shuffle, hsize]
    rfl
  · refine shuffleFrom_congr (fun k hk => ?_) xs
    exact dif_pos (show k < xs.size by omega)

theorem order_injective {xs : Array α} (hnodup : xs.toList.Nodup) :
    Function.Injective (order xs : DrawsFor xs.size → List α) := by
  intro draws draws' h
  funext i
  have hpos : 0 < xs.size := Nat.zero_lt_of_lt i.isLt
  have hdraws := draws_of_shuffleFrom hnodup (Nat.sub_lt hpos Nat.one_pos) (Array.toList_inj.1 h)
    i.val (Nat.le_sub_one_of_lt i.isLt)
  rwa [DrawsFor.extend, DrawsFor.extend, dif_pos i.isLt, dif_pos i.isLt] at hdraws

theorem exists_order {xs : Array α} (hnodup : xs.toList.Nodup) {ys : List α}
    (hperm : ys.Perm xs.toList) : ∃ draws : DrawsFor xs.size, order xs draws = ys := by
  obtain ⟨draws, hdraws, -⟩ := @exists_unique_draws α xs ys.toArray hnodup hperm
  refine ⟨DrawsFor.restrict xs.size draws, ?_⟩
  rw [order, shuffle_extend_restrict, hdraws]

/-- **A sample is unbiased**: whatever it is, as many choices of draws take it. A sample is the end
of an order, and the draws below it are free. -/
theorem card_sample [DecidableEq α] {xs : Array α} (hnodup : xs.toList.Nodup) {sample : List α}
    (hsample : sample.Nodup) (hsub : sample ⊆ xs.toList) :
    (Finset.univ.filter fun draws : DrawsFor xs.size =>
      (order xs draws).take sample.length = sample).card = (xs.size - sample.length).factorial := by
  have hperm : (sample ++ xs.toList.diff sample).Perm xs.toList :=
    List.subperm_append_diff_self_of_count_le fun x hx => by
      rw [List.count_eq_one_of_mem hsample hx, List.count_eq_one_of_mem hnodup (hsub hx)]
  -- the rest of the order is an order of what is not in the sample
  have hrests : (Finset.univ.filter fun draws : DrawsFor xs.size =>
      (order xs draws).take sample.length = sample).image (order xs) =
        ((xs.toList.diff sample).permutations.map (sample ++ ·)).toFinset := by
    ext ys
    simp only [Finset.mem_image, Finset.mem_filter, Finset.mem_univ, true_and, List.mem_toFinset,
      List.mem_map, List.mem_permutations]
    constructor
    · rintro ⟨draws, htake, rfl⟩
      have hsplit := List.take_append_drop sample.length (order xs draws)
      rw [htake] at hsplit
      refine ⟨_, ?_, hsplit⟩
      have horder := (order_perm xs draws).trans hperm.symm
      rw [← hsplit] at horder
      exact (List.perm_append_left_iff sample).1 horder
    · rintro ⟨rest, hrest, rfl⟩
      obtain ⟨draws, hdraws⟩ := exists_order hnodup ((hrest.append_left sample).trans hperm)
      exact ⟨draws, by rw [hdraws, List.take_left], hdraws⟩
  have hdiff : (xs.toList.diff sample).length = xs.size - sample.length := by
    have hlength := hperm.length_eq
    rw [List.length_append] at hlength
    exact Nat.eq_sub_of_add_eq' hlength
  rw [← Finset.card_image_of_injective _ (order_injective hnodup), hrests, List.toFinset_card_of_nodup,
    List.length_map, List.length_permutations, hdiff]
  exact (List.nodup_permutations _ (hnodup.diff)).map (List.append_right_injective sample)

end Shuffle
