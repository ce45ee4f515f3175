import Mathlib.Algebra.Order.Floor.Ring
import Mathlib.Data.Rat.Floor
import VetHealth.Js.Number
import VetHealth.Lib.Cursor

/-!
# VetHealth.Files.Listing

**Which objects the script inspects.** `listAllObjects` reads the listing of the bucket page by page
and collects the keys of the objects that have bytes, up to a limit.

How S3 cuts a listing into pages is said on its own answers (`ServesListing`): a page says whether the
listing goes on, and if so, with which token to ask for the rest. That the loop finds its way through
these pages is a theorem (`lists_of_serves`). It would not if it looked at the token alone, which a
last page may have, or at the flag alone.

The limit is what `Number` makes of an argument, or `0`, which stands for no limit. A negative number
stands for nothing, but it is not `0`, so it is taken for a limit that the very first object reaches.
-/

namespace VetHealth

open Js Cursor

/-! ### The service -/

structure ListObjectsV2Command where
  keyPrefix : Option String
  continuationToken : Option String

/-- An entry of `Contents`. -/
structure ListedObject where
  key : List Char
  size : Nat
  deriving DecidableEq

structure ListObjectsV2Response where
  contents : Option (List ListedObject)
  isTruncated : Bool
  nextContinuationToken : Option String

/-- The service hands out the objects in pages, from a token on: every page but the last is truncated
and carries the token of the next one, which is not empty. A page may be empty and then need not
have `Contents` at all, and the last one may carry a token that leads nowhere. -/
inductive ServesListing (send : ListObjectsV2Command → Except String ListObjectsV2Response)
    (keyPrefix : Option String) : Option String → List ListedObject → Prop
  | last {token : Option String} {response : ListObjectsV2Response} :
      send ⟨keyPrefix, token⟩ = .ok response → response.isTruncated = false →
      ServesListing send keyPrefix token (response.contents.getD [])
  | more {token : Option String} {response : ListObjectsV2Response} {next : String}
      {rest : List ListedObject} :
      send ⟨keyPrefix, token⟩ = .ok response → response.isTruncated = true →
      response.nextContinuationToken = some next → next ≠ "" →
      ServesListing send keyPrefix (some next) rest →
      ServesListing send keyPrefix token (response.contents.getD [] ++ rest)

/-- A number other than `NaN`. -/
inductive Limit
  | finite (value : ℚ)
  | infinite
  | negativeInfinite

namespace Limit

/-- `limit && count >= limit`. A limit of zero counts as none. -/
def reached : Limit → Nat → Bool
  | finite value, count => value ≠ 0 && value ≤ count
  | infinite, _ => false
  | negativeInfinite, _ => true

def IsNegative : Limit → Prop
  | finite value => value < 0
  | infinite => False
  | negativeInfinite => True

/-- The first so many, when the number is positive. -/
def cut {α : Type} : Limit → List α → List α
  | finite value, xs => if 0 < value then xs.take ⌈value⌉₊ else xs
  | infinite, xs => xs
  | negativeInfinite, xs => xs

end Limit

namespace FixR2ContentTypes

/-- `prefix || undefined`. -/
def requested (keyPrefix : String) : Option String := if keyPrefix = "" then none else some keyPrefix

/-- What a request of the loop answers: the objects of a page, and the token of the next one when
there is one. -/
def fetchPage (send : ListObjectsV2Command → Except String ListObjectsV2Response)
    (keyPrefix : String) (continuationToken : Option String) :
    Except String (Page String ListedObject) :=
  (send ⟨requested keyPrefix, continuationToken⟩).map fun response =>
    { items := response.contents.getD []
      next := if response.isTruncated then response.nextContinuationToken.filter (· ≠ "")
        else none }

/-- The body of the loop over `Contents`, which may return. -/
def collect (limit : Limit) (keys : List (List Char)) (object : ListedObject) :
    Except (List (List Char)) (List (List Char)) :=
  -- directory placeholders carry no bytes to sniff
  let keys := if object.size > 0 then keys ++ [object.key] else keys
  if limit.reached keys.length then .error keys else .ok keys

/-- `listAllObjects`, which reads at most `pages` pages. -/
def listAllObjects (send : ListObjectsV2Command → Except String ListObjectsV2Response)
    (keyPrefix : String) (limit : Limit) (pages : Nat) : Option (Except String (List (List Char))) :=
  drain (fetchPage send keyPrefix) (collect limit) id pages none []

/-- **The loop reads every page.** It goes on exactly as long as the service says that there is more,
and asks for the rest with the token that the service has given. -/
theorem lists_of_serves {send : ListObjectsV2Command → Except String ListObjectsV2Response}
    {keyPrefix : String} {token : Option String} {objects : List ListedObject}
    (h : ServesListing send (requested keyPrefix) token objects) :
    Lists (fetchPage send keyPrefix) token objects := by
  induction h with
  | @last token response hsend hlast =>
      have hpage : fetchPage send keyPrefix token = .ok ⟨response.contents.getD [], none⟩ := by
        simp [fetchPage, hsend, hlast, Except.map]
      exact .last hpage rfl
  | @more token response next rest hsend hmore hnext hne _ ih =>
      have hpage : fetchPage send keyPrefix token = .ok ⟨response.contents.getD [], some next⟩ := by
        simp [fetchPage, hsend, hmore, hnext, hne, Except.map, Option.filter]
      exact .more hpage rfl ih

/-! ### What is collected -/

/-- The keys of the objects that have bytes. The placeholders of directories have none. -/
def keysOf (objects : List ListedObject) : List (List Char) :=
  (objects.filter fun object => object.size > 0).map ListedObject.key

theorem keysOf_cons (object : ListedObject) (objects : List ListedObject) :
    keysOf (object :: objects) =
      if object.size > 0 then object.key :: keysOf objects else keysOf objects := by
  by_cases hsize : object.size > 0
  · simp [keysOf, hsize]
  · simp [keysOf, hsize]

theorem keysOf_eq_nil {objects : List ListedObject} :
    keysOf objects = [] ↔ ∀ object ∈ objects, object.size = 0 := by
  simp [keysOf]

/-- A limit that no number of keys has reached so far. -/
def IsOpen (limit : Limit) (count : Nat) : Prop :=
  match limit with
  | .finite value => value = 0 ∨ count < value
  | .infinite => True
  | .negativeInfinite => False

theorem reached_eq_false {limit : Limit} {count : Nat} :
    limit.reached count = false ↔ IsOpen limit count := by
  cases limit with
  | finite value => by_cases h : value = 0 <;> simp [Limit.reached, IsOpen, h]
  | infinite => simp [Limit.reached, IsOpen]
  | negativeInfinite => simp [Limit.reached, IsOpen]

theorem cut_of_isOpen {limit : Limit} {keys : List (List Char)} (h : IsOpen limit keys.length) :
    limit.cut keys = keys := by
  cases limit with
  | finite value =>
      rw [Limit.cut]
      split
      · next hpos =>
          have hlt : keys.length < value := h.resolve_left (ne_of_gt hpos)
          exact List.take_of_length_le (Nat.le_of_lt (Nat.lt_ceil.2 hlt))
      · rfl
  | infinite => rfl
  | negativeInfinite => rfl

/-- The key that reaches the limit is the last one: the loop returns from within the page. -/
theorem cut_of_reached {limit : Limit} {keys rest : List (List Char)} {key : List Char}
    (h : IsOpen limit keys.length) (hreached : limit.reached (keys ++ [key]).length = true) :
    limit.cut (keys ++ key :: rest) = keys ++ [key] := by
  cases limit with
  | finite value =>
      simp only [Limit.reached, List.length_append, List.length_singleton, Bool.and_eq_true,
        decide_eq_true_eq] at hreached
      have hlt : keys.length < value := h.resolve_left hreached.1
      have hpos : 0 < value := lt_of_le_of_lt (Nat.cast_nonneg _) hlt
      have hceil : ⌈value⌉₊ = keys.length + 1 :=
        Nat.le_antisymm (Nat.ceil_le.2 hreached.2) (Nat.lt_ceil.2 hlt)
      rw [Limit.cut, if_pos hpos, hceil, List.append_cons]
      exact List.take_left' List.length_append
  | infinite => cases hreached
  | negativeInfinite => cases h

/-- While the limit is open, the keys are collected up to it. -/
theorem visitAll_collect {limit : Limit} {keys : List (List Char)} (h : IsOpen limit keys.length)
    (objects : List ListedObject) :
    visitAll (collect limit) id objects keys = limit.cut (keys ++ keysOf objects) := by
  induction objects generalizing keys with
  | nil =>
      rw [visitAll_nil, keysOf, List.filter_nil, List.map_nil, List.append_nil, cut_of_isOpen h]
      rfl
  | cons object objects ih =>
      rw [visitAll_cons, collect, keysOf_cons]
      by_cases hsize : object.size > 0
      · rw [if_pos hsize, if_pos hsize]
        by_cases hreached : limit.reached (keys ++ [object.key]).length = true
        · rw [if_pos hreached, cut_of_reached h hreached]
        · rw [if_neg hreached]
          have hopen := reached_eq_false.1 (Bool.eq_false_iff.2 hreached)
          exact (ih hopen).trans (by rw [List.append_assoc, List.singleton_append])
      · rw [if_neg hsize, if_neg hsize, if_neg (by simp [reached_eq_false.2 h])]
        exact ih h

/-- A negative limit is reached by the first object, whatever it is. -/
theorem visitAll_collect_negative {limit : Limit} (h : limit.IsNegative)
    (objects : List ListedObject) :
    visitAll (collect limit) id objects [] = keysOf (objects.take 1) := by
  have hreached : ∀ count, limit.reached count = true := by
    intro count
    cases limit with
    | finite value =>
        have hle : value ≤ count := le_trans (le_of_lt h) (Nat.cast_nonneg count)
        simp [Limit.reached, ne_of_lt h, hle]
    | infinite => cases h
    | negativeInfinite => rfl
  cases objects with
  | nil => rfl
  | cons object objects =>
      rw [visitAll_cons, collect, if_pos (hreached _), List.take_succ_cons, List.take_zero,
        keysOf_cons]
      rfl

theorem isOpen_zero {limit : Limit} (h : ¬limit.IsNegative) : IsOpen limit 0 := by
  cases limit with
  | finite value =>
      rcases lt_or_eq_of_le (not_lt.1 h) with hpos | hzero
      · exact Or.inr (by exact_mod_cast hpos)
      · exact Or.inl hzero.symm
  | infinite => trivial
  | negativeInfinite => exact h trivial

theorem Limit.cut_of_isNegative {limit : Limit} (h : limit.IsNegative) {α : Type} (xs : List α) :
    limit.cut xs = xs := by
  cases limit with
  | finite value => exact if_neg (not_lt.2 (le_of_lt h))
  | infinite => rfl
  | negativeInfinite => rfl

/-- **The listing is complete unless the limit is negative.** Whatever pages the service cuts it into,
the reading ends with the keys of the objects that have bytes, in their order and up to a positive
limit. With a negative one it ends with the first object, so it misses what has bytes after it. -/
theorem listing_complete_iff {send : ListObjectsV2Command → Except String ListObjectsV2Response}
    {keyPrefix : String} {objects : List ListedObject}
    (h : ServesListing send (requested keyPrefix) none objects) (limit : Limit) :
    ∃ keys enough, (∀ pages, enough ≤ pages →
        listAllObjects send keyPrefix limit pages = some (.ok keys)) ∧
      (keys = limit.cut (keysOf objects) ↔
        ¬limit.IsNegative ∨ ∀ object ∈ objects.tail, object.size = 0) := by
  obtain ⟨enough, hdrain⟩ := (lists_of_serves h).drain (collect limit) id
  refine ⟨_, enough, fun pages hpages => hdrain pages hpages [], ?_⟩
  by_cases hnegative : limit.IsNegative
  · rw [visitAll_collect_negative hnegative, Limit.cut_of_isNegative hnegative,
      or_iff_right (not_not.2 hnegative), ← keysOf_eq_nil]
    cases objects with
    | nil => exact iff_of_true rfl rfl
    | cons object objects =>
        have hnone : keysOf [] = keysOf objects ↔ keysOf objects = [] := eq_comm
        rw [List.take_succ_cons, List.take_zero, List.tail_cons, keysOf_cons, keysOf_cons, ← hnone]
        split
        · rw [List.cons.injEq, and_iff_right rfl]
        · rfl
  · rw [visitAll_collect (isOpen_zero hnegative), List.nil_append]
    exact iff_of_true rfl (Or.inl hnegative)

/-! ### Two pictures, on different pages -/

def pictures : List ListedObject := [⟨"a.png".toList, 1⟩, ⟨"b.png".toList, 1⟩]

/-- The first picture is on the first of three pages, the second one on the last; the page in between
is empty. -/
def sendPictures (command : ListObjectsV2Command) : Except String ListObjectsV2Response :=
  match command.continuationToken with
  | none => .ok ⟨some [⟨"a.png".toList, 1⟩], true, some "second"⟩
  | some "second" => .ok ⟨none, true, some "third"⟩
  | some "third" => .ok ⟨some [⟨"b.png".toList, 1⟩], false, none⟩
  | some _ => .error "InvalidArgument"

theorem serves_pictures : ServesListing sendPictures (requested "") none pictures := by
  have hfirst : sendPictures ⟨requested "", none⟩ =
      .ok ⟨some [⟨"a.png".toList, 1⟩], true, some "second"⟩ := rfl
  have hsecond : sendPictures ⟨requested "", some "second"⟩ = .ok ⟨none, true, some "third"⟩ := rfl
  have hthird : sendPictures ⟨requested "", some "third"⟩ =
      .ok ⟨some [⟨"b.png".toList, 1⟩], false, none⟩ := rfl
  exact .more hfirst rfl rfl (by decide) (.more hsecond rfl rfl (by decide) (.last hthird rfl))

/-- Without a limit both are listed. -/
theorem two_pictures_listed :
    ∃ keys enough, (∀ pages, enough ≤ pages →
        listAllObjects sendPictures "" (.finite 0) pages = some (.ok keys)) ∧
      keys = ["a.png".toList, "b.png".toList] := by
  obtain ⟨keys, enough, hends, hcomplete⟩ := listing_complete_iff serves_pictures (.finite 0)
  exact ⟨keys, enough, hends, hcomplete.2 (Or.inl (lt_irrefl 0))⟩

/-- `--limit -1` lists the first one. -/
theorem negative_limit_stops_early :
    stringToNumber "-1" = some (-1) ∧ ServesListing sendPictures (requested "") none pictures ∧
      ¬∃ enough, ∀ pages, enough ≤ pages →
        listAllObjects sendPictures "" (.finite (-1)) pages =
          some (.ok ((Limit.finite (-1)).cut (keysOf pictures))) := by
  refine ⟨by decide +kernel, serves_pictures, ?_⟩
  intro ⟨enough, hends⟩
  have hlisted := hends (enough + 1) (Nat.le_succ enough)
  have hfirst : listAllObjects sendPictures "" (.finite (-1)) (enough + 1) =
      some (.ok ["a.png".toList]) := rfl
  rw [hfirst] at hlisted
  revert hlisted
  decide

end FixR2ContentTypes

end VetHealth
