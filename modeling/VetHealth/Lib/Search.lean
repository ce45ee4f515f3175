import Mathlib.Data.List.Basic

/-!
# VetHealth.Lib.Search

**Looking for something that is at most so many steps away.** `Steps r n a b` is a path of exactly `n`
steps, `Within r n a b` one of at most `n`. A search that goes from a node to its neighbours, and does
so to a bounded depth, follows `within_succ`; it needs nothing of the graph, which may be infinite or
return to where it began.
-/

namespace Search

variable {α : Type}

/-- A path of `n` steps. The graph may have cycles, so that there may be paths of any length from a
node that is near. -/
inductive Steps (r : α → α → Prop) : Nat → α → α → Prop
  | refl (a : α) : Steps r 0 a a
  | head {n : Nat} {a b c : α} : r a b → Steps r n b c → Steps r (n + 1) a c

/-- A path of at most `n` steps. -/
def Within (r : α → α → Prop) (n : Nat) (a b : α) : Prop := ∃ m, m ≤ n ∧ Steps r m a b

variable {r : α → α → Prop} {n : Nat} {a b c : α}

theorem Within.refl (r : α → α → Prop) (n : Nat) (a : α) : Within r n a a :=
  ⟨0, Nat.zero_le n, .refl a⟩

theorem Within.head (h : r a b) (hwithin : Within r n b c) : Within r (n + 1) a c := by
  obtain ⟨m, hm, hsteps⟩ := hwithin
  exact ⟨m + 1, Nat.succ_le_succ hm, .head h hsteps⟩

theorem within_zero : Within r 0 a b ↔ a = b := by
  constructor
  · intro ⟨m, hm, hsteps⟩
    obtain rfl := Nat.le_zero.1 hm
    cases hsteps with
    | refl => rfl
  · intro rfl
    exact .refl r 0 a

/-- What a search does: it looks at the node, and then from its neighbours with one step less. The
bound on the depth is what ends it, not a record of what was seen. -/
theorem within_succ : Within r (n + 1) a c ↔ a = c ∨ ∃ b, r a b ∧ Within r n b c := by
  constructor
  · intro ⟨m, hm, hsteps⟩
    cases hsteps with
    | refl => exact Or.inl rfl
    | @head m _ b _ hab hrest => exact Or.inr ⟨b, hab, m, Nat.le_of_succ_le_succ hm, hrest⟩
  · intro h
    rcases h with rfl | ⟨b, hab, hwithin⟩
    · exact .refl r _ a
    · exact .head hab hwithin

end Search
