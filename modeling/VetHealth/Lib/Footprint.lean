import VetHealth.Lib.Prog
import Mathlib.Logic.Function.Iterate

/-!
# VetHealth.Lib.Footprint

**Tasks that keep to themselves.** When everything that a task reads and writes lies in a part of
the state that no other task writes, the schedule does not matter to it: it goes through the places
that it goes through alone, and finds its part of the state as if it were alone (`Footprints.alone`).
What it ends in is what `Prog.run` gives (`Footprints.ended`).

A part of the state is given by the states that agree on it. `Footprints.inv` is what holds of a task
along its run; the conditions on a step need to hold only there.
-/

namespace Resumption

open Transition

variable {ι π σ ε α : Type}

/-- What is left to do after a step gives what was left to do before it. This is what makes a task
that is interleaved with others comparable to the same task alone. -/
theorem Prog.run_advance (p : Prog σ ε α) (s : σ) : (p.advance s).1.run (p.advance s).2 = p.run s := by
  cases p with
  | done r => rfl
  | step act next => rfl

namespace Points

variable (G : Points π σ ε α)

/-- A step of a task that is alone. Between two of its steps nobody else writes, so that the state
is its own. -/
def stepAlone (c : π × σ) : π × σ := G.step c.1 c.2

theorem run_stepAlone (c : π × σ) :
    (G.prog (G.stepAlone c).1).run (G.stepAlone c).2 = (G.prog c.1).run c.2 := by
  rw [← Prog.run_advance (G.prog c.1), G.sound]
  rfl

theorem run_alone (n : Nat) (c : π × σ) :
    (G.prog (G.stepAlone^[n] c).1).run (G.stepAlone^[n] c).2 = (G.prog c.1).run c.2 := by
  induction n with
  | zero => rfl
  | succ n ih => rw [Function.iterate_succ_apply', run_stepAlone, ih]

/-- Tasks with footprints of their own: `same i` relates the states that agree on the footprint of
the task `i`, and `inv i` holds of its place and of what it sees. -/
structure Footprints (ι : Type) where
  same : ι → σ → σ → Prop
  inv : ι → π → σ → Prop
  equivalence : ∀ i, Equivalence (same i)
  /-- The invariant is about the footprint. -/
  inv_same : ∀ {i p s t}, inv i p s → same i s t → inv i p t
  inv_step : ∀ {i p s}, inv i p s → inv i (G.step p s).1 (G.step p s).2
  /-- A step reads nothing outside the footprint. -/
  reads : ∀ {i p s t}, inv i p s → same i s t →
    (G.step p s).1 = (G.step p t).1 ∧ same i (G.step p s).2 (G.step p t).2
  /-- A step writes nothing in the footprint of another task. -/
  writes : ∀ {i j p s}, inv i p s → j ≠ i → same j s (G.step p s).2

namespace Footprints

variable {G} (F : G.Footprints ι) [DecidableEq ι] {N₀ N : Names ι π σ}
  {past : List (Entry (Names ι π σ) ι Unit)}

/-- **No schedule matters**: a task is where some number of steps alone leads it, and finds its
footprint as they leave it. The induction is on the run; a step of the task is a step alone, and a
step of another task leaves the footprint as it is. -/
theorem alone (h : G.machine.Reach N₀ past N) (hstart : ∀ i, F.inv i (N₀.at_ i) N₀.shared) (i : ι) :
    F.inv i (N.at_ i) N.shared ∧ ∃ n,
      let c := G.stepAlone^[n] (N₀.at_ i, N₀.shared)
      c.1 = N.at_ i ∧ F.same i c.2 N.shared := by
  induction h generalizing i with
  | init => exact ⟨hstart i, 0, rfl, (F.equivalence i).refl _⟩
  | @step past N k _ ih =>
      obtain ⟨hinv, n, hplace, hsame⟩ := ih i
      by_cases hk : i = k
      · subst hk
        rw [next_at_self]
        refine ⟨F.inv_step hinv, n + 1, ?_⟩
        have hread := F.reads (F.inv_same hinv ((F.equivalence i).symm hsame)) hsame
        rw [Function.iterate_succ_apply', stepAlone, hplace]
        exact hread
      · have hkept := F.writes (ih k).1 hk
        rw [next_at_ne G N k hk]
        exact ⟨F.inv_same hinv hkept, n, hplace, (F.equivalence i).trans hsame hkept⟩

/-- A task that has come to its end has ended as it does alone, with the same result and the same
footprint. This is the form in which requests on different rows use it. -/
theorem ended (h : G.machine.Reach N₀ past N) (hstart : ∀ i, F.inv i (N₀.at_ i) N₀.shared) {i : ι}
    {r : Except ε α} (hdone : G.prog (N.at_ i) = .done r) :
    ((G.prog (N₀.at_ i)).run N₀.shared).1 = r ∧
      F.same i ((G.prog (N₀.at_ i)).run N₀.shared).2 N.shared := by
  obtain ⟨-, n, hplace, hsame⟩ := F.alone h hstart i
  have hrun := G.run_alone n (N₀.at_ i, N₀.shared)
  rw [hplace, hdone] at hrun
  rw [← hrun]
  exact ⟨rfl, hsame⟩

/-- What no task writes stays: a property that the steps of every task keep, wherever they are, is
kept by all schedules. -/
theorem kept {P : σ → Prop} (h : G.machine.Reach N₀ past N)
    (hstart : ∀ i, F.inv i (N₀.at_ i) N₀.shared) (hP : P N₀.shared)
    (hstep : ∀ i p s, F.inv i p s → P s → P (G.step p s).2) : P N.shared := by
  induction h with
  | init => exact hP
  | @step past N k h ih => exact hstep k _ _ (F.alone h hstart k).1 ih

end Footprints

end Points

end Resumption
