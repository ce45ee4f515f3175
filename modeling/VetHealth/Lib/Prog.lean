import VetHealth.Lib.Machine
import Mathlib.Logic.Function.Basic

/-!
# VetHealth.Lib.Prog

**Programs made of atomic steps.** A `Prog σ ε α` is a computation over a shared
state `σ` that a scheduler may suspend between any two of its steps; it ends in
an `ε` or an `α`. One step transforms the shared state at once and hands what it
read to the rest of the program. The same program has two semantics:

* `Prog.run` executes it alone, from start to end;
* a `Pool` runs many programs over one state, and `Pool.machine` lets a scheduler
  pick, again and again, the task that takes its next step. A run of that machine
  is an interleaving.

A `Prog` is made of functions, so a task halfway through a program cannot be
compared with anything. `Points` names the places where a program can be
suspended. Proving once that stepping a named place ends in a named place
(`Points.sound`) turns the pool of programs into a pool of names
(`Points.reach_names`), where an invariant is a case split.
-/

namespace Resumption

open Transition

/-- A program over the shared state `σ`: finished, or one atomic step followed by the rest of the
program, which depends on the state the step found. A database call is a step; what is computed
between two calls is part of the rest. -/
inductive Prog (σ ε α : Type) where
  | done (r : Except ε α)
  | step (act : σ → σ) (next : σ → Prog σ ε α)

namespace Prog

variable {σ ε α β γ : Type}

/-- Run `f` on the value `p` ends in; an error ends the whole program, as an exception that nobody
catches does. -/
def bind : Prog σ ε α → (α → Prog σ ε β) → Prog σ ε β
  | .done (.ok a), f => f a
  | .done (.error e), _ => .done (.error e)
  | .step act next, f => .step act fun s => (next s).bind f

instance : Monad (Prog σ ε) where
  pure a := .done (.ok a)
  bind := Prog.bind

instance : MonadExceptOf ε (Prog σ ε) where
  throw e := .done (.error e)
  tryCatch p h :=
    let rec go : Prog σ ε _ → Prog σ ε _
      | .done (.ok a) => .done (.ok a)
      | .done (.error e) => h e
      | .step act next => .step act fun s => go (next s)
    go p

/-- One statement: it reads and changes the state at once, and nobody else runs in between. -/
def atomic (f : σ → Except ε α × σ) : Prog σ ε α :=
  .step (fun s => (f s).2) fun s => .done (f s).1

/-- A computation that touches no shared state. -/
def lift (r : Except ε α) : Prog σ ε α := .done r

/-! ### Running a program alone -/

/-- Execute `p` from start to end. -/
def run : Prog σ ε α → σ → Except ε α × σ
  | .done r, s => (r, s)
  | .step act next, s => (next s).run (act s)

@[simp] theorem run_atomic (f : σ → Except ε α × σ) (s : σ) : (atomic f).run s = f s := rfl
@[simp] theorem run_lift (r : Except ε α) (s : σ) : (lift r : Prog σ ε α).run s = (r, s) := rfl

/-- A sequence runs its first part and, if that succeeds, its second. With this rule a program is
executed from its text. -/
@[simp] theorem run_bind (p : Prog σ ε α) (f : α → Prog σ ε β) (s : σ) :
    (p >>= f).run s =
      match p.run s with
      | (.ok a, s') => (f a).run s'
      | (.error e, s') => (.error e, s') := by
  show (p.bind f).run s = _
  induction p generalizing s with
  | done r => cases r <;> rfl
  | step act next ih => exact ih s (act s)

@[simp] theorem run_map (f : α → β) (p : Prog σ ε α) (s : σ) :
    (f <$> p).run s = ((p.run s).1.map f, (p.run s).2) := by
  show (p >>= fun a => pure (f a)).run s = _
  rw [run_bind]
  rcases p.run s with ⟨r, s'⟩
  cases r <;> rfl

/-! ### One step of a program -/

/-- The next step: what is left to do, and the state it leaves. A program that is finished stays so.
-/
def advance : Prog σ ε α → σ → Prog σ ε α × σ
  | .done r, s => (.done r, s)
  | .step act next, s => (next s, act s)

/-- A step of a mapped program is a mapped step. -/
@[simp] theorem advance_map (f : α → β) (p : Prog σ ε α) (s : σ) :
    (f <$> p).advance s = (f <$> (p.advance s).1, (p.advance s).2) := by
  cases p with
  | done r => cases r <;> rfl
  | step act next => rfl

/-- A sequence goes on with its second part when its first statement succeeds. -/
@[simp] theorem advance_atomic_bind (f : σ → Except ε α × σ) (p : α → Prog σ ε β) (s : σ) :
    (atomic f >>= p).advance s =
      (match (f s).1 with
        | .ok a => p a
        | .error e => lift (.error e), (f s).2) := by
  show (((Prog.done (f s).1).bind p : Prog σ ε β), (f s).2) = _
  cases (f s).1 <;> rfl

@[simp] theorem map_lift (f : α → β) (r : Except ε α) :
    f <$> (lift r : Prog σ ε α) = lift (r.map f) := by
  cases r <;> rfl

/-- One statement alone is done after one step. -/
theorem advance_map_atomic (f : α → β) (g : σ → Except ε α × σ) (s : σ) :
    (f <$> (atomic g : Prog σ ε α)).advance s =
      (lift ((f <$> (atomic g : Prog σ ε α)).run s).1, ((f <$> (atomic g : Prog σ ε α)).run s).2) := by
  rw [advance_map, run_map]
  exact Prod.ext (map_lift f (g s).1) rfl

end Prog

/-! ### Pools: many programs over one state -/

/-- A shared state and, for each task, the rest of its program: what a server is at a moment at
which several requests are under way. -/
structure Pool (ι σ ε α : Type) where
  shared : σ
  task : ι → Prog σ ε α

variable {ι σ ε α : Type} [DecidableEq ι]

/-- The scheduler picks a task; the task takes its next step. Every order of picks is a run, so that
what holds of all runs holds of all interleavings. -/
def Pool.machine : Machine (Pool ι σ ε α) ι Unit where
  step P i :=
    let a := (P.task i).advance P.shared
    ((), ⟨a.2, Function.update P.task i a.1⟩)

namespace Pool

/-- The scheduler can let one task run to its end before it picks another. The interleavings contain
the runs in which requests come one at a time. -/
theorem reach_alone (s : σ) (task : ι → Prog σ ε α) (i : ι) :
    ∃ past, Pool.machine.Reach ⟨s, task⟩ past
      ⟨((task i).run s).2, Function.update task i (.done ((task i).run s).1)⟩ := by
  generalize hp : task i = p
  induction p generalizing s task with
  | done r =>
      have hstays : Function.update task i (.done r) = task := by
        rw [← hp, Function.update_eq_self]
      rw [Prog.run, hstays]
      exact ⟨[], .init⟩
  | step act next ih =>
      obtain ⟨past, hrest⟩ := ih s (act s) (Function.update task i (next s)) (Function.update_self ..)
      have hfirst : Pool.machine.next ⟨s, task⟩ i = ⟨act s, Function.update task i (next s)⟩ := by
        simp only [Machine.next, Pool.machine, hp, Prog.advance]
      rw [← hfirst, Function.update_idem] at hrest
      exact ⟨_, (Machine.Reach.step i .init).append hrest⟩

/-- **Answering one request after another is an interleaving**, if every request is a task of
its own: the tasks of `order` end as the requests of the run were answered. -/
theorem reach_sequence {ρ : Type} {M : Machine σ ρ (Except ε α)} {prog : ρ → Prog σ ε α}
    (hM : ∀ s a, M.step s a = (prog a).run s) {s₀ s : σ} {past : List (Entry σ ρ (Except ε α))}
    (h : M.Reach s₀ past s) {calls : ι → ρ} {order : List ι} (hnodup : order.Nodup)
    (hcalls : order.map calls = past.map Entry.request) :
    ∃ steps P, Pool.machine.Reach ⟨s₀, fun i => prog (calls i)⟩ steps P ∧ P.shared = s ∧
      order.map P.task = past.map (fun e => .done e.response) ∧
      ∀ i, i ∉ order → P.task i = prog (calls i) := by
  induction h generalizing order with
  | init =>
      obtain rfl := List.map_eq_nil_iff.1 hcalls
      exact ⟨[], _, .init, rfl, rfl, fun _ _ => rfl⟩
  | @step past s a h ih =>
      cases order with
      | nil => cases hcalls
      | cons i order =>
          rw [List.map_cons, List.map_cons] at hcalls
          obtain ⟨hcall, hcalls⟩ := List.cons.inj hcalls
          obtain ⟨hi, hnodup⟩ := List.nodup_cons.1 hnodup
          -- the earlier requests first, and then the last one, which has not begun yet
          obtain ⟨steps, P, hreach, rfl, hanswers, hwaiting⟩ := ih hnodup hcalls
          obtain ⟨more, halone⟩ := reach_alone P.shared P.task i
          have hrun : (P.task i).run P.shared = M.step P.shared a := by
            rw [hwaiting i hi, hcall, hM]
            rfl
          rw [hrun] at halone
          refine ⟨_, _, hreach.append halone, rfl,
            congrArg₂ List.cons (Function.update_self ..) ?_, ?_⟩
          · rw [← hanswers]
            refine List.map_congr_left fun j hj => Function.update_of_ne ?_ ..
            exact fun hji => hi (hji ▸ hj)
          · intro j hj
            rw [List.mem_cons, not_or] at hj
            rw [← hwaiting j hj.2]
            exact Function.update_of_ne hj.1 ..

end Pool

/-! ### Named control points -/

/-- Names for the places where a program can be suspended: `prog` says what is left to do there,
`step` where the next step leads and what it leaves. Invariants can then speak of what a request has
read by the name of its place, where a program is only a function. -/
structure Points (π σ ε α : Type) where
  prog : π → Prog σ ε α
  step : π → σ → π × σ
  sound : ∀ p s, (prog p).advance s = (prog (step p s).1, (step p s).2)

namespace Points

variable {π : Type} (G : Points π σ ε α)

/-- A shared state and, for each task, the name of the place it is at. It is a pool that can be
looked into. -/
structure Names (ι π σ : Type) where
  shared : σ
  at_ : ι → π

/-- The pool machine, on names. -/
def machine : Machine (Names ι π σ) ι Unit where
  step N i :=
    let a := G.step (N.at_ i) N.shared
    ((), ⟨a.2, Function.update N.at_ i a.1⟩)

variable (N : Names ι π σ) (i : ι)

@[simp] theorem next_at_self :
    (G.machine.next N i).at_ i = (G.step (N.at_ i) N.shared).1 := Function.update_self ..

/-- The other tasks stay where they are, whatever the step does to the state. -/
theorem next_at_ne {j : ι} (h : j ≠ i) : (G.machine.next N i).at_ j = N.at_ j :=
  Function.update_of_ne h ..

/-- The programs that the names stand for. -/
def pool (N : Names ι π σ) : Pool ι σ ε α := ⟨N.shared, fun i => G.prog (N.at_ i)⟩

/-- A step of the pool is the step of the names. -/
theorem next_pool : Pool.machine.next (G.pool N) i = G.pool (G.machine.next N i) := by
  have hsound := G.sound (N.at_ i) N.shared
  simp only [Machine.next, Pool.machine, pool, machine, hsound, Pool.mk.injEq, true_and]
  funext j
  by_cases hj : j = i
  · subst hj; simp
  · simp [Function.update_of_ne hj]

/-- The pool's entry that a step of the names stands for. -/
def entry (e : Entry (Names ι π σ) ι Unit) : Entry (Pool ι σ ε α) ι Unit :=
  ⟨G.pool e.before, e.request, e.response⟩

variable {N} {N₀ : Names ι π σ} {past : List (Entry (Names ι π σ) ι Unit)}

/-- **Every interleaving of the programs is an interleaving of the names.** So a statement that is
proved of the named places holds of the programs as they are written. -/
theorem reach_names {past : List (Entry (Pool ι σ ε α) ι Unit)}
    {P : Pool ι σ ε α} (h : Pool.machine.Reach (G.pool N₀) past P) :
    ∃ named N, G.machine.Reach N₀ named N ∧ P = G.pool N ∧ past = named.map G.entry := by
  induction h with
  | init => exact ⟨[], N₀, .init, rfl, rfl⟩
  | step i _ ih =>
      obtain ⟨named, N, hreach, rfl, rfl⟩ := ih
      exact ⟨_, _, .step i hreach, G.next_pool N i, rfl⟩

/-- Every interleaving of the names is one of the programs: the names add no runs. -/
theorem reach_pool (h : G.machine.Reach N₀ past N) :
    Pool.machine.Reach (G.pool N₀) (past.map G.entry) (G.pool N) := by
  induction h with
  | init => exact .init
  | @step past N i _ ih =>
      rw [← G.next_pool N i]
      exact .step i ih

/-- Where a schedule of the programs leads is where it leads the names. -/
theorem run_pool (N : Names ι π σ) (picks : List ι) :
    (Pool.machine.run (G.pool N) picks).2 = G.pool (G.machine.run N picks).2 := by
  induction picks generalizing N with
  | nil => rfl
  | cons i picks ih =>
      show (Pool.machine.run (Pool.machine.next (G.pool N) i) picks).2 = _
      rw [next_pool]
      exact ih _

variable {G}

/-- A property of single places that no step destroys holds at every place of a run. -/
theorem at_of_step {P : π → Prop} (hstep : ∀ p s, P p → P (G.step p s).1)
    (h : G.machine.Reach N₀ past N) {j : ι} (hstart : P (N₀.at_ j)) : P (N.at_ j) := by
  induction h with
  | init => exact hstart
  | @step past N i _ ih =>
      by_cases hj : j = i
      · subst hj
        rw [next_at_self]
        exact hstep _ _ ih
      · rwa [next_at_ne G N i hj]

end Points

end Resumption
