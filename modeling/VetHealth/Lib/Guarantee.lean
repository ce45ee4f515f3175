import VetHealth.Lib.Prog

/-!
# VetHealth.Lib.Guarantee

**Interleaved programs that keep a promise.** `R` is what every step of every task may do to the
shared state, and it is also all that a task can rely on between two steps of its own. `Meets R p P Q`
says that `p`, begun where `P` holds, does only what `R` allows and ends in a result and a state that
are related by `Q`, when others do what `R` allows meanwhile.

A specification is put together by `Meets.atomic`, `Meets.bind` and `Meets.counted`. `Pool.meets` is
for any number of tasks: whatever the schedule is, the state has changed as `R` allows, and a task that
has ended has ended in `Q`, since `Q` is stable.
-/

namespace Resumption

open Transition

variable {σ ε α β : Type}

/-- The steps that `R` allows keep `P`. What a program knows of a shared state between two of its
own statements has to be of this kind, since others may run there. -/
def Stable (R : σ → σ → Prop) (P : σ → Prop) : Prop := ∀ s t, P s → R s t → P t

theorem Stable.and {R : σ → σ → Prop} {P Q : σ → Prop} (hP : Stable R P) (hQ : Stable R Q) :
    Stable R fun s => P s ∧ Q s :=
  fun s t h hst => ⟨hP s t h.1 hst, hQ s t h.2 hst⟩

namespace Prog

/-- The program keeps the promise `R`, and ends in `Q`. Every statement is shown to keep the promise
from what is known before it, and what is known after it has to be stable under the promises of the
others, which are the same. -/
def Meets (R : σ → σ → Prop) : Prog σ ε α → (σ → Prop) → (Except ε α → σ → Prop) → Prop
  | .done r, P, Q => ∀ s, P s → Q r s
  | .step act next, P, Q => ∀ s, P s →
      R s (act s) ∧ ∃ P', Stable R P' ∧ P' (act s) ∧ (next s).Meets R P' Q

variable {R : σ → σ → Prop} {P : σ → Prop} {Q : Except ε α → σ → Prop}

theorem Meets.weaken {p : Prog σ ε α} {P' : σ → Prop} (h : p.Meets R P Q) (hP : ∀ s, P' s → P s) :
    p.Meets R P' Q := by
  cases p with
  | done r => exact fun s hs => h s (hP s hs)
  | step act next => exact fun s hs => h s (hP s hs)

/-- Nothing is asked of a program that is never begun: a branch that the state rules out. -/
theorem Meets.of_not {p : Prog σ ε α} (h : ∀ s, ¬ P s) : p.Meets R P Q := by
  cases p with
  | done r => exact fun s hs => absurd hs (h s)
  | step act next => exact fun s hs => absurd hs (h s)

theorem Meets.strengthen {p : Prog σ ε α} {Q' : Except ε α → σ → Prop} (h : p.Meets R P Q)
    (hQ : ∀ r s, Q r s → Q' r s) : p.Meets R P Q' := by
  induction p generalizing P with
  | done r => exact fun s hs => hQ r s (h s hs)
  | step act next ih =>
      intro s hs
      obtain ⟨hR, P', hstable, hP', hnext⟩ := h s hs
      exact ⟨hR, P', hstable, hP', ih s hnext⟩

/-- What others keep is kept by the program as well, because its own statements are allowed by the
promise too. -/
theorem Meets.frame {p : Prog σ ε α} {F : σ → Prop} (h : p.Meets R P Q) (hF : Stable R F) :
    p.Meets R (fun s => P s ∧ F s) fun r s => Q r s ∧ F s := by
  induction p generalizing P with
  | done r => exact fun s hs => ⟨h s hs.1, hs.2⟩
  | step act next ih =>
      intro s hs
      obtain ⟨hR, P', hstable, hP', hnext⟩ := h s hs.1
      exact ⟨hR, _, hstable.and hF, ⟨hP', hF s _ hs.2 hR⟩, ih s hnext⟩

/-- One statement. -/
theorem Meets.atomic {f : σ → Except ε α × σ} (hQ : ∀ r, Stable R (Q r))
    (h : ∀ s, P s → R s (f s).2 ∧ Q (f s).1 (f s).2) : (atomic f).Meets R P Q :=
  fun s hs => ⟨(h s hs).1, Q (f s).1, hQ _, (h s hs).2, fun _ hend => hend⟩

/-- One part after the other. A part that fails ends the whole, so its failure has to satisfy what
is asked of the end. -/
theorem Meets.bind {p : Prog σ ε α} {f : α → Prog σ ε β} {Q' : Except ε β → σ → Prop}
    (hp : p.Meets R P Q) (hf : ∀ a, (f a).Meets R (Q (.ok a)) Q')
    (herror : ∀ e s, Q (.error e) s → Q' (.error e) s) : (p >>= f).Meets R P Q' := by
  show (p.bind f).Meets R P Q'
  induction p generalizing P with
  | done r =>
      cases r with
      | ok a => exact (hf a).weaken hp
      | error e => exact fun s hs => herror e s (hp s hs)
  | step act next ih =>
      intro s hs
      obtain ⟨hR, P', hstable, hP', hnext⟩ := hp s hs
      exact ⟨hR, P', hstable, hP', ih s hnext⟩

/-- A query comes first: `K a` is what its answer `a` says of the state, and goes on saying. -/
theorem Meets.query {g : σ → α} {f : α → Prog σ ε β} {K : α → σ → Prop} {Q' : Except ε β → σ → Prop}
    (hrefl : ∀ s, R s s) (hstable : ∀ a, Stable R (K a)) (hK : ∀ s, P s → K (g s) s)
    (hf : ∀ a, (f a).Meets R (K a) Q') : (Prog.atomic (fun s => (.ok (g s), s)) >>= f).Meets R P Q' :=
  fun s hs => ⟨hrefl s, K (g s), hstable _, hK s hs, hf _⟩

/-- A part that is left out unless nothing is counted, where `O` is what that says of the state, and
`F` what it says that something is. Both have to be stable: between the count and the part others
may insert. -/
theorem Meets.counted {count : σ → Nat} {p : Prog σ ε Unit} {O F : σ → Prop}
    {Q' : Except ε Unit → σ → Prop} (hrefl : ∀ s, R s s) (hO : Stable R O) (hF : Stable R F)
    (hnone : ∀ s, P s → count s = 0 → O s) (hsome : ∀ s, P s → count s ≠ 0 → F s)
    (hp : p.Meets R O Q') (hskip : ∀ s, F s → Q' (.ok ()) s) :
    Prog.Meets R (do
      let n ← Prog.atomic fun s => (.ok (count s), s)
      if n = 0 then p) P Q' := by
  refine .query (K := fun n s => (n = 0 → O s) ∧ (n ≠ 0 → F s)) hrefl (fun n => ?_) (fun s hs => ?_)
    fun n => ?_
  · intro s t hn hst
    exact ⟨fun hzero => hO s t (hn.1 hzero) hst, fun hne => hF s t (hn.2 hne) hst⟩
  · exact ⟨hnone s hs, hsome s hs⟩
  · by_cases hzero : n = 0
    · rw [if_pos hzero]
      exact hp.weaken fun s hs => hs.1 hzero
    · rw [if_neg hzero]
      exact fun s hs => hskip s (hs.2 hzero)

end Prog

namespace Pool

variable {ι : Type} [DecidableEq ι] {R : σ → σ → Prop} {Q : ι → Except ε α → σ → Prop}
  {task : ι → Prog σ ε α} {s₀ : σ} {past : List (Entry (Pool ι σ ε α) ι Unit)} {N : Pool ι σ ε α}

/-- **Tasks that rely on each other's promise keep theirs**, in every interleaving. What each task
knows is carried along the run: its own step leads to what it knows next, and the steps of the
others keep it. -/
theorem meets (hrefl : ∀ s, R s s) (htrans : ∀ s t u, R s t → R t u → R s u)
    (htask : ∀ i, ∃ P, Stable R P ∧ P s₀ ∧ (task i).Meets R P (Q i))
    (h : Pool.machine.Reach ⟨s₀, task⟩ past N) :
    R s₀ N.shared ∧ ∀ i, ∃ P, Stable R P ∧ P N.shared ∧ (N.task i).Meets R P (Q i) := by
  induction h with
  | init => exact ⟨hrefl s₀, htask⟩
  | @step past N k _ ih =>
      obtain ⟨hR, hothers⟩ := ih
      obtain ⟨P, hstable, hP, hmeets⟩ := hothers k
      have hstep : R N.shared ((N.task k).advance N.shared).2 ∧
          ∃ P', Stable R P' ∧ P' ((N.task k).advance N.shared).2 ∧
            ((N.task k).advance N.shared).1.Meets R P' (Q k) := by
        cases hk : N.task k with
        | done r =>
            rw [hk] at hmeets
            exact ⟨hrefl _, P, hstable, hP, hmeets⟩
        | step act next =>
            rw [hk] at hmeets
            exact hmeets _ hP
      refine ⟨htrans _ _ _ hR hstep.1, fun i => ?_⟩
      -- the task whose step it was knows what comes after it, the others what they knew
      by_cases hi : i = k
      · subst hi
        obtain ⟨P', hstable', hP', hmeets'⟩ := hstep.2
        refine ⟨P', hstable', hP', ?_⟩
        show (Function.update N.task i _ i).Meets R P' (Q i)
        rw [Function.update_self]
        exact hmeets'
      · obtain ⟨P', hstable', hP', hmeets'⟩ := hothers i
        refine ⟨P', hstable', hstable' _ _ hP' hstep.1, ?_⟩
        show (Function.update N.task k _ i).Meets R P' (Q i)
        rw [Function.update_of_ne hi]
        exact hmeets'

/-- A task that has ended has ended as it promised, in the state in which the run is now and not
only in the one in which it ended. -/
theorem ended_of_meets (hrefl : ∀ s, R s s) (htrans : ∀ s t u, R s t → R t u → R s u)
    (htask : ∀ i, ∃ P, Stable R P ∧ P s₀ ∧ (task i).Meets R P (Q i))
    (h : Pool.machine.Reach ⟨s₀, task⟩ past N) {i : ι} {r : Except ε α} (hdone : N.task i = .done r) :
    Q i r N.shared := by
  obtain ⟨P, -, hP, hmeets⟩ := (meets hrefl htrans htask h).2 i
  rw [hdone] at hmeets
  exact hmeets _ hP

end Pool

end Resumption
