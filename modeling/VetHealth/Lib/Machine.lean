import Mathlib.Data.List.Basic

/-!
# VetHealth.Lib.Machine

**Runs of a request-response system.** A `Machine` answers one request against
one state. `Reach` is the graph of its runs: it relates the history of a run
(newest entry first) to the state the run ends in. Every entry records the state
the request found, so a property of a whole run, of a single step or of two
moments of one run is a property of the history.

`Reach.invariant` is the one induction: a property of history and state that
holds at the start and survives every step that meets `C` holds of every run
all of whose steps meet `C`. `Along C past` says the latter; `C` may look at the
history before the step, so it can say that a value drawn in the step is new.
-/

namespace Transition

variable {σ α β : Type}

/-- A system that answers requests one after another. An answer may depend on all that came before
through the state alone. -/
structure Machine (σ α β : Type) where
  step : σ → α → β × σ

/-- One step of a run: the state it found, the request, and the answer. What the request left behind
is not recorded, as the machine says it. -/
structure Entry (σ α β : Type) where
  before : σ
  request : α
  response : β

namespace Machine

variable (M : Machine σ α β)

/-- The state that `a` leaves behind when it finds `s`. -/
def next (s : σ) (a : α) : σ := (M.step s a).2

/-- The record of answering `a` in `s`. -/
def entry (s : σ) (a : α) : Entry σ α β := ⟨s, a, (M.step s a).1⟩

/-- The state an entry leaves behind. -/
def after (e : Entry σ α β) : σ := M.next e.before e.request

@[simp] theorem entry_before (s : σ) (a : α) : (M.entry s a).before = s := rfl
@[simp] theorem entry_request (s : σ) (a : α) : (M.entry s a).request = a := rfl
@[simp] theorem entry_response (s : σ) (a : α) : (M.entry s a).response = (M.step s a).1 := rfl
@[simp] theorem after_entry (s : σ) (a : α) : M.after (M.entry s a) = M.next s a := rfl

/-- `M.Reach s₀ past s`: some run from `s₀` has history `past` and ends in `s`. The history has the
newest entry first, so that an induction adds a step in front. -/
inductive Reach (s₀ : σ) : List (Entry σ α β) → σ → Prop
  | init : Reach s₀ [] s₀
  | step {past : List (Entry σ α β)} {s : σ} (a : α) :
      Reach s₀ past s → Reach s₀ (M.entry s a :: past) (M.next s a)

/-- Every step of the history meets `C`, which may depend on the steps before it. Conditions on runs
have this form: they speak of what a request finds, never of what comes later. -/
def Along (C : List (Entry σ α β) → Entry σ α β → Prop) : List (Entry σ α β) → Prop
  | [] => True
  | e :: past => C past e ∧ Along C past

/-- A condition on single steps, without regard to what came before them. -/
theorem along_of_forall {C : Entry σ α β → Prop} {past : List (Entry σ α β)}
    (h : ∀ e ∈ past, C e) : Along (fun _ e => C e) past := by
  induction past with
  | nil => trivial
  | cons e past ih =>
      exact ⟨h e List.mem_cons_self, ih fun e' he' => h e' (List.mem_cons_of_mem _ he')⟩

/-- Values that never repeat are new at every step. A run that draws fresh ids meets what is asked
of each of its steps. -/
theorem along_of_nodup {γ : Type} {f : Entry σ α β → γ} {past : List (Entry σ α β)}
    (h : (past.map f).Nodup) : Along (fun earlier e => f e ∉ earlier.map f) past := by
  induction past with
  | nil => trivial
  | cons e past ih =>
      rw [List.map_cons, List.nodup_cons] at h
      exact ⟨h.1, ih h.2⟩

variable {M}

namespace Reach

/-- **The invariant rule**, for runs all of whose steps meet `C`. The invariant may speak of the
history too, which is how facts about origins are carried along. -/
theorem invariant {s₀ : σ} {C : List (Entry σ α β) → Entry σ α β → Prop}
    {P : List (Entry σ α β) → σ → Prop} (hinit : P [] s₀)
    (hstep : ∀ past s a, M.Reach s₀ past s → P past s → C past (M.entry s a) →
      P (M.entry s a :: past) (M.next s a))
    {past : List (Entry σ α β)} {s : σ} (h : M.Reach s₀ past s) (hC : Along C past) : P past s := by
  induction h with
  | init => exact hinit
  | step a h ih => exact hstep _ _ a h (ih hC.2) hC.1

/-- **The rule for "once, then ever after"**: if a step `Q` establishes `P` and every step keeps
it, `P` holds in every later state of the run. -/
theorem since {s₀ : σ} {C Q : List (Entry σ α β) → Entry σ α β → Prop} {P : σ → Prop}
    (hfirst : ∀ past s a, M.Reach s₀ past s → Along C past → C past (M.entry s a) →
      Q past (M.entry s a) → P (M.next s a))
    (hkeep : ∀ past s a, M.Reach s₀ past s → Along C past → C past (M.entry s a) →
      P s → P (M.next s a))
    {past : List (Entry σ α β)} {s : σ} (h : M.Reach s₀ past s) (hC : Along C past)
    {later earlier : List (Entry σ α β)} {e : Entry σ α β} (hpast : past = later ++ e :: earlier)
    (he : Q earlier e) : P s ∧ ∀ f ∈ later, P f.before := by
  induction h generalizing later with
  | init => cases later <;> cases hpast
  | @step past s a h ih =>
      cases later with
      | nil =>
          obtain ⟨rfl, rfl⟩ := List.cons.inj hpast
          exact ⟨hfirst _ _ a h hC.2 hC.1 he, fun f hf => by cases hf⟩
      | cons f later =>
          obtain ⟨rfl, htail⟩ := List.cons.inj hpast
          obtain ⟨hs, hlater⟩ := ih hC.2 htail
          refine ⟨hkeep _ _ a h hC.2 hC.1 hs, fun f hf => ?_⟩
          rcases List.mem_cons.1 hf with rfl | hf
          · exact hs
          · exact hlater f hf

/-- **The rule for origins**: what holds at the end of a run held at its start, or a step has
brought it about. The step that is named is one before which it did not hold. -/
theorem origin {s₀ s : σ} {P : σ → Prop} {past : List (Entry σ α β)} (h : M.Reach s₀ past s)
    (hs : P s) : P s₀ ∨ ∃ e ∈ past, ¬ P e.before ∧ P (M.after e) := by
  induction h with
  | init => exact Or.inl hs
  | @step past before a _ ih =>
      by_cases hbefore : P before
      · exact (ih hbefore).imp_right fun ⟨e, he, hbrought⟩ =>
          ⟨e, List.mem_cons_of_mem _ he, hbrought⟩
      · exact Or.inr ⟨M.entry before a, List.mem_cons_self, hbefore, hs⟩

/-- Every entry of a run is the machine's own answer: nothing else is ever recorded. -/
theorem eq_entry {s₀ s : σ} {past : List (Entry σ α β)} (h : M.Reach s₀ past s)
    {e : Entry σ α β} (he : e ∈ past) : e = M.entry e.before e.request := by
  induction h with
  | init => cases he
  | step a _ ih =>
      rcases List.mem_cons.1 he with rfl | he
      · rfl
      · exact ih he

/-- The state that an entry found was reached by an earlier part of the run, so that an invariant
may be used at the entry. -/
theorem before {s₀ s : σ} {past : List (Entry σ α β)} (h : M.Reach s₀ past s)
    {e : Entry σ α β} (he : e ∈ past) :
    ∃ earlier, M.Reach s₀ earlier e.before ∧ ∀ f ∈ earlier, f ∈ past := by
  induction h with
  | init => cases he
  | @step past s a h ih =>
      rcases List.mem_cons.1 he with rfl | he
      · exact ⟨past, h, fun f hf => List.mem_cons_of_mem _ hf⟩
      · obtain ⟨earlier, hreach, hsub⟩ := ih he
        exact ⟨earlier, hreach, fun f hf => List.mem_cons_of_mem _ (hsub f hf)⟩

/-- A run continued by a run. -/
theorem append {s₀ s t : σ} {past later : List (Entry σ α β)} (h : M.Reach s₀ past s)
    (h' : M.Reach s later t) : M.Reach s₀ (later ++ past) t := by
  induction h' with
  | init => exact h
  | step a _ ih => exact .step a ih

end Reach

/-- A system whose requests either fail, and leave the state alone, or replace it: a transaction, or
a check before the only write. -/
def guarded {ε : Type} (f : σ → α → Except ε σ) : Machine σ α (Except ε Unit) where
  step s a :=
    match f s a with
    | .ok t => (.ok (), t)
    | .error e => (.error e, s)

theorem guarded_next_of_ok {ε : Type} {f : σ → α → Except ε σ} {s t : σ} {a : α}
    (h : f s a = .ok t) : (guarded f).next s a = t := by
  simp [next, guarded, h]

/-- A step of a guarded system that changes anything is a request that succeeded. So only the
requests that succeed have to be looked at for an invariant. -/
theorem guarded_next {ε : Type} {f : σ → α → Except ε σ} {s : σ} {a : α} :
    (guarded f).next s a = s ∨ f s a = .ok ((guarded f).next s a) := by
  cases h : f s a with
  | ok t => exact Or.inr (congrArg _ (guarded_next_of_ok h).symm)
  | error e => exact Or.inl (by simp [next, guarded, h])

/-- A guarded system answers that a request succeeded when it did. -/
theorem guarded_of_ok {ε : Type} {f : σ → α → Except ε σ} {s : σ} {a : α}
    (h : ((guarded f).step s a).1 = .ok ()) : f s a = .ok ((guarded f).next s a) := by
  cases hf : f s a with
  | ok t => exact congrArg _ (guarded_next_of_ok hf).symm
  | error e => simp [guarded, hf] at h

/-- **The invariant rule of a guarded system**: what the requests that succeed keep. -/
theorem Reach.guarded_invariant {ε : Type} {f : σ → α → Except ε σ} {s₀ s : σ}
    {past : List (Entry σ α (Except ε Unit))} {C : σ → α → Prop} {P : σ → Prop} (hinit : P s₀)
    (hstep : ∀ s a t, P s → C s a → f s a = .ok t → P t) (h : (guarded f).Reach s₀ past s)
    (hC : ∀ e ∈ past, C e.before e.request) : P s := by
  refine h.invariant (P := fun _ s => P s) hinit ?_
    (along_of_forall (C := fun e => C e.before e.request) hC)
  intro past s a _ hs ha
  rcases @guarded_next _ _ _ f s a with hsame | hok
  · rwa [hsame]
  · exact hstep s a _ hs ha hok

/-- The history and the final state of answering `requests` in order. -/
def run (M : Machine σ α β) (s : σ) : List α → List (Entry σ α β) × σ
  | [] => ([], s)
  | a :: requests =>
      let rest := M.run (M.next s a) requests
      (rest.1 ++ [M.entry s a], rest.2)

theorem reach_run (M : Machine σ α β) (s : σ) (requests : List α) :
    M.Reach s (M.run s requests).1 (M.run s requests).2 := by
  induction requests generalizing s with
  | nil => exact .init
  | cons a requests ih => exact (Reach.step a .init).append (ih (M.next s a))

end Machine

end Transition
