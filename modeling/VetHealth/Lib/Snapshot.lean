import Mathlib.Logic.Function.Basic
import VetHealth.Lib.Machine

/-!
# VetHealth.Lib.Snapshot

**Two editors of one value.** An editor reads the value, works on what it has read for some steps,
and writes back its own edit of that. Nothing keeps the other editor from reading in the meantime.

In a schedule in which both come to their end, the editor that writes first either has the value to
itself, and then the other edits what it wrote; or both have read the same value, and then the edit
of the first is lost (`value_of_first`). How many steps an editor works may depend on what it read.
-/

namespace Snapshot

open Transition

variable {σ : Type}

/-- What an editor is doing. It reads once, works on what it has read, and writes the whole value
back. -/
inductive Phase (σ : Type)
  | idle
  /-- It has read a value, and makes so many steps before it writes. -/
  | editing (read : σ) (left : Nat)
  | done

/-- The value, and what the two editors are doing. -/
structure Desk (σ : Type) where
  value : σ
  phase : Bool → Phase σ

/-- What the editors make of a value, and how long they work on one. The second number is what the
scheduler can use to slip the other in. -/
structure Editors (σ : Type) where
  edit : Bool → σ → σ
  work : σ → Nat

namespace Editors

variable (E : Editors σ)

/-- A scheduler lets one editor make a step. -/
def machine : Machine (Desk σ) Bool Unit where
  step D i := ((), match D.phase i with
    | .idle => ⟨D.value, Function.update D.phase i (.editing D.value (E.work D.value))⟩
    | .editing read (left + 1) => ⟨D.value, Function.update D.phase i (.editing read left)⟩
    | .editing read 0 => ⟨E.edit i read, Function.update D.phase i .done⟩
    | .done => D)

/-- Where a schedule leads. -/
def run (D : Desk σ) (picks : List Bool) : Desk σ := (E.machine.run D picks).2

@[simp] theorem run_nil (D : Desk σ) : E.run D [] = D := rfl

theorem run_cons (D : Desk σ) (i : Bool) (picks : List Bool) :
    E.run D (i :: picks) = E.run (E.machine.next D i) picks := rfl

variable {E} {D : Desk σ} {i : Bool} {read : σ} {left : Nat}

theorem next_idle (h : D.phase i = .idle) :
    E.machine.next D i = ⟨D.value, Function.update D.phase i (.editing D.value (E.work D.value))⟩ := by
  simp [Machine.next, machine, h]

theorem next_editing (h : D.phase i = .editing read (left + 1)) :
    E.machine.next D i = ⟨D.value, Function.update D.phase i (.editing read left)⟩ := by
  simp [Machine.next, machine, h]

theorem next_write (h : D.phase i = .editing read 0) :
    E.machine.next D i = ⟨E.edit i read, Function.update D.phase i .done⟩ := by
  simp [Machine.next, machine, h]

theorem next_done (h : D.phase i = .done) : E.machine.next D i = D := by
  simp [Machine.next, machine, h]

end Editors

/-! ### Schedules -/

/-- There is one other editor. -/
theorem eq_or_eq_other (j i : Bool) : j = i ∨ j = !i := by
  cases i <;> cases j <;> simp

/-- The schedule begins with `n` steps of one editor. -/
def Alone (n : Nat) (i : Bool) (picks : List Bool) : Prop := List.replicate n i <+: picks

/-- One editor makes its steps, `n i` of them, before the other makes all of its own. So it is the
first to write, and what it writes is overwritten. -/
def First (n : Bool → Nat) (i : Bool) (picks : List Bool) : Prop :=
  ∃ pre, pre <+: picks ∧ n i ≤ pre.count i ∧ pre.count (!i) < n (!i)

/-- Only one of the two is first: the shorter of two beginnings of the schedule lacks a step of the
one or of the other. -/
theorem First.unique {n : Bool → Nat} {i j : Bool} {picks : List Bool} (hi : First n i picks)
    (hj : First n j picks) : i = j := by
  by_contra hne
  obtain rfl : j = !i := by cases i <;> cases j <;> simp_all
  obtain ⟨pre, hpre, hcount, hother⟩ := hi
  obtain ⟨pre', hpre', hcount', hother'⟩ := hj
  rw [Bool.not_not] at hother'
  -- of two beginnings of the schedule one is a beginning of the other
  rcases List.prefix_or_prefix_of_prefix hpre hpre' with h | h
  · have hle := h.sublist.count_le i
    omega
  · have hle := h.sublist.count_le (!i)
    omega

/-- A step of an editor brings it nearer to its end. With this rule the induction on a schedule
counts what is left. -/
theorem First.cons {n : Bool → Nat} {i j : Bool} {picks : List Bool} (h : First n i picks)
    {m : Bool → Nat} (hj : m j = n j + 1) (hother : m (!j) = n (!j)) : First m i (j :: picks) := by
  obtain ⟨pre, hpre, hcount, hless⟩ := h
  refine ⟨j :: pre, (List.prefix_cons_inj j).2 hpre, ?_, ?_⟩
  · cases i <;> cases j <;> simp_all
  · cases i <;> cases j <;> simp_all

/-! ### What becomes of the value -/

variable {E : Editors σ}

/-- Both editors have come to their end. -/
def Desk.Finished (D : Desk σ) : Prop := ∀ i, D.phase i = .done

theorem finished_of {D : Desk σ} {i : Bool} (hi : D.phase i = .done) (hj : D.phase (!i) = .done) :
    D.Finished := by
  intro k
  rcases eq_or_eq_other k i with rfl | rfl
  · exact hi
  · exact hj

theorem run_of_finished {D : Desk σ} (h : D.Finished) (picks : List Bool) : E.run D picks = D := by
  induction picks with
  | nil => rfl
  | cons i picks ih => rw [Editors.run_cons, Editors.next_done (h i), ih]

/-- When one editor has come to its end, the other writes its edit of what it has read, and that is
the value in the end. -/
theorem value_of_editing {picks : List Bool} {D : Desk σ} {i : Bool} (hi : D.phase i = .done)
    {read : σ} {left : Nat} (hj : D.phase (!i) = .editing read left)
    (hdone : (E.run D picks).Finished) : (E.run D picks).value = E.edit (!i) read := by
  induction picks generalizing D left with
  | nil =>
      have hidle := hdone (!i)
      rw [Editors.run_nil, hj] at hidle
      cases hidle
  | cons k picks ih =>
      rw [Editors.run_cons] at hdone ⊢
      rcases eq_or_eq_other k i with rfl | rfl
      · rw [Editors.next_done hi] at hdone ⊢
        exact ih hi hj hdone
      · have hne : i ≠ !i := by simp
        cases left with
        | zero =>
            rw [Editors.next_write hj]
            rw [run_of_finished]
            refine finished_of (i := i) ?_ (Function.update_self ..)
            exact (Function.update_of_ne hne ..).trans hi
        | succ left =>
            rw [Editors.next_editing hj] at hdone ⊢
            exact ih ((Function.update_of_ne hne ..).trans hi) (Function.update_self ..) hdone

/-- An editor that begins after the other has come to its end edits what that wrote. -/
theorem value_of_idle {picks : List Bool} {D : Desk σ} {i : Bool} (hi : D.phase i = .done)
    (hj : D.phase (!i) = .idle) (hdone : (E.run D picks).Finished) :
    (E.run D picks).value = E.edit (!i) D.value := by
  induction picks with
  | nil =>
      have hidle := hdone (!i)
      rw [Editors.run_nil, hj] at hidle
      cases hidle
  | cons k picks ih =>
      rw [Editors.run_cons] at hdone ⊢
      rcases eq_or_eq_other k i with rfl | rfl
      · rw [Editors.next_done hi] at hdone ⊢
        exact ih hdone
      · rw [Editors.next_idle hj] at hdone ⊢
        have hne : i ≠ !i := by simp
        exact value_of_editing ((Function.update_of_ne hne ..).trans hi) (Function.update_self ..) hdone

/-- When both have read the same value, the edit of the one that writes first is lost. The induction
is on the schedule, with the steps that each has left. -/
theorem value_of_both {picks : List Bool} {D : Desk σ} {read : σ} {left : Bool → Nat}
    (h : ∀ i, D.phase i = .editing read (left i)) (hdone : (E.run D picks).Finished) :
    ∃ i, First (fun j => left j + 1) i picks ∧ (E.run D picks).value = E.edit (!i) read := by
  induction picks generalizing D left with
  | nil =>
      have hediting := hdone true
      rw [Editors.run_nil, h true] at hediting
      cases hediting
  | cons k picks ih =>
      rw [Editors.run_cons] at hdone ⊢
      have hne : (!k) ≠ k := by simp
      cases hleft : left k with
      | zero =>
          -- the editor writes, and the other goes on with what it has read before
          have hk : D.phase k = .editing read 0 := hleft ▸ h k
          rw [Editors.next_write hk] at hdone ⊢
          refine ⟨k, ⟨[k], ⟨picks, rfl⟩, by simp [hleft], by simp⟩, ?_⟩
          have hother : Function.update D.phase k .done (!k) = .editing read (left (!k)) :=
            (Function.update_of_ne hne ..).trans (h (!k))
          exact value_of_editing (Function.update_self ..) hother hdone
      | succ n =>
          have hk : D.phase k = .editing read (n + 1) := hleft ▸ h k
          rw [Editors.next_editing hk] at hdone ⊢
          have hphase : ∀ j, Function.update D.phase k (.editing read n) j =
              .editing read (Function.update left k n j) := by
            intro j
            by_cases hj : j = k
            · rw [hj, Function.update_self, Function.update_self]
            · rw [Function.update_of_ne hj, Function.update_of_ne hj, h j]
          obtain ⟨i, hfirst, hvalue⟩ := ih hphase hdone
          refine ⟨i, hfirst.cons ?_ ?_, hvalue⟩
          · rw [Function.update_self, hleft]
          · rw [Function.update_of_ne hne]

/-- One editor is at work. Either it writes before the other has begun, or the other reads the same
value, and then one edit is lost. -/
theorem value_of_one {picks : List Bool} {D : Desk σ} {i : Bool} {left : Nat}
    (hi : D.phase i = .editing D.value left) (hj : D.phase (!i) = .idle)
    (hdone : (E.run D picks).Finished) :
    (Alone (left + 1) i picks ∧ (E.run D picks).value = E.edit (!i) (E.edit i D.value)) ∨
      (¬Alone (left + 1) i picks ∧
        ∃ k, First (Function.update (fun _ => E.work D.value + 2) i (left + 1)) k picks ∧
          (E.run D picks).value = E.edit (!k) D.value) := by
  have hne : (!i) ≠ i := by simp
  induction picks generalizing D left with
  | nil =>
      have hidle := hdone (!i)
      rw [Editors.run_nil, hj] at hidle
      cases hidle
  | cons k picks ih =>
      rw [Editors.run_cons] at hdone ⊢
      -- the editor at work makes a step, or the other begins
      rcases eq_or_eq_other k i with rfl | rfl
      · have hphase (p : Phase σ) : Function.update D.phase k p (!k) = .idle :=
          (Function.update_of_ne hne ..).trans hj
        cases left with
        | zero =>
            rw [Editors.next_write hi] at hdone ⊢
            exact Or.inl ⟨⟨picks, rfl⟩, value_of_idle (Function.update_self ..) (hphase _) hdone⟩
        | succ left =>
            rw [Editors.next_editing hi] at hdone ⊢
            have halone : Alone (left + 1 + 1) k (k :: picks) ↔ Alone (left + 1) k picks :=
              List.prefix_cons_inj k
            rw [halone]
            rcases ih (Function.update_self ..) (hphase _) hdone with hleft | ⟨hnot, j, hfirst, hvalue⟩
            · exact Or.inl hleft
            · refine Or.inr ⟨hnot, j, hfirst.cons ?_ ?_, hvalue⟩
              · rw [Function.update_self, Function.update_self]
              · rw [Function.update_of_ne hne, Function.update_of_ne hne]
      · rw [Editors.next_idle hj] at hdone ⊢
        refine Or.inr ⟨?_, ?_⟩
        · rintro ⟨rest, hrest⟩
          rw [List.replicate_succ, List.cons_append] at hrest
          exact hne (List.cons.inj hrest).1.symm
        · have hphase : ∀ j, Function.update D.phase (!i) (.editing D.value (E.work D.value)) j =
              .editing D.value (Function.update (fun _ => E.work D.value) i left j) := by
            intro j
            rcases eq_or_eq_other j i with rfl | rfl
            · rw [Function.update_of_ne hne.symm, Function.update_self, hi]
            · rw [Function.update_self, Function.update_of_ne hne]
          obtain ⟨j, hfirst, hvalue⟩ := value_of_both hphase hdone
          refine ⟨j, hfirst.cons ?_ ?_, hvalue⟩
          · rw [Function.update_of_ne hne, Function.update_of_ne hne]
          · rw [Bool.not_not, Function.update_self, Function.update_self]

/-- **What two editors leave**: both edits, if the first to write was alone until then, and
otherwise the edit of the second. There is no third case, since an editor reads once and writes
once. -/
theorem exists_first {picks : List Bool} {s : σ}
    (hdone : (E.run ⟨s, fun _ => .idle⟩ picks).Finished) :
    ∃ i, First (fun _ => E.work s + 2) i picks ∧
      ((Alone (E.work s + 2) i picks ∧
          (E.run ⟨s, fun _ => .idle⟩ picks).value = E.edit (!i) (E.edit i s)) ∨
        (¬Alone (E.work s + 2) i picks ∧
          (E.run ⟨s, fun _ => .idle⟩ picks).value = E.edit (!i) s)) := by
  cases picks with
  | nil => cases hdone true
  | cons k picks =>
      have hne : (!k) ≠ k := by simp
      rw [Editors.run_cons, Editors.next_idle rfl] at hdone ⊢
      have halone : Alone (E.work s + 2) k (k :: picks) ↔ Alone (E.work s + 1) k picks :=
        List.prefix_cons_inj k
      have hself : Function.update (fun _ => Phase.idle) k (.editing s (E.work s)) k =
          .editing s (E.work s) := Function.update_self ..
      have hother : Function.update (fun _ => Phase.idle) k (.editing s (E.work s)) (!k) = .idle :=
        Function.update_of_ne hne ..
      rcases value_of_one hself hother hdone with ⟨hleft, hvalue⟩ | ⟨hnot, j, hfirst, hvalue⟩
      -- The one that steps first goes on until it is done: the other one begins after it.
      · refine ⟨k, ?_, Or.inl ⟨halone.2 hleft, hvalue⟩⟩
        refine ⟨List.replicate (E.work s + 2) k, halone.2 hleft, by simp, ?_⟩
        rw [List.count_replicate]
        simp
      -- The other one has begun meanwhile. Whichever is done first is overwritten.
      · refine ⟨j, hfirst.cons ?_ ?_, Or.inr ⟨?_, hvalue⟩⟩
        · rw [Function.update_self]
        · rw [Function.update_of_ne hne]
        · rcases eq_or_eq_other j k with rfl | rfl
          · rwa [halone]
          · rintro ⟨rest, hrest⟩
            rw [List.replicate_succ, List.cons_append] at hrest
            exact hne (List.cons.inj hrest).1

/-- `exists_first` for the editor that is known to write first. -/
theorem value_of_first {picks : List Bool} {s : σ}
    (hdone : (E.run ⟨s, fun _ => .idle⟩ picks).Finished) {i : Bool}
    (hfirst : First (fun _ => E.work s + 2) i picks) :
    (Alone (E.work s + 2) i picks →
        (E.run ⟨s, fun _ => .idle⟩ picks).value = E.edit (!i) (E.edit i s)) ∧
      (¬Alone (E.work s + 2) i picks →
        (E.run ⟨s, fun _ => .idle⟩ picks).value = E.edit (!i) s) := by
  obtain ⟨j, hj, hvalue⟩ := exists_first hdone
  obtain rfl := hfirst.unique hj
  rcases hvalue with ⟨halone, hvalue⟩ | ⟨hnot, hvalue⟩
  · exact ⟨fun _ => hvalue, fun hnot => absurd halone hnot⟩
  · exact ⟨fun halone => absurd halone hnot, fun _ => hvalue⟩

end Snapshot
