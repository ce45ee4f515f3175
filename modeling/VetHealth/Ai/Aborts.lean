import VetHealth.Ai.Errors
import VetHealth.Lib.Search

/-!
# VetHealth.Ai.Aborts

**Was the generation cut off?** `isAbortError` looks for the abort under the causes of an error and in
its lists of errors. Errors are objects that refer to each other, in a circle if need be, so they are
addresses of a heap here, and a call runs on a stack of so many calls.

A call for depth `MAX_CAUSE_DEPTH + 1` looks at nothing, so five calls are stacked at most
(`isAbortErrorIn_eq`). What it answers is what `isAbortErrorFrom` finds in the tree of what lies
within its reach.
-/

namespace VetHealth

open Search

/-! ### Errors that refer to each other -/

/-- A value that is thrown, or is a field of one: no object, a text, or the object at an address. -/
inductive ErrorValue (ι : Type)
  | primitive
  | text (value : String)
  | object (address : ι)

/-- What `isAbortError` reads of an object. An array has `elements`. -/
structure ErrorObject (ι : Type) where
  name : ErrorValue ι
  cause : ErrorValue ι
  errors : ErrorValue ι
  elements : Option (List (ErrorValue ι))

abbrev ErrorHeap (ι : Type) := ι → ErrorObject ι

variable {ι : Type}

/-- `name === text`. -/
def ErrorValue.isText (text : String) : ErrorValue ι → Bool
  | .text value => value = text
  | _ => false

/-- The elements of a value for which `Array.isArray` holds. Anything else is passed over. -/
def ErrorHeap.arrayOf (heap : ErrorHeap ι) : ErrorValue ι → Option (List (ErrorValue ι))
  | .object address => (heap address).elements
  | _ => none

/-- `isAbortError(error, depth)` on a stack of `stack` calls, `none` when it does not suffice. -/
def isAbortErrorIn (heap : ErrorHeap ι) : Nat → ErrorValue ι → Nat → Option Bool
  | 0, _, _ => none
  | stack + 1, error, depth =>
      match error with
      | .object address =>
          if depth > MAX_CAUSE_DEPTH then some false
          else
            let { name, cause, errors, .. } := heap address
            if name.isText "TimeoutError" || name.isText "AbortError" then some true
            else
              (match heap.arrayOf errors with
                | some errors =>
                    errors.anyM fun nested => isAbortErrorIn heap stack nested (depth + 1)
                | none => some false).bind fun inErrors =>
                  if inErrors then some true else isAbortErrorIn heap stack cause (depth + 1)
      | _ => some false

/-! ### What lies within reach -/

/-- The value is the cause of an object, or in its list of errors: the two places that the search
looks at. -/
def ErrorHeap.Refers (heap : ErrorHeap ι) (source : ι) (value : ErrorValue ι) : Prop :=
  (heap source).cause = value ∨
    ∃ errors, heap.arrayOf (heap source).errors = some errors ∧ value ∈ errors

/-- One step from an object to an object. Objects may lead to themselves, and several may lead to
one. -/
def ErrorHeap.Leads (heap : ErrorHeap ι) (source target : ι) : Prop :=
  heap.Refers source (.object target)

/-- The object is named as an abort. -/
def ErrorHeap.IsAbort (heap : ErrorHeap ι) (address : ι) : Prop :=
  (heap address).name = .text "TimeoutError" ∨ (heap address).name = .text "AbortError"

def ErrorValue.asText : ErrorValue ι → Option String
  | .text value => some value
  | _ => none

/-- The tree of what is found in so many levels. It is finite, and all that a search of that depth
can see of the heap. -/
def ErrorHeap.unfold (heap : ErrorHeap ι) : Nat → ErrorValue ι → Thrown
  | 0, _ => .primitive
  | levels + 1, error =>
      match error with
      | .object address =>
          .object .other (heap address).name.asText (some (unfold heap levels (heap address).cause))
            ((heap.arrayOf (heap address).errors).map (List.map (unfold heap levels)))
      | _ => .primitive

theorem ErrorValue.isText_eq (text : String) (value : ErrorValue ι) :
    value.isText text = decide (value.asText = some text) := by
  cases value <;> simp [isText, asText]

theorem ErrorValue.asText_eq_some {value : ErrorValue ι} {text : String} :
    value.asText = some text ↔ value = .text text := by
  cases value <;> simp [asText]

/-- The call follows the tree, level by level. The heap may have cycles, so that the induction is on
the levels that are left. -/
theorem isAbortErrorIn_eq (heap : ErrorHeap ι) {levels depth stack : Nat} (error : ErrorValue ι)
    (hdepth : depth + levels = MAX_CAUSE_DEPTH + 1) (hstack : levels < stack) :
    isAbortErrorIn heap stack error depth =
      some (isAbortErrorFrom levels (heap.unfold levels error)) := by
  induction levels generalizing depth stack error with
  | zero =>
      -- At the depth of the limit nothing is looked at any more, in the heap or in the tree.
      obtain ⟨stack, rfl⟩ := Nat.exists_eq_add_one_of_ne_zero (Nat.ne_of_gt hstack)
      cases error with
      | object address =>
          rw [isAbortErrorIn, if_pos (by omega), isAbortErrorFrom]
      | _ => rfl
  | succ levels ih =>
      obtain ⟨stack, rfl⟩ := Nat.exists_eq_add_one_of_ne_zero (Nat.ne_zero_of_lt hstack)
      have hnested : ∀ value, isAbortErrorIn heap stack value (depth + 1) =
          some (isAbortErrorFrom levels (heap.unfold levels value)) :=
        fun value => ih value (by omega) (by omega)
      cases error with
      | object address =>
          have hlist : ∀ errors : List (ErrorValue ι),
              errors.anyM (fun nested =>
                some (isAbortErrorFrom levels (heap.unfold levels nested))) =
                some ((errors.map (heap.unfold levels)).any (isAbortErrorFrom levels)) := by
            intro errors
            rw [List.any_map]
            exact List.anyM_pure (m := Option)
          -- An object of its own name is an abort at once; else its cause and its errors are
          -- searched, one level further down.
          rw [isAbortErrorIn, if_neg (by omega)]
          simp only [hnested, ErrorValue.isText_eq, ErrorHeap.unfold, isAbortErrorFrom,
            Option.any_some, Option.any_map]
          by_cases hname : (decide ((heap address).name.asText = some "TimeoutError") ||
              decide ((heap address).name.asText = some "AbortError")) = true
          · rw [if_pos hname, hname, Bool.true_or, Bool.true_or]
          · rw [if_neg hname, Bool.eq_false_iff.2 hname]
            cases heap.arrayOf (heap address).errors with
            | none => simp
            | some errors =>
                simp only [hlist, Option.bind_some, Option.any_some, Bool.false_or]
                cases (errors.map (heap.unfold levels)).any (isAbortErrorFrom levels) <;> rfl
      | _ => rfl

theorem isAbortErrorFrom_unfold_succ (heap : ErrorHeap ι) (levels : Nat) (address : ι) :
    isAbortErrorFrom (levels + 1) (heap.unfold (levels + 1) (.object address)) = true ↔
      heap.IsAbort address ∨ ∃ value, heap.Refers address value ∧
        isAbortErrorFrom levels (heap.unfold levels value) = true := by
  simp only [ErrorHeap.unfold, isAbortErrorFrom, Bool.or_eq_true, decide_eq_true_eq,
    ErrorValue.asText_eq_some, Option.any_some, ErrorHeap.IsAbort, ErrorHeap.Refers]
  cases heap.arrayOf (heap address).errors with
  | none => simp
  | some errors =>
      have hcause : (∃ value, ((heap address).cause = value ∨
            ∃ listed, some errors = some listed ∧ value ∈ listed) ∧
              isAbortErrorFrom levels (heap.unfold levels value) = true) ↔
          (∃ value ∈ errors, isAbortErrorFrom levels (heap.unfold levels value) = true) ∨
            isAbortErrorFrom levels (heap.unfold levels (heap address).cause) = true := by
        simp [or_and_right, exists_or, or_comm]
      rw [hcause, or_assoc]
      simp

/-- What the search of the tree finds: an abort that so many steps lead to from the error. -/
theorem isAbortErrorFrom_unfold (heap : ErrorHeap ι) (levels : Nat) (error : ErrorValue ι) :
    isAbortErrorFrom (levels + 1) (heap.unfold (levels + 1) error) = true ↔
      ∃ start found, error = .object start ∧ Within heap.Leads levels start found ∧
        heap.IsAbort found := by
  induction levels generalizing error with
  | zero =>
      cases error with
      | object address =>
          simp [isAbortErrorFrom_unfold_succ, isAbortErrorFrom, within_zero]
      | _ => simp [ErrorHeap.unfold, isAbortErrorFrom]
  | succ levels ih =>
      cases error with
      | object address =>
          rw [isAbortErrorFrom_unfold_succ]
          constructor
          · intro h
            rcases h with hhere | ⟨value, hrefers, hfound⟩
            · exact ⟨address, address, rfl, .refl _ _ _, hhere⟩
            · obtain ⟨next, found, rfl, hwithin, habort⟩ := (ih value).1 hfound
              exact ⟨address, found, rfl, hwithin.head hrefers, habort⟩
          · intro ⟨start, found, hstart, hwithin, habort⟩
            obtain rfl := ErrorValue.object.inj hstart
            rcases within_succ.1 hwithin with rfl | ⟨next, hleads, hwithin⟩
            · exact Or.inl habort
            · exact Or.inr ⟨.object next, hleads,
                (ih _).2 ⟨next, found, rfl, hwithin, habort⟩⟩
      | _ => simp [ErrorHeap.unfold, isAbortErrorFrom]

/-- **An abort is found when it is at most three steps away.** Whatever refers to whatever, five calls
on the stack suffice, and the answer is whether some object that is named as an abort lies within
three steps. -/
theorem abort_within_three_steps (heap : ErrorHeap ι) (error : ErrorValue ι) :
    ∃ answer, (∀ stack, 5 ≤ stack → isAbortErrorIn heap stack error 0 = some answer) ∧
      (answer = true ↔ ∃ start found, error = .object start ∧
        Within heap.Leads 3 start found ∧ heap.IsAbort found) :=
  ⟨_, fun _ hstack => isAbortErrorIn_eq heap error rfl hstack, isAbortErrorFrom_unfold heap 3 error⟩

/-- What is answered as a timeout: an abort, and nothing else, however the error is dressed up. -/
theorem classify_status_timeout (cause : Thrown) :
    (classify cause).status = 504 ↔ isAbortError cause = true := by
  unfold classify
  by_cases habort : isAbortError cause = true
  · rw [if_pos habort]
    exact iff_of_true rfl habort
  · rw [if_neg habort]
    refine iff_of_false ?_ habort
    cases cause with
    | primitive => simp
    | object kind name cause errors =>
        cases kind with
        | apiCallError statusCode responseHeaders =>
            dsimp only
            split
            · simp
            · split <;> simp
        | _ => simp

/-- The tree of an error is answered as its heap says. So the service, which is modelled on trees,
and the search on heaps agree. -/
theorem classify_unfold (heap : ErrorHeap ι) (error : ErrorValue ι) :
    (classify (heap.unfold 4 error)).status = 504 ↔ isAbortErrorIn heap 5 error 0 = some true := by
  have hfound : isAbortErrorIn heap 5 error 0 = some (isAbortErrorFrom 4 (heap.unfold 4 error)) :=
    isAbortErrorIn_eq heap error rfl (Nat.lt_succ_self 4)
  rw [classify_status_timeout, hfound, Option.some.injEq, isAbortError, MAX_CAUSE_DEPTH]

/-- An error that is its own cause, and not an abort. -/
example : isAbortErrorIn (fun _ : Unit => ⟨.text "Error", .object (), .primitive, none⟩) 5
    (.object ()) 0 = some false := by
  simp [isAbortErrorIn, ErrorValue.isText, ErrorHeap.arrayOf, MAX_CAUSE_DEPTH]

end VetHealth
