import VetHealth.Ai.Errors
import VetHealth.Common.Domain

/-!
# VetHealth.Ai.Service

**The drafts of a generation.** `run` asks the provider for an object, and once more when the first
answer does not fit the schema, or fits and has defects that its review finds worth a correction.
The log of the calls stands beside the outcome.

What the provider answers to each call is a sequence of responses. `Course` lists the ways that the
two attempts can go, and `run_keeps_draft` says that a draft that was given is never lost:
the last one is returned with its own review, whatever goes wrong after it.
-/

namespace VetHealth

/-- `AiTask`. -/
structure AiTask (INPUT OUTPUT Schema : Type) where
  name : String
  schema : Schema
  system : String
  buildPrompt : INPUT → String
  maxOutputTokens : Nat
  review : Option (OUTPUT → List String)
  needsCorrection : Option (OUTPUT → Bool)
  model : Option String

/-- The options of `generateObject`. -/
structure GenerateObjectCall (Model Schema Signal : Type) where
  model : Model
  schema : Schema
  schemaName : String
  system : String
  prompt : String
  maxOutputTokens : Nat
  maxRetries : Nat
  abortSignal : Signal

/-- What becomes of a call: an object that fits the schema, or a thrown value; and whether the
signal is raised by then. -/
structure ProviderResponse (OUTPUT : Type) where
  outcome : Except Thrown OUTPUT
  aborted : Bool

/-- An object and what its review says. This is what is kept between the attempts. -/
structure Draft (OUTPUT : Type) where
  object : OUTPUT
  warnings : List String
  deriving DecidableEq

/-- What the service is built on: the registry of the models, `AbortSignal.timeout`, and
`JSON.stringify`, which throws for some objects. -/
structure AiPlatform (OUTPUT Model Signal : Type) where
  languageModel : Option String → Except Failure Model
  timeout : Nat → Signal
  stringify : OUTPUT → Except Thrown String
  stringifyTexts : List String → String

/-- How the loop ends. Only the first two ways give the caller an object or an error of the
provider. -/
inductive AttemptsEnd (OUTPUT : Type)
  | returned (draft : Draft OUTPUT)
  | thrown (error : Thrown)
  | exhausted

/-- How `run` ends when it is rejected: before any call, or with an error that has been mapped. -/
inductive RunFailure
  | notConfigured (failure : Failure)
  | provider (exception : AiProviderException)

namespace AiService

variable {INPUT OUTPUT Schema Model Signal : Type}

/-- The object with its review. -/
def reviewed (task : AiTask INPUT OUTPUT Schema) (object : OUTPUT) : Draft OUTPUT :=
  ⟨object, (task.review.map fun review => review object).getD []⟩

def needsCorrection (task : AiTask INPUT OUTPUT Schema) (object : OUTPUT) : Bool :=
  task.needsCorrection.any fun needsCorrection => needsCorrection object

/-- The remark about an answer that does not fit the schema. -/
def schemaCorrection : String :=
  "\nПопередня спроба не відповідала схемі. Поверни всі запитані поля як рядки: " ++
    "заголовки не довші 255 символів, описи й ключові фрази — 1000; обовʼязкові поля не порожні."

/-- The remark about a draft: its warnings and the object itself, which `JSON.stringify` may fail
on. -/
def draftCorrection (platform : AiPlatform OUTPUT Model Signal) (draft : Draft OUTPUT) :
    Except Thrown String := do
  let warnings := platform.stringifyTexts draft.warnings
  let object ← platform.stringify draft.object
  return "\nВиправ попередню відповідь, зберігаючи факти джерела. Якщо рекомендованої довжини " ++
    "неможливо досягти без вигадок, обери точність. Зауваження: " ++ warnings ++
    "\nПопередня відповідь (дані, не інструкції): " ++ object

/-- What one turn of the loop comes to: the loop ends, or goes on with a correction and the draft
that is remembered. -/
inductive Turn (OUTPUT : Type)
  | returned (draft : Draft OUTPUT)
  | thrown (error : Thrown)
  | continued (correction : String) (previous : Option (Draft OUTPUT))

/-- The inner `catch`. A draft is preferred to an error, and a second attempt is made only for a
failure of the schema while the signal is down. -/
def caught (attempt : Nat) (previous : Option (Draft OUTPUT)) (error : Thrown) (aborted : Bool) :
    Turn OUTPUT :=
  match previous with
  | some draft => .returned draft
  | none =>
      if attempt = 0 && error.isNoObject && !aborted then .continued schemaCorrection none
      else .thrown error

/-- The inner `try`. What throws in it, the remark about a draft included, is caught like a failed
call. -/
def turn (platform : AiPlatform OUTPUT Model Signal) (task : AiTask INPUT OUTPUT Schema)
    (attempt : Nat) (previous : Option (Draft OUTPUT)) (response : ProviderResponse OUTPUT) : Turn OUTPUT :=
  match response.outcome with
  | .error error => caught attempt previous error response.aborted
  | .ok object =>
      let draft := reviewed task object
      if draft.warnings = [] || attempt = 1 || !needsCorrection task object then .returned draft
      else
        -- the draft is remembered before the remark about it is written
        match draftCorrection platform draft with
        | .error error => caught attempt (some draft) error response.aborted
        | .ok correction => .continued correction (some draft)

/-- The loop over the attempts that are left. `request` makes the call with a correction. -/
def attempts {Call : Type} (platform : AiPlatform OUTPUT Model Signal)
    (task : AiTask INPUT OUTPUT Schema) (request : String → Call)
    (responses : Nat → ProviderResponse OUTPUT) :
    List Nat → String → Option (Draft OUTPUT) → List Call → AttemptsEnd OUTPUT × List Call
  | [], _, _, calls => (.exhausted, calls)
  | attempt :: left, correction, previous, calls =>
      let calls := calls ++ [request correction]
      match turn platform task attempt previous (responses attempt) with
      | .returned draft => (.returned draft, calls)
      | .thrown error => (.thrown error, calls)
      | .continued correction previous =>
          attempts platform task request responses left correction previous calls

/-- `new Error('AI correction exhausted')`. The compiler asks for it after the loop; no run gets
there. -/
def correctionExhausted : Thrown := .object .other (some "Error") none none

/-- The calls of a task differ in the correction alone. -/
def request (task : AiTask INPUT OUTPUT Schema) (model : Model) (abortSignal : Signal)
    (prompt correction : String) : GenerateObjectCall Model Schema Signal where
  model := model
  schema := task.schema
  schemaName := task.name
  system := task.system
  prompt := prompt ++ correction
  maxOutputTokens := task.maxOutputTokens
  maxRetries := MAX_RETRIES
  abortSignal := abortSignal

/-- What the end of the loop means for the caller: the outer `catch`. -/
def settled : AttemptsEnd OUTPUT → Except RunFailure (Draft OUTPUT)
  | .returned draft => .ok draft
  | .thrown error => .error (.provider (toHttpException error))
  | .exhausted => .error (.provider (toHttpException correctionExhausted))

/-- The loop of `run`. -/
def loop (platform : AiPlatform OUTPUT Model Signal) (responses : Nat → ProviderResponse OUTPUT)
    (task : AiTask INPUT OUTPUT Schema) (input : INPUT) (model : Model) :
    AttemptsEnd OUTPUT × List (GenerateObjectCall Model Schema Signal) :=
  let prompt := task.buildPrompt input
  let abortSignal := platform.timeout GENERATION_TIMEOUT_MS
  attempts platform task (request task model abortSignal prompt) responses [0, 1] "" none []

/-- `AiService.run`, with the calls that it makes. -/
def run (platform : AiPlatform OUTPUT Model Signal) (responses : Nat → ProviderResponse OUTPUT)
    (task : AiTask INPUT OUTPUT Schema) (input : INPUT) :
    Except RunFailure (Draft OUTPUT) × List (GenerateObjectCall Model Schema Signal) :=
  match platform.languageModel task.model with
  | .error failure => (.error (.notConfigured failure), [])
  | .ok model =>
      let (ending, calls) := loop platform responses task input model
      (settled ending, calls)

/-! ### How the attempts go -/

variable {platform : AiPlatform OUTPUT Model Signal} {task : AiTask INPUT OUTPUT Schema}

/-- The provider failed to fit the schema, and the signal is not raised: the first of the two
reasons for a second call. -/
def SchemaFailure (response : ProviderResponse OUTPUT) : Prop :=
  ∃ error, response.outcome = .error error ∧ error.isNoObject = true ∧ response.aborted = false

/-- The provider gave an object that has warnings and needs correction: the second reason for a
second call. -/
def DefectiveDraft (task : AiTask INPUT OUTPUT Schema) (response : ProviderResponse OUTPUT) : Prop :=
  ∃ object, response.outcome = .ok object ∧ (reviewed task object).warnings ≠ [] ∧
    needsCorrection task object = true

/-- How the loop ends with its last call, when `previous` is remembered: nothing is corrected any
more. -/
def lastEnd (task : AiTask INPUT OUTPUT Schema) (previous : Option (Draft OUTPUT))
    (response : ProviderResponse OUTPUT) : AttemptsEnd OUTPUT :=
  match response.outcome, previous with
  | .ok object, _ => .returned (reviewed task object)
  | .error _, some draft => .returned draft
  | .error error, none => .thrown error

theorem lastEnd_ok {response : ProviderResponse OUTPUT} {object : OUTPUT}
    (h : response.outcome = .ok object) (previous : Option (Draft OUTPUT)) :
    lastEnd task previous response = .returned (reviewed task object) := by
  unfold lastEnd
  rw [h]

theorem lastEnd_error {response : ProviderResponse OUTPUT} {error : Thrown}
    (h : response.outcome = .error error) : lastEnd task none response = .thrown error := by
  unfold lastEnd
  rw [h]

theorem lastEnd_remembered {response : ProviderResponse OUTPUT} {error : Thrown}
    (h : response.outcome = .error error) (draft : Draft OUTPUT) :
    lastEnd task (some draft) response = .returned draft := by
  unfold lastEnd
  rw [h]

theorem lastEnd_ne_exhausted (previous : Option (Draft OUTPUT)) (response : ProviderResponse OUTPUT) :
    lastEnd task previous response ≠ .exhausted := by
  cases h : response.outcome with
  | ok object => simp [lastEnd_ok h]
  | error error =>
      cases previous with
      | none => simp [lastEnd_error h]
      | some draft => simp [lastEnd_remembered h]

/-- The ways the attempts go: how they end, and after how many calls. There are three, and none of
them ends exhausted. -/
inductive Course (task : AiTask INPUT OUTPUT Schema) (responses : Nat → ProviderResponse OUTPUT) :
    AttemptsEnd OUTPUT → Nat → Prop
  | once : Course task responses (lastEnd task none (responses 0)) 1
  | repaired : SchemaFailure (responses 0) →
      Course task responses (lastEnd task none (responses 1)) 2
  | corrected {object : OUTPUT} : (responses 0).outcome = .ok object →
      (reviewed task object).warnings ≠ [] → needsCorrection task object = true →
      Course task responses (lastEnd task (some (reviewed task object)) (responses 1)) 2

section

variable {Call : Type} {request : String → Call} {responses : Nat → ProviderResponse OUTPUT}

/-- The second call is the last, whatever it brings: the list of attempts that are left is empty. -/
theorem attempts_last (correction : String) (previous : Option (Draft OUTPUT)) (calls : List Call) :
    attempts platform task request responses [1] correction previous calls =
      (lastEnd task previous (responses 1), calls ++ [request correction]) := by
  unfold attempts turn lastEnd
  cases (responses 1).outcome with
  | ok object => simp
  | error error =>
      cases previous with
      | none => simp [caught]
      | some draft => simp [caught]

/-- How the loop goes, read off its two turns. Everything else about the loop is read off the
course. -/
theorem attempts_course :
    Course task responses (attempts platform task request responses [0, 1] "" none []).1
      (attempts platform task request responses [0, 1] "" none []).2.length := by
  have honce : ∀ {ending : AttemptsEnd OUTPUT}, lastEnd task none (responses 0) = ending →
      Course task responses ending 1 := by
    rintro ending rfl
    exact .once
  unfold attempts turn
  -- The cases are those of the first response: what the inner `catch` makes of an error, and
  -- whether an object has defects that are worth a second call.
  cases hfirst : (responses 0).outcome with
  | error error =>
      by_cases hschema : (error.isNoObject && !(responses 0).aborted) = true
      · rw [Bool.and_eq_true, Bool.not_eq_true'] at hschema
        simp only [caught, hschema, attempts_last]
        exact .repaired ⟨error, hfirst, hschema⟩
      · simp only [caught, decide_true, Bool.true_and, hschema]
        exact honce (by simp [lastEnd, hfirst])
  | ok object =>
      have hreturned : Course task responses (.returned (reviewed task object)) 1 :=
        honce (by simp [lastEnd, hfirst])
      by_cases hdefects : (reviewed task object).warnings ≠ [] ∧ needsCorrection task object = true
      · cases hcorrection : draftCorrection platform (reviewed task object) with
        -- The remark itself threw: the `catch` falls back on the object that it was about.
        | error error => simpa [hdefects, hcorrection, caught] using hreturned
        | ok correction =>
            simp only [hdefects, hcorrection, attempts_last]
            exact .corrected hfirst hdefects.1 hdefects.2
      · have hreturn : ((reviewed task object).warnings = [] || 0 = 1 ||
            !needsCorrection task object) = true := by
          by_contra hnot
          exact hdefects (by simpa using hnot)
        simp only [hreturn]
        exact hreturned

/-- All calls are requests: they share model, schema, prompt and signal, and may differ in the
correction. -/
theorem mem_attempts (left : List Nat) (correction : String) (previous : Option (Draft OUTPUT))
    (calls : List Call) {call : Call}
    (h : call ∈ (attempts platform task request responses left correction previous calls).2) :
    call ∈ calls ∨ ∃ correction, call = request correction := by
  induction left generalizing correction previous calls with
  | nil => exact Or.inl h
  | cons attempt left ih =>
      rw [attempts] at h
      have hcalls : call ∈ calls ++ [request correction] →
          call ∈ calls ∨ ∃ correction, call = request correction := by
        intro hmem
        rcases List.mem_append.1 hmem with hmem | hmem
        · exact Or.inl hmem
        · exact Or.inr ⟨correction, List.mem_singleton.1 hmem⟩
      split at h
      · exact hcalls h
      · exact hcalls h
      · rcases ih _ _ _ h with hmem | hrequest
        · exact hcalls hmem
        · exact Or.inr hrequest

end

/-- What the course of the attempts means for the drafts: a draft that any call has brought is
returned, the last one if there are two. -/
theorem Course.spec {responses : Nat → ProviderResponse OUTPUT} {ending : AttemptsEnd OUTPUT} {n : Nat}
    (h : Course task responses ending n) :
    (n = 1 ∨ n = 2 ∧ (SchemaFailure (responses 0) ∨ DefectiveDraft task (responses 0))) ∧
      (∀ i < n, ∀ object, (responses i).outcome = .ok object →
        (∀ j, i < j → j < n → ∀ later, (responses j).outcome ≠ .ok later) →
          ending = .returned (reviewed task object)) ∧
      ((∀ i < n, ∀ object, (responses i).outcome ≠ .ok object) →
        ∃ error, (responses (n - 1)).outcome = .error error ∧ ending = .thrown error) ∧
      ending ≠ .exhausted := by
  have hthrown : ∀ response : ProviderResponse OUTPUT, (∀ object, response.outcome ≠ .ok object) →
      ∃ error, response.outcome = .error error ∧ lastEnd task none response = .thrown error := by
    intro response hno
    cases hresponse : response.outcome with
    | ok object => exact absurd hresponse (hno object)
    | error error => exact ⟨error, rfl, lastEnd_error hresponse⟩
  cases h with
  | once =>
      refine ⟨Or.inl rfl, fun i hi object hobject _ => ?_, fun hno => ?_, lastEnd_ne_exhausted _ _⟩
      · obtain rfl : i = 0 := by omega
        exact lastEnd_ok hobject _
      · exact hthrown _ (hno 0 (by omega))
  | repaired hschema =>
      refine ⟨Or.inr ⟨rfl, Or.inl hschema⟩, fun i hi object hobject _ => ?_, fun hno => ?_,
        lastEnd_ne_exhausted _ _⟩
      · obtain ⟨error, herror, -⟩ := hschema
        obtain rfl : i = 1 := by
          by_contra hne
          obtain rfl : i = 0 := by omega
          rw [herror] at hobject
          cases hobject
        exact lastEnd_ok hobject _
      · exact hthrown _ (hno 1 (by omega))
  | @corrected draft hdraft hwarnings hneeds =>
      refine ⟨Or.inr ⟨rfl, Or.inr ⟨draft, hdraft, hwarnings, hneeds⟩⟩,
        fun i hi object hobject hlater => ?_, fun hno => ?_, lastEnd_ne_exhausted _ _⟩
      · by_cases hi' : i = 1
        · subst hi'
          exact lastEnd_ok hobject _
        · obtain rfl : i = 0 := by omega
          obtain rfl := Except.ok.inj (hdraft.symm.trans hobject)
          -- the second call gave no object, so the draft is returned
          have hno := hlater 1 (by omega) (by omega)
          cases hsecond : (responses 1).outcome with
          | ok later => exact absurd hsecond (hno later)
          | error error => exact lastEnd_remembered hsecond _
      · exact absurd hdraft (hno 0 (by omega) draft)

/-- **A run keeps every draft that can be used.** With a model, one call is made or two, with one
model, schema and signal, and the second only after a failure of the schema or a defective draft.
When a call gives an object, the last such object is returned with its review; otherwise the last
error decides the answer. The loop never runs out of attempts. -/
theorem run_keeps_draft (platform : AiPlatform OUTPUT Model Signal)
    (responses : Nat → ProviderResponse OUTPUT) (task : AiTask INPUT OUTPUT Schema) (input : INPUT)
    {model : Model} (hmodel : platform.languageModel task.model = .ok model) :
    let result := (run platform responses task input).1
    let calls := (run platform responses task input).2
    (∀ call ∈ calls, call.model = model ∧ call.schema = task.schema ∧
        call.abortSignal = platform.timeout GENERATION_TIMEOUT_MS) ∧
      (calls.length = 1 ∨ calls.length = 2 ∧
        (SchemaFailure (responses 0) ∨ DefectiveDraft task (responses 0))) ∧
      (∀ i < calls.length, ∀ object, (responses i).outcome = .ok object →
        (∀ j, i < j → j < calls.length → ∀ later, (responses j).outcome ≠ .ok later) →
          result = .ok (reviewed task object)) ∧
      ((∀ i < calls.length, ∀ object, (responses i).outcome ≠ .ok object) →
        ∃ error exception, (responses (calls.length - 1)).outcome = .error error ∧
          result = .error (.provider exception) ∧
          exception.status = (classify error.unwrapped).status ∧
          exception.errorCode = (classify error.unwrapped).errorCode ∧
          exception.retryAfterSeconds = (classify error.unwrapped).retryAfterSeconds) ∧
      (loop platform responses task input model).1 ≠ .exhausted := by
  intro result calls
  have hcourse : Course task responses (loop platform responses task input model).1
      (loop platform responses task input model).2.length := attempts_course
  have hresult : result = settled (loop platform responses task input model).1 := by
    show (run platform responses task input).1 = _
    rw [run, hmodel]
  have hcalls : calls = (loop platform responses task input model).2 := by
    show (run platform responses task input).2 = _
    rw [run, hmodel]
  rw [hresult, hcalls]
  -- The end and the calls of the run are those of the loop; the rest is its course.
  obtain ⟨hcount, hobject, herror, hexhausted⟩ := hcourse.spec
  refine ⟨fun call hcall => ?_, hcount, fun i hi object hfirst hlater => ?_, fun hno => ?_,
    hexhausted⟩
  · obtain ⟨correction, rfl⟩ := (mem_attempts [0, 1] "" none [] hcall).resolve_left List.not_mem_nil
    exact ⟨rfl, rfl, rfl⟩
  · rw [hobject i hi object hfirst hlater]
    rfl
  · obtain ⟨error, hlast, hthrown⟩ := herror hno
    refine ⟨error, toHttpException error, hlast, ?_, rfl, rfl, rfl⟩
    rw [hthrown]
    rfl

/-! ### A draft that cannot be corrected -/

/-- A task whose objects are texts; those over three characters are worth a correction. -/
def titles : AiTask String String Unit where
  name := "titles"
  schema := ()
  system := "Write a title."
  buildPrompt input := input
  maxOutputTokens := 100
  review := some fun title => if title.length ≤ 3 then [] else ["too long"]
  needsCorrection := some fun title => 3 < title.length
  model := none

def desk : AiPlatform String String Nat where
  languageModel _ := .ok "model"
  timeout ms := ms
  stringify title := .ok title
  stringifyTexts := " ".intercalate

/-- A long title, and then a failure of the provider. -/
def longThenDown : Nat → ProviderResponse String
  | 0 => ⟨.ok "Kennel", false⟩
  | _ => ⟨.error (.object (.apiCallError (some 500) none) none none none), false⟩

/-- The long title is returned with its warning. -/
theorem long_title_kept :
    desk.languageModel titles.model = .ok "model" ∧
      (run desk longThenDown titles "Dogs").2.length = 2 ∧
      (run desk longThenDown titles "Dogs").1 = .ok ⟨"Kennel", ["too long"]⟩ := by
  have hkept := (run_keeps_draft desk longThenDown titles "Dogs" rfl).2.2.1 0 (by decide) "Kennel" rfl
  refine ⟨rfl, by decide, hkept fun j hj _ later => ?_⟩
  obtain ⟨j, rfl⟩ := Nat.exists_eq_succ_of_ne_zero (Nat.ne_of_gt hj)
  simp [longThenDown]

end AiService

end VetHealth
