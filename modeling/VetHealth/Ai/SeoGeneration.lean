import VetHealth.Ai.SeoDto

/-!
# VetHealth.Ai.SeoGeneration

**From a request to the provider.** `AiService.generateSeoMetadata` chooses the task by the fields that
are asked for, the registry finds the model, and `buildPrompt` puts the material into the prompt.

An optional property of an accepted body may be `null`. Every reader of one allows for that but the
choice of the task, which tells a list of fields from `undefined` alone (`generateSeoMetadata_spec`).
-/

namespace VetHealth

open Js

/-- Whether an exception is an `HttpException`. -/
def Failure.isHttpException : Failure → Bool
  | .internal _ => false
  | _ => true

/-- An outcome that is a success or an `HttpException`: what the controller answers is then one of
the declared statuses and not an accidental 500. -/
def FailsAsDeclared {ε α : Type} (isHttpException : ε → Bool) (outcome : Except ε α) : Prop :=
  ∀ failure, outcome = .error failure → isHttpException failure = true

theorem failsAsDeclared_ok {ε α : Type} {isHttpException : ε → Bool} (value : α) :
    FailsAsDeclared isHttpException (.ok value) := by
  intro failure h
  cases h

theorem failsAsDeclared_error {ε α : Type} {isHttpException : ε → Bool} {failure : ε} :
    FailsAsDeclared isHttpException (.error failure : Except ε α) ↔ isHttpException failure = true := by
  constructor
  · exact fun h => h failure rfl
  · intro h failure' heq
    exact Except.error.inj heq ▸ h

theorem FailsAsDeclared.map {ε α β : Type} {isHttpException : ε → Bool} {outcome : Except ε α}
    (h : FailsAsDeclared isHttpException outcome) (f : α → β) :
    FailsAsDeclared isHttpException (outcome.map f) := by
  cases outcome with
  | error failure => exact failsAsDeclared_error.2 (h failure rfl)
  | ok value => exact failsAsDeclared_ok (f value)

theorem failsAsDeclared_mapError {ε ε' α : Type} {isHttpException : ε → Bool}
    {isHttpException' : ε' → Bool} {f : ε → ε'}
    (hf : ∀ failure, isHttpException' (f failure) = isHttpException failure) {outcome : Except ε α} :
    FailsAsDeclared isHttpException' (outcome.mapError f) ↔
      FailsAsDeclared isHttpException outcome := by
  cases outcome with
  | error failure =>
      exact failsAsDeclared_error.trans ((by rw [hf] : _ ↔ _).trans failsAsDeclared_error.symm)
  | ok value => exact iff_of_true (failsAsDeclared_ok value) (failsAsDeclared_ok value)

/-! ### The registry of the models -/

inductive AiProvider
  | anthropic
  | openai
  | google
  deriving DecidableEq

def AiProvider.text : AiProvider → String
  | .anthropic => "anthropic"
  | .openai => "openai"
  | .google => "google"

/-- The provider that `isAiProvider` accepts the text for. -/
def AiProvider.ofText (text : String) : Option AiProvider :=
  [.anthropic, .openai, .google].find? fun provider => provider.text = text

def DEFAULT_MODELS : AiProvider → String
  | .anthropic => "claude-opus-5"
  | .openai => "gpt-5.1"
  | .google => "gemini-2.5-flash"

/-- The configuration, and the models that the SDK has registered. A provider without a key has no
models. -/
structure AiModelRegistry (Model : Type) where
  provider : AiProvider
  model : Option String
  apiKeys : AiProvider → Option String
  registered : AiProvider → String → Model

namespace AiModelRegistry

variable {Model : Type} (registry : AiModelRegistry Model)

/-- `first || second`. -/
def firstText (first second : Option String) : Option String :=
  (first.filter (· ≠ "")).or second

def resolveAddress (modelOverride : Option String) : Except Failure (AiProvider × String) :=
  let address := ((firstText modelOverride (firstText registry.model none)).getD "").toList
  match address.splitOn ':' with
  | front :: rest@(_ :: _) =>
      match AiProvider.ofText (String.ofList front) with
      | none => .error (.serviceUnavailable ("Unknown AI provider \"" ++ String.ofList front ++
          "\" in model address \"" ++ String.ofList address ++ "\""))
      | some provider =>
          let model := String.ofList ([':'].intercalate rest)
          .ok (provider, if model = "" then DEFAULT_MODELS provider else model)
  | _ => .ok (registry.provider,
      if address = [] then DEFAULT_MODELS registry.provider else String.ofList address)

def languageModel (modelOverride : Option String) : Except Failure Model :=
  match registry.resolveAddress modelOverride with
  | .error failure => .error failure
  | .ok (provider, model) =>
      if (registry.apiKeys provider).getD "" = "" then
        .error (.serviceUnavailable ("AI provider \"" ++ provider.text ++ "\" is not configured"))
      else .ok (registry.registered provider model)

variable {registry}

theorem languageModel_error {modelOverride : Option String} {failure : Failure}
    (h : registry.languageModel modelOverride = .error failure) : failure.isHttpException = true := by
  unfold languageModel at h
  cases haddress : registry.resolveAddress modelOverride with
  | error failure' =>
      rw [haddress] at h
      obtain rfl := Except.error.inj h
      unfold resolveAddress at haddress
      dsimp only at haddress
      split at haddress
      · split at haddress
        · obtain rfl := Except.error.inj haddress
          rfl
        · cases haddress
      · cases haddress
  | ok address =>
      rw [haddress] at h
      dsimp only at h
      split at h
      · obtain rfl := Except.error.inj h
        rfl
      · cases h

/-- A platform with the models of the registry; the rest of the platform is left as it is. -/
def on {OUTPUT Signal : Type} (registry : AiModelRegistry Model)
    (platform : AiPlatform OUTPUT Model Signal) : AiPlatform OUTPUT Model Signal :=
  { platform with languageModel := registry.languageModel }

end AiModelRegistry

/-! ### The prompt -/

/-- What the prompt is the JSON text of. -/
structure SeoPrompt where
  entityType : Json
  title : Option Json
  topics : Json
  text : Units
  sourceTruncated : Bool
  fields : Json
  current : List (SeoField × String)
  primaryKeyword : Option String
  hint : Option String

/-- `value?.trim() || undefined`. -/
def optionalTrim (value : Option Json) : Except Failure (Option String) :=
  match value with
  | none | some .null => .ok none
  | some (.str text) => .ok (SeoService.trimOrNull text)
  | some _ => .error (.internal .typeError)

/-- `SEO_FIELDS.filter(…).map(…)`. -/
def currentFields (current : Option Json) :
    List SeoField → Except Failure (List (SeoField × String))
  | [] => .ok []
  | field :: fields => do
      let value ← optionalTrim (get? current field.name)
      let values ← currentFields current fields
      return (value.map fun text => (field, text)).toList ++ values

/-- `buildPrompt`, before `JSON.stringify`. On a body that the pipe has not checked it may throw
anywhere, hence the outcome. -/
def buildPrompt (input : GenerateSeoMetadataBody) : Except Failure SeoPrompt :=
  match input.text with
  | some (.str text) => do
      let context := prepareSeoContext (Units.ofString text) 12000
      let current ← currentFields input.current SEO_FIELDS
      let primaryKeyword ← optionalTrim input.primaryKeyword
      let hint ← optionalTrim input.hint
      return {
        entityType := orElse input.entityType (.str "post")
        title := input.title
        topics := orElse input.topics (.arr [])
        text := context.text
        sourceTruncated := truthy input.sourceTruncated || context.sourceTruncated
        fields := orElse input.fields (requestedFields DEFAULT_SEO_FIELDS)
        current, primaryKeyword, hint }
  | _ => .error (.internal .typeError)

theorem optionalTrim_ok {value : Option Json} (h : IsOptionalText value) :
    ∃ trimmed, optionalTrim value = .ok trimmed := by
  rcases h with hnullish | ⟨text, rfl⟩
  · rcases isNullish_iff.1 hnullish with rfl | rfl
    · exact ⟨none, rfl⟩
    · exact ⟨none, rfl⟩
  · exact ⟨SeoService.trimOrNull text, rfl⟩

theorem currentFields_ok {current : Option Json}
    (h : ∀ field : SeoField, IsOptionalText (get? current field.name)) (fields : List SeoField) :
    ∃ values, currentFields current fields = .ok values := by
  induction fields with
  | nil => exact ⟨[], rfl⟩
  | cons field fields ih =>
      obtain ⟨value, hvalue⟩ := optionalTrim_ok (h field)
      obtain ⟨values, hvalues⟩ := ih
      rw [currentFields, hvalue, hvalues]
      exact ⟨_, rfl⟩

/-- The prompt of an accepted body exists: what `buildPrompt` trims and joins are texts, or missing.
-/
theorem buildPrompt_ok {input : GenerateSeoMetadataBody}
    (h : input.toSeoGenerationOptionsBody.IsProper) {text : String}
    (htext : input.text = some (.str text)) : ∃ prompt, buildPrompt input = .ok prompt := by
  obtain ⟨current, hcurrent⟩ := currentFields_ok h.current SEO_FIELDS
  obtain ⟨primaryKeyword, hkeyword⟩ := optionalTrim_ok h.primaryKeyword
  obtain ⟨hint, hhint⟩ := optionalTrim_ok h.hint
  unfold buildPrompt
  rw [htext, hcurrent, hkeyword, hhint]
  exact ⟨_, rfl⟩

/-! ### `AiService.generateSeoMetadata` -/

/-- `SeoGenerationResult`. -/
structure SeoGenerationResult where
  object : SeoMetadataResult
  warnings : Option (List String)

/-- How a generation is rejected: with what was thrown before the run, or with what the run made of
it. -/
inductive GenerationFailure
  | thrown (failure : Failure)
  | run (failure : RunFailure)

def RunFailure.isHttpException : RunFailure → Bool
  | .notConfigured failure => failure.isHttpException
  | .provider _ => true

def GenerationFailure.isHttpException : GenerationFailure → Bool
  | .thrown failure => failure.isHttpException
  | .run failure => failure.isHttpException

/-- `fields?.length === 0`. A missing list does not pass it, and neither does `null`, which the pipe
lets through. -/
def lengthIsZero : Option Json → Bool
  | some (.arr items) => items = []
  | some (.str text) => text = ""
  | some (.obj fields) => (Json.get "length" (.obj fields)).any (Json.eqNumber 0)
  | _ => false

namespace AiService

variable {Model Signal : Type} (registry : AiModelRegistry Model)
  (platform : AiPlatform SeoMetadataResult Model Signal)
  (responses : Nat → ProviderResponse SeoMetadataResult)

/-- `run`, for a prompt that may not come about: the model is looked for first. -/
def runPrompt (task : AiTask SeoPrompt SeoMetadataResult ObjectSchema)
    (prompt : Except Failure SeoPrompt) : Except GenerationFailure (Draft SeoMetadataResult) :=
  match platform.languageModel task.model, prompt with
  | .error failure, _ => .error (.run (.notConfigured failure))
  | .ok _, .error failure => .error (.thrown failure)
  | .ok _, .ok prompt => (run platform responses task prompt).1.mapError .run

/-- A run with the models of a registry is rejected by the registry or after a call, both of which
are answered with a declared status. -/
theorem run_failsAsDeclared {INPUT : Type} (task : AiTask INPUT SeoMetadataResult ObjectSchema)
    (input : INPUT) :
    FailsAsDeclared RunFailure.isHttpException
      (run (registry.on platform) responses task input).1 := by
  unfold run
  cases hmodel : (registry.on platform).languageModel task.model with
  | error failure => exact failsAsDeclared_error.2 (AiModelRegistry.languageModel_error hmodel)
  | ok model =>
      show FailsAsDeclared _ (settled (loop (registry.on platform) responses task input model).1)
      cases (loop (registry.on platform) responses task input model).1 with
      | returned draft => exact failsAsDeclared_ok draft
      | thrown error => exact failsAsDeclared_error.2 rfl
      | exhausted => exact failsAsDeclared_error.2 rfl

theorem runPrompt_failsAsDeclared (task : AiTask SeoPrompt SeoMetadataResult ObjectSchema)
    (prompt : SeoPrompt) :
    FailsAsDeclared GenerationFailure.isHttpException
      (runPrompt (registry.on platform) responses task (.ok prompt)) := by
  unfold runPrompt
  cases hmodel : (registry.on platform).languageModel task.model with
  | error failure => exact failsAsDeclared_error.2 (AiModelRegistry.languageModel_error hmodel)
  | ok model =>
      exact (failsAsDeclared_mapError fun _ => rfl).2
        (run_failsAsDeclared registry platform responses task prompt)

variable [Collation] [Collation.LowerCase] (system : String) (stringify : SeoPrompt → String)

/-- `generateSeoMetadata`, with the system prompt, `JSON.stringify` for prompts, and the answers of
the provider. -/
def generateSeoMetadata (input : GenerateSeoMetadataBody) :
    Except GenerationFailure SeoGenerationResult :=
  if lengthIsZero input.fields then .ok ⟨fun _ => none, none⟩
  else
    match seoMetadataTaskFor system stringify input.fields with
    | .error failure => .error (.thrown failure)
    | .ok task =>
        (runPrompt platform responses task (buildPrompt input)).map fun draft =>
          ⟨draft.object, if draft.warnings = [] then none else some draft.warnings⟩

/-- **A generation fails as declared unless `fields` is `null`.** -/
theorem generateSeoMetadata_spec {input : GenerateSeoMetadataBody}
    (h : input.toSeoGenerationOptionsBody.IsProper) {text : String}
    (htext : input.text = some (.str text)) :
    FailsAsDeclared GenerationFailure.isHttpException
        (generateSeoMetadata (registry.on platform) responses system stringify input) ↔
      input.fields ≠ some .null := by
  obtain ⟨prompt, hprompt⟩ := buildPrompt_ok h htext
  have hrun := runPrompt_failsAsDeclared registry platform responses
  rw [generateSeoMetadata, hprompt]
  rcases h.fields with hnullish | ⟨fields, hfields⟩
  · rcases isNullish_iff.1 hnullish with hnone | hnull
    · rw [hnone]
      exact iff_of_true ((hrun (seoMetadataTask system stringify) prompt).map _) (by simp)
    · rw [hnull]
      exact iff_of_false (fun hdeclared => Bool.false_ne_true (hdeclared _ rfl)) (by simp)
  · rw [hfields, seoMetadataTaskFor_requested]
    refine iff_of_true ?_ (by simp [requestedFields])
    split
    · exact failsAsDeclared_ok _
    · exact (hrun _ prompt).map _

end AiService

end VetHealth
