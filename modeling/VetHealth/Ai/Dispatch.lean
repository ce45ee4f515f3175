import VetHealth.Ai.SeoGeneration
import VetHealth.Files.Config

/-!
# VetHealth.Ai.Dispatch

**Which provider a generation goes to.** `AI_PROVIDER`, `AI_MODEL` and the model that a task asks for
are read into an address, the key of its provider is looked for, and the SDK gets the address back as
one text, which it takes apart again at the first colon. The SDK is a package: what the registry
relies on is the law of `ProviderRegistry`.

A model may have colons in its name. The provider that the SDK reads is nevertheless the one whose key
was looked for, and an address that is written in full leads to the same calls in every environment
with the same keys (`generation_dispatched`).
-/

namespace VetHealth

open Js

/-! ### The configuration `ai` -/

/-- The variables of `process.env` that concern the AI. -/
structure AiEnv where
  AI_PROVIDER : Option String := none
  AI_MODEL : Option String := none
  ANTHROPIC_API_KEY : Option String := none
  OPENAI_API_KEY : Option String := none
  GOOGLE_GENERATIVE_AI_API_KEY : Option String := none

namespace AiEnv

variable (env : AiEnv)

/-- The checks of the variables. An empty `AI_PROVIDER` is not checked. -/
def properties : List Property :=
  let string := fun name value =>
    EnvironmentVariablesValidator.optional name value (fun _ => true) " must be a string"
  [⟨"AI_PROVIDER", (truthyText env.AI_PROVIDER).isNone,
      [(env.AI_PROVIDER.any fun text => (AiProvider.ofText text).isSome,
        "AI_PROVIDER must be one of the following values: anthropic, openai, google")]⟩,
    string "AI_MODEL" env.AI_MODEL,
    string "ANTHROPIC_API_KEY" env.ANTHROPIC_API_KEY,
    string "OPENAI_API_KEY" env.OPENAI_API_KEY,
    string "GOOGLE_GENERATIVE_AI_API_KEY" env.GOOGLE_GENERATIVE_AI_API_KEY]

/-- The key for a provider. -/
def apiKey : AiProvider → Option String
  | .anthropic => env.ANTHROPIC_API_KEY
  | .openai => env.OPENAI_API_KEY
  | .google => env.GOOGLE_GENERATIVE_AI_API_KEY

end AiEnv

structure AiConfig where
  provider : AiProvider
  model : Option String
  anthropicApiKey : Option String
  openaiApiKey : Option String
  googleApiKey : Option String

/-- The configuration `ai`, or the messages that stop the start of the backend. -/
def aiConfig (env : AiEnv) : Except ConfigError AiConfig :=
  let errors := validate env.properties
  if errors ≠ [] then .error (.invalid (errors.map ValidationError.property))
  else .ok {
    provider := ((truthyText env.AI_PROVIDER).bind AiProvider.ofText).getD .anthropic
    model := env.AI_MODEL
    anthropicApiKey := env.ANTHROPIC_API_KEY
    openaiApiKey := env.OPENAI_API_KEY
    googleApiKey := env.GOOGLE_GENERATIVE_AI_API_KEY }

theorem aiConfig_eq_ok {env : AiEnv} {config : AiConfig} (h : aiConfig env = .ok config) :
    config.model = env.AI_MODEL ∧ config.anthropicApiKey = env.ANTHROPIC_API_KEY ∧
      config.openaiApiKey = env.OPENAI_API_KEY ∧
      config.googleApiKey = env.GOOGLE_GENERATIVE_AI_API_KEY := by
  unfold aiConfig at h
  dsimp only at h
  split at h
  · cases h
  · obtain rfl := Except.ok.inj h
    exact ⟨rfl, rfl, rfl, rfl⟩

/-! ### Addresses -/

/-- The registry of the SDK. It is not part of the repository, which relies on one fact about it: an
id is a provider and a model with the separator between them, and only the first separator counts, so
that the name of a model may have colons of its own. -/
class ProviderRegistry where
  /-- The provider and the model of an id. -/
  splitId : String → Option (String × String)
  splitId_first : ∀ provider model : String, ':' ∉ provider.toList →
    splitId (provider ++ ":" ++ model) = some (provider, model)

namespace AiModelRegistry

/-- The id that the SDK's registry gets: `provider:model`. It is written by one side and read by the
other, hence the two lemmas on how it is read. -/
def modelId (provider : AiProvider) (model : String) : String := provider.text ++ ":" ++ model

/-- `apiKeys` and `getRegistry`: the keys of the configuration, and a model for each id. A model
stands for the id it is found under. -/
def ofConfig (config : AiConfig) : AiModelRegistry String where
  provider := config.provider
  model := config.model
  apiKeys
    | .anthropic => config.anthropicApiKey
    | .openai => config.openaiApiKey
    | .google => config.googleApiKey
  registered := modelId

theorem apiKeys_ofConfig {env : AiEnv} {config : AiConfig} (h : aiConfig env = .ok config)
    (provider : AiProvider) : (ofConfig config).apiKeys provider = env.apiKey provider := by
  obtain ⟨-, hanthropic, hopenai, hgoogle⟩ := aiConfig_eq_ok h
  cases provider with
  | anthropic => exact hanthropic
  | openai => exact hopenai
  | google => exact hgoogle

theorem ofText_text (provider : AiProvider) : AiProvider.ofText provider.text = some provider := by
  cases provider <;> decide

theorem colon_not_mem_text (provider : AiProvider) : ':' ∉ provider.text.toList := by
  cases provider <;> decide

theorem toList_modelId (provider : AiProvider) (model : String) :
    (modelId provider model).toList = provider.text.toList ++ ':' :: model.toList := by
  simp [modelId]

section

variable [ProviderRegistry]

/-- How the SDK reads an id: a provider that it was given, and a model of it. What it does with
other ids does not matter here, since none is written. -/
def readModelId (id : String) : Option (AiProvider × String) :=
  (ProviderRegistry.splitId id).bind fun (provider, model) =>
    (AiProvider.ofText provider).map fun provider => (provider, model)

/-- What the SDK reads is what was written, colons of the model included: none of the three providers
has one in its name. -/
theorem readModelId_modelId (provider : AiProvider) (model : String) :
    readModelId (modelId provider model) = some (provider, model) := by
  rw [readModelId, modelId, ProviderRegistry.splitId_first _ _ (colon_not_mem_text provider),
    Option.bind_some]
  dsimp only
  rw [ofText_text, Option.map_some]

end

variable {Model : Type} {registry : AiModelRegistry Model}

/-- A resolved address names a model: an empty one, after a prefix too, gives way to the default of
the provider. -/
theorem model_ne_empty {modelOverride : Option String} {provider : AiProvider} {model : String}
    (h : registry.resolveAddress modelOverride = .ok (provider, model)) : model ≠ "" := by
  have hdefault : ∀ provider, DEFAULT_MODELS provider ≠ "" := by
    intro provider
    cases provider <;> decide
  unfold resolveAddress at h
  dsimp only at h
  split at h
  · split at h
    · cases h
    · next hprovider =>
        obtain ⟨rfl, rfl⟩ := Prod.mk.inj (Except.ok.inj h)
        split
        · exact hdefault _
        · next hne => exact hne
  · obtain ⟨rfl, rfl⟩ := Prod.mk.inj (Except.ok.inj h)
    split
    · exact hdefault _
    · next hne => simpa using hne

/-- `modelOverride || ai.model`, when it is not empty: the address that is resolved. -/
def address (registry : AiModelRegistry Model) (modelOverride : Option String) : Option String :=
  firstText modelOverride (firstText registry.model none)

/-- An address that is written in full means the same in every configuration. -/
theorem resolveAddress_modelId {modelOverride : Option String} {provider : AiProvider} {model : String}
    (hmodel : model ≠ "") (haddress : registry.address modelOverride = some (modelId provider model)) :
    registry.resolveAddress modelOverride = .ok (provider, model) := by
  have hsplit : (modelId provider model).toList.splitOn ':' =
      provider.text.toList :: model.toList.splitOn ':' := by
    rw [toList_modelId]
    exact List.splitOn_append_cons_self_of_not_mem (colon_not_mem_text provider) _
  obtain ⟨part, parts, hparts⟩ := List.exists_cons_of_ne_nil (List.splitOn_ne_nil ':' model.toList)
  unfold resolveAddress
  rw [← address, haddress, Option.getD_some]
  dsimp only
  rw [hsplit, hparts]
  dsimp only
  rw [String.ofList_toList, ofText_text, ← hparts]
  dsimp only
  rw [List.intercalate_splitOn, String.ofList_toList, if_neg hmodel]

/-- When a model is found: its address resolves, and there is a key for the provider that the
address names. -/
theorem languageModel_eq_ok {modelOverride : Option String} {found : Model} :
    registry.languageModel modelOverride = .ok found ↔
      ∃ provider model, registry.resolveAddress modelOverride = .ok (provider, model) ∧
        (registry.apiKeys provider).getD "" ≠ "" ∧ registry.registered provider model = found := by
  unfold languageModel
  cases haddress : registry.resolveAddress modelOverride with
  | error failure => simp
  | ok resolved =>
      obtain ⟨provider, model⟩ := resolved
      dsimp only
      constructor
      · intro h
        split at h
        · cases h
        · next hkey => exact ⟨provider, model, rfl, hkey, Except.ok.inj h⟩
      · rintro ⟨_, _, heq, hkey, hfound⟩
        obtain ⟨rfl, rfl⟩ := Prod.mk.inj (Except.ok.inj heq)
        rw [if_neg hkey, hfound]

theorem resolveAddress_eq_error {modelOverride : Option String} {failure : Failure}
    (h : registry.resolveAddress modelOverride = .error failure) :
    ∃ message, failure = .serviceUnavailable message := by
  unfold resolveAddress at h
  dsimp only at h
  split at h
  · split at h
    · exact ⟨_, (Except.error.inj h).symm⟩
    · cases h
  · cases h

/-- When none is found: the address does not resolve, or there is no key. Either is declared as
unavailable. -/
theorem languageModel_eq_error {modelOverride : Option String} {failure : Failure}
    (h : registry.languageModel modelOverride = .error failure) :
    (∃ message, failure = .serviceUnavailable message) ∧
      ∀ provider model, registry.resolveAddress modelOverride = .ok (provider, model) →
        (registry.apiKeys provider).getD "" = "" := by
  unfold languageModel at h
  cases haddress : registry.resolveAddress modelOverride with
  | error failure' =>
      rw [haddress] at h
      obtain rfl := Except.error.inj h
      exact ⟨resolveAddress_eq_error haddress, fun _ _ heq => by cases heq⟩
  | ok resolved =>
      rw [haddress] at h
      dsimp only at h
      split at h
      · next hkey =>
          refine ⟨⟨_, (Except.error.inj h).symm⟩, fun provider model heq => ?_⟩
          obtain rfl := Except.ok.inj heq
          exact hkey
      · cases h

end AiModelRegistry

/-! ### Generations -/

open AiModelRegistry

namespace AiService

variable {INPUT OUTPUT Schema Model Signal : Type} {platform platform' : AiPlatform OUTPUT Model Signal}
  {responses : Nat → ProviderResponse OUTPUT} {task : AiTask INPUT OUTPUT Schema} {input : INPUT}

theorem run_of_error {failure : Failure} (h : platform.languageModel task.model = .error failure) :
    run platform responses task input = (.error (.notConfigured failure), []) := by
  rw [run, h]

theorem run_of_ok {model : Model} (h : platform.languageModel task.model = .ok model) :
    run platform responses task input =
      (settled (loop platform responses task input model).1,
        (loop platform responses task input model).2) := by
  rw [run, h]

/-- What is done with a model that is found does not depend on how the task named it: by itself or
through the configuration. -/
theorem run_override {modelOverride : Option String} {model : Model}
    (h : platform.languageModel task.model = .ok model)
    (h' : platform'.languageModel modelOverride = .ok model)
    (hsame : { platform' with languageModel := platform.languageModel } = platform) :
    run platform' responses { task with model := modelOverride } input =
      run platform responses task input := by
  have htask : platform'.languageModel ({ task with model := modelOverride } : AiTask _ _ _).model =
      .ok model := h'
  rw [run_of_ok htask, run_of_ok h, ← hsame]
  rfl

/-- A run that has a model makes a call, and every call is for that model: the second attempt does
not look for another one. -/
theorem calls_of_ok {model : Model} (h : platform.languageModel task.model = .ok model) :
    (run platform responses task input).2 ≠ [] ∧
      ∀ call ∈ (run platform responses task input).2, call.model = model := by
  have hcourse : Course task responses (loop platform responses task input model).1
      (loop platform responses task input model).2.length := attempts_course
  rw [run_of_ok h]
  refine ⟨fun hnone => ?_, fun call hcall => ?_⟩
  · have hzero := congrArg List.length hnone
    rcases hcourse.spec.1 with hone | ⟨htwo, -⟩
    · rw [hone] at hzero
      cases hzero
    · rw [htwo] at hzero
      cases hzero
  · obtain ⟨correction, rfl⟩ := (mem_attempts [0, 1] "" none [] hcall).resolve_left List.not_mem_nil
    rfl

end AiService

variable {INPUT OUTPUT Schema Signal : Type}

/-- **A generation goes to the provider whose key was looked for.** Without a key, or with the prefix of
an unknown provider, nobody is called and the answer is 503. Otherwise every call goes to the provider
and the model of the address, and writing the address in full, for the task or in `AI_MODEL`, leads to
the same calls and the same answer in every environment with the same keys. -/
theorem generation_dispatched [ProviderRegistry] {env : AiEnv} {config : AiConfig} (hconfig : aiConfig env = .ok config)
    (platform : AiPlatform OUTPUT String Signal) (responses : Nat → ProviderResponse OUTPUT)
    (task : AiTask INPUT OUTPUT Schema) (input : INPUT) :
    let registry := ofConfig config
    let answer := AiService.run (registry.on platform) responses task input
    (answer.2 = [] ∧ (∃ message, answer.1 = .error (.notConfigured (.serviceUnavailable message))) ∧
        ∀ provider model, registry.resolveAddress task.model = .ok (provider, model) →
          (env.apiKey provider).getD "" = "") ∨
      ∃ provider model, registry.resolveAddress task.model = .ok (provider, model) ∧ model ≠ "" ∧
        (env.apiKey provider).getD "" ≠ "" ∧ answer.2 ≠ [] ∧
        (∀ call ∈ answer.2, readModelId call.model = some (provider, model)) ∧
        ∀ env' config' modelOverride, aiConfig env' = .ok config' → env'.apiKey = env.apiKey →
          (ofConfig config').address modelOverride = some (modelId provider model) →
            AiService.run ((ofConfig config').on platform) responses
              { task with model := modelOverride } input = answer := by
  intro registry answer
  cases hmodel : registry.languageModel task.model with
  -- No model: nothing was called, and the key is missing for whatever the address names.
  | error failure =>
      obtain ⟨⟨message, rfl⟩, hkeys⟩ := languageModel_eq_error hmodel
      have hrun : answer = (.error (.notConfigured (.serviceUnavailable message)), []) :=
        AiService.run_of_error hmodel
      refine Or.inl ⟨by rw [hrun], ⟨message, by rw [hrun]⟩, fun provider model haddress => ?_⟩
      rw [← apiKeys_ofConfig hconfig]
      exact hkeys provider model haddress
  | ok id =>
      -- A model is an id that has been put together from the resolved address, so that the registry
      -- reads the address back from it.
      obtain ⟨provider, model, haddress, hkey, rfl⟩ := languageModel_eq_ok.1 hmodel
      have hne := model_ne_empty haddress
      obtain ⟨hcalls, hid⟩ : answer.2 ≠ [] ∧ ∀ call ∈ answer.2, call.model = modelId provider model :=
        AiService.calls_of_ok hmodel
      rw [apiKeys_ofConfig hconfig] at hkey
      refine Or.inr ⟨provider, model, haddress, hne, hkey, hcalls, fun call hcall => ?_, ?_⟩
      · rw [hid call hcall]
        exact readModelId_modelId provider model
      -- Another configuration with the same keys resolves the full address alike, whatever provider
      -- it has as its default.
      · intro env' config' modelOverride hconfig' hkeys hfull
        refine AiService.run_override hmodel (languageModel_eq_ok.2 ⟨provider, model, ?_, ?_, rfl⟩) rfl
        · exact resolveAddress_modelId hne hfull
        · rwa [apiKeys_ofConfig hconfig', hkeys]

/-- The registry that looks for the separator with `indexOf`. -/
@[reducible] def ProviderRegistry.indexing : ProviderRegistry where
  splitId id :=
    match cutAt (· = ':') id.toList with
    | (provider, some model) => some (.ofList provider, .ofList model)
    | (_, none) => none
  splitId_first provider model hprovider := by
    have hall : ∀ c ∈ provider.toList, (!decide (c = ':')) = true := by
      intro c hc
      have hne : c ≠ ':' := fun heq => hprovider (heq ▸ hc)
      simp [hne]
    have hcut : cutAt (· = ':') (provider ++ ":" ++ model).toList =
        (provider.toList, some model.toList) := by
      have happend : (provider ++ ":" ++ model).toList = provider.toList ++ ':' :: model.toList := by
        simp
      rw [happend, cutAt, List.span_eq_takeWhile_dropWhile, List.takeWhile_append_of_pos hall,
        List.dropWhile_append_of_pos hall]
      simp
    rw [hcut]
    dsimp only
    rw [String.ofList_toList, String.ofList_toList]

section

attribute [local instance] ProviderRegistry.indexing

/-- A model of Google's with a colon in its name, while `AI_PROVIDER` says `openai`. -/
def tunedEnv : AiEnv where
  AI_PROVIDER := some "openai"
  AI_MODEL := some "google:tuned:7"
  GOOGLE_GENERATIVE_AI_API_KEY := some "key"

/-- Only the key is set. -/
def keyEnv : AiEnv := { tunedEnv with AI_PROVIDER := none, AI_MODEL := none }

/-- The calls go to Google. They do when `AI_MODEL` is left out and the task gives the address, too. -/
theorem tuned_model_dispatched :
    ∃ config, aiConfig tunedEnv = .ok config ∧
      (∀ call ∈ (AiService.run ((ofConfig config).on AiService.desk) AiService.longThenDown
          AiService.titles "Cats").2, readModelId call.model = some (.google, "tuned:7")) ∧
      ∃ config', aiConfig keyEnv = .ok config' ∧
        AiService.run ((ofConfig config').on AiService.desk) AiService.longThenDown
            { AiService.titles with model := some "google:tuned:7" } "Cats" =
          AiService.run ((ofConfig config).on AiService.desk) AiService.longThenDown
            AiService.titles "Cats" := by
  have hconfig : ∃ config, aiConfig tunedEnv = .ok config := ⟨_, rfl⟩
  obtain ⟨config, hconfig⟩ := hconfig
  have haddress : (ofConfig config).resolveAddress none = .ok (.google, "tuned:7") := by
    obtain rfl := Except.ok.inj hconfig
    decide +kernel
  refine ⟨config, hconfig, ?_⟩
  rcases generation_dispatched hconfig AiService.desk AiService.longThenDown AiService.titles "Cats" with
    ⟨-, -, hkeys⟩ | ⟨provider, model, hresolved, -, -, -, hcalls, hfull⟩
  · exact absurd (hkeys .google "tuned:7" haddress) (by decide)
  · obtain ⟨rfl, rfl⟩ := Prod.mk.inj (Except.ok.inj (haddress.symm.trans hresolved))
    exact ⟨hcalls, _, rfl, hfull keyEnv _ (some "google:tuned:7") rfl rfl (by decide)⟩

end

end VetHealth
