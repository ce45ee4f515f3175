import Mathlib.Data.Rat.Floor
import VetHealth.Js.Number

/-!
# VetHealth.Ai.Errors

**What a failed generation is answered with.** The provider's SDK throws errors of its own, and
wraps the errors of the network. `classify` maps an error to the status, the code and the message of
the answer; `toHttpException` looks under a `RetryError` first.
-/

namespace VetHealth

open Js

/-- `GENERATION_TIMEOUT_MS`. -/
def GENERATION_TIMEOUT_MS : Nat := 30000

/-- `MAX_RETRIES`. -/
def MAX_RETRIES : Nat := 1

/-- `MAX_CAUSE_DEPTH`. -/
def MAX_CAUSE_DEPTH : Nat := 3

/-! ### Thrown values -/

mutual

/-- A thrown value. `name` and `errors` are `none` when they are no text and no array. -/
inductive Thrown
  | primitive
  | object (kind : ThrownKind) (name : Option String) (cause : Option Thrown)
      (errors : Option (List Thrown))

/-- What the SDK's tests tell apart. -/
inductive ThrownKind
  | retryError (lastError : Thrown)
  | apiCallError (statusCode : Option Int) (responseHeaders : Option (List (String × String)))
  | noObjectGeneratedError
  | other

end

/-- `NoObjectGeneratedError.isInstance(error)`. -/
def Thrown.isNoObject : Thrown → Bool
  | .object .noObjectGeneratedError _ _ _ => true
  | _ => false

/-- `RetryError.isInstance(error) ? error.lastError : error`. -/
def Thrown.unwrapped : Thrown → Thrown
  | .object (.retryError lastError) _ _ _ => lastError
  | error => error

/-- `isAbortError`, with so many levels left to look at. -/
def isAbortErrorFrom : Nat → Thrown → Bool
  | 0, _ => false
  | _ + 1, .primitive => false
  | levels + 1, .object _ name cause errors =>
      name = some "TimeoutError" || name = some "AbortError" ||
        errors.any (fun errors => errors.any (isAbortErrorFrom levels)) ||
        cause.any (isAbortErrorFrom levels)

/-- `isAbortError(error)`: the depths from `0` to `MAX_CAUSE_DEPTH` are looked at. -/
def isAbortError (error : Thrown) : Bool := isAbortErrorFrom (MAX_CAUSE_DEPTH + 1) error

/-! ### Classes of errors -/

inductive AiErrorCode
  | NOT_CONFIGURED
  | KEY_REJECTED
  | RATE_LIMITED
  | PROVIDER_ERROR
  | INVALID_OUTPUT
  | GENERATION_FAILED
  | TIMEOUT
  deriving DecidableEq, Repr

/-- `AI_ERROR_CODES`. -/
def AiErrorCode.text : AiErrorCode → String
  | NOT_CONFIGURED => "AI_NOT_CONFIGURED"
  | KEY_REJECTED => "AI_KEY_REJECTED"
  | RATE_LIMITED => "AI_RATE_LIMITED"
  | PROVIDER_ERROR => "AI_PROVIDER_ERROR"
  | INVALID_OUTPUT => "AI_INVALID_OUTPUT"
  | GENERATION_FAILED => "AI_GENERATION_FAILED"
  | TIMEOUT => "AI_TIMEOUT"

structure AiErrorMapping where
  status : Nat
  errorCode : AiErrorCode
  message : String
  retryAfterSeconds : Option Int := none
  deriving DecidableEq, Repr

/-- The positive number that a header holds, divided, in whole seconds. -/
def wholeSeconds (perSecond : ℚ) (header : Option String) : Option Int :=
  (header.bind stringToNumber).bind fun value =>
    if 0 < value then (roundToDouble (value / perSecond)).map fun seconds => ⌈seconds⌉ else none

def retryAfterSecondsOf (responseHeaders : Option (List (String × String))) : Option Int :=
  let headers := responseHeaders.getD []
  (wholeSeconds 1000 (headers.lookup "retry-after-ms")).or
    (wholeSeconds 1 (headers.lookup "retry-after"))

/-- `classify`, without the text for the log. -/
def classify (cause : Thrown) : AiErrorMapping :=
  if isAbortError cause then
    { status := 504
      errorCode := .TIMEOUT
      message := "AI generation timed out" }
  else
    match cause with
    | .object (.apiCallError statusCode responseHeaders) _ _ _ =>
        if statusCode = some 401 || statusCode = some 403 then
          { status := 503
            errorCode := .KEY_REJECTED
            message := "AI provider rejected the API key" }
        else if statusCode = some 429 then
          { status := 429
            errorCode := .RATE_LIMITED
            message := "AI provider rate limit reached"
            retryAfterSeconds := retryAfterSecondsOf responseHeaders }
        else
          { status := 502
            errorCode := .PROVIDER_ERROR
            message := "AI provider request failed" }
    | .object .noObjectGeneratedError _ _ _ =>
        { status := 502
          errorCode := .INVALID_OUTPUT
          message := "AI generation failed" }
    | _ =>
        { status := 502
          errorCode := .GENERATION_FAILED
          message := "AI generation failed" }

/-- `AiProviderException`. -/
structure AiProviderException where
  message : String
  status : Nat
  retryAfterSeconds : Option Int
  cause : Thrown
  errorCode : AiErrorCode

def toHttpException (error : Thrown) : AiProviderException :=
  let mapping := classify error.unwrapped
  { message := mapping.message
    status := mapping.status
    retryAfterSeconds := mapping.retryAfterSeconds
    cause := error
    errorCode := mapping.errorCode }

end VetHealth
