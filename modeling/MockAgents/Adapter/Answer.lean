import Mathlib.Algebra.Ring.Int.Defs
import MockAgents.Engine.Engine
import MockAgents.Streaming.Chunker

/-!
# What an OpenAI-compatible handler writes

The error envelope of the OpenAI-compatible handlers, the faults of the chaos injector as
they put them on the wire, and the token estimate.

A handler writes to a `ResponseWriter`, which may or may not hand out its TCP connection
and may or may not flush. Response headers other than `Retry-After` and the two headers
on the answer are constants and are left out.
-/

namespace MockAgents

/-- The optional interfaces of an `http.ResponseWriter`: `http.Hijacker`, which HTTP/2
    connections lack, and `http.Flusher`. -/
structure ResponseWriter where
  hijacks : Bool := true
  flushes : Bool := true
  deriving DecidableEq

def http1 : ResponseWriter := {}

/-- The outcome of reading and decoding a request body that failed. -/
inductive BodyError where
  | tooLarge
  | invalid (message : String)
  deriving DecidableEq

/-- What a handler leaves on its writer: an error envelope, a TCP connection that was
    closed on it, a JSON body, a stream of events, or nothing. -/
inductive HttpAnswer (α : Type) where
  | error (status : Int) (retryAfter : Option Int) (errType code message : String)
  | fault (mode : String)
  | json (headers : List (String × String)) (body : α)
  | stream (headers : List (String × String)) (body : α) (cfg : Option StreamingConfig)
  | unwritten (headers : List (String × String))

/-- The answer carries a response of the engine. -/
def HttpAnswer.isOk {α : Type} : HttpAnswer α → Bool
  | .json .. | .stream .. => true
  | _ => false

def writeError {α : Type} (status : Int) (errType message : String) : HttpAnswer α :=
  .error status none errType "" message

/-- The answer to a body that `decodeJSONBody` did not accept. -/
def writeBodyError {α : Type} : BodyError → HttpAnswer α
  | .tooLarge => writeError 413 "invalid_request_error" "request body too large"
  | .invalid message => writeError 400 "invalid_request_error" ("invalid JSON: " ++ message)

/-- `connectionFault`, with the answer given when the connection cannot be hijacked. -/
def connectionFault {α : Type} (w : ResponseWriter) (mode : String) : HttpAnswer α :=
  if w.hijacks then .fault mode
  else writeError 502 "server_error" "connection fault could not be delivered"

/-- `openAIChaosError`: the type and the code for a status. -/
def openAIChaosError (status : Int) : String × String :=
  if status = 401 then ("invalid_request_error", "invalid_api_key")
  else if status = 429 then ("requests", "rate_limit_exceeded")
  else if status ≥ 500 then ("server_error", "")
  else ("invalid_request_error", "")

/-- `chaosRetryAfter`, in whole seconds. -/
def chaosRetryAfter (ce : ChaosError) : Option Int :=
  -- the duration of a timeout is no hint to retry
  if ce.timeout then none
  else if ce.retryAfter > 0 then some ((ce.retryAfter + 999999999) / 1000000000)
  else if ce.statusCode = 429 then some 1
  else none

def RenderError.text : RenderError → String
  | .parsing message => "parsing template: " ++ message
  | .executing message => "executing template: " ++ message

/-- The answer to an engine error with the given text. -/
def writeErrorText {α : Type} (text : String) : HttpAnswer α :=
  let status :=
    if hasSubstr text "not found" then 404 else if hasSubstr text "empty" then 400 else 500
  writeError status "invalid_request_error" text

/-- The answer to an error of `ProcessRequestContext`. `quote` is Go's `%q`. -/
def writeEngineError {α : Type} (quote : String → String) (w : ResponseWriter) :
    EngineError → HttpAnswer α
  | .chaos ce =>
    if ce.connection ≠ "" then connectionFault w ce.connection
    else
      let (errType, code) := openAIChaosError ce.statusCode
      .error ce.statusCode (chaosRetryAfter ce) errType code ce.message
  | .agentNotFound identifier available =>
    writeErrorText ("agent not found: " ++ quote identifier ++ " (available: [" ++
      " ".intercalate available ++ "])")
  | .context message => writeErrorText message
  | .emptyMessage => writeErrorText "empty user message"
  | .generating agent err =>
    writeErrorText ("generating response for agent " ++ quote agent ++
      ": rendering scenario " ++ quote err.scenario ++ " content: " ++ err.cause.text)

theorem writeEngineError_isOk {α : Type} (quote : String → String) (w : ResponseWriter)
    (err : EngineError) : (writeEngineError quote w err : HttpAnswer α).isOk = false := by
  cases err with
  | chaos ce =>
    simp only [writeEngineError, connectionFault]
    split
    · split <;> rfl
    · rfl
  | _ => rfl

def anthropicChaosErrorType (status : Int) : String :=
  if status = 400 then "invalid_request_error"
  else if status = 401 then "authentication_error"
  else if status = 403 then "permission_error"
  else if status = 404 then "not_found_error"
  else if status = 413 then "request_too_large"
  else if status = 429 then "rate_limit_error"
  else if status = 503 ∨ status = 529 then "overloaded_error"
  else "api_error"

/-- The answer of the Anthropic handler, which differs in the types for injected faults. -/
def writeAnthropicEngineError {α : Type} (quote : String → String) (w : ResponseWriter)
    (err : EngineError) : HttpAnswer α :=
  match err, (writeEngineError quote w err : HttpAnswer α) with
  | .chaos ce, .error status retryAfter _ _ message =>
    let errType := if ce.connection ≠ "" then "api_error" else anthropicChaosErrorType status
    .error status retryAfter errType "" message
  | _, answer => answer

/-- The status with which `handleProcessRequest` answers an error of the engine. -/
def processErrorStatus : EngineError → Int
  | .agentNotFound .. => 404
  | .emptyMessage => 400
  | _ => 500

/-! ## Headers and tokens -/

/-- `setHallucinationHeader`. -/
def hallucinationHeader (resp : Response) : List (String × String) :=
  match resp.hallucination with
  | none => []
  | some h => [("X-Mockagents-Hallucination", if h.type = "" then "true" else h.type)]

/-- The number of words that `EstimateTokens` counts, `inWord` inside a word. Separators
    are single bytes, so the bytes of a character count as the character does. -/
def wordCount : (inWord : Bool) → Bytes → Nat
  | _, [] => 0
  | inWord, b :: rest =>
    if b = 32 ∨ b = 10 ∨ b = 9 ∨ b = 13 then wordCount false rest
    else if inWord then wordCount true rest
    else wordCount true rest + 1

/-- `EstimateTokens`. The product of a word count below `2 ^ 49` with the double nearest
    to 1.3 has the integer part of the exact product. -/
def estimateTokens (text : Bytes) : Int :=
  let words := wordCount false text
  let tokens := words * 13 / 10
  if tokens = 0 ∧ words > 0 then 1 else tokens

def sumMessageTokens (msgs : List RequestMessage) : Int :=
  (msgs.map fun m => estimateTokens (Bytes.ofString m.content)).sum

end MockAgents
