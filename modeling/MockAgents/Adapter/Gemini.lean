import MockAgents.Adapter.OpenAI

/-!
# Gemini

`POST /v1beta/models/{modelmethod}`: `HandleGenerate`. The last segment of the path holds the
model and the method. Only the name of the streaming method is looked at: with every other
name the handler answers with a whole generation.

An error envelope holds the status text where the OpenAI one holds the type.
-/

namespace MockAgents

/-- `GeminiFunctionResponse`; an empty response is the empty text, other ones are given by
    their JSON. -/
structure GeminiFunctionResponse where
  name : String := ""
  response : String := ""

/-- `GeminiPart` of a request. -/
structure GeminiInputPart where
  text : String := ""
  functionResponse : Option GeminiFunctionResponse := none

/-- `GeminiContent` of a request. -/
structure GeminiContent where
  role : String := ""
  parts : List GeminiInputPart := []

/-- `GeminiRequest`, with the fields that its handler reads. -/
structure GeminiRequest where
  contents : List GeminiContent := []
  systemInstruction : Option GeminiContent := none

def GeminiInputPart.texts (p : GeminiInputPart) : List String :=
  [p.text].filter (· ≠ "") ++
    match p.functionResponse with
    | some r => [r.name].filter (· ≠ "") ++ [r.response].filter (· ≠ "")
    | none => []

def joinGeminiParts (parts : List GeminiInputPart) : String :=
  " ".intercalate (parts.flatMap GeminiInputPart.texts)

def convertGeminiContents (contents : List GeminiContent) (system : Option GeminiContent) :
    List RequestMessage :=
  let prompt := (system.map fun c => joinGeminiParts c.parts).getD ""
  (if prompt = "" then [] else [⟨"system", prompt, 0⟩]) ++
    contents.map fun c =>
      ⟨if c.role = "model" then "assistant" else c.role, joinGeminiParts c.parts, 0⟩

def geminiStatusFor (code : Int) : String :=
  if code = 400 then "INVALID_ARGUMENT"
  else if code = 401 then "UNAUTHENTICATED"
  else if code = 403 then "PERMISSION_DENIED"
  else if code = 404 then "NOT_FOUND"
  else if code = 429 then "RESOURCE_EXHAUSTED"
  else if code = 503 then "UNAVAILABLE"
  else if code = 504 then "DEADLINE_EXCEEDED"
  else "INTERNAL"

def writeGeminiError {α : Type} (status : Int) (statusText message : String) : HttpAnswer α :=
  .error status none statusText "" message

/-- The answer to a body that `decodeJSONBody` did not accept. -/
def writeGeminiBodyError {α : Type} : BodyError → HttpAnswer α
  | .tooLarge => writeGeminiError 413 "INVALID_ARGUMENT" "request body too large"
  | .invalid message => writeGeminiError 400 "INVALID_ARGUMENT" ("invalid JSON: " ++ message)

/-- The answer to an error of the engine: the one of the OpenAI handlers with Gemini's status
    texts. -/
def writeGeminiEngineError {α : Type} (quote : String → String) (w : ResponseWriter)
    (err : EngineError) : HttpAnswer α :=
  match err, (writeEngineError quote w err : HttpAnswer α) with
  | .chaos ce, .error status retryAfter _ _ message =>
    if ce.connection ≠ "" then writeGeminiError 502 "UNAVAILABLE" message
    else .error status retryAfter (geminiStatusFor status) "" message
  | _, .error status _ _ _ message => writeGeminiError status (geminiStatusFor status) message
  | _, answer => answer

/-- `strings.Cut` at the first colon. -/
def cutColon (s : String) : Option (String × String) :=
  if ':' ∈ s.toList then
    some (String.ofList (s.toList.takeWhile (· ≠ ':')),
      String.ofList ((s.toList.dropWhile (· ≠ ':')).drop 1))
  else none

/-- A call of `HandleGenerate` with what it reads from outside. -/
structure GeminiCall (host : Host) where
  modelMethod : String
  altSSE : Bool := false
  tenantID : String := ""
  sessionHeader : String := ""
  writer : ResponseWriter := http1
  body : Except BodyError GeminiRequest
  env : RequestEnv host
  newSession : String

/-- What the answer is made of: a stream of the engine's response, or generations, one or in
    an array. -/
inductive GeminiBody where
  | streamed (resp : Response) (promptTokens candidateTokens : Int)
  | generation (modelVersion : String) (resp : GeminiResponse)
  | generations (modelVersion : String) (resp : List GeminiResponse)

namespace Engine

variable {host : Host} (lib : ChatLib) (toUpper : String → String) (defs : Definitions)

def writeGeneration (e : Engine host) (call : GeminiCall host) (model : String) (stream : Bool)
    (messages : List RequestMessage) (resp : Response) : HttpAnswer GeminiBody :=
  let headers := hallucinationHeader resp
  let promptTokens := sumMessageTokens messages
  let candidateTokens := estimateTokens (Bytes.ofString resp.content)
  if stream ∧ call.altSSE then
    if call.writer.flushes then
      .stream headers (.streamed resp promptTokens candidateTokens)
        (e.chatStreamConfig lib defs call.env.ord model call.tenantID)
    else .unwritten headers
  else
    let full := formatGeminiResponse toUpper resp promptTokens candidateTokens
    .json headers (if stream then .generations model [full] else .generation model full)

def handleGenerate (e : Engine host) (call : GeminiCall host) :
    Engine host × HttpAnswer GeminiBody :=
  let badPath := writeGeminiError 400 "INVALID_ARGUMENT"
    "path must be /v1beta/models/\x7bmodel\x7d:generateContent"
  match cutColon call.modelMethod with
  | none => (e, badPath)
  | some (model, method) =>
    if model = "" then (e, badPath)
    else
      let stream := method = "streamGenerateContent"
      match call.body with
      | .error err => (e, writeGeminiBodyError err)
      | .ok req =>
        if req.contents.isEmpty then
          (e, writeGeminiError 400 "INVALID_ARGUMENT" "contents is required and must not be empty")
        else
          let messages := convertGeminiContents req.contents req.systemInstruction
          let served := e.processRequestContext defs call.tenantID
            { model := model
              sessionID := extractSessionID call.sessionHeader call.newSession
              messages := messages } call.env
          match served.2.resp with
          | some resp =>
            (served.1, served.1.writeGeneration lib toUpper defs call model stream messages resp)
          | none =>
            -- the engine returns an error exactly if it returns no response
            (served.1, (served.2.err.map (writeGeminiEngineError lib.quote call.writer)).getD
              (.unwritten []))

end Engine

end MockAgents
