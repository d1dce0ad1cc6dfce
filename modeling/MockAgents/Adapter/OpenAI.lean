import MockAgents.Adapter.Decode
import MockAgents.Adapter.Responses

/-!
# Chat Completions

`POST /v1/chat/completions`: `HandleChatCompletions`, with the flattening of message
contents and the `response_format` that is applied to the engine's response. The synthesis
of a text from a JSON schema is a parameter.
-/

namespace MockAgents

open Bytes (ofString)

/-! ## Messages -/

/-- An item of a content array: an object with the strings under `type` and `text`, if they
    are strings, or something else. -/
inductive ContentItem where
  | object (type text : Option String)
  | other

/-- The `content` of a message. What is neither a string nor an array is given by the text
    that `fmt` prints for it. -/
inductive MessageContent where
  | text (s : String)
  | items (items : List ContentItem)
  | null
  | other (printed : String)

/-- `OpenAIMessage` in a request, without its tool calls. -/
structure OpenAIInputMessage where
  role : String := ""
  content : MessageContent := .null

def extractStringContent : MessageContent → String
  | .text s => s
  | .items items => " ".intercalate (items.filterMap fun
      | .object _ text => text
      | .other => none)
  | .null => ""
  | .other printed => printed

def extractStringContentWithImages : MessageContent → String × Nat
  | .items items =>
    (" ".intercalate (items.filterMap fun
        | .object (some "text") text => text
        | _ => none),
      items.countP fun
        | .object (some "image_url") _ => true
        | _ => false)
  | content => (extractStringContent content, 0)

def convertOpenAIMessages (msgs : List OpenAIInputMessage) : List RequestMessage × Nat :=
  (msgs.map fun m =>
      let (content, images) := extractStringContentWithImages m.content
      ⟨m.role, content, images⟩,
    (msgs.map fun m => (extractStringContentWithImages m.content).2).sum)

/-- `setImageCountHeader`. -/
def imageCountHeader (imageCount : Nat) : List (String × String) :=
  if imageCount = 0 then [] else [("X-Mockagents-Image-Count", toString imageCount)]

/-! ## Response formats -/

/-- `ResponseFormat`, with the schema of its `json_schema`. -/
structure ResponseFormat where
  type : String
  schema : Option Json := none

/-- Well-formed JSON that starts with this bracket, apart from white space. -/
def isJSONWith (bracket : UInt8) (s : String) : Bool :=
  let text := Bytes.trimSpace (ofString s)
  text.head? = some bracket && Json.valid text

def isJSONObject (s : String) : Bool := isJSONWith 123 s

def isJSONArray (s : String) : Bool := isJSONWith 91 s

def strings (items : List Json) : List Bytes := items.filterMap Json.text?

def typeOf (schema : Json) : Bytes :=
  match schema.field "type" with
  | some (.str t) => t
  | some (.arr items) =>
    ((strings items).find? (· ≠ ofString "null")).getD (ofString "null")
  | _ =>
    if (schema.field "properties").isSome then ofString "object"
    else if (schema.field "items").isSome then ofString "array"
    else []

def contentMatchesRoot (s : String) (schema : Json) : Bool :=
  (s ≠ "" && Json.valid (ofString s)) &&
    (if typeOf schema = ofString "object" then isJSONObject s
    else if typeOf schema = ofString "array" then isJSONArray s
    else true)

def refuse (resp : Response) : Response :=
  { resp with
    content := ""
    finishReason := if resp.finishReason = "" then "content_filter" else resp.finishReason }

/-- `applyResponseFormat`, with `SynthesizeFromSchema`. -/
def applyResponseFormat (synthesize : Json → String) (rf : Option ResponseFormat)
    (resp : Response) : Response :=
  match rf with
  | none => resp
  | some rf =>
    if rf.type = "json_object" then
      if resp.toolCalls ≠ [] then resp
      else if resp.refusal ≠ "" then refuse resp
      else if isJSONObject resp.content then resp
      else { resp with content := "\x7b\x7d" }
    else if rf.type = "json_schema" then
      let schema := rf.schema.getD (.obj [])
      if resp.toolCalls ≠ [] then resp
      else if resp.refusal ≠ "" then refuse resp
      else if contentMatchesRoot resp.content schema then resp
      else { resp with content := synthesize schema }
    else resp

/-! ## Requests -/

/-- `ChatCompletionRequest`, with the fields that its handler reads. -/
structure ChatCompletionRequest where
  model : String := ""
  messages : List OpenAIInputMessage := []
  stream : Bool := false
  responseFormat : Option ResponseFormat := none

/-- The fields of a `ChatCompletionRequest` other than `stream`. -/
inductive ChatField where
  | model | messages | tools | toolChoice | temperature | maxTokens | responseFormat
  deriving DecidableEq

namespace ChatField

def all : List ChatField :=
  [model, messages, tools, toolChoice, temperature, maxTokens, responseFormat]

def tag : ChatField → String
  | model => "model"
  | messages => "messages"
  | tools => "tools"
  | toolChoice => "tool_choice"
  | temperature => "temperature"
  | maxTokens => "max_tokens"
  | responseFormat => "response_format"

/-- What is kept of a field. Of those that the handler does not read, nothing is. -/
def Val : ChatField → Type
  | model => String
  | messages => List OpenAIInputMessage
  | responseFormat => Option ResponseFormat
  | _ => Unit

def zero : (f : ChatField) → f.Val
  | model => ""
  | messages => []
  | responseFormat => none
  | tools | toolChoice | temperature | maxTokens => ()

end ChatField

/-- `ChatCompletionRequest` as a request type. -/
def chatType (codec : FieldCodec ChatField.Val) : RequestType where
  Field := ChatField
  decEq := inferInstance
  all := ChatField.all
  tag := ChatField.tag
  Val := ChatField.Val
  zero := ChatField.zero
  codec := codec

def ChatCompletionRequest.ofState {codec : FieldCodec ChatField.Val}
    (st : (chatType codec).struct.State) : ChatCompletionRequest where
  model := st (some ChatField.model)
  messages := st (some ChatField.messages)
  stream := st none
  responseFormat := st (some ChatField.responseFormat)

/-! ## The handler -/

/-- What the handler reads besides the engine. -/
structure ChatLib extends AdapterLib where
  synthesize : Json → String

/-- A `POST /v1/chat/completions` with what its handler reads from outside. -/
structure ChatCall (host : Host) where
  tenantID : String := ""
  sessionHeader : String := ""
  writer : ResponseWriter := http1
  body : Except BodyError ChatCompletionRequest
  env : RequestEnv host
  newSession : String
  newID : String
  now : Int := 0

/-- `extractSessionID`, with the header and what `generateID` draws. -/
def extractSessionID (header newID : String) : String :=
  if header ≠ "" then header else "sess-" ++ newID

/-- What the answer is made of: the engine's response, which is streamed, or the object. -/
inductive ChatBody where
  | streamed (resp : Response)
  | completion (resp : ChatCompletionResponse)

namespace Engine

variable {host : Host} (lib : ChatLib) (defs : Definitions)

/-- The streaming section of the agent that the model, or the lack of a choice, selects. -/
def chatStreamConfig (e : Engine host) (ord : MapOrder) (model tenantID : String) :
    Option StreamingConfig :=
  let agent := (e.registry.getByModelForTenant model tenantID).or
    (match e.registry.listForTenant defs ord tenantID with
    | [p] => some p
    | _ => none)
  agent.bind lib.streaming

/-- The answer with the engine's response. A writer that cannot flush gets no stream. -/
def writeChatCompletion (e : Engine host) (call : ChatCall host) (req : ChatCompletionRequest)
    (resp : Response) : HttpAnswer ChatBody :=
  let (messages, imageCount) := convertOpenAIMessages req.messages
  let headers := hallucinationHeader resp ++ imageCountHeader imageCount
  let resp := applyResponseFormat lib.synthesize req.responseFormat resp
  if req.stream then
    if call.writer.flushes then
      .stream headers (.streamed resp)
        (e.chatStreamConfig lib defs call.env.ord req.model call.tenantID)
    else .unwritten headers
  else
    .json headers (.completion (formatOpenAIResponse call.newID call.now lib.marshal resp
      (sumMessageTokens messages) (estimateTokens (ofString resp.content))))

def handleChatCompletions (e : Engine host) (call : ChatCall host) :
    Engine host × HttpAnswer ChatBody :=
  match call.body with
  | .error err => (e, writeBodyError err)
  | .ok req =>
    if req.model = "" then (e, writeError 400 "invalid_request_error" "model is required")
    else if req.messages = [] then
      (e, writeError 400 "invalid_request_error"
        "messages array is required and must not be empty")
    else
      let served := e.processRequestContext defs call.tenantID
        { model := req.model
          sessionID := extractSessionID call.sessionHeader call.newSession
          messages := (convertOpenAIMessages req.messages).1 } call.env
      match served.2.resp with
      | some resp => (served.1, served.1.writeChatCompletion lib defs call req resp)
      | none =>
        -- the engine returns an error exactly if it returns no response
        (served.1, (served.2.err.map (writeEngineError lib.quote call.writer)).getD
          (.unwritten []))

end Engine

end MockAgents
