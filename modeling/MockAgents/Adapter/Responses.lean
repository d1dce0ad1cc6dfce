import MockAgents.Adapter.Answer
import MockAgents.Adapter.Format
import MockAgents.ForStd.JsonDecode

/-!
# The Responses API

`POST /v1/responses`: `responseStore`, which keeps the conversation behind each response
that was handed out, and `HandleResponses`, which continues a stored conversation if the
request names one by its `previous_response_id`.

A call carries the decoded body, the identifiers that `generateID` draws for it and
whatever else it reads from outside.
-/

namespace MockAgents

/-! ## The response store -/

def maxStoredResponses : Nat := 1024

structure ResponseStore where
  m : GoMap String (List RequestMessage)
  order : List String

namespace ResponseStore

def newResponseStore : ResponseStore := ⟨∅, []⟩

def get (s : ResponseStore) (id : String) : Option (List RequestMessage) := s.m.lookup id

/-- The loop of `put` that drops the oldest responses. -/
def evict (m : GoMap String (List RequestMessage)) : (order : List String) → ResponseStore
  | [] => ⟨m, []⟩
  | oldest :: order =>
    if order.length + 1 > maxStoredResponses then evict (m.erase oldest) order
    else ⟨m, oldest :: order⟩

def put (s : ResponseStore) (id : String) (msgs : List RequestMessage) : ResponseStore :=
  let s := if (s.m.lookup id).isSome then s else evict s.m (s.order ++ [id])
  { s with m := s.m.insert id msgs }

end ResponseStore

/-! ## Requests -/

/-- `responsesInputItem`. The content and the output are the texts to which
    `extractStringContent` and `rawToString` flatten them. -/
structure ResponsesInputItem where
  type : String := ""
  role : String := ""
  content : String := ""
  output : String := ""

/-- The polymorphic `input`: missing (or null), a string, an array of items, or some other
    JSON value. -/
inductive ResponsesInput where
  | absent
  | text (s : String)
  | items (items : List ResponsesInputItem)
  | other

/-- The settings of a request that its response repeats. -/
structure ResponsesEcho where
  tools : List Json := []
  toolChoice : Option Json := none
  temperature : Option Bytes := none
  topP : Option Bytes := none
  maxOutputTokens : Option Int := none
  metadata : Option Json := none
  store : Option Bool := none
  parallelToolCalls : Option Bool := none
  text : Option Json := none
  reasoning : Option Json := none
  user : Option String := none

structure ResponsesRequest extends ResponsesEcho where
  model : String := ""
  input : ResponsesInput := .absent
  instructions : Option String := none
  previousResponseID : Option String := none
  stream : Bool := false

def ResponsesInputItem.message (it : ResponsesInputItem) : RequestMessage :=
  if it.type = "function_call_output" then ⟨"tool", it.output, 0⟩
  -- an echoed call stays in the history without a text to match on
  else if it.type = "function_call" then ⟨"assistant", "", 0⟩
  else ⟨if it.role = "" then "user" else it.role, it.content, 0⟩

def parseResponsesInput : ResponsesInput → Except String (List RequestMessage)
  | .absent => .ok []
  | .text s => .ok (if s = "" then [] else [⟨"user", s, 0⟩])
  | .items items => .ok (items.map ResponsesInputItem.message)
  | .other => .error "input must be a string or an array of input items"

/-- A string behind a pointer, unless it is empty. -/
def nonEmpty (p : Option String) : Option String := p.filter (· ≠ "")

/-- `responsesSessionID`, with the header, what `generateID` draws and the id of the
    previous response. -/
def responsesSessionID (header newID : String) (prev : Option String) : String :=
  if header ≠ "" then header
  else
    match nonEmpty prev with
    | some id => "resp-thread-" ++ id
    | none => "sess-" ++ newID

/-! ## Responses -/

/-- The tokens of an output item, as `buildResponsesOutput` counts them. -/
def ResponseItem.tokens : ResponseItem → Int
  | .message _ _ _ content =>
    (content.map fun part => match part with
      | .outputText text => estimateTokens text
      | .refusal refusal => estimateTokens (Bytes.ofString refusal)).sum
  | .functionCall _ _ _ arguments _ => estimateTokens arguments

/-- A `ResponsesResponse` with the fields that the engine's response does not determine. -/
structure ResponsesObject extends ResponsesResponse where
  createdAt : Int
  instructions : Option String
  maxOutputTokens : Option Int
  parallelToolCalls : Bool
  previousResponseID : Option String
  reasoning : Json
  store : Bool
  temperature : Bytes
  text : Json
  toolChoice : Json
  tools : List Json
  topP : Bytes
  inputTokens : Int
  outputTokens : Int
  totalTokens : Int
  user : Option String
  metadata : Json

/-- `buildResponsesResponse` with the settings that it repeats. -/
def buildResponsesObject (id : String) (newID : Nat → String) (now : Int)
    (marshal : Fields → Bytes) (req : ResponsesRequest) (resp : Response) (inputTokens : Int) :
    ResponsesObject :=
  let out := buildResponsesResponse id newID marshal resp
  let outputTokens := (out.output.map ResponseItem.tokens).sum
  { out with
    createdAt := now
    instructions := req.instructions
    maxOutputTokens := req.maxOutputTokens
    parallelToolCalls := req.parallelToolCalls.getD true
    previousResponseID := req.previousResponseID
    reasoning := req.reasoning.getD (.object [("effort", .null), ("summary", .null)])
    store := req.store.getD true
    temperature := req.temperature.getD [49]
    text := req.text.getD (.object [("format", .object [("type", .text "text")])])
    toolChoice := req.toolChoice.getD (.text "auto")
    tools := req.tools
    topP := req.topP.getD [49]
    inputTokens := inputTokens
    outputTokens := outputTokens
    totalTokens := inputTokens + outputTokens
    user := req.user
    metadata := req.metadata.getD (.obj []) }

/-! ## The handler -/

/-- What the adapters read besides the engine: Go's `%q`, the encoding of arguments, and
    the streaming sections of the agent definitions. -/
structure AdapterLib where
  quote : String → String
  marshal : Fields → Bytes
  streaming : DefPtr → Option StreamingConfig

structure ResponsesHandler (host : Host) where
  engine : Engine host
  store : ResponseStore

def newResponsesHandler {host : Host} (engine : Engine host) : ResponsesHandler host :=
  ⟨engine, .newResponseStore⟩

/-- A `POST /v1/responses` with what its handler reads from outside. -/
structure ResponsesCall (host : Host) where
  tenantID : String := ""
  sessionHeader : String := ""
  writer : ResponseWriter := http1
  body : Except BodyError ResponsesRequest
  env : RequestEnv host
  newSession : String
  newResponse : String
  newItem : Nat → String := fun _ => ""
  now : Int := 0

namespace ResponsesCall

def responseID {host : Host} (call : ResponsesCall host) : String := "resp_" ++ call.newResponse

end ResponsesCall

/-- What a call comes to: the answer, and the engine's outcome if the call got that far. -/
structure ResponsesResult where
  answer : HttpAnswer ResponsesObject
  outcome : Option Outcome := none

/-- The error for an unknown `previous_response_id`. -/
def previousNotFound (id : String) : HttpAnswer ResponsesObject :=
  writeError 404 "invalid_request_error" ("Previous response with id '" ++ id ++ "' not found.")

/-- The messages before the input: the stored conversation, or the instructions. -/
def priorMessages (store : ResponseStore) (req : ResponsesRequest) :
    Except (HttpAnswer ResponsesObject) (List RequestMessage) :=
  match nonEmpty req.previousResponseID with
  | some id =>
    match store.get id with
    | none => .error (previousNotFound id)
    | some prior => .ok prior
  | none => .ok ((nonEmpty req.instructions).toList.map fun text => ⟨"system", text, 0⟩)

/-- The checks of `HandleResponses` before it calls the engine, and the conversation that
    it then sends. -/
def assembleMessages (store : ResponseStore) (req : ResponsesRequest) :
    Except (HttpAnswer ResponsesObject) (List RequestMessage) :=
  if req.model = "" then .error (writeError 400 "invalid_request_error" "model is required")
  else
    match parseResponsesInput req.input with
    | .error text => .error (writeError 400 "invalid_request_error" text)
    | .ok input =>
      match priorMessages store req with
      | .error answer => .error answer
      | .ok prior =>
        let messages := prior ++ input
        if messages = [] then
          .error (writeError 400 "invalid_request_error"
            "input is required and must not be empty")
        else .ok messages

/-- The conversation as it is stored behind a response. -/
def storedMessages (messages : List RequestMessage) (resp : Response) : List RequestMessage :=
  messages ++ if resp.content = "" then [] else [⟨"assistant", resp.content, 0⟩]

namespace ResponsesHandler

variable {host : Host} (lib : AdapterLib) (defs : Definitions)

def streamConfigFor (h : ResponsesHandler host) (ord : MapOrder) (model tenantID : String) :
    Option StreamingConfig :=
  let agent := (h.engine.registry.getByModelForTenant model tenantID).or
    (match h.engine.registry.listForTenant defs ord tenantID with
    | [p] => some p
    | _ => none)
  agent.bind lib.streaming

def inbound (call : ResponsesCall host) (req : ResponsesRequest)
    (messages : List RequestMessage) : InboundRequest where
  model := req.model
  sessionID := responsesSessionID call.sessionHeader call.newSession req.previousResponseID
  messages := messages

/-- The answer with the engine's response. A writer that cannot flush gets no stream. -/
def writeResponse (h : ResponsesHandler host) (call : ResponsesCall host)
    (req : ResponsesRequest) (messages : List RequestMessage) (resp : Response) :
    HttpAnswer ResponsesObject :=
  let out := buildResponsesObject call.responseID call.newItem call.now lib.marshal req resp
    (sumMessageTokens messages)
  let headers := hallucinationHeader resp
  if req.stream then
    if call.writer.flushes then
      .stream headers out (h.streamConfigFor lib defs call.env.ord req.model call.tenantID)
    else .unwritten headers
  else .json headers out

def handleResponses (h : ResponsesHandler host) (call : ResponsesCall host) :
    ResponsesHandler host × ResponsesResult :=
  match call.body with
  | .error err => (h, { answer := writeBodyError err })
  | .ok req =>
    match assembleMessages h.store req with
    | .error answer => (h, { answer := answer })
    | .ok messages =>
      let served := h.engine.processRequestContext defs call.tenantID (inbound call req messages)
        call.env
      let h := { h with engine := served.1 }
      match served.2.resp with
      | some resp =>
        ({ h with store := h.store.put call.responseID (storedMessages messages resp) },
          { answer := h.writeResponse lib defs call req messages resp
            outcome := some served.2 })
      | none =>
        -- the engine returns an error exactly if it returns no response
        (h, { answer := (served.2.err.map (writeEngineError lib.quote call.writer)).getD
                (.unwritten [])
              outcome := some served.2 })

end ResponsesHandler

end MockAgents
