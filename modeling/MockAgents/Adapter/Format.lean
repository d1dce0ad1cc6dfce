import MockAgents.Streaming.Providers

/-!
# Responses that are not streamed

`formatOpenAIResponse`, `formatAnthropicResponse` and `formatGeminiResponse`, and the
Responses API, whose stream replays the response that was built for it.

Identifiers, the time, token counts and `marshal` are arguments as in
`MockAgents.Streaming.Providers`.
-/

namespace MockAgents

/-! ## OpenAI -/

structure OpenAIToolCall where
  id : String
  name : String
  arguments : Bytes

/-- A `ChatCompletionResponse` with its one choice. -/
structure ChatCompletionResponse where
  id : String
  created : Int
  model : String
  content : Option Bytes
  toolCalls : List OpenAIToolCall
  refusal : Option String
  finishReason : String
  promptTokens : Int
  completionTokens : Int
  totalTokens : Int

def formatOpenAIResponse (newID : String) (created : Int) (marshal : Fields → Bytes)
    (resp : Response) (promptTokens completionTokens : Int) : ChatCompletionResponse where
  id := "chatcmpl-" ++ newID
  created := created
  model := resp.model
  content := if resp.content = "" then none else some (Bytes.ofString resp.content)
  toolCalls := (resp.toolCalls.zipIdx).map fun (tc, i) =>
    ⟨toolCallID resp s!"call_{i}" i, tc.name, argumentsText marshal tc⟩
  refusal := if resp.refusal = "" then none else some resp.refusal
  finishReason := openAIFinishReason resp
  promptTokens := promptTokens
  completionTokens := completionTokens
  totalTokens := promptTokens + completionTokens

/-! ## Anthropic -/

inductive AnthropicContent where
  | thinking (thinking signature : String)
  | text (text : Bytes)
  | toolUse (id name : String) (input : Fields)

structure AnthropicUsage where
  inputTokens : Int
  cacheCreationInputTokens : Option Int
  cacheReadInputTokens : Option Int
  outputTokens : Int

structure AnthropicResponse where
  id : String
  content : List AnthropicContent
  model : String
  stopReason : String
  usage : AnthropicUsage

/-- A text, unless it is empty. -/
def textOrNone {α : Type} (block : Bytes → α) (text : String) : List α :=
  if text = "" then [] else [block (Bytes.ofString text)]

/-- `formatAnthropicResponse`. The first identifier is the message's, the others are for
    tool calls without a result. -/
def formatAnthropicResponse (newID : Nat → String) (resp : Response) (usage : AnthropicUsage)
    (thinkingText thinkingSig : String) : AnthropicResponse where
  id := "msg_" ++ newID 0
  content :=
    (if thinkingText = "" then [] else [.thinking thinkingText thinkingSig]) ++
      textOrNone .text resp.content ++ textOrNone .text resp.refusal ++
      (resp.toolCalls.zipIdx).map fun (tc, i) =>
        .toolUse (toolCallID resp ("toolu_" ++ newID (i + 1)) i) tc.name tc.arguments
  model := resp.model
  stopReason := anthropicStopReasonOf resp
  usage := usage

/-! ## Gemini -/

/-- `formatGeminiResponse`. The `ModelVersion` is the model of the request. -/
def formatGeminiResponse (toUpper : String → String) (resp : Response)
    (promptTokens candidateTokens : Int) : GeminiResponse where
  parts := textOrNone .text resp.content ++ textOrNone .text resp.refusal ++
    resp.toolCalls.map fun tc => .functionCall tc.name tc.arguments
  finishReason := geminiFinishReasonOf toUpper resp
  usage := some (geminiUsage promptTokens candidateTokens)

/-! ## Responses -/

/-- A content part of a message. -/
inductive ResponsePart where
  | outputText (text : Bytes)
  | refusal (refusal : String)

/-- An output item of the Responses API. -/
inductive ResponseItem where
  | message (id status role : String) (content : List ResponsePart)
  | functionCall (id callID name : String) (arguments : Bytes) (status : String)

/-- The message of a response: a refusal comes before the content. -/
def responseMessage (newID : Nat → String) (resp : Response) : List ResponseItem :=
  let message (part : ResponsePart) : ResponseItem :=
    .message ("msg_" ++ newID 0) "completed" "assistant" [part]
  if resp.refusal ≠ "" then [message (.refusal resp.refusal)]
  else textOrNone (fun text => message (.outputText text)) resp.content

def responseCallID (newID : Nat → String) (resp : Response) (i : Nat) : String :=
  match resp.toolResults[i]? with
  | some result => if result.id = "" then "call_" ++ newID (2 * i + 1) else result.id
  | none => "call_" ++ newID (2 * i + 1)

/-- `buildResponsesOutput`, without the token count. -/
def buildResponsesOutput (newID : Nat → String) (marshal : Fields → Bytes) (resp : Response) :
    List ResponseItem :=
  responseMessage newID resp ++
    (resp.toolCalls.zipIdx).map fun (tc, i) =>
      .functionCall ("fc_" ++ newID (2 * i + 2)) (responseCallID newID resp i) tc.name
        (argumentsText marshal tc) "completed"

/-- The part of a `ResponsesResponse` that depends on the engine's response. -/
structure ResponsesResponse where
  id : String
  status : String
  model : String
  output : List ResponseItem

def buildResponsesResponse (id : String) (newID : Nat → String) (marshal : Fields → Bytes)
    (resp : Response) : ResponsesResponse where
  id := id
  status := if resp.finishReason = "length" then "incomplete" else "completed"
  model := resp.model
  output := buildResponsesOutput newID marshal resp

/-- The payload of an event of the Responses API. -/
inductive ResponsesEvent where
  | created (response : ResponsesResponse)
  | inProgress (response : ResponsesResponse)
  | outputItemAdded (outputIndex : Nat) (item : ResponseItem)
  | contentPartAdded (itemID : String) (outputIndex : Nat) (part : ResponsePart)
  | outputTextDelta (itemID : String) (outputIndex : Nat) (delta : Bytes)
  | outputTextDone (itemID : String) (outputIndex : Nat) (text : Bytes)
  | refusalDelta (itemID : String) (outputIndex : Nat) (delta : String)
  | refusalDone (itemID : String) (outputIndex : Nat) (refusal : String)
  | contentPartDone (itemID : String) (outputIndex : Nat) (part : ResponsePart)
  | functionCallArgumentsDelta (itemID : String) (outputIndex : Nat) (delta : Bytes)
  | functionCallArgumentsDone (itemID : String) (outputIndex : Nat) (arguments : Bytes)
  | outputItemDone (outputIndex : Nat) (item : ResponseItem)
  | completed (response : ResponsesResponse)
  | incomplete (response : ResponsesResponse)

def streamPart (chunker : Chunker) (itemID : String) (idx : Nat) :
    ResponsePart → List ResponsesEvent
  | .outputText text =>
    [.contentPartAdded itemID idx (.outputText [])] ++
      (chunker.chunk text).map (.outputTextDelta itemID idx) ++
      [.outputTextDone itemID idx text, .contentPartDone itemID idx (.outputText text)]
  | .refusal refusal =>
    [.contentPartAdded itemID idx (.refusal ""), .refusalDelta itemID idx refusal,
      .refusalDone itemID idx refusal, .contentPartDone itemID idx (.refusal refusal)]

/-- `streamMessageItem` and `streamFunctionCallItem`. Only the first part of a message is
    streamed. -/
def streamItem (chunker : Chunker) (idx : Nat) : ResponseItem → List ResponsesEvent
  | .message id status role content =>
    [.outputItemAdded idx (.message id "in_progress" role [])] ++
      (content.head?.map (streamPart chunker id idx)).getD [] ++
      [.outputItemDone idx (.message id status role content)]
  | .functionCall id callID name arguments status =>
    [.outputItemAdded idx (.functionCall id callID name [] "in_progress")] ++
      (chunkString arguments 20).map (.functionCallArgumentsDelta id idx) ++
      [.functionCallArgumentsDone id idx arguments,
        .outputItemDone idx (.functionCall id callID name arguments status)]

/-- `streamResponses`: the events with their sequence numbers. -/
def streamResponses (out : ResponsesResponse) (cfg : Option StreamingConfig) :
    List (ResponsesEvent × Nat) :=
  let pending := { out with status := "in_progress", output := [] }
  let chunker := Chunker.newChunker (streamChunkSize cfg)
  let items := (out.output.zipIdx).flatMap fun (item, idx) => streamItem chunker idx item
  let final : ResponsesEvent :=
    if out.status = "incomplete" then .incomplete out else .completed out
  let events : List ResponsesEvent := [.created pending, .inProgress pending] ++ items ++ [final]
  events.zipIdx

end MockAgents
