import MockAgents.Engine.ResponseGenerator
import MockAgents.Streaming.Chunker

/-!
# Provider streams

The frames that `StreamOpenAI`, `StreamAnthropic` and `StreamGemini` write for an engine
response, to a client that stays to the end. A frame holds what its JSON decodes to.

Random identifiers and the creation time are arguments, and so is `marshal`, the JSON text
of the arguments of a tool call.
-/

namespace MockAgents

/-- A server-sent event: data, a frame that is deliberately no JSON, or `[DONE]`. -/
inductive Frame (α : Type) where
  | data (value : α)
  | malformed
  | done

/-- The data of the frames that a client can read. -/
def Frame.values {α : Type} (frames : List (Frame α)) : List α :=
  frames.filterMap fun
    | .data value => some value
    | .malformed => none
    | .done => none

def pacedChunks {F : Type} (cfg : Option StreamingConfig) (frame : Bytes → F) (text : String) :
    List F × Bool :=
  if text = "" then ([], false)
  else (Pacer.newPacer cfg).emitChunks frame 0
    ((Chunker.newChunker (streamChunkSize cfg)).chunk (Bytes.ofString text))

/-- The identifier of the `i`-th tool call: that of its result, or `default`. -/
def toolCallID (resp : Response) (default : String) (i : Nat) : String :=
  match resp.toolResults[i]? with
  | some result => result.id
  | none => default

/-- The arguments of a tool call as they are sent: raw ones if the scenario plants some. -/
def argumentsText (marshal : Fields → Bytes) (tc : ToolCallSpec) : Bytes :=
  if tc.rawArguments = "" then marshal tc.arguments else Bytes.ofString tc.rawArguments

/-! ## OpenAI -/

structure ChunkToolCall where
  index : Nat
  id : String := ""
  type : String := ""
  name : String := ""
  arguments : Bytes := []

structure ChunkDelta where
  role : String := ""
  content : Bytes := []
  toolCalls : List ChunkToolCall := []
  refusal : Option String := none

/-- A `ChatCompletionChunk` with its one choice. -/
structure ChatCompletionChunk where
  id : String
  created : Int
  model : String
  delta : ChunkDelta
  finishReason : Option String := none

/-- The finish reason of an OpenAI response: a reason that the scenario forces wins. -/
def openAIFinishReason (resp : Response) : String :=
  if resp.finishReason ≠ "" then resp.finishReason
  else if resp.toolCalls ≠ [] then "tool_calls" else "stop"

/-- `streamOpenAIToolCalls`, as the deltas it sends. -/
def openAIToolCallDeltas (marshal : Fields → Bytes) (resp : Response) : List ChunkDelta :=
  (resp.toolCalls.zipIdx).flatMap fun (tc, i) =>
    { toolCalls :=
        [{ index := i, id := toolCallID resp s!"call_{i}" i, type := "function"
           name := tc.name }] } ::
      (chunkString (argumentsText marshal tc) 20).map fun piece =>
        { toolCalls := [{ index := i, arguments := piece }] }

def streamOpenAI (id : String) (created : Int) (marshal : Fields → Bytes) (resp : Response)
    (cfg : Option StreamingConfig) : List (Frame ChatCompletionChunk) :=
  let pacer := Pacer.newPacer cfg
  let frame (delta : ChunkDelta) : Frame ChatCompletionChunk :=
    .data { id := id, created := created, model := resp.model, delta := delta }
  let (content, truncated) := pacedChunks cfg (fun c => frame { content := c }) resp.content
  let refusal := if resp.refusal = "" then [] else [frame { refusal := some resp.refusal }]
  let finish : Frame ChatCompletionChunk := .data
    { id := id, created := created, model := resp.model, delta := {},
      finishReason := some (openAIFinishReason resp) }
  [frame { role := "assistant" }] ++ content ++
    if truncated then pacer.writeStop .malformed
    else refusal ++
      if pacer.malformed then [.malformed]
      else (openAIToolCallDeltas marshal resp).map frame ++ [finish, .done]

/-! ## Anthropic -/

inductive AnthropicBlock where
  | text
  | toolUse (id name : String)

inductive AnthropicDelta where
  | text (text : Bytes)
  | inputJSON (partialJSON : Bytes)

inductive AnthropicEvent where
  | messageStart (id model : String) (inputTokens outputTokens : Nat)
  | contentBlockStart (index : Nat) (block : AnthropicBlock)
  | contentBlockDelta (index : Nat) (delta : AnthropicDelta)
  | contentBlockStop (index : Nat)
  | messageDelta (stopReason : String) (outputTokens : Nat)
  | messageStop

def anthropicStopReason (finishReason : String) : String :=
  if finishReason = "length" then "max_tokens"
  else if finishReason = "tool_calls" then "tool_use"
  else if finishReason = "content_filter" then "refusal"
  else if finishReason = "stop" ∨ finishReason = "" then "end_turn"
  else finishReason

def anthropicStopReasonOf (resp : Response) : String :=
  if resp.finishReason ≠ "" then anthropicStopReason resp.finishReason
  else if resp.toolCalls ≠ [] then "tool_use"
  else if resp.refusal ≠ "" then "refusal"
  else "end_turn"

/-- The text that Anthropic and Gemini stream: the refusal if there is no content. -/
def textBody (resp : Response) : String := if resp.content = "" then resp.refusal else resp.content

/-- The events of a tool call. The arguments are marshalled also if raw ones are planted. -/
def anthropicToolUse (marshal : Fields → Bytes) (newID : Nat → String) (resp : Response)
    (index i : Nat) (tc : ToolCallSpec) : List AnthropicEvent :=
  [.contentBlockStart index (.toolUse (toolCallID resp ("toolu_" ++ newID i) i) tc.name)] ++
    (chunkString (marshal tc.arguments) 20).map
      (fun piece => .contentBlockDelta index (.inputJSON piece)) ++
    [.contentBlockStop index]

def streamAnthropic (msgID : String) (newID : Nat → String) (marshal : Fields → Bytes)
    (resp : Response) (cfg : Option StreamingConfig) : List (Frame AnthropicEvent) :=
  let pacer := Pacer.newPacer cfg
  let text := textBody resp
  let (deltas, truncated) :=
    pacedChunks cfg (fun c => Frame.data (.contentBlockDelta 0 (.text c))) text
  let start := if text = "" then [] else [Frame.data (.contentBlockStart 0 .text)]
  let stop := if text = "" then [] else [Frame.data (.contentBlockStop 0)]
  let firstTool := if text = "" then 0 else 1
  [.data (.messageStart ("msg_" ++ msgID) resp.model 25 1)] ++ start ++ deltas ++
    if truncated then pacer.writeStop .malformed
    else stop ++
      if pacer.malformed then [.malformed]
      else
        ((resp.toolCalls.zipIdx).flatMap fun (tc, i) =>
          anthropicToolUse marshal newID resp (firstTool + i) i tc).map .data ++
        [.data (.messageDelta (anthropicStopReasonOf resp)
          ((Bytes.ofString resp.content).length / 4 + 1)), .data .messageStop]

/-! ## Gemini -/

inductive GeminiPart where
  | text (text : Bytes)
  | functionCall (name : String) (args : Fields)

structure GeminiUsage where
  promptTokenCount : Int
  candidatesTokenCount : Int
  totalTokenCount : Int

structure GeminiResponse where
  parts : List GeminiPart
  finishReason : String := ""
  usage : Option GeminiUsage := none

/-- `GeminiFinishReason`. `toUpper` is `strings.ToUpper`. -/
def geminiFinishReason (toUpper : String → String) (finishReason : String) : String :=
  if finishReason = "length" then "MAX_TOKENS"
  else if finishReason = "content_filter" then "SAFETY"
  else if finishReason = "stop" ∨ finishReason = "tool_calls" ∨ finishReason = "" then "STOP"
  else toUpper finishReason

def geminiFinishReasonOf (toUpper : String → String) (resp : Response) : String :=
  if resp.finishReason ≠ "" then geminiFinishReason toUpper resp.finishReason
  else if resp.refusal ≠ "" then "SAFETY"
  else "STOP"

/-- The tokens of a prompt and of its answer. -/
def geminiUsage (promptTokens candidateTokens : Int) : GeminiUsage :=
  ⟨promptTokens, candidateTokens, promptTokens + candidateTokens⟩

def streamGemini (toUpper : String → String) (resp : Response) (cfg : Option StreamingConfig)
    (promptTokens candidateTokens : Int) : List (Frame GeminiResponse) :=
  let pacer := Pacer.newPacer cfg
  let (content, truncated) :=
    pacedChunks cfg (fun c => Frame.data { parts := [.text c] }) (textBody resp)
  content ++
    if truncated then pacer.writeStop .malformed
    else if pacer.malformed then [.malformed]
    else
      resp.toolCalls.map (fun tc => .data { parts := [.functionCall tc.name tc.arguments] }) ++
      [.data { parts := [], finishReason := geminiFinishReasonOf toUpper resp,
               usage := some (geminiUsage promptTokens candidateTokens) }]

end MockAgents
