import MockAgents.Adapter.Format
import MockAgents.ForStd.JsonDecode

/-!
# Server-sent events

`WriteData` and `WriteEvent`, and the JSON of the frames that are written with them: the
chunks of OpenAI, the events of Anthropic and of the Responses API, each with the tags of
its struct. The payload of a Responses event is a map, which is written with its keys in
order.

The JSON of a `ResponsesResponse`, most of which echoes the request, is an argument.
-/

namespace MockAgents

open Bytes (ofString)

def writeData (v : Json) : Bytes := ofString "data: " ++ v.encode true ++ [10, 10]

def writeEvent (eventType : String) (v : Json) : Bytes :=
  ofString "event: " ++ ofString eventType ++ [10] ++ writeData v

/-! ## Values -/

mutual

/-- A value as `json.Marshal` writes it. `floatText` is the text of a `float64`. -/
def Value.toJson (floatText : Rat → Bytes) : Value → Json
  | .null => .null
  | .bool b => .bool b
  | .int i => .int i
  | .float q => .num (floatText q)
  | .str s => .text s
  | .arr items => .arr (itemsJson floatText items)
  | .obj fields => .obj (SortedMap.ofList (fieldsJson floatText fields))

def itemsJson (floatText : Rat → Bytes) : List Value → List Json
  | [] => []
  | v :: vs => v.toJson floatText :: itemsJson floatText vs

def fieldsJson (floatText : Rat → Bytes) : List (String × Value) → List (Bytes × Json)
  | [] => []
  | (key, v) :: fs => (ofString key, v.toJson floatText) :: fieldsJson floatText fs

end

/-- `json.Marshal` of a map that is not nil. -/
def marshalFields (floatText : Rat → Bytes) (fields : Fields) : Bytes :=
  ((Value.obj fields).toJson floatText).encode true

/-! ## OpenAI -/

open Json (omitEmpty)

def ChunkToolCall.toJson (tc : ChunkToolCall) : Json := .object <|
  [("index", .nat tc.index)] ++ omitEmpty "id" (ofString tc.id) ++
    omitEmpty "type" (ofString tc.type) ++
    [("function", .object (omitEmpty "name" (ofString tc.name) ++
      omitEmpty "arguments" tc.arguments))]

def ChunkDelta.toJson (d : ChunkDelta) : Json := .object <|
  omitEmpty "role" (ofString d.role) ++ omitEmpty "content" d.content ++
    (if d.toolCalls.isEmpty then [] else [("tool_calls", .arr (d.toolCalls.map (·.toJson)))]) ++
    (d.refusal.map fun refusal => ("refusal", Json.text refusal)).toList

def ChatCompletionChunk.toJson (c : ChatCompletionChunk) : Json := .object
  [("id", .text c.id), ("object", .text "chat.completion.chunk"), ("created", .int c.created),
    ("model", .text c.model),
    ("choices", .arr [.object [("index", .nat 0), ("delta", c.delta.toJson),
      ("finish_reason", (c.finishReason.map Json.text).getD .null)]])]

/-- A tool call of a `ChatCompletionResponse`. -/
def OpenAIToolCall.toJson (tc : OpenAIToolCall) : Json := .object
  [("id", .text tc.id), ("type", .text "function"),
    ("function", .object [("name", .text tc.name), ("arguments", .str tc.arguments)])]

/-! ## Anthropic -/

def anthropicUsageJson (inputTokens outputTokens : Nat) : Json := .object
  [("input_tokens", .nat inputTokens), ("output_tokens", .nat outputTokens)]

def AnthropicBlock.toJson : AnthropicBlock → Json
  | .text => .object [("type", .text "text"), ("text", .text "")]
  | .toolUse id name => .object
    [("type", .text "tool_use"), ("id", .text id), ("name", .text name), ("input", .object [])]

def AnthropicDelta.toJson : AnthropicDelta → Json
  | .text chunk => .object [("type", .text "text_delta"), ("text", .str chunk)]
  | .inputJSON chunk => .object
    [("type", .text "input_json_delta"), ("partial_json", .str chunk)]

/-- The name of an event, also its `type`. -/
def AnthropicEvent.type : AnthropicEvent → String
  | .messageStart .. => "message_start"
  | .contentBlockStart .. => "content_block_start"
  | .contentBlockDelta .. => "content_block_delta"
  | .contentBlockStop .. => "content_block_stop"
  | .messageDelta .. => "message_delta"
  | .messageStop => "message_stop"

def AnthropicEvent.members : AnthropicEvent → List (String × Json)
  | .messageStart id model inputTokens outputTokens =>
    [("message", .object
      [("id", .text id), ("type", .text "message"), ("role", .text "assistant"),
        ("content", .arr []), ("model", .text model), ("stop_reason", .null),
        ("usage", anthropicUsageJson inputTokens outputTokens)])]
  | .contentBlockStart index block => [("index", .nat index), ("content_block", block.toJson)]
  | .contentBlockDelta index delta => [("index", .nat index), ("delta", delta.toJson)]
  | .contentBlockStop index => [("index", .nat index)]
  | .messageDelta stopReason outputTokens =>
    [("delta", .object [("stop_reason", .text stopReason)]),
      ("usage", anthropicUsageJson 0 outputTokens)]
  | .messageStop => []

def AnthropicEvent.toJson (e : AnthropicEvent) : Json :=
  .object (("type", .text e.type) :: e.members)

/-! ## Responses -/

def ResponsePart.toJson : ResponsePart → Json
  | .outputText text => .object
    [("type", .text "output_text"), ("text", .str text), ("annotations", .arr [])]
  | .refusal reason => .object [("type", .text "refusal"), ("refusal", .text reason)]

def ResponseItem.toJson : ResponseItem → Json
  | .message id status role content => .object
    [("type", .text "message"), ("id", .text id), ("status", .text status), ("role", .text role),
      ("content", .arr (content.map (·.toJson)))]
  | .functionCall id callID name arguments status => .object
    [("type", .text "function_call"), ("id", .text id), ("call_id", .text callID),
      ("name", .text name), ("arguments", .str arguments), ("status", .text status)]

/-- The name of an event, also its `type`. -/
def ResponsesEvent.type : ResponsesEvent → String
  | .created .. => "response.created"
  | .inProgress .. => "response.in_progress"
  | .outputItemAdded .. => "response.output_item.added"
  | .contentPartAdded .. => "response.content_part.added"
  | .outputTextDelta .. => "response.output_text.delta"
  | .outputTextDone .. => "response.output_text.done"
  | .refusalDelta .. => "response.refusal.delta"
  | .refusalDone .. => "response.refusal.done"
  | .contentPartDone .. => "response.content_part.done"
  | .functionCallArgumentsDelta .. => "response.function_call_arguments.delta"
  | .functionCallArgumentsDone .. => "response.function_call_arguments.done"
  | .outputItemDone .. => "response.output_item.done"
  | .completed .. => "response.completed"
  | .incomplete .. => "response.incomplete"

/-- The payload of an event with its keys in order. `emit` adds the `sequence_number` and the
    `type`. -/
def ResponsesEvent.toJson (response : ResponsesResponse → Json) (sequence : Nat)
    (e : ResponsesEvent) : Json :=
  let sequenceNumber : String × Json := ("sequence_number", .nat sequence)
  let type : String × Json := ("type", .text e.type)
  match e with
  | .created out | .inProgress out | .completed out | .incomplete out =>
    .object [("response", response out), sequenceNumber, type]
  | .outputItemAdded idx item | .outputItemDone idx item =>
    .object [("item", item.toJson), ("output_index", .nat idx), sequenceNumber, type]
  | .contentPartAdded itemID idx part | .contentPartDone itemID idx part => .object
    [("content_index", .nat 0), ("item_id", .text itemID), ("output_index", .nat idx),
      ("part", part.toJson), sequenceNumber, type]
  | .outputTextDelta itemID idx delta => .object
    [("content_index", .nat 0), ("delta", .str delta), ("item_id", .text itemID),
      ("logprobs", .arr []), ("output_index", .nat idx), sequenceNumber, type]
  | .outputTextDone itemID idx text => .object
    [("content_index", .nat 0), ("item_id", .text itemID), ("logprobs", .arr []),
      ("output_index", .nat idx), sequenceNumber, ("text", .str text), type]
  | .refusalDelta itemID idx delta => .object
    [("content_index", .nat 0), ("delta", .text delta), ("item_id", .text itemID),
      ("output_index", .nat idx), sequenceNumber, type]
  | .refusalDone itemID idx refusal => .object
    [("content_index", .nat 0), ("item_id", .text itemID), ("output_index", .nat idx),
      ("refusal", .text refusal), sequenceNumber, type]
  | .functionCallArgumentsDelta itemID idx delta => .object
    [("delta", .str delta), ("item_id", .text itemID), ("output_index", .nat idx),
      sequenceNumber, type]
  | .functionCallArgumentsDone itemID idx arguments => .object
    [("arguments", .str arguments), ("item_id", .text itemID), ("output_index", .nat idx),
      sequenceNumber, type]

/-! ## Writing the frames -/

/-- The text of a frame of an OpenAI stream. -/
def ChatCompletionChunk.write (c : ChatCompletionChunk) : Bytes := writeData c.toJson

def AnthropicEvent.write (e : AnthropicEvent) : Bytes := writeEvent e.type e.toJson

def ResponsesEvent.write (response : ResponsesResponse → Json) (e : ResponsesEvent × Nat) : Bytes :=
  writeEvent e.1.type (e.1.toJson response e.2)

end MockAgents
