import MockAgents.Streaming.SSEWriter

/-!
# A client of the streams

What a client reads from the bytes of a stream: it takes the data lines, decodes each as
JSON, and looks at the members that it needs. The frames of a stream all decode, and a
client gets what was put into them, with U+FFFD for the bytes that are not UTF-8.
-/

namespace MockAgents

open Bytes (ofString toValid)
open Json (maxNestingDepth textField field_object items writable_omitEmpty)

/-! ## Lines -/

/-- The text after `data: `, if a line starts with it. -/
def dataLine (line : Bytes) : Option Bytes :=
  if (ofString "data: ").isPrefixOf line then some (line.drop 6) else none

/-- The texts of the data lines of a stream, in order. -/
def sseData (stream : Bytes) : List Bytes := (Bytes.split 10 stream).filterMap dataLine

/-- The values of the frames of a stream. There are none if one of them is not JSON. -/
def readStream (stream : Bytes) : Option (List Json) := (sseData stream).mapM Json.decode

variable {v : Json}

theorem sseData_writeData (h : v.Writable maxNestingDepth) (rest : Bytes) :
    sseData (writeData v ++ rest) = v.encode true :: sseData rest := by
  have hline : 10 ∉ ofString "data: " ++ v.encode true := by
    rw [List.mem_append, not_or]
    exact ⟨by decide, h.not_mem_encode true⟩
  have hblank : sseData (10 :: rest) = sseData rest := rfl
  have htext : writeData v ++ rest = (ofString "data: " ++ v.encode true) ++ 10 :: 10 :: rest := by
    simp [writeData]
  rw [htext, sseData, Bytes.split_append hline, List.filterMap_cons]
  exact congrArg (v.encode true :: ·) hblank

theorem sseData_writeEvent (h : v.Writable maxNestingDepth) {eventType : String}
    (hname : 10 ∉ ofString eventType) (rest : Bytes) :
    sseData (writeEvent eventType v ++ rest) = v.encode true :: sseData rest := by
  have hline : 10 ∉ ofString "event: " ++ ofString eventType := by
    rw [List.mem_append, not_or]
    exact ⟨by decide, hname⟩
  have htext : writeEvent eventType v ++ rest =
      (ofString "event: " ++ ofString eventType) ++ 10 :: (writeData v ++ rest) := by
    simp [writeEvent]
  rw [htext, sseData, Bytes.split_append hline, List.filterMap_cons]
  exact sseData_writeData h rest

variable {α : Type} {write : α → Bytes} {toJson : α → Json} {frames : List α}

theorem readStream_write (hwrite : ∀ a ∈ frames, ∀ rest,
      sseData (write a ++ rest) = (toJson a).encode true :: sseData rest)
    (hjson : ∀ a ∈ frames, (toJson a).Writable maxNestingDepth) :
    readStream (frames.flatMap write) = some (frames.map fun a => (toJson a).mapStr toValid) := by
  induction frames with
  | nil => rfl
  | cons a frames ih =>
    have htail := ih (fun b hb => hwrite b (by simp [hb])) fun b hb => hjson b (by simp [hb])
    rw [readStream] at htail ⊢
    rw [List.flatMap_cons, hwrite a (by simp), List.mapM_cons,
      Json.decode_encode (hjson a (by simp)), htail]
    rfl

def readFrames {α : Type} (ofJson : Json → Option α) (stream : Bytes) : Option (List α) :=
  (readStream stream).bind fun values => values.mapM ofJson

theorem readFrames_write {β : Type} {ofJson : Json → Option β} {received : α → β}
    (hwrite : ∀ a ∈ frames, ∀ rest,
      sseData (write a ++ rest) = (toJson a).encode true :: sseData rest)
    (hjson : ∀ a ∈ frames, (toJson a).Writable maxNestingDepth)
    (hread : ∀ a ∈ frames, ofJson ((toJson a).mapStr toValid) = some (received a)) :
    readFrames ofJson (frames.flatMap write) = some (frames.map received) := by
  rw [readFrames, readStream_write hwrite hjson, Option.bind_some]
  clear hwrite hjson
  induction frames with
  | nil => rfl
  | cons a frames ih =>
    rw [List.map_cons, List.mapM_cons, hread a (by simp), ih fun b hb => hread b (by simp [hb])]
    rfl

/-! ## OpenAI -/

/-- A tool call as a client has it. -/
structure ToolCallText where
  id : Bytes := []
  name : Bytes := []
  arguments : Bytes := []
  deriving DecidableEq

/-- What a client reads of a chunk. -/
structure ClientChunk where
  content : Bytes
  refusal : Option Bytes
  toolCalls : List (Nat × ToolCallText)
  finishReason : Option Bytes

def ToolCallText.ofJson (v : Json) : Option (Nat × ToolCallText) := do
  let index ← (← v.field "index").nat?
  let function ← v.field "function"
  pure (index, ⟨v.textField "id", function.textField "name", function.textField "arguments"⟩)

def ClientChunk.ofJson (v : Json) : Option ClientChunk := do
  let choice ← (← v.field "choices").items.head?
  let delta ← choice.field "delta"
  let toolCalls ← (((delta.field "tool_calls").map Json.items).getD []).mapM ToolCallText.ofJson
  pure ⟨delta.textField "content", (delta.field "refusal").bind Json.text?, toolCalls,
    (choice.field "finish_reason").bind Json.text?⟩

def ChunkToolCall.received (tc : ChunkToolCall) : Nat × ToolCallText :=
  (tc.index, ⟨ofString tc.id, ofString tc.name, toValid tc.arguments⟩)

def ChatCompletionChunk.received (c : ChatCompletionChunk) : ClientChunk where
  content := toValid c.delta.content
  refusal := c.delta.refusal.map ofString
  toolCalls := c.delta.toolCalls.map (·.received)
  finishReason := c.finishReason.map ofString

theorem ToolCallText.ofJson_toJson (tc : ChunkToolCall) :
    ToolCallText.ofJson (tc.toJson.mapStr toValid) = some tc.received := by
  simp [ToolCallText.ofJson, ChunkToolCall.toJson, ChunkToolCall.received, textField,
    field_object, List.filter_append]

theorem ToolCallText.mapM_ofJson (tcs : List ChunkToolCall) :
    (tcs.map fun tc => tc.toJson.mapStr toValid).mapM ToolCallText.ofJson =
      some (tcs.map (·.received)) := by
  induction tcs with
  | nil => rfl
  | cons tc tcs ih =>
    rw [List.map_cons, List.mapM_cons, ToolCallText.ofJson_toJson, ih]
    rfl

/-- The members of a delta. -/
theorem ChunkDelta.read_toJson (d : ChunkDelta) :
    (d.toJson.mapStr toValid).textField "content" = toValid d.content ∧
      ((d.toJson.mapStr toValid).field "refusal").bind Json.text? = d.refusal.map ofString ∧
      (((d.toJson.mapStr toValid).field "tool_calls").map items).getD [] =
        d.toolCalls.map fun tc => tc.toJson.mapStr toValid := by
  obtain ⟨role, content, calls, refusal⟩ := d
  cases refusal <;> cases calls <;>
    simp [ChunkDelta.toJson, textField, field_object, List.filter_append, items]

/-- The members that a client reads. -/
theorem ClientChunk.ofJson_toJson (c : ChatCompletionChunk) :
    ClientChunk.ofJson (c.toJson.mapStr toValid) = some c.received := by
  obtain ⟨hcontent, hrefusal, hcalls⟩ := c.delta.read_toJson
  have hread : ((((c.delta.toJson.mapStr toValid).field "tool_calls").map items).getD
      []).mapM ToolCallText.ofJson = some (c.delta.toolCalls.map (·.received)) := by
    rw [hcalls, ToolCallText.mapM_ofJson]
  have hfinish : (((c.finishReason.map Json.text).getD .null).mapStr toValid).text? =
      c.finishReason.map ofString := by
    cases c.finishReason with
    | none => rfl
    | some reason => simp
  simp [ClientChunk.ofJson, ChatCompletionChunk.toJson, ChatCompletionChunk.received,
    field_object, items, hcontent, hrefusal, hread, hfinish]

theorem ChunkToolCall.writable_toJson (d : Nat) (tc : ChunkToolCall) :
    tc.toJson.Writable (d + 2) := by
  simp only [ChunkToolCall.toJson, Json.writable_object_iff, List.forall_mem_append,
    List.forall_mem_singleton]
  exact ⟨⟨⟨Json.writable_nat _ _, writable_omitEmpty _ _ _⟩, writable_omitEmpty _ _ _⟩,
    writable_omitEmpty _ _ _, writable_omitEmpty _ _ _⟩

theorem ChunkDelta.writable_toJson (d : Nat) (delta : ChunkDelta) :
    delta.toJson.Writable (d + 4) := by
  have hcalls : ∀ m ∈ (if delta.toolCalls.isEmpty then []
      else [("tool_calls", Json.arr (delta.toolCalls.map (·.toJson)))]), m.2.Writable (d + 3) := by
    split
    · simp
    · simpa using fun tc _ => ChunkToolCall.writable_toJson d tc
  have hrefusal : ∀ m ∈ (delta.refusal.map fun refusal => ("refusal", Json.text refusal)).toList,
      m.2.Writable (d + 3) := by
    cases delta.refusal <;> simp
  simp only [ChunkDelta.toJson, Json.writable_object_iff, List.forall_mem_append]
  exact ⟨⟨⟨writable_omitEmpty _ _ _, writable_omitEmpty _ _ _⟩, hcalls⟩, hrefusal⟩

theorem ChatCompletionChunk.writable_toJson (c : ChatCompletionChunk) :
    c.toJson.Writable maxNestingDepth := by
  have hfinish : Json.Writable 4 ((c.finishReason.map Json.text).getD .null) := by
    cases c.finishReason <;> simp
  have hchunk : c.toJson.Writable (0 + 7) := by
    simp [ChatCompletionChunk.toJson, c.delta.writable_toJson 0, hfinish]
  exact hchunk.mono (by decide)

theorem readFrames_chunks (chunks : List ChatCompletionChunk) :
    readFrames ClientChunk.ofJson (chunks.flatMap (·.write)) =
      some (chunks.map (·.received)) :=
  readFrames_write (fun c _ rest => sseData_writeData c.writable_toJson rest)
    (fun c _ => c.writable_toJson) fun c _ => ClientChunk.ofJson_toJson c

/-! ## Anthropic -/

/-- A content block as a client has it. The input of a tool call is the text of its JSON. -/
inductive ClientBlock where
  | text (text : Bytes)
  | toolUse (id name input : Bytes)
  deriving DecidableEq

/-- What a client reads of an event. -/
inductive ClientEvent where
  | start (index : Nat) (block : ClientBlock)
  | textDelta (index : Nat) (text : Bytes)
  | inputDelta (index : Nat) (text : Bytes)
  | stopReason (reason : Bytes)
  | other

def ClientBlock.ofJson (v : Json) : ClientBlock :=
  if v.textField "type" = ofString "tool_use" then
    .toolUse (v.textField "id") (v.textField "name") []
  else .text (v.textField "text")

def ClientEvent.ofJson (v : Json) : Option ClientEvent :=
  if v.textField "type" = ofString "content_block_start" then do
    let index ← (← v.field "index").nat?
    pure (.start index (.ofJson (← v.field "content_block")))
  else if v.textField "type" = ofString "content_block_delta" then do
    let index ← (← v.field "index").nat?
    let delta ← v.field "delta"
    if delta.textField "type" = ofString "input_json_delta" then
      pure (.inputDelta index (delta.textField "partial_json"))
    else pure (.textDelta index (delta.textField "text"))
  else if v.textField "type" = ofString "message_delta" then do
    let delta ← v.field "delta"
    pure (.stopReason (delta.textField "stop_reason"))
  else some .other

def AnthropicBlock.received : AnthropicBlock → ClientBlock
  | .text => .text []
  | .toolUse id name => .toolUse (ofString id) (ofString name) []

def AnthropicEvent.received : AnthropicEvent → ClientEvent
  | .contentBlockStart index block => .start index block.received
  | .contentBlockDelta index (.text chunk) => .textDelta index (toValid chunk)
  | .contentBlockDelta index (.inputJSON chunk) => .inputDelta index (toValid chunk)
  | .messageDelta stopReason _ => .stopReason (ofString stopReason)
  | .messageStart .. | .contentBlockStop .. | .messageStop => .other

theorem ClientBlock.ofJson_toJson (b : AnthropicBlock) :
    ClientBlock.ofJson (b.toJson.mapStr toValid) = b.received := by
  cases b <;>
    simp [ClientBlock.ofJson, AnthropicBlock.toJson, AnthropicBlock.received, textField,
      field_object, Bytes.ofString_eq_nil_iff]

variable (e : AnthropicEvent)

theorem ClientEvent.ofJson_toJson :
    ClientEvent.ofJson (e.toJson.mapStr toValid) = some e.received := by
  cases e with
  | contentBlockDelta index delta =>
    cases delta <;>
      simp [ClientEvent.ofJson, AnthropicEvent.toJson, AnthropicEvent.type, AnthropicEvent.members,
        AnthropicEvent.received, AnthropicDelta.toJson, textField, field_object]
  | _ =>
    simp [ClientEvent.ofJson, AnthropicEvent.toJson, AnthropicEvent.type, AnthropicEvent.members,
      AnthropicEvent.received, ClientBlock.ofJson_toJson, textField, field_object]

theorem AnthropicEvent.writable_toJson : e.toJson.Writable maxNestingDepth := by
  have hevent : e.toJson.Writable (0 + 4) := by
    cases e with
    | contentBlockStart index block =>
      cases block <;>
        simp [AnthropicEvent.toJson, AnthropicEvent.members, AnthropicBlock.toJson]
    | contentBlockDelta index delta =>
      cases delta <;>
        simp [AnthropicEvent.toJson, AnthropicEvent.members, AnthropicDelta.toJson]
    | _ => simp [AnthropicEvent.toJson, AnthropicEvent.members, anthropicUsageJson]
  exact hevent.mono (by decide)

theorem AnthropicEvent.type_line : 10 ∉ ofString e.type := by
  cases e <;> simp only [AnthropicEvent.type] <;> decide

theorem readFrames_events (events : List AnthropicEvent) :
    readFrames ClientEvent.ofJson (events.flatMap (·.write)) =
      some (events.map (·.received)) :=
  readFrames_write (fun e _ rest => sseData_writeEvent e.writable_toJson e.type_line rest)
    (fun e _ => e.writable_toJson) fun e _ => ClientEvent.ofJson_toJson e

/-! ## Responses -/

/-- What a client reads of an event to put the arguments of a function call together: the
    output index and the delta. -/
structure ArgumentsDelta where
  outputIndex : Nat
  delta : Bytes

/-- There is nothing to read in the other events. -/
def ArgumentsDelta.ofJson (v : Json) : Option (Option ArgumentsDelta) :=
  if v.textField "type" = ofString "response.function_call_arguments.delta" then do
    let index ← (← v.field "output_index").nat?
    pure (some ⟨index, v.textField "delta"⟩)
  else some none

def ResponsesEvent.argumentsDelta : ResponsesEvent → Option ArgumentsDelta
  | .functionCallArgumentsDelta _ idx delta => some ⟨idx, toValid delta⟩
  | _ => none

theorem ArgumentsDelta.ofJson_toJson (response : ResponsesResponse → Json) (sequence : Nat)
    (e : ResponsesEvent) :
    ArgumentsDelta.ofJson ((e.toJson response sequence).mapStr toValid) =
      some e.argumentsDelta := by
  cases e <;>
    simp [ArgumentsDelta.ofJson, ResponsesEvent.toJson, ResponsesEvent.type,
      ResponsesEvent.argumentsDelta, textField, field_object]

theorem ResponsesEvent.type_line (e : ResponsesEvent) : 10 ∉ ofString e.type := by
  cases e <;> simp only [ResponsesEvent.type] <;> decide

theorem ResponsesEvent.writable_functionCall (response : ResponsesResponse → Json)
    {chunker : Chunker} {idx : Nat} {id callID name status : String} {arguments : Bytes}
    {e : ResponsesEvent} (he : e ∈ streamItem chunker idx
      (.functionCall id callID name arguments status)) (sequence : Nat) :
    (e.toJson response sequence).Writable maxNestingDepth := by
  have hevent : (e.toJson response sequence).Writable (0 + 2) := by
    simp only [streamItem, List.mem_append, List.mem_cons, List.mem_map, List.not_mem_nil,
      or_false] at he
    obtain (rfl | ⟨piece, _, rfl⟩) | rfl | rfl := he <;>
      simp [ResponsesEvent.toJson, ResponseItem.toJson]
  exact hevent.mono (by decide)

end MockAgents
