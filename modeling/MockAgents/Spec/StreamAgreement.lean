import MockAgents.Spec.StreamedArguments
import MockAgents.Spec.StreamedText

/-!
# Streams and responses agree

A client that folds the frames of a stream gets a message: texts, a refusal, tool calls and
a reason to finish. It should be the message of the response that is not streamed, with
texts compared by their words, as the chunker puts single spaces between them.

Three things make a difference. The streams of Anthropic and Gemini leave the refusal out of
a response that also has a content. Arguments are cut inside characters, and Anthropic's
are left out of the response, but not of the stream, if there are none. A tool call of
Anthropic without a result gets an identifier of its own in each of the two.
-/

namespace MockAgents

open Bytes (ofString toValid cutsRune fields isUtf8 ofString_eq_nil_iff)
open Chunker (newChunker)
open List (foldl_append foldl_cons foldl_nil map_append map_cons map_map map_singleton)
open MockAgents.Frame (values)

/-! ## Messages -/

/-- A block of a message: a text, by its words, or a tool call. -/
inductive Block (α : Type) where
  | text (words : List Bytes)
  | toolCall (id name : Bytes) (arguments : α)

/-- What a response says, streamed or not. -/
structure ClientMessage (α : Type) where
  blocks : List (Block α)
  refusal : Option Bytes
  reason : Option Bytes

def textBlock {α : Type} (text : Bytes) : List (Block α) :=
  if text = [] then [] else [.text (fields text)]

def ToolCallText.block (tc : ToolCallText) : Block Bytes := .toolCall tc.id tc.name tc.arguments

/-! ## What a client folds -/

/-- The message of an OpenAI stream so far. -/
structure OpenAIMessage where
  content : Bytes := []
  refusal : Option Bytes := none
  toolCalls : List ToolCallText := []
  finishReason : Option Bytes := none

def ToolCallText.append (a b : ToolCallText) : ToolCallText :=
  ⟨a.id ++ b.id, a.name ++ b.name, a.arguments ++ b.arguments⟩

/-- The index of a tool call is its position: a new one is added, and the strings of one that
    is there are extended. -/
def addToolCall (calls : List ToolCallText) (d : Nat × ToolCallText) : List ToolCallText :=
  if d.1 = calls.length then calls ++ [d.2] else calls.modify d.1 (·.append d.2)

/-- The text so far, extended. -/
def addText : Option Bytes → Option Bytes → Option Bytes
  | text, none => text
  | none, some t => some t
  | some text, some t => some (text ++ t)

def OpenAIMessage.add (m : OpenAIMessage) (c : ClientChunk) : OpenAIMessage where
  content := m.content ++ c.content
  refusal := addText m.refusal c.refusal
  toolCalls := c.toolCalls.foldl addToolCall m.toolCalls
  finishReason := c.finishReason.or m.finishReason

def OpenAIMessage.message (m : OpenAIMessage) : ClientMessage Bytes where
  blocks := textBlock m.content ++ m.toolCalls.map (·.block)
  refusal := m.refusal
  reason := m.finishReason

/-- The message of an Anthropic stream so far. -/
structure AnthropicMessage where
  blocks : List ClientBlock := []
  stopReason : Option Bytes := none

def ClientBlock.addText (t : Bytes) : ClientBlock → ClientBlock
  | .text s => .text (s ++ t)
  | .toolUse id name input => .toolUse id name input

def ClientBlock.addInput (t : Bytes) : ClientBlock → ClientBlock
  | .text s => .text s
  | .toolUse id name input => .toolUse id name (input ++ t)

/-- The index of a block is its position. -/
def AnthropicMessage.add (m : AnthropicMessage) : ClientEvent → AnthropicMessage
  | .start index block =>
    if index = m.blocks.length then { m with blocks := m.blocks ++ [block] } else m
  | .textDelta index t => { m with blocks := m.blocks.modify index (·.addText t) }
  | .inputDelta index t => { m with blocks := m.blocks.modify index (·.addInput t) }
  | .stopReason reason => { m with stopReason := some reason }
  | .other => m

def ClientBlock.block : ClientBlock → Block (Option Bytes)
  | .text t => .text (fields t)
  | .toolUse id name input => .toolCall id name (some input)

def AnthropicMessage.message (m : AnthropicMessage) : ClientMessage (Option Bytes) where
  blocks := m.blocks.map (·.block)
  refusal := none
  reason := m.stopReason

/-- The message of a Gemini stream so far. -/
structure GeminiMessage where
  parts : List GeminiPart := []
  finishReason : Option Bytes := none

/-- A part as a client reads it. -/
def GeminiPart.received : GeminiPart → GeminiPart
  | .text t => .text (toValid t)
  | .functionCall name args => .functionCall name args

def addPart (parts : List GeminiPart) : GeminiPart → List GeminiPart
  | .text t =>
    match parts.getLast? with
    | some (.text s) => parts.dropLast ++ [.text (s ++ t)]
    | _ => parts ++ [.text t]
  | .functionCall name args => parts ++ [.functionCall name args]

def GeminiMessage.add (m : GeminiMessage) (r : GeminiResponse) : GeminiMessage where
  parts := (r.parts.map (·.received)).foldl addPart m.parts
  finishReason := if r.finishReason = "" then m.finishReason else some (ofString r.finishReason)

/-- Gemini's function calls have no identifiers. -/
def GeminiPart.block : GeminiPart → Block Fields
  | .text t => .text (fields t)
  | .functionCall name args => .toolCall [] (ofString name) args

def GeminiMessage.message (m : GeminiMessage) : ClientMessage Fields where
  blocks := m.parts.map (·.block)
  refusal := none
  reason := m.finishReason

/-! ## The messages of responses that are not streamed -/

def ChatCompletionResponse.message (r : ChatCompletionResponse) : ClientMessage Bytes where
  blocks := (r.content.map fun c => Block.text (fields (toValid c))).toList ++
    r.toolCalls.map fun tc => .toolCall (ofString tc.id) (ofString tc.name) (toValid tc.arguments)
  refusal := r.refusal.map ofString
  reason := some (ofString r.finishReason)

/-- A thinking block is made from the request and is no part of the engine's response. -/
def AnthropicContent.block (marshal : Fields → Bytes) :
    AnthropicContent → Option (Block (Option Bytes))
  | .thinking .. => none
  | .text t => some (.text (fields (toValid t)))
  | .toolUse id name input => some (.toolCall (ofString id) (ofString name)
      (AnthropicContent.inputText marshal (.toolUse id name input)))

def AnthropicResponse.message (marshal : Fields → Bytes) (r : AnthropicResponse) :
    ClientMessage (Option Bytes) where
  blocks := r.content.filterMap (·.block marshal)
  refusal := none
  reason := some (ofString r.stopReason)

def GeminiResponse.message (r : GeminiResponse) : ClientMessage Fields where
  blocks := r.parts.map fun part => (GeminiPart.received part).block
  refusal := none
  reason := if r.finishReason = "" then none else some (ofString r.finishReason)

/-! ## Streamed texts -/

def NoFaults (cfg : Option StreamingConfig) : Prop :=
  NotTruncated cfg ∧ (Pacer.newPacer cfg).malformed = false

theorem Chunker.isUtf8_of_mem_chunkWords (c : Chunker) {fuel : Nat} {words : List Bytes}
    (h : ∀ w ∈ words, isUtf8 w = true) {piece : Bytes}
    (hpiece : piece ∈ c.chunkWords fuel words) : isUtf8 piece = true := by
  induction fuel generalizing words with
  | zero => cases hpiece
  | succ fuel ih =>
    cases words with
    | nil => cases hpiece
    | cons w words =>
      rw [chunkWords] at hpiece
      rcases List.mem_cons.mp hpiece with rfl | hpiece
      · apply Bytes.isUtf8_append
        · exact Bytes.isUtf8_join fun v hv => h v (List.mem_of_mem_take hv)
        · split <;> decide
      · exact ih (fun v hv => h v (List.mem_of_mem_drop hv)) hpiece
      · simp

/-- The chunks of a valid text are valid. -/
theorem Chunker.isUtf8_of_mem_chunk (c : Chunker) {content piece : Bytes}
    (h : isUtf8 content = true) (hpiece : piece ∈ c.chunk content) :
    isUtf8 piece = true := by
  unfold chunk at hpiece
  split at hpiece
  · cases hpiece
  · simp only at hpiece
    split at hpiece
    · rw [List.mem_singleton.mp hpiece]
      exact h
    · exact c.isUtf8_of_mem_chunkWords (fun w hw => Bytes.isUtf8_of_mem_fields h hw) hpiece

/-- The chunks of a valid text have its words. -/
theorem Chunker.fields_flatten_chunk (c : Chunker) {content : Bytes}
    (h : isUtf8 content = true) : fields (c.chunk content).flatten = fields content := by
  by_cases hwords : fields content = []
  · rw [chunk]
    split
    · rename_i hnil
      rw [hnil]
      rfl
    · simp [hwords]
  · rw [c.flatten_chunk hwords, Bytes.fields_join_fields h]

/-- The chunks of a text as a client reads them. -/
def receivedChunks (cfg : Option StreamingConfig) (text : String) : List Bytes :=
  ((newChunker (streamChunkSize cfg)).chunk (ofString text)).map toValid

variable (cfg : Option StreamingConfig) (text : String)

theorem flatten_receivedChunks : (receivedChunks cfg text).flatten = chunkedText cfg text := by
  have hpieces : receivedChunks cfg text =
      ((newChunker (streamChunkSize cfg)).chunk (ofString text)).map id :=
    List.map_congr_left fun piece hpiece => Bytes.toValid_of_isUtf8
      (Chunker.isUtf8_of_mem_chunk _ (Bytes.isUtf8_ofString text) hpiece)
  rw [hpieces, List.map_id, chunkedText]

theorem fields_chunkedText : fields (chunkedText cfg text) = fields (ofString text) :=
  Chunker.fields_flatten_chunk _ (Bytes.isUtf8_ofString text)

theorem chunkedText_eq_nil_iff : chunkedText cfg text = [] ↔ text = "" := by
  constructor
  · intro h
    by_contra htext
    have hne : ofString text ≠ [] := fun hnil => htext ((ofString_eq_nil_iff text).mp hnil)
    have hwords := fields_chunkedText cfg text
    rw [h] at hwords
    rw [chunkedText, Chunker.chunk, if_neg hne] at h
    simp only [← hwords, show fields [] = [] from rfl, if_true, List.flatten_singleton] at h
    exact hne h
  · rintro rfl
    rfl

theorem textBlock_ofString {α : Type} : (textBlock (ofString text) : List (Block α)) =
    if text = "" then [] else [.text (fields (ofString text))] :=
  if_congr (ofString_eq_nil_iff text) rfl rfl

theorem textBlock_chunkedText {α : Type} :
    (textBlock (chunkedText cfg text) : List (Block α)) = textBlock (ofString text) := by
  rw [textBlock_ofString, textBlock, fields_chunkedText,
    if_congr (chunkedText_eq_nil_iff cfg text) rfl rfl]

@[simp] theorem toValid_nil : toValid [] = [] := rfl

/-! ## Loops of a client -/

/-- A loop whose rounds extend one list. -/
theorem foldl_extend {σ ε β : Type} (add : σ → ε → σ) (put : List β → σ) (piece : ε → List β)
    (hadd : ∀ s e, add (put s) e = put (s ++ piece e)) (l : List ε) (s : List β) :
    l.foldl add (put s) = put (s ++ l.flatMap piece) := by
  induction l generalizing s with
  | nil => simp
  | cons e l ih => rw [foldl_cons, hadd, ih, List.flatMap_cons, List.append_assoc]

/-- Each round of a loop over the tool calls adds one entry. -/
theorem foldl_flatMap_zipIdx {σ ε α β : Type} (add : σ → ε → σ) (push : σ → β → σ)
    (F : α × Nat → List ε) (f : α × Nat → β) (count : σ → Nat) (off : Nat)
    (hadd : ∀ s x, count s = off + x.2 → (F x).foldl add s = push s (f x))
    (hpush : ∀ s b, count (push s b) = count s + 1) (l : List α) {k : Nat} {s : σ}
    (hs : count s = off + k) :
    ((l.zipIdx k).flatMap F).foldl add s = ((l.zipIdx k).map f).foldl push s := by
  induction l generalizing k s with
  | nil => rfl
  | cons a l ih =>
    have hnext : count (push s (f (a, k))) = off + (k + 1) := by
      rw [hpush, hs]
      omega
    rw [List.zipIdx_cons, List.flatMap_cons, foldl_append, hadd s (a, k) hs, ih hnext]
    rfl

/-! ## OpenAI -/

section

variable {marshal : Fields → Bytes} {resp : Response} {cfg : Option StreamingConfig}

/-- A chunk of a stream that is not the last one. -/
def chunkOf (id : String) (created : Int) (model : String) (delta : ChunkDelta) :
    ChatCompletionChunk :=
  { id := id, created := created, model := model, delta := delta }

/-- The last chunk of a stream. -/
def finishChunk (id : String) (created : Int) (resp : Response) : ChatCompletionChunk :=
  { id := id, created := created, model := resp.model, delta := {},
    finishReason := some (openAIFinishReason resp) }

/-- The deltas of a stream without faults before the last chunk. -/
def openAIDeltas (marshal : Fields → Bytes) (resp : Response) (cfg : Option StreamingConfig) :
    List ChunkDelta :=
  [{ role := "assistant" }] ++
    ((newChunker (streamChunkSize cfg)).chunk (ofString resp.content)).map
      (fun c => { content := c }) ++
    (if resp.refusal = "" then [] else [{ refusal := some resp.refusal }]) ++
    openAIToolCallDeltas marshal resp

variable {α : Type}

theorem values_append (l l' : List (Frame α)) :
    values (l ++ l') = values l ++ values l' := List.filterMap_append

theorem values_map_data (l : List α) : values (l.map Frame.data) = l := by
  rw [values, List.filterMap_map]
  exact List.filterMap_some

theorem values_streamOpenAI (h : NoFaults cfg) (id : String) (created : Int) :
    values (streamOpenAI id created marshal resp cfg) =
      (openAIDeltas marshal resp cfg).map (chunkOf id created resp.model) ++
        [finishChunk id created resp] := by
  have hframes : streamOpenAI id created marshal resp cfg =
      ((openAIDeltas marshal resp cfg).map (chunkOf id created resp.model) ++
        [finishChunk id created resp]).map Frame.data ++ [.done] := by
    by_cases hrefusal : resp.refusal = "" <;>
      simp [streamOpenAI, openAIDeltas, pacedChunks_eq h.1, h.2, hrefusal, chunkOf, finishChunk,
        Function.comp_def]
  rw [hframes, values_append, values_map_data]
  exact List.append_nil _

/-- What a client reads of a chunk that is not the last one. -/
def ChunkDelta.received (d : ChunkDelta) : ClientChunk where
  content := toValid d.content
  refusal := d.refusal.map ofString
  toolCalls := d.toolCalls.map (·.received)
  finishReason := none

variable (m : OpenAIMessage)

theorem foldl_contents (pieces : List Bytes) :
    (pieces.map fun c => ChunkDelta.received { content := c }).foldl OpenAIMessage.add m =
      { m with content := m.content ++ (pieces.map toValid).flatten } := by
  rw [List.foldl_map, ← List.flatMap_def]
  refine foldl_extend _ (fun s => { m with content := s }) toValid (fun s c => ?_) _ _
  simp [OpenAIMessage.add, ChunkDelta.received, addText]

theorem addToolCall_last (calls : List ToolCallText) (t d : ToolCallText) :
    addToolCall (calls ++ [t]) (calls.length, d) = calls ++ [t.append d] := by
  rw [addToolCall, if_neg (by simp)]
  simp [List.modify_eq_take_drop]

theorem foldl_arguments (calls : List ToolCallText) (t : ToolCallText) (pieces : List Bytes) :
    (pieces.map fun piece => ChunkDelta.received
      { toolCalls := [{ index := calls.length, arguments := piece }] }).foldl OpenAIMessage.add
        { m with toolCalls := calls ++ [t] } =
      { m with toolCalls := calls ++
          [{ t with arguments := t.arguments ++ (pieces.map toValid).flatten }] } := by
  rw [List.foldl_map, ← List.flatMap_def]
  refine foldl_extend _ (fun s => { m with toolCalls := calls ++ [{ t with arguments := s }] })
    toValid (fun s piece => ?_) _ _
  have hname : ofString "" = [] := rfl
  simp [OpenAIMessage.add, ChunkDelta.received, ChunkToolCall.received, addText,
    addToolCall_last, ToolCallText.append, hname]

def streamedToolCall (marshal : Fields → Bytes) (resp : Response) (x : ToolCallSpec × Nat) :
    ToolCallText where
  id := ofString (toolCallID resp s!"call_{x.2}" x.2)
  name := ofString x.1.name
  arguments := ((chunkString (argumentsText marshal x.1) 20).map toValid).flatten

def toolCallDeltas (marshal : Fields → Bytes) (resp : Response) (x : ToolCallSpec × Nat) :
    List ChunkDelta :=
  { toolCalls := [{ index := x.2, id := toolCallID resp s!"call_{x.2}" x.2, type := "function"
                    name := x.1.name }] } ::
    (chunkString (argumentsText marshal x.1) 20).map fun piece =>
      { toolCalls := [{ index := x.2, arguments := piece }] }

def OpenAIMessage.push (m : OpenAIMessage) (tc : ToolCallText) : OpenAIMessage :=
  { m with toolCalls := m.toolCalls ++ [tc] }

theorem OpenAIMessage.foldl_push (l : List ToolCallText) (m : OpenAIMessage) :
    l.foldl OpenAIMessage.push m = { m with toolCalls := m.toolCalls ++ l } := by
  have hl := foldl_extend OpenAIMessage.push (fun s => { m with toolCalls := s }) ([·])
    (fun _ _ => rfl) l m.toolCalls
  rwa [List.flatMap_singleton'] at hl

theorem foldl_toolCallDeltas (x : ToolCallSpec × Nat) (hx : m.toolCalls.length = 0 + x.2) :
    ((toolCallDeltas marshal resp x).map (·.received)).foldl OpenAIMessage.add m =
      m.push (streamedToolCall marshal resp x) := by
  obtain ⟨tc, i⟩ := x
  obtain rfl : i = m.toolCalls.length := by omega
  have hfirst : OpenAIMessage.add m (ChunkDelta.received
      { toolCalls := [{ index := m.toolCalls.length,
                        id := toolCallID resp s!"call_{m.toolCalls.length}" m.toolCalls.length
                        type := "function", name := tc.name }] }) =
      { m with toolCalls := m.toolCalls ++ [{ streamedToolCall marshal resp
          (tc, m.toolCalls.length) with arguments := [] }] } := by
    simp [OpenAIMessage.add, ChunkDelta.received, ChunkToolCall.received, addText, addToolCall,
      streamedToolCall]
  rw [toolCallDeltas, map_cons, foldl_cons, hfirst, map_map]
  exact foldl_arguments m m.toolCalls _ _

theorem foldl_openAIToolCallDeltas (hm : m.toolCalls = []) :
    ((openAIToolCallDeltas marshal resp).map (·.received)).foldl OpenAIMessage.add m =
      { m with toolCalls := (resp.toolCalls.zipIdx).map (streamedToolCall marshal resp) } := by
  have hdeltas : openAIToolCallDeltas marshal resp =
      (resp.toolCalls.zipIdx).flatMap (toolCallDeltas marshal resp) := rfl
  rw [hdeltas, List.map_flatMap,
    foldl_flatMap_zipIdx OpenAIMessage.add OpenAIMessage.push _ (streamedToolCall marshal resp)
      (fun m => m.toolCalls.length) 0 foldl_toolCallDeltas (by simp [OpenAIMessage.push])
      resp.toolCalls (by simp [hm]),
    OpenAIMessage.foldl_push, hm, List.nil_append]

def streamedOpenAI (id : String) (created : Int) (marshal : Fields → Bytes) (resp : Response)
    (cfg : Option StreamingConfig) : Option (ClientMessage Bytes) :=
  (readFrames ClientChunk.ofJson ((values (streamOpenAI id created marshal resp
    cfg)).flatMap (·.write))).map fun chunks => (chunks.foldl OpenAIMessage.add {}).message

theorem foldl_openAIDeltas :
    ((openAIDeltas marshal resp cfg).map (·.received)).foldl OpenAIMessage.add {} =
      { content := chunkedText cfg resp.content
        refusal := if resp.refusal = "" then none else some (ofString resp.refusal)
        toolCalls := (resp.toolCalls.zipIdx).map (streamedToolCall marshal resp) } := by
  have hrole : OpenAIMessage.add {} (ChunkDelta.received { role := "assistant" }) = {} := rfl
  have hrefusal : ∀ m : OpenAIMessage, m.refusal = none →
      ((if resp.refusal = "" then [] else [{ refusal := some resp.refusal }]).map
        ChunkDelta.received).foldl OpenAIMessage.add m =
      { m with refusal := if resp.refusal = "" then none else some (ofString resp.refusal) } := by
    intro m hm
    split
    · simp [← hm]
    · simp [OpenAIMessage.add, ChunkDelta.received, addText, hm]
  rw [openAIDeltas, map_append, map_append, map_append, foldl_append,
    foldl_append, foldl_append, map_singleton, foldl_cons, foldl_nil,
    hrole, map_map]
  rw [show (ChunkDelta.received ∘ fun c => { content := c }) =
    fun c => ChunkDelta.received { content := c } from rfl, foldl_contents, hrefusal _ rfl,
    foldl_openAIToolCallDeltas _ rfl, List.nil_append]
  rw [show ((newChunker (streamChunkSize cfg)).chunk (ofString resp.content)).map toValid =
    receivedChunks cfg resp.content from rfl, flatten_receivedChunks]

/-- The message that each stream carries. -/
theorem message_streamOpenAI (h : NoFaults cfg) (id : String) (created : Int) :
    streamedOpenAI id created marshal resp cfg = some
      { blocks := textBlock (ofString resp.content) ++
          (resp.toolCalls.zipIdx).map fun x => (streamedToolCall marshal resp x).block
        refusal := if resp.refusal = "" then none else some (ofString resp.refusal)
        reason := some (ofString (openAIFinishReason resp)) } := by
  have hmap : ((openAIDeltas marshal resp cfg).map (chunkOf id created resp.model)).map
      (·.received) = (openAIDeltas marshal resp cfg).map (·.received) := by
    rw [map_map]
    rfl
  have hfinish : ∀ m : OpenAIMessage, m.add (finishChunk id created resp).received =
      { m with finishReason := some (ofString (openAIFinishReason resp)) } := by
    simp [OpenAIMessage.add, ChatCompletionChunk.received, finishChunk, addText]
  rw [streamedOpenAI, readFrames_chunks, values_streamOpenAI h, Option.map_some, Option.some_inj,
    map_append, foldl_append, hmap, foldl_openAIDeltas, map_singleton,
    foldl_cons, foldl_nil, hfinish, OpenAIMessage.message, textBlock_chunkedText,
    map_map]
  rfl

theorem message_formatOpenAIResponse (newID : String)
    (created promptTokens completionTokens : Int) :
    (formatOpenAIResponse newID created marshal resp promptTokens completionTokens).message =
      { blocks := textBlock (ofString resp.content) ++
          (resp.toolCalls.zipIdx).map fun x => .toolCall
            (ofString (toolCallID resp s!"call_{x.2}" x.2)) (ofString x.1.name)
            (toValid (argumentsText marshal x.1))
        refusal := if resp.refusal = "" then none else some (ofString resp.refusal)
        reason := some (ofString (openAIFinishReason resp)) } := by
  have hcontent : ((if resp.content = "" then none else some (ofString resp.content)).map
      fun c => Block.text (fields (toValid c))).toList =
        (textBlock (ofString resp.content) : List (Block Bytes)) := by
    rw [textBlock_ofString]
    split <;> simp
  have hrefusal : (if resp.refusal = "" then none else some resp.refusal).map ofString =
      if resp.refusal = "" then none else some (ofString resp.refusal) := by
    split <;> rfl
  rw [ChatCompletionResponse.message, formatOpenAIResponse, hcontent, hrefusal, map_map]
  rfl

theorem forall_mem_zipIdx_fst {P : α → Prop} (l : List α) :
    (∀ x ∈ l.zipIdx, P x.1) ↔ ∀ a ∈ l, P a := by
  have hmap := List.zipIdx_map_fst 0 l
  conv_rhs => rw [← hmap]
  rw [List.forall_mem_map]

theorem streamedOpenAI_eq_iff (h : NoFaults cfg) (id responseID : String)
    (created promptTokens completionTokens : Int) :
    streamedOpenAI id created marshal resp cfg = some (formatOpenAIResponse responseID created
        marshal resp promptTokens completionTokens).message ↔
      ∀ tc ∈ resp.toolCalls, ∀ k, cutsRune (argumentsText marshal tc) (20 * k) = false := by
  rw [message_streamOpenAI h, message_formatOpenAIResponse, Option.some_inj, ClientMessage.mk.injEq,
    List.append_cancel_left_eq, List.map_inj_left,
    ← forall_mem_zipIdx_fst
      (P := fun tc => ∀ k, cutsRune (argumentsText marshal tc) (20 * k) = false)]
  simp only [and_true]
  refine forall₂_congr fun x _ => ?_
  rw [ToolCallText.block, Block.toolCall.injEq, streamedToolCall,
    flatten_map_toValid_chunkString_iff (by omega)]
  simp

/-! ## Anthropic -/

def anthropicTextEvents (cfg : Option StreamingConfig) (text : String) : List AnthropicEvent :=
  if text = "" then []
  else [.contentBlockStart 0 .text] ++
    ((newChunker (streamChunkSize cfg)).chunk (ofString text)).map
      (fun c => .contentBlockDelta 0 (.text c)) ++ [.contentBlockStop 0]

def toolUseEvents (marshal : Fields → Bytes) (newID : Nat → String) (resp : Response) (first : Nat)
    (x : ToolCallSpec × Nat) : List AnthropicEvent :=
  anthropicToolUse marshal newID resp (first + x.2) x.2 x.1

def anthropicEvents (msgID : String) (newID : Nat → String) (marshal : Fields → Bytes)
    (resp : Response) (cfg : Option StreamingConfig) : List AnthropicEvent :=
  [.messageStart ("msg_" ++ msgID) resp.model 25 1] ++ anthropicTextEvents cfg (textBody resp) ++
    (resp.toolCalls.zipIdx).flatMap
      (toolUseEvents marshal newID resp (if textBody resp = "" then 0 else 1)) ++
    [.messageDelta (anthropicStopReasonOf resp) ((ofString resp.content).length / 4 + 1),
      .messageStop]

theorem values_streamAnthropic (h : NoFaults cfg) (msgID : String) (newID : Nat → String) :
    values (streamAnthropic msgID newID marshal resp cfg) =
      anthropicEvents msgID newID marshal resp cfg := by
  have hevents : ∀ first, toolUseEvents marshal newID resp first =
      fun x => anthropicToolUse marshal newID resp (first + x.2) x.2 x.1 := fun _ => rfl
  have hframes : streamAnthropic msgID newID marshal resp cfg =
      (anthropicEvents msgID newID marshal resp cfg).map Frame.data := by
    by_cases htext : textBody resp = "" <;>
      simp [streamAnthropic, anthropicEvents, anthropicTextEvents, hevents, pacedChunks_eq h.1,
        h.2, htext, Function.comp_def, show ofString "" = [] from rfl, Chunker.chunk]
  rw [hframes, values_map_data]

def AnthropicMessage.push (m : AnthropicMessage) (b : ClientBlock) : AnthropicMessage :=
  { m with blocks := m.blocks ++ [b] }

theorem AnthropicMessage.foldl_push (l : List ClientBlock) (m : AnthropicMessage) :
    l.foldl AnthropicMessage.push m = { m with blocks := m.blocks ++ l } := by
  have hl := foldl_extend AnthropicMessage.push (fun s => { m with blocks := s }) ([·])
    (fun _ _ => rfl) l m.blocks
  rwa [List.flatMap_singleton'] at hl

theorem foldl_deltas {event : Bytes → ClientEvent} (extend : Bytes → ClientBlock → ClientBlock)
    (block : Bytes → ClientBlock) (m : AnthropicMessage)
    (hadd : ∀ (m' : AnthropicMessage) (t : Bytes), m'.add (event t) =
      { m' with blocks := m'.blocks.modify m.blocks.length (extend t) })
    (hextend : ∀ s t, extend t (block s) = block (s ++ t)) (pieces : List Bytes) (s : Bytes) :
    (pieces.map event).foldl AnthropicMessage.add (m.push (block s)) =
      m.push (block (s ++ pieces.flatten)) := by
  rw [List.foldl_map, ← List.flatMap_id]
  refine foldl_extend _ (fun s => m.push (block s)) id (fun s t => ?_) pieces s
  rw [hadd]
  simp [AnthropicMessage.push, List.modify_eq_take_drop, hextend]

def streamedToolUse (marshal : Fields → Bytes) (newID : Nat → String) (resp : Response)
    (x : ToolCallSpec × Nat) : ClientBlock :=
  .toolUse (ofString (toolCallID resp ("toolu_" ++ newID x.2) x.2)) (ofString x.1.name)
    ((chunkString (marshal x.1.arguments) 20).map toValid).flatten

theorem foldl_toolUseEvents (newID : Nat → String) (first : Nat) (m : AnthropicMessage)
    (x : ToolCallSpec × Nat) (hx : m.blocks.length = first + x.2) :
    ((toolUseEvents marshal newID resp first x).map (·.received)).foldl AnthropicMessage.add m =
      m.push (streamedToolUse marshal newID resp x) := by
  have hstart : m.add (AnthropicEvent.received (.contentBlockStart (first + x.2)
      (.toolUse (toolCallID resp ("toolu_" ++ newID x.2) x.2) x.1.name))) =
      m.push (.toolUse (ofString (toolCallID resp ("toolu_" ++ newID x.2) x.2))
        (ofString x.1.name) []) := by
    simp [AnthropicMessage.add, AnthropicEvent.received, AnthropicBlock.received,
      AnthropicMessage.push, hx]
  have hpieces : ((chunkString (marshal x.1.arguments) 20).map fun piece =>
      AnthropicEvent.contentBlockDelta (first + x.2) (.inputJSON piece)).map (·.received) =
        ((chunkString (marshal x.1.arguments) 20).map toValid).map
          (ClientEvent.inputDelta (first + x.2)) := by
    rw [map_map, map_map]
    rfl
  rw [toolUseEvents, anthropicToolUse, map_append, map_append, foldl_append,
    foldl_append, map_singleton, foldl_cons, foldl_nil, hstart, hpieces,
    foldl_deltas ClientBlock.addInput (.toolUse
      (ofString (toolCallID resp ("toolu_" ++ newID x.2) x.2)) (ofString x.1.name)) m
      (fun m' t => by rw [hx]; rfl) (fun _ _ => rfl)]
  rfl

/-- The events of the text add its block. -/
theorem foldl_anthropicTextEvents (text : String) :
    ((anthropicTextEvents cfg text).map (·.received)).foldl AnthropicMessage.add {} =
      { blocks := if text = "" then [] else [.text (chunkedText cfg text)] } := by
  unfold anthropicTextEvents
  split
  · rfl
  · have hstart : AnthropicMessage.add {} (AnthropicEvent.received (.contentBlockStart 0 .text)) =
        AnthropicMessage.push {} (.text []) := rfl
    have hpieces : (((newChunker (streamChunkSize cfg)).chunk (ofString text)).map
        fun c => AnthropicEvent.contentBlockDelta 0 (.text c)).map (·.received) =
          (receivedChunks cfg text).map (ClientEvent.textDelta 0) := by
      rw [receivedChunks, map_map, map_map]
      rfl
    rw [map_append, map_append, foldl_append, foldl_append,
      map_singleton, foldl_cons, foldl_nil, hstart, hpieces,
      foldl_deltas ClientBlock.addText .text {} (fun _ _ => rfl) (fun _ _ => rfl),
      flatten_receivedChunks]
    rfl

def streamedAnthropic (msgID : String) (newID : Nat → String) (marshal : Fields → Bytes)
    (resp : Response) (cfg : Option StreamingConfig) : Option (ClientMessage (Option Bytes)) :=
  (readFrames ClientEvent.ofJson ((values (streamAnthropic msgID newID marshal resp
    cfg)).flatMap (·.write))).map fun events => (events.foldl AnthropicMessage.add {}).message

theorem foldl_anthropicEvents (msgID : String) (newID : Nat → String) :
    ((anthropicEvents msgID newID marshal resp cfg).map (·.received)).foldl
      AnthropicMessage.add {} =
      { blocks := (if textBody resp = "" then [] else [.text (chunkedText cfg (textBody resp))]) ++
          (resp.toolCalls.zipIdx).map (streamedToolUse marshal newID resp)
        stopReason := some (ofString (anthropicStopReasonOf resp)) } := by
  have hstart : AnthropicMessage.add {} (AnthropicEvent.received
      (.messageStart ("msg_" ++ msgID) resp.model 25 1)) = {} := rfl
  have hcount : (if textBody resp = "" then []
      else [ClientBlock.text (chunkedText cfg (textBody resp))]).length =
        (if textBody resp = "" then 0 else 1) + 0 := by
    split <;> rfl
  rw [anthropicEvents, map_append, map_append, map_append, foldl_append,
    foldl_append, foldl_append, map_singleton, foldl_cons, foldl_nil,
    hstart, foldl_anthropicTextEvents, List.map_flatMap,
    foldl_flatMap_zipIdx AnthropicMessage.add AnthropicMessage.push _
      (streamedToolUse marshal newID resp) (fun m => m.blocks.length) _
      (foldl_toolUseEvents newID _) (by simp [AnthropicMessage.push]) resp.toolCalls hcount,
    AnthropicMessage.foldl_push]
  rfl

theorem map_block_text (text : String) :
    (if text = "" then [] else [ClientBlock.text (chunkedText cfg text)]).map (·.block) =
      textBlock (ofString text) := by
  rw [textBlock_ofString]
  split
  · rfl
  · rw [map_singleton, ClientBlock.block, fields_chunkedText]

theorem message_streamAnthropic (h : NoFaults cfg) (msgID : String) (newID : Nat → String) :
    streamedAnthropic msgID newID marshal resp cfg = some
      { blocks := textBlock (ofString (textBody resp)) ++
          (resp.toolCalls.zipIdx).map fun x => (streamedToolUse marshal newID resp x).block
        refusal := none
        reason := some (ofString (anthropicStopReasonOf resp)) } := by
  rw [streamedAnthropic, readFrames_events, values_streamAnthropic h, Option.map_some,
    Option.some_inj, foldl_anthropicEvents, AnthropicMessage.message, map_append,
    map_block_text, map_map]
  rfl

theorem filterMap_textOrNone {β : Type} {block : Bytes → α} {read : α → Option (Block β)}
    (h : ∀ t, read (block t) = some (.text (fields (toValid t)))) (text : String) :
    (textOrNone block text).filterMap read = textBlock (ofString text) := by
  rw [textBlock_ofString, textOrNone]
  split
  · rfl
  · simp [h]

theorem message_formatAnthropicResponse (newID : Nat → String) (usage : AnthropicUsage)
    (thinkingText thinkingSig : String) :
    (formatAnthropicResponse newID resp usage thinkingText thinkingSig).message marshal =
      { blocks := textBlock (ofString resp.content) ++ textBlock (ofString resp.refusal) ++
          (resp.toolCalls.zipIdx).map fun x => .toolCall
            (ofString (toolCallID resp ("toolu_" ++ newID (x.2 + 1)) x.2)) (ofString x.1.name)
            (if x.1.arguments.isEmpty then none else some (toValid (marshal x.1.arguments)))
        refusal := none
        reason := some (ofString (anthropicStopReasonOf resp)) } := by
  have hthinking : (if thinkingText = "" then []
      else [AnthropicContent.thinking thinkingText thinkingSig]).filterMap (·.block marshal) =
        [] := by
    split <;> rfl
  have htext : ∀ text, (textOrNone AnthropicContent.text text).filterMap (·.block marshal) =
      textBlock (ofString text) := filterMap_textOrNone fun _ => rfl
  have htools : ∀ (item : ToolCallSpec × Nat → AnthropicContent)
      (block : ToolCallSpec × Nat → Block _),
      (∀ x, (item x).block marshal = some (block x)) →
      ((resp.toolCalls.zipIdx).map item).filterMap (·.block marshal) =
        (resp.toolCalls.zipIdx).map block := by
    intro item block hitem
    rw [List.filterMap_map, ← List.filterMap_eq_map]
    exact congrArg (List.filterMap · _) (funext hitem)
  rw [AnthropicResponse.message, formatAnthropicResponse, List.filterMap_append,
    List.filterMap_append, List.filterMap_append, hthinking, htext, htext,
    htools _ _ fun _ => rfl]
  rfl

/-- A stream has one text, a response has one for the content and one for the refusal. -/
theorem textBlock_append_iff {tools tools' : List (Block α)} (hlen : tools.length = tools'.length) :
    textBlock (ofString (textBody resp)) ++ tools =
        textBlock (ofString resp.content) ++ textBlock (ofString resp.refusal) ++ tools' ↔
      (resp.content = "" ∨ resp.refusal = "") ∧ tools = tools' := by
  have hempty : (textBlock (ofString "") : List (Block α)) = [] := rfl
  unfold textBody
  by_cases hcontent : resp.content = ""
  · simp [hcontent, hempty]
  · rw [if_neg hcontent, List.append_assoc, List.append_cancel_left_eq]
    by_cases hrefusal : resp.refusal = ""
    · simp [hrefusal, hempty]
    · have hone : (textBlock (ofString resp.refusal) : List (Block α)).length = 1 := by
        rw [textBlock_ofString, if_neg hrefusal]
        rfl
      constructor
      · intro heq
        have hlengths := congrArg List.length heq
        rw [List.length_append] at hlengths
        omega
      · rintro ⟨hor, _⟩
        exact absurd hor (by simp [hcontent, hrefusal])

/-- The identifiers of a tool call in two responses are the same iff it has a result or the
    generated ones are the same. -/
theorem toolCallID_eq_iff (a b : String) (i : Nat) :
    toolCallID resp ("toolu_" ++ a) i = toolCallID resp ("toolu_" ++ b) i ↔
      (resp.toolResults.length ≤ i → a = b) := by
  unfold toolCallID
  cases hresult : resp.toolResults[i]? with
  | some result =>
    have hlt := (List.getElem?_eq_some_iff.mp hresult).1
    simp only [true_iff]
    omega
  | none =>
    have hle := List.getElem?_eq_none_iff.mp hresult
    simp [hle]

theorem streamedAnthropic_eq_iff (h : NoFaults cfg) (msgID : String) (streamID newID : Nat → String)
    (usage : AnthropicUsage) (thinkingText thinkingSig : String) :
    streamedAnthropic msgID streamID marshal resp cfg = some ((formatAnthropicResponse newID resp
        usage thinkingText thinkingSig).message marshal) ↔
      (resp.content = "" ∨ resp.refusal = "") ∧
      (∀ i, resp.toolResults.length ≤ i → i < resp.toolCalls.length →
        streamID i = newID (i + 1)) ∧
      ∀ tc ∈ resp.toolCalls, tc.arguments ≠ [] ∧
        ∀ k, cutsRune (marshal tc.arguments) (20 * k) = false := by
  have hinput : ∀ tc : ToolCallSpec,
      some ((chunkString (marshal tc.arguments) 20).map toValid).flatten =
        (if tc.arguments.isEmpty then none else some (toValid (marshal tc.arguments))) ↔
      tc.arguments ≠ [] ∧ ∀ k, cutsRune (marshal tc.arguments) (20 * k) = false := by
    intro tc
    cases hargs : tc.arguments with
    | nil => simp
    | cons f fs => simp [flatten_map_toValid_chunkString_iff (show 0 < 20 by omega)]
  rw [message_streamAnthropic h, message_formatAnthropicResponse, Option.some_inj,
    ClientMessage.mk.injEq, textBlock_append_iff (by simp), List.map_inj_left]
  simp only [and_true, streamedToolUse, ClientBlock.block, Block.toolCall.injEq, true_and, hinput,
    Bytes.ofString_inj, toolCallID_eq_iff]
  refine and_congr_right fun _ => ?_
  constructor
  · intro hall
    refine ⟨fun i hresults hcalls => ?_, fun tc htc => ?_⟩
    · exact (hall (resp.toolCalls[i], i) (List.mk_mem_zipIdx_iff_getElem?.mpr (by simp))).1 hresults
    · obtain ⟨i, hi⟩ := List.getElem?_of_mem htc
      exact (hall (tc, i) (List.mk_mem_zipIdx_iff_getElem?.mpr hi)).2
  · rintro ⟨hids, hargs⟩ ⟨tc, i⟩ hx
    have hi := List.mk_mem_zipIdx_iff_getElem?.mp hx
    exact ⟨fun hresults => hids i hresults (List.getElem?_eq_some_iff.mp hi).1,
      hargs tc (List.mem_of_getElem? hi)⟩

/-! ## Gemini -/

def streamedGemini (toUpper : String → String) (resp : Response) (cfg : Option StreamingConfig)
    (promptTokens candidateTokens : Int) : ClientMessage Fields :=
  ((values (streamGemini toUpper resp cfg promptTokens candidateTokens)).foldl
    GeminiMessage.add {}).message

/-- The last frame of a stream. -/
def finishResponse (toUpper : String → String) (resp : Response)
    (promptTokens candidateTokens : Int) : GeminiResponse :=
  { parts := [], finishReason := geminiFinishReasonOf toUpper resp
    usage := some (geminiUsage promptTokens candidateTokens) }

def partResponse (part : GeminiPart) : GeminiResponse := { parts := [part] }

/-- The parts that a stream without faults sends, one in each frame. -/
def geminiParts (resp : Response) (cfg : Option StreamingConfig) : List GeminiPart :=
  ((newChunker (streamChunkSize cfg)).chunk (ofString (textBody resp))).map .text ++
    resp.toolCalls.map fun tc => .functionCall tc.name tc.arguments

theorem values_streamGemini (h : NoFaults cfg) (toUpper : String → String)
    (promptTokens candidateTokens : Int) :
    values (streamGemini toUpper resp cfg promptTokens candidateTokens) =
      (geminiParts resp cfg).map partResponse ++
        [finishResponse toUpper resp promptTokens candidateTokens] := by
  have hframes : streamGemini toUpper resp cfg promptTokens candidateTokens =
      ((geminiParts resp cfg).map partResponse ++
        [finishResponse toUpper resp promptTokens candidateTokens]).map Frame.data := by
    simp [streamGemini, geminiParts, partResponse, finishResponse, pacedChunks_eq h.1, h.2,
      Function.comp_def]
  rw [hframes, values_map_data]

theorem foldl_geminiParts (parts : List GeminiPart) (m : GeminiMessage) :
    (parts.map partResponse).foldl GeminiMessage.add m =
      { m with parts := (parts.map (·.received)).foldl addPart m.parts } := by
  induction parts generalizing m with
  | nil => rfl
  | cons part parts ih =>
    rw [map_cons, foldl_cons, ih]
    rfl

theorem foldl_addPart_text (pieces : List Bytes) (parts : List GeminiPart) (s : Bytes) :
    (pieces.map GeminiPart.text).foldl addPart (parts ++ [.text s]) =
      parts ++ [.text (s ++ pieces.flatten)] := by
  rw [List.foldl_map, ← List.flatMap_id]
  refine foldl_extend _ (fun s => parts ++ [.text s]) id (fun s t => ?_) pieces s
  simp [addPart]

theorem foldl_receivedChunks (text : String) :
    ((receivedChunks cfg text).map GeminiPart.text).foldl addPart [] =
      if text = "" then [] else [.text (chunkedText cfg text)] := by
  have hnil := chunkedText_eq_nil_iff cfg text
  rw [← flatten_receivedChunks] at hnil ⊢
  cases hpieces : receivedChunks cfg text with
  | nil =>
    rw [hpieces] at hnil
    rw [if_pos (hnil.mp rfl)]
    rfl
  | cons t pieces =>
    by_cases htext : text = ""
    · subst htext
      cases hpieces
    · rw [if_neg htext, map_cons, foldl_cons, List.flatten_cons]
      exact foldl_addPart_text pieces [] t

theorem foldl_functionCalls (calls : List ToolCallSpec) (parts : List GeminiPart) :
    (calls.map fun tc => GeminiPart.functionCall tc.name tc.arguments).foldl addPart parts =
      parts ++ calls.map fun tc => .functionCall tc.name tc.arguments := by
  rw [List.foldl_map, List.map_eq_flatMap]
  exact foldl_extend _ (fun s => s) (fun tc => [.functionCall tc.name tc.arguments])
    (fun _ _ => rfl) calls parts

def functionCallBlock (tc : ToolCallSpec) : Block Fields :=
  .toolCall [] (ofString tc.name) tc.arguments

def geminiReason (toUpper : String → String) (resp : Response) : Option Bytes :=
  if geminiFinishReasonOf toUpper resp = "" then none
  else some (ofString (geminiFinishReasonOf toUpper resp))

theorem message_streamGemini (h : NoFaults cfg) (toUpper : String → String)
    (promptTokens candidateTokens : Int) :
    streamedGemini toUpper resp cfg promptTokens candidateTokens =
      { blocks := textBlock (ofString (textBody resp)) ++ resp.toolCalls.map functionCallBlock
        refusal := none
        reason := geminiReason toUpper resp } := by
  have hreceived : (geminiParts resp cfg).map (·.received) =
      (receivedChunks cfg (textBody resp)).map GeminiPart.text ++
        resp.toolCalls.map fun tc => .functionCall tc.name tc.arguments := by
    rw [geminiParts, map_append, map_map, map_map, receivedChunks, map_map]
    rfl
  have htext : (if textBody resp = "" then []
      else [GeminiPart.text (chunkedText cfg (textBody resp))]).map (·.block) =
        textBlock (ofString (textBody resp)) := by
    rw [textBlock_ofString]
    split
    · rfl
    · rw [map_singleton, GeminiPart.block, fields_chunkedText]
  rw [streamedGemini, values_streamGemini h, foldl_append, foldl_geminiParts, hreceived,
    foldl_append, foldl_receivedChunks, foldl_functionCalls]
  simp only [foldl_cons, foldl_nil, GeminiMessage.add, finishResponse, List.map_nil,
    GeminiMessage.message, map_append, htext, map_map]
  rfl

theorem message_formatGeminiResponse (toUpper : String → String)
    (promptTokens candidateTokens : Int) :
    (formatGeminiResponse toUpper resp promptTokens candidateTokens).message =
      { blocks := textBlock (ofString resp.content) ++ textBlock (ofString resp.refusal) ++
          resp.toolCalls.map functionCallBlock
        refusal := none
        reason := geminiReason toUpper resp } := by
  have htext : ∀ text, (textOrNone GeminiPart.text text).map (fun part => part.received.block) =
      textBlock (ofString text) := by
    intro text
    rw [← List.filterMap_eq_map]
    apply filterMap_textOrNone
    exact fun _ => rfl
  rw [GeminiResponse.message, formatGeminiResponse, map_append, map_append, htext, htext,
    map_map]
  rfl

theorem streamedGemini_eq_iff (h : NoFaults cfg) (toUpper : String → String)
    (promptTokens candidateTokens : Int) :
    streamedGemini toUpper resp cfg promptTokens candidateTokens =
        (formatGeminiResponse toUpper resp promptTokens candidateTokens).message ↔
      resp.content = "" ∨ resp.refusal = "" := by
  rw [message_streamGemini h, message_formatGeminiResponse, ClientMessage.mk.injEq,
    textBlock_append_iff rfl]
  simp

/-! ## The three providers -/

/-- The responses whose streams carry the message of the response. -/
structure StreamsAlike (marshal : Fields → Bytes) (streamID newID : Nat → String)
    (resp : Response) : Prop where
  /-- There is no content besides a refusal. -/
  text : resp.content = "" ∨ resp.refusal = ""
  /-- The generated identifiers of the tool calls without a result are the same. -/
  ids : ∀ i, resp.toolResults.length ≤ i → i < resp.toolCalls.length → streamID i = newID (i + 1)
  present : ∀ tc ∈ resp.toolCalls, tc.arguments ≠ []
  /-- No piece of 20 bytes of an argument text ends inside a character. -/
  pieces : ∀ tc ∈ resp.toolCalls, ∀ k, cutsRune (argumentsText marshal tc) (20 * k) = false ∧
    cutsRune (marshal tc.arguments) (20 * k) = false

end

/-- Without faults, the streams of a response carry the message of the response that is not
    streamed iff it has no content besides a refusal, its tool calls have results and
    arguments, and no piece of an argument text ends inside a character. -/
theorem streams_agree_iff (marshal : Fields → Bytes) (toUpper : String → String)
    (streamID newID : Nat → String) (resp : Response) {cfg : Option StreamingConfig}
    (hcfg : NoFaults cfg) (id responseID : String)
    (created promptTokens completionTokens : Int) (usage : AnthropicUsage)
    (thinkingText thinkingSig : String) :
    streamedOpenAI id created marshal resp cfg = some (formatOpenAIResponse responseID created
        marshal resp promptTokens completionTokens).message ∧
      streamedAnthropic id streamID marshal resp cfg = some ((formatAnthropicResponse newID resp
        usage thinkingText thinkingSig).message marshal) ∧
      streamedGemini toUpper resp cfg promptTokens completionTokens =
        (formatGeminiResponse toUpper resp promptTokens completionTokens).message ↔
    StreamsAlike marshal streamID newID resp := by
  rw [streamedOpenAI_eq_iff hcfg, streamedAnthropic_eq_iff hcfg, streamedGemini_eq_iff hcfg]
  constructor
  · rintro ⟨htexts, ⟨htext, hids, hargs⟩, _⟩
    exact ⟨htext, hids, fun tc htc => (hargs tc htc).1,
      fun tc htc k => ⟨htexts tc htc k, (hargs tc htc).2 k⟩⟩
  · intro h
    exact ⟨fun tc htc k => (h.pieces tc htc k).1, ⟨h.text, h.ids, fun tc htc =>
      ⟨h.present tc htc, fun k => (h.pieces tc htc k).2⟩⟩, h.text⟩

theorem noFaults_none : NoFaults none := ⟨Int.le_refl 0, rfl⟩

/-- A call of a weather tool and its result. -/
def answeredWeather : Response :=
  { weatherResponse "Boston, Massachusetts" with
    toolResults := [{ id := "call_7", toolName := "get_weather" }] }

theorem answeredWeather_agrees :
    streamedGemini id answeredWeather none 9 7 =
      (formatGeminiResponse id answeredWeather 9 7).message := by
  have halike : StreamsAlike marshalArguments (fun _ => "1") (fun _ => "2") answeredWeather := by
    refine ⟨.inl rfl, fun i hresults hcalls => ?_, fun tc htc => ?_, fun tc htc k => ?_⟩
    · exact absurd hcalls (Nat.not_lt.mpr hresults)
    · obtain rfl := List.mem_singleton.mp htc
      exact List.cons_ne_nil _ _
    · obtain rfl := List.mem_singleton.mp htc
      exact ⟨cutsRune_boston k, cutsRune_boston k⟩
  exact ((streams_agree_iff marshalArguments id (fun _ => "1") (fun _ => "2") answeredWeather
    noFaults_none "1" "2" 0 9 7 ⟨9, none, none, 7⟩ "" "").mpr halike).2.2

/-- A content with a refusal. -/
def refusedReport : Response where
  agentName := "reporter"
  model := "claude-sonnet"
  content := "Here is the summary."
  refusal := "I cannot share the details."
  scenarioName := "report"

/-- The stream leaves the refusal out. -/
theorem refusal_not_streamed :
    streamedAnthropic "1" (fun _ => "1") marshalArguments refusedReport none = some
      { blocks := [.text (fields (ofString "Here is the summary."))]
        refusal := none
        reason := some (ofString "refusal") } ∧
    (formatAnthropicResponse (fun _ => "1") refusedReport ⟨9, none, none, 7⟩ "" "").message
        marshalArguments =
      { blocks := [.text (fields (ofString "Here is the summary.")),
          .text (fields (ofString "I cannot share the details."))]
        refusal := none
        reason := some (ofString "refusal") } := by
  rw [message_streamAnthropic noFaults_none, message_formatAnthropicResponse]
  exact ⟨rfl, rfl⟩

end MockAgents
