import MockAgents.Spec.StreamClient

/-!
# Streamed tool arguments

The arguments of a tool call are streamed in pieces of 20 bytes, and each piece is a JSON
string of its own. A client that decodes the frames and concatenates the pieces should get
the arguments of the response that is not streamed. It does iff no piece ends inside a
character: the encoder writes U+FFFD for every byte of a character that is cut in two.

Anthropic's response that is not streamed leaves empty arguments out, while the stream
sends the text that `json.Marshal` gives for them.
-/

namespace MockAgents

open Bytes (ofString toValid cutsRune)

/-! ## Pieces of a text -/

variable {size : Nat}

theorem length_toValid_le_chunkBytes (hsize : 0 < size) {fuel : Nat} {s : Bytes}
    (hfuel : s.length ≤ fuel) :
    (toValid s).length ≤ ((chunkBytes size fuel s).map toValid).flatten.length := by
  induction fuel generalizing s with
  | zero =>
    obtain rfl := List.length_eq_zero_iff.mp (by omega : s.length = 0)
    exact Nat.le_refl 0
  | succ fuel ih =>
    cases s with
    | nil => exact Nat.le_refl 0
    | cons b s =>
      have hle := Bytes.length_toValid_le (b :: s) size
      have hrest : ((b :: s).drop size).length ≤ fuel := by
        simp only [List.length_drop, List.length_cons] at hfuel ⊢
        omega
      have htail := ih hrest
      rw [chunkBytes, List.map_cons, List.flatten_cons, List.length_append]
      · omega
      · simp

/-- The pieces of a text are read as the text iff no piece ends inside a rune. -/
theorem flatten_map_toValid_chunkBytes_iff (hsize : 0 < size) {fuel : Nat} {s : Bytes}
    (hfuel : s.length ≤ fuel) :
    ((chunkBytes size fuel s).map toValid).flatten = toValid s ↔
      ∀ k, cutsRune s (size * k) = false := by
  induction fuel generalizing s with
  | zero =>
    obtain rfl := List.length_eq_zero_iff.mp (by omega : s.length = 0)
    exact ⟨fun _ _ => rfl, fun _ => rfl⟩
  | succ fuel ih =>
    cases s with
    | nil => exact ⟨fun _ _ => rfl, fun _ => rfl⟩
    | cons b s =>
      have hrest : ((b :: s).drop size).length ≤ fuel := by
        simp only [List.length_drop, List.length_cons] at hfuel ⊢
        omega
      have hpieces : ((chunkBytes size (fuel + 1) (b :: s)).map toValid).flatten =
          toValid ((b :: s).take size) ++
            ((chunkBytes size fuel ((b :: s).drop size)).map toValid).flatten := by
        rw [chunkBytes, List.map_cons, List.flatten_cons]
        simp
      rw [hpieces]
      cases hcut : cutsRune (b :: s) size with
      | true =>
        -- the first cut makes the pieces too long, and the others do not make up for it
        have hlt := Bytes.length_toValid_lt hcut
        have htail := length_toValid_le_chunkBytes hsize hrest
        constructor
        · intro h
          have hlen := congrArg List.length h
          rw [List.length_append] at hlen
          omega
        · intro h
          have hone := h 1
          rw [Nat.mul_one, hcut] at hone
          cases hone
      | false =>
        rw [← Bytes.toValid_take_drop hcut, List.append_cancel_left_eq, ih hrest]
        constructor
        · intro h k
          cases k with
          | zero => exact Bytes.cutsSeg_zero _
          | succ k => rw [Nat.mul_succ, Nat.add_comm, ← Bytes.cutsRune_drop hcut, h k]
        · intro h k
          rw [Bytes.cutsRune_drop hcut, ← h (k + 1), Nat.mul_succ, Nat.add_comm]

/-- The pieces of an argument text are read as the text iff none ends inside a rune. -/
theorem flatten_map_toValid_chunkString_iff (hsize : 0 < size) (s : Bytes) :
    ((chunkString s size).map toValid).flatten = toValid s ↔
      ∀ k, cutsRune s (size * k) = false := by
  by_cases hs : s = []
  · subst hs
    exact ⟨fun _ _ => rfl, fun _ => by simp [chunkString]⟩
  · rw [chunkString, if_neg (by simp [hs]; omega)]
    exact flatten_map_toValid_chunkBytes_iff hsize (Nat.le_refl _)

/-! ## What a client puts together -/

/-- Of the blocks that a loop writes, only the `i`-th has something for the index `i`. -/
theorem flatMap_zipIdx_eq {α β : Type} {f : α × Nat → List β} {i : Nat} (l : List α) (k : Nat)
    (h : ∀ a j, j ≠ k + i → f (a, j) = []) {a : α} (ha : l[i]? = some a) :
    (l.zipIdx k).flatMap f = f (a, k + i) := by
  induction l generalizing i k with
  | nil => cases ha
  | cons b l ih =>
    rw [List.zipIdx_cons, List.flatMap_cons]
    cases i with
    | zero =>
      obtain rfl : b = a := by simpa using ha
      have hrest : (l.zipIdx (k + 1)).flatMap f = [] := by
        rw [List.flatMap_eq_nil_iff]
        rintro ⟨c, j⟩ hc
        have hj := (List.mem_zipIdx hc).1
        exact h c j (by omega)
      rw [hrest, List.append_nil, Nat.add_zero]
    | succ i =>
      have htail := ih (i := i) (k + 1) (fun c j hj => h c j (by omega)) (by simpa using ha)
      rw [h b k (by omega), List.nil_append, htail]
      congr 2
      omega

/-- The pieces of the arguments of the tool call with an index. -/
def ClientChunk.argumentsFor (i : Nat) (c : ClientChunk) : Bytes :=
  (c.toolCalls.filter fun tc => tc.1 = i).flatMap fun tc => tc.2.arguments

/-- The piece of the input of the content block with an index. -/
def ClientEvent.inputFor (i : Nat) : ClientEvent → Bytes
  | .inputDelta index text => if index = i then text else []
  | _ => []

/-- The piece of the arguments of the output item with an index. -/
def ArgumentsDelta.argumentsFor (idx : Nat) : Option ArgumentsDelta → Bytes
  | some d => if d.outputIndex = idx then d.delta else []
  | none => []

section

variable (marshal : Fields → Bytes) (resp : Response)

def openAIToolCallsText (id : String) (created : Int) : Bytes :=
  ((openAIToolCallDeltas marshal resp).map fun delta =>
    ({ id := id, created := created, model := resp.model, delta := delta }
      : ChatCompletionChunk)).flatMap (·.write)

/-- The text that the tool loop of `StreamAnthropic` writes, from a block index on. -/
def anthropicToolUsesText (newID : Nat → String) (blockIndex : Nat) : Bytes :=
  ((resp.toolCalls.zipIdx).flatMap fun (tc, i) =>
    anthropicToolUse marshal newID resp (blockIndex + i) i tc).flatMap (·.write)

/-- The text that `streamFunctionCallItem` and its counterpart for messages write for an
    item, from a sequence number on. -/
def streamItemText (response : ResponsesResponse → Json) (chunker : Chunker) (seq idx : Nat)
    (item : ResponseItem) : Bytes :=
  ((streamItem chunker idx item).zipIdx seq).flatMap (ResponsesEvent.write response)

end

/-- The arguments of a tool call that a client puts together from an OpenAI stream. -/
def openAIArguments (stream : Bytes) (i : Nat) : Option Bytes :=
  (readFrames ClientChunk.ofJson stream).map fun chunks => chunks.flatMap (·.argumentsFor i)

/-- The input of a content block that a client puts together from an Anthropic stream. -/
def anthropicInput (stream : Bytes) (index : Nat) : Option Bytes :=
  (readFrames ClientEvent.ofJson stream).map fun events => events.flatMap (·.inputFor index)

/-- The arguments of an output item that a client puts together from a Responses stream. -/
def responsesArguments (stream : Bytes) (idx : Nat) : Option Bytes :=
  (readFrames ArgumentsDelta.ofJson stream).map fun deltas =>
    deltas.flatMap (ArgumentsDelta.argumentsFor idx)

variable {marshal : Fields → Bytes} {resp : Response} {i : Nat} {tc : ToolCallSpec}

theorem flatMap_pieces {α : Type} {g : α → Bytes} {frame : Bytes → α} {read : Bytes → Bytes}
    (h : ∀ piece, g (frame piece) = read piece) (pieces : List Bytes) :
    (pieces.map frame).flatMap g = (pieces.map read).flatten := by
  rw [List.flatMap_map, List.flatMap_def]
  simp [h]

theorem openAIArguments_eq (id : String) (created : Int) (htc : resp.toolCalls[i]? = some tc) :
    openAIArguments (openAIToolCallsText marshal resp id created) i =
      some ((chunkString (argumentsText marshal tc) 20).map toValid).flatten := by
  rw [openAIArguments, openAIToolCallsText, readFrames_chunks, Option.map_some, List.map_map,
    List.flatMap_map, openAIToolCallDeltas, List.flatMap_assoc,
    flatMap_zipIdx_eq resp.toolCalls 0 _ htc]
  · rw [List.flatMap_cons, flatMap_pieces fun piece => ?_]
    · simp [ChatCompletionChunk.received, ChunkToolCall.received, ClientChunk.argumentsFor]
      rfl
    · simp [ChatCompletionChunk.received, ChunkToolCall.received, ClientChunk.argumentsFor]
  · intro a j hj
    have hj : j ≠ i := by omega
    rw [List.flatMap_eq_nil_iff]
    intro d hd
    rcases List.mem_cons.mp hd with rfl | hd
    · simp [ChatCompletionChunk.received, ChunkToolCall.received, ClientChunk.argumentsFor, hj]
    · obtain ⟨piece, _, rfl⟩ := List.mem_map.mp hd
      simp [ChatCompletionChunk.received, ChunkToolCall.received, ClientChunk.argumentsFor, hj]

theorem anthropicInput_eq (newID : Nat → String) (blockIndex : Nat)
    (htc : resp.toolCalls[i]? = some tc) :
    anthropicInput (anthropicToolUsesText marshal resp newID blockIndex) (blockIndex + i) =
      some ((chunkString (marshal tc.arguments) 20).map toValid).flatten := by
  rw [anthropicInput, anthropicToolUsesText, readFrames_events, Option.map_some,
    List.flatMap_map, List.flatMap_assoc, flatMap_zipIdx_eq resp.toolCalls 0 _ htc]
  · simp only [Nat.zero_add, anthropicToolUse, List.flatMap_append]
    rw [flatMap_pieces fun piece => ?_]
    · simp [AnthropicEvent.received, ClientEvent.inputFor]
      rfl
    · simp [AnthropicEvent.received, ClientEvent.inputFor]
  · intro a j hj
    have hj : j ≠ i := by omega
    rw [List.flatMap_eq_nil_iff]
    intro e he
    simp only [anthropicToolUse, List.mem_append, List.mem_singleton, List.mem_map] at he
    obtain (rfl | ⟨piece, _, rfl⟩) | rfl := he
    · rfl
    · simp [AnthropicEvent.received, ClientEvent.inputFor, hj]
    · rfl

theorem responsesArguments_eq (response : ResponsesResponse → Json) (chunker : Chunker)
    (seq idx : Nat) (id callID name : String) (arguments : Bytes) (status : String) :
    responsesArguments (streamItemText response chunker seq idx
      (.functionCall id callID name arguments status)) idx =
      some ((chunkString arguments 20).map toValid).flatten := by
  generalize hitem : ResponseItem.functionCall id callID name arguments status = item
  have hwritable : ∀ e ∈ (streamItem chunker idx item).zipIdx seq,
      (e.1.toJson response e.2).Writable Json.maxNestingDepth := by
    subst hitem
    exact fun e he => ResponsesEvent.writable_functionCall response
      (List.fst_mem_of_mem_zipIdx he) e.2
  have hread : readFrames ArgumentsDelta.ofJson (((streamItem chunker idx item).zipIdx seq).flatMap
      (ResponsesEvent.write response)) =
        some (((streamItem chunker idx item).zipIdx seq).map fun e => e.1.argumentsDelta) :=
    readFrames_write (fun e he rest => sseData_writeEvent (hwritable e he) e.1.type_line rest)
      hwritable fun e _ => ArgumentsDelta.ofJson_toJson response e.2 e.1
  have hfst : (((streamItem chunker idx item).zipIdx seq).map fun e => e.1.argumentsDelta) =
      (streamItem chunker idx item).map (·.argumentsDelta) := by
    have hmap := congrArg (List.map ResponsesEvent.argumentsDelta)
      (List.zipIdx_map_fst seq (streamItem chunker idx item))
    rw [List.map_map] at hmap
    exact hmap
  rw [responsesArguments, streamItemText, hread, hfst, Option.map_some, List.flatMap_map, ← hitem]
  simp only [streamItem, List.flatMap_append]
  rw [flatMap_pieces fun piece => ?_]
  · simp [ResponsesEvent.argumentsDelta, ArgumentsDelta.argumentsFor]
    rfl
  · simp [ResponsesEvent.argumentsDelta, ArgumentsDelta.argumentsFor]

/-! ## Responses that are not streamed -/

/-- The arguments that a client reads in the text of a tool call of OpenAI. -/
def OpenAIToolCall.readArguments (text : Bytes) : Option Bytes := do
  let function ← (← Json.decode text).field "function"
  (← function.field "arguments").text?

def ResponseItem.readArguments (text : Bytes) : Option Bytes := do
  (← (← Json.decode text).field "arguments").text?

/-- The text of the `input` of a content block as a client reads it. It is left out if it is
    empty. -/
def AnthropicContent.inputText (marshal : Fields → Bytes) : AnthropicContent → Option Bytes
  | .toolUse _ _ input => if input.isEmpty then none else some (toValid (marshal input))
  | .text .. | .thinking .. => none

def AnthropicContent.isToolUse : AnthropicContent → Bool
  | .toolUse .. => true
  | .text .. | .thinking .. => false

def ChatCompletionResponse.carriedArguments (r : ChatCompletionResponse) (i : Nat) :
    Option Bytes :=
  r.toolCalls[i]?.bind fun tc => OpenAIToolCall.readArguments (tc.toJson.encode true)

def AnthropicResponse.carriedInput (marshal : Fields → Bytes) (r : AnthropicResponse) (i : Nat) :
    Option Bytes :=
  (r.content.filter (·.isToolUse))[i]?.bind (·.inputText marshal)

def ResponsesResponse.carriedArguments (r : ResponsesResponse) (n : Nat) : Option Bytes :=
  r.output[n]?.bind fun item => ResponseItem.readArguments (item.toJson.encode true)

/-- The arguments that a client puts together from the stream of the `n`-th output item. -/
def ResponsesResponse.streamedArguments (response : ResponsesResponse → Json) (chunker : Chunker)
    (seq : Nat) (r : ResponsesResponse) (n : Nat) : Option Bytes :=
  r.output[n]?.bind fun item => responsesArguments (streamItemText response chunker seq n item) n

theorem OpenAIToolCall.readArguments_toJson (tc : OpenAIToolCall) :
    OpenAIToolCall.readArguments (tc.toJson.encode true) = some (toValid tc.arguments) := by
  have hwritable : tc.toJson.Writable (0 + 2) := by simp [OpenAIToolCall.toJson]
  rw [OpenAIToolCall.readArguments, Json.decode_encode (hwritable.mono (by decide))]
  simp [OpenAIToolCall.toJson, Json.field_object]

theorem ResponseItem.readArguments_toJson (id callID name : String) (arguments : Bytes)
    (status : String) :
    ResponseItem.readArguments
      ((ResponseItem.functionCall id callID name arguments status).toJson.encode true) =
      some (toValid arguments) := by
  have hwritable : (ResponseItem.functionCall id callID name arguments status).toJson.Writable
      (0 + 1) := by simp [ResponseItem.toJson]
  rw [ResponseItem.readArguments, Json.decode_encode (hwritable.mono (by decide))]
  simp [ResponseItem.toJson, Json.field_object]

/-! ## Streams and responses -/

theorem carriedArguments_formatOpenAIResponse (newID : String) (created promptTokens
    completionTokens : Int) (htc : resp.toolCalls[i]? = some tc) :
    (formatOpenAIResponse newID created marshal resp promptTokens
      completionTokens).carriedArguments i = some (toValid (argumentsText marshal tc)) := by
  simp [ChatCompletionResponse.carriedArguments, formatOpenAIResponse, htc,
    OpenAIToolCall.readArguments_toJson]

theorem carriedInput_formatAnthropicResponse (newID : Nat → String) (usage : AnthropicUsage)
    (thinkingText thinkingSig : String) (htc : resp.toolCalls[i]? = some tc) :
    (formatAnthropicResponse newID resp usage thinkingText thinkingSig).carriedInput marshal i =
      if tc.arguments.isEmpty then none else some (toValid (marshal tc.arguments)) := by
  have htext : ∀ text, (textOrNone AnthropicContent.text text).filter (·.isToolUse) = [] := by
    intro text
    unfold textOrNone
    split <;> rfl
  have hthinking : (if thinkingText = "" then []
      else [AnthropicContent.thinking thinkingText thinkingSig]).filter (·.isToolUse) = [] := by
    split <;> rfl
  have htools : ∀ l : List (ToolCallSpec × Nat), (l.map fun (tc, i) => AnthropicContent.toolUse
      (toolCallID resp ("toolu_" ++ newID (i + 1)) i) tc.name tc.arguments).filter (·.isToolUse) =
        l.map fun (tc, i) => AnthropicContent.toolUse
          (toolCallID resp ("toolu_" ++ newID (i + 1)) i) tc.name tc.arguments := by
    intro l
    rw [List.filter_eq_self]
    intro c hc
    obtain ⟨_, _, rfl⟩ := List.mem_map.mp hc
    rfl
  rw [AnthropicResponse.carriedInput, formatAnthropicResponse, List.filter_append,
    List.filter_append, List.filter_append, hthinking, htext, htext, htools]
  simp [htc, AnthropicContent.inputText]

theorem output_functionCall (id : String) (newID : Nat → String)
    (htc : resp.toolCalls[i]? = some tc) :
    (buildResponsesResponse id newID marshal resp).output[
        (responseMessage newID resp).length + i]? =
      some (.functionCall ("fc_" ++ newID (2 * i + 2)) (responseCallID newID resp i) tc.name
        (argumentsText marshal tc) "completed") := by
  rw [buildResponsesResponse, buildResponsesOutput, List.getElem?_append_right (by omega)]
  simp [htc]

/-- The arguments of a tool call that the three streams carry are those of the responses
    that are not streamed iff the arguments are not empty and no piece of 20 bytes ends
    inside a character. -/
theorem streamed_arguments_iff (marshal : Fields → Bytes) (resp : Response) {i : Nat}
    {tc : ToolCallSpec} (htc : resp.toolCalls[i]? = some tc)
    (id responseID : String) (newID streamID : Nat → String)
    (created promptTokens completionTokens : Int) (usage : AnthropicUsage)
    (thinkingText thinkingSig : String) (blockIndex seq : Nat) (chunker : Chunker)
    (response : ResponsesResponse → Json) :
    openAIArguments (openAIToolCallsText marshal resp id created) i =
        (formatOpenAIResponse responseID created marshal resp promptTokens
          completionTokens).carriedArguments i ∧
      anthropicInput (anthropicToolUsesText marshal resp streamID blockIndex) (blockIndex + i) =
        (formatAnthropicResponse newID resp usage thinkingText thinkingSig).carriedInput
          marshal i ∧
      (buildResponsesResponse responseID newID marshal resp).streamedArguments response chunker seq
          ((responseMessage newID resp).length + i) =
        (buildResponsesResponse responseID newID marshal resp).carriedArguments
          ((responseMessage newID resp).length + i) ↔
    (∀ k, cutsRune (argumentsText marshal tc) (20 * k) = false) ∧
      tc.arguments ≠ [] ∧ ∀ k, cutsRune (marshal tc.arguments) (20 * k) = false := by
  have hpieces := flatten_map_toValid_chunkString_iff (show 0 < 20 by omega)
  rw [openAIArguments_eq id created htc, carriedArguments_formatOpenAIResponse _ _ _ _ htc,
    anthropicInput_eq streamID blockIndex htc, carriedInput_formatAnthropicResponse _ _ _ _ htc,
    ResponsesResponse.streamedArguments, ResponsesResponse.carriedArguments,
    output_functionCall responseID newID htc, Option.bind_some, Option.bind_some,
    responsesArguments_eq, ResponseItem.readArguments_toJson, Option.some_inj, hpieces]
  constructor
  · rintro ⟨htext, hinput, _⟩
    by_cases hempty : tc.arguments.isEmpty
    · -- the response has no input without arguments, the stream has one
      rw [if_pos hempty] at hinput
      cases hinput
    · rw [if_neg hempty, Option.some_inj, hpieces] at hinput
      exact ⟨htext, fun hnil => hempty (by rw [hnil]; rfl), hinput⟩
  · rintro ⟨htext, hne, hinput⟩
    have hempty : ¬ tc.arguments.isEmpty = true := by simpa using hne
    rw [if_neg hempty, Option.some_inj, hpieces]
    exact ⟨htext, hinput, htext⟩

def weatherCall (city : String) : ToolCallSpec :=
  { name := "get_weather", arguments := [("city", .str city)] }

def weatherResponse (city : String) : Response where
  agentName := "weather"
  model := "gpt-4o"
  content := ""
  toolCalls := [weatherCall city]
  scenarioName := "forecast"

theorem toolCalls_weatherResponse (city : String) :
    (weatherResponse city).toolCalls[0]? = some (weatherCall city) := rfl

/-- `json.Marshal` of arguments without floating-point numbers. -/
def marshalArguments : Fields → Bytes := marshalFields fun _ => []

theorem cutsRune_boston (k : Nat) :
    cutsRune (marshalArguments (weatherCall "Boston, Massachusetts").arguments) (20 * k) =
      false := by
  by_cases hk : k < 2
  · have hall : ∀ k < 2, cutsRune
        (marshalArguments (weatherCall "Boston, Massachusetts").arguments) (20 * k) = false := by
      decide
    exact hall k hk
  · have hlength : (marshalArguments (weatherCall "Boston, Massachusetts").arguments).length =
        32 := by decide
    exact Bytes.cutsRune_of_length_le (by omega)

theorem boston_streamed :
    openAIArguments (openAIToolCallsText marshalArguments (weatherResponse "Boston, Massachusetts")
        "chatcmpl-1" 0) 0 =
      (formatOpenAIResponse "1" 0 marshalArguments (weatherResponse "Boston, Massachusetts") 9
        7).carriedArguments 0 := by
  exact ((streamed_arguments_iff marshalArguments (weatherResponse "Boston, Massachusetts")
    (toolCalls_weatherResponse _) "chatcmpl-1" "1" (fun _ => "1") (fun _ => "2") 0 9 7
    ⟨9, none, none, 7⟩ "" "" 0 0 (Chunker.newChunker 4) (fun _ => .null)).mpr
    ⟨cutsRune_boston, by simp [weatherCall], cutsRune_boston⟩).1

/-- A city name that is cut inside a character: the three bytes of the character are
    streamed as three U+FFFD. -/
theorem kyoto_not_streamed :
    openAIArguments (openAIToolCallsText marshalArguments (weatherResponse "Kyoto 京都市")
        "chatcmpl-1" 0) 0 =
      some (ofString "\x7b\"city\":\"Kyoto 京\uFFFD\uFFFD\uFFFD市\"\x7d") ∧
    openAIArguments (openAIToolCallsText marshalArguments (weatherResponse "Kyoto 京都市")
        "chatcmpl-1" 0) 0 ≠
      (formatOpenAIResponse "1" 0 marshalArguments (weatherResponse "Kyoto 京都市") 9
        7).carriedArguments 0 := by
  rw [openAIArguments_eq "chatcmpl-1" 0 (toolCalls_weatherResponse _),
    carriedArguments_formatOpenAIResponse _ _ _ _ (toolCalls_weatherResponse _)]
  decide

end MockAgents
