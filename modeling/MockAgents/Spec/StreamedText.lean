import MockAgents.Adapter.Format

/-!
# Streamed text

A client that concatenates the text deltas of a stream should get the text of the response
that is not streamed. The chunker cuts a text into words and puts single spaces between
them, so this is so iff the text is single-spaced. A response with both a content and a
refusal is a second difference: Anthropic and Gemini streams leave the refusal out.
-/

namespace MockAgents

open Bytes (join fields isSingleSpaced)
open Bytes (ofString)
open List (append_nil flatten_append flatten_cons map_append map_cons map_id' map_map mem_append
  mem_cons mem_map)
open Chunker (newChunker)

/-! ## The chunker -/

namespace Chunker

/-- Some words, and then the others: a space is put between them if there are others. -/
theorem join_take_drop (n : Nat) (hn : 0 < n) (words : List Bytes) :
    join [32] (words.take n) ++ (if words.drop n = [] then [] else [32]) ++
      join [32] (words.drop n) = join [32] words := by
  induction words generalizing n with
  | nil => simp
  | cons w words ih =>
    obtain ⟨n, rfl⟩ : ∃ k, n = k + 1 := ⟨n - 1, by omega⟩
    cases words with
    | nil => simp
    | cons w' words =>
      cases n with
      | zero => simp [Bytes.join_cons_cons]
      | succ n =>
        have htail := ih (n + 1) (by omega)
        simp only [List.take_succ_cons, List.drop_succ_cons, Bytes.join_cons_cons] at htail ⊢
        rw [← htail]
        simp

variable (c : Chunker)

/-- The chunks are the words joined with single spaces, whatever the chunk size. -/
theorem flatten_chunkWords (fuel : Nat) (words : List Bytes) (hfuel : words.length ≤ fuel) :
    (c.chunkWords fuel words).flatten = join [32] words := by
  induction fuel generalizing words with
  | zero =>
    obtain rfl := List.length_eq_zero_iff.mp (by omega : words.length = 0)
    simp [chunkWords]
  | succ fuel ih =>
    cases words with
    | nil => simp [chunkWords]
    | cons w words =>
      have hpos := c.pos
      have hrest : ((w :: words).drop c.chunkSize).length ≤ fuel := by
        rw [List.length_drop]
        omega
      rw [chunkWords, flatten_cons, ih _ hrest, join_take_drop _ hpos]
      simp

theorem flatten_chunk {content : Bytes} (h : fields content ≠ []) :
    (c.chunk content).flatten = join [32] (fields content) := by
  have hne : content ≠ [] := by
    rintro rfl
    exact h rfl
  rw [chunk, if_neg hne, if_neg h, c.flatten_chunkWords _ _ (Nat.le_refl _)]

theorem flatten_chunk_eq_iff (content : Bytes) :
    (c.chunk content).flatten = content ↔ isSingleSpaced content = true := by
  by_cases hwords : fields content = []
  · have hspace : isSingleSpaced content = true := by
      rw [isSingleSpaced, (Bytes.fields_eq_nil_iff content).mp hwords, Bool.true_or]
    rw [hspace, eq_self, iff_true, chunk]
    split
    · rename_i hnil
      rw [hnil]
      rfl
    · simp [hwords]
  · rw [c.flatten_chunk hwords, Bytes.join_fields_eq_iff hwords]

theorem length_flatten_chunk_le (content : Bytes) :
    (c.chunk content).flatten.length ≤ content.length := by
  by_cases hwords : fields content = []
  · rw [chunk]
    split
    · simp
    · simp [hwords]
  · rw [c.flatten_chunk hwords]
    exact Bytes.length_join_fields_le content

end Chunker

/-! ## Streams without truncation -/

theorem Pacer.emitChunks_eq {F : Type} {p : Pacer} (hp : p.truncateAfter ≤ 0) (frame : Bytes → F)
    (i : Nat) (chunks : List Bytes) : p.emitChunks frame i chunks = (chunks.map frame, false) := by
  induction chunks generalizing i with
  | nil => rfl
  | cons c cs ih =>
    have hnot : p.beforeChunk i = false := by
      simp only [beforeChunk, decide_eq_false_iff_not]
      omega
    rw [emitChunks, hnot, ih]
    rfl

/-- No mid-stream truncation is configured. -/
def NotTruncated (cfg : Option StreamingConfig) : Prop := (Pacer.newPacer cfg).truncateAfter ≤ 0

theorem pacedChunks_eq {F : Type} {cfg : Option StreamingConfig} (h : NotTruncated cfg)
    (frame : Bytes → F) (text : String) :
    pacedChunks cfg frame text = (((newChunker (streamChunkSize cfg)).chunk
      (ofString text)).map frame, false) := by
  unfold pacedChunks
  split
  · rename_i hempty
    rw [hempty]
    rfl
  · exact Pacer.emitChunks_eq h frame 0 _

/-! ## What a client concatenates -/

/-- The concatenation of what `text` finds in the frames that a client can read. -/
def deltaText {α : Type} (text : α → Bytes) (frames : List (Frame α)) : Bytes :=
  ((Frame.values frames).map text).flatten

section

variable {α β : Type} (text : α → Bytes)

@[simp] theorem deltaText_nil : deltaText text [] = [] := rfl

@[simp] theorem deltaText_append (l l' : List (Frame α)) :
    deltaText text (l ++ l') = deltaText text l ++ deltaText text l' := by
  simp [deltaText, Frame.values]

@[simp] theorem deltaText_data (a : α) (l : List (Frame α)) :
    deltaText text (.data a :: l) = text a ++ deltaText text l := rfl

theorem deltaText_map (g : β → α) (l : List β) :
    deltaText text (l.map fun b => .data (g b)) = (l.map fun b => text (g b)).flatten := by
  induction l with
  | nil => rfl
  | cons b l ih => rw [map_cons, deltaText_data, ih, map_cons, flatten_cons]

theorem deltaText_ite_nil {c : Prop} [Decidable c] {l l' : List (Frame α)}
    (h : deltaText text l = []) (h' : deltaText text l' = []) :
    deltaText text (if c then l else l') = [] := by
  split
  · exact h
  · exact h'

theorem flatten_map_nil {g : β → Bytes} {l : List β} (h : ∀ b ∈ l, g b = []) :
    (l.map g).flatten = [] := by
  induction l with
  | nil => rfl
  | cons b l ih =>
    rw [map_cons, flatten_cons, h b (by simp), ih fun x hx => h x (by simp [hx])]
    rfl

end

def AnthropicEvent.text : AnthropicEvent → Bytes
  | .contentBlockDelta _ (.text text) => text
  | _ => []

def GeminiPart.textOf : GeminiPart → Bytes
  | .text t => t
  | .functionCall .. => []

def GeminiResponse.text (r : GeminiResponse) : Bytes := (r.parts.map GeminiPart.textOf).flatten

def AnthropicContent.textOf : AnthropicContent → Bytes
  | .text t => t
  | .thinking .. => []
  | .toolUse .. => []

def AnthropicResponse.text (r : AnthropicResponse) : Bytes :=
  (r.content.map AnthropicContent.textOf).flatten

def ChatCompletionResponse.text (r : ChatCompletionResponse) : Bytes := r.content.getD []

def ResponsePart.text : ResponsePart → Bytes
  | .outputText text => text
  | .refusal _ => []

def ResponseItem.text : ResponseItem → Bytes
  | .message _ _ _ content => (content.map ResponsePart.text).flatten
  | .functionCall .. => []

def ResponsesResponse.text (r : ResponsesResponse) : Bytes :=
  (r.output.map ResponseItem.text).flatten

def ResponsesEvent.text : ResponsesEvent → Bytes
  | .outputTextDelta _ _ delta => delta
  | _ => []

/-- The text of the deltas of a stream of the Responses API. -/
def responsesText (events : List (ResponsesEvent × Nat)) : Bytes :=
  (events.map fun e => e.1.text).flatten

/-! ## The text of each stream -/

variable {cfg : Option StreamingConfig} {resp : Response} {marshal : Fields → Bytes}

def chunkedText (cfg : Option StreamingConfig) (text : String) : Bytes :=
  ((newChunker (streamChunkSize cfg)).chunk (ofString text)).flatten

theorem deltaText_streamOpenAI (h : NotTruncated cfg) (id : String) (created : Int) :
    deltaText (fun c => c.delta.content) (streamOpenAI id created marshal resp cfg) =
      chunkedText cfg resp.content := by
  have htools : ∀ d ∈ openAIToolCallDeltas marshal resp, d.content = [] := by
    intro d hd
    obtain ⟨⟨tc, i⟩, _, hd⟩ := List.mem_flatMap.mp hd
    rcases mem_cons.mp hd with rfl | hd
    · rfl
    · obtain ⟨piece, _, rfl⟩ := mem_map.mp hd
      rfl
  simp only [streamOpenAI, pacedChunks_eq h, deltaText_append, deltaText_data, deltaText_nil,
    deltaText_map, List.nil_append, map_id', Bool.false_eq_true, if_false]
  rw [deltaText_ite_nil _ rfl rfl, deltaText_ite_nil _ rfl, append_nil, append_nil]
  · rfl
  · rw [deltaText_append, deltaText_map, flatten_map_nil htools]
    rfl

theorem deltaText_streamAnthropic (h : NotTruncated cfg) (msgID : String) (newID : Nat → String) :
    deltaText AnthropicEvent.text (streamAnthropic msgID newID marshal resp cfg) =
      chunkedText cfg (textBody resp) := by
  have htools : ∀ (first : Nat), ∀ e ∈ (resp.toolCalls.zipIdx).flatMap (fun x =>
      anthropicToolUse marshal newID resp (first + x.2) x.2 x.1), e.text = [] := by
    intro first e he
    obtain ⟨x, _, he⟩ := List.mem_flatMap.mp he
    simp only [anthropicToolUse, mem_append, List.mem_singleton, mem_map] at he
    rcases he with (rfl | ⟨piece, _, rfl⟩) | rfl <;> rfl
  simp only [streamAnthropic, pacedChunks_eq h, deltaText_append, deltaText_data, deltaText_nil,
    deltaText_map, Bool.false_eq_true, if_false]
  rw [deltaText_ite_nil _ rfl rfl, deltaText_ite_nil _ rfl rfl, deltaText_ite_nil _ rfl,
    append_nil]
  · simp [AnthropicEvent.text, chunkedText]
  · rw [deltaText_append, deltaText_map, flatten_map_nil (htools _)]
    rfl

theorem GeminiResponse.text_textPart (b : Bytes) :
    GeminiResponse.text { parts := [.text b] } = b := by
  simp [GeminiResponse.text, GeminiPart.textOf]

theorem deltaText_streamGemini (h : NotTruncated cfg) (toUpper : String → String)
    (promptTokens candidateTokens : Int) :
    deltaText GeminiResponse.text (streamGemini toUpper resp cfg promptTokens candidateTokens) =
      chunkedText cfg (textBody resp) := by
  have htools : ∀ tc ∈ resp.toolCalls,
      GeminiResponse.text { parts := [.functionCall tc.name tc.arguments] } = [] := fun _ _ => rfl
  simp only [streamGemini, pacedChunks_eq h, deltaText_append, deltaText_map,
    GeminiResponse.text_textPart, map_id', Bool.false_eq_true, if_false]
  rw [deltaText_ite_nil _ rfl, append_nil]
  · rfl
  · rw [deltaText_append, deltaText_map, flatten_map_nil htools]
    rfl

/-- The text of the events of one item after another. -/
theorem flatten_text_items {f : ResponseItem → Nat → List ResponsesEvent}
    {g : ResponseItem → Bytes}
    (h : ∀ item idx, ((f item idx).map ResponsesEvent.text).flatten = g item)
    (items : List ResponseItem) (k : Nat) :
    (((items.zipIdx k).flatMap fun (item, idx) => f item idx).map ResponsesEvent.text).flatten =
      (items.map g).flatten := by
  induction items generalizing k with
  | nil => rfl
  | cons item items ih =>
    rw [List.zipIdx_cons, List.flatMap_cons, map_append, flatten_append, h, ih,
      map_cons, flatten_cons]

/-- The text that an item is streamed as: that of its first part, in chunks. -/
def ResponseItem.streamedText (chunker : Chunker) : ResponseItem → Bytes
  | .message _ _ _ (.outputText text :: _) => (chunker.chunk text).flatten
  | _ => []

theorem flatten_text_streamItem (chunker : Chunker) (item : ResponseItem) (idx : Nat) :
    ((streamItem chunker idx item).map ResponsesEvent.text).flatten =
      item.streamedText chunker := by
  cases item with
  | message id status role content =>
    cases content with
    | nil => rfl
    | cons part parts =>
      cases part with
      | outputText text =>
        have hdeltas : (((chunker.chunk text).map (ResponsesEvent.outputTextDelta id idx)).map
            ResponsesEvent.text).flatten = (chunker.chunk text).flatten := by
          rw [map_map]
          exact congrArg List.flatten (map_id' _)
        simp only [streamItem, List.head?_cons, Option.map_some, Option.getD_some, streamPart,
          map_append, flatten_append, hdeltas]
        simp [ResponsesEvent.text, ResponseItem.streamedText]
      | refusal refusal => rfl
  | functionCall id callID name arguments status =>
    have hdeltas : (((chunkString arguments 20).map
        (ResponsesEvent.functionCallArgumentsDelta id idx)).map ResponsesEvent.text).flatten =
          [] := by
      rw [map_map]
      exact flatten_map_nil fun _ _ => rfl
    simp only [streamItem, map_append, flatten_append, hdeltas]
    rfl

theorem responsesText_streamResponses (out : ResponsesResponse) (cfg : Option StreamingConfig) :
    responsesText (streamResponses out cfg) =
      (out.output.map (ResponseItem.streamedText
        (newChunker (streamChunkSize cfg)))).flatten := by
  have hfst : ∀ events : List ResponsesEvent,
      responsesText events.zipIdx = (events.map ResponsesEvent.text).flatten := by
    intro events
    have hmap : (events.zipIdx.map fun e => e.1.text) =
        (events.zipIdx.map Prod.fst).map ResponsesEvent.text := by
      rw [map_map]
      rfl
    rw [responsesText, hmap, List.zipIdx_map_fst]
  have hfinal : ResponsesEvent.text
      (if out.status = "incomplete" then .incomplete out else .completed out) = [] := by
    split <;> rfl
  simp only [streamResponses, hfst, map_append, flatten_append,
    flatten_text_items (flatten_text_streamItem _), map_cons, List.map_nil,
    flatten_cons, hfinal]
  exact append_nil _

/-! ## The text of each response -/

theorem text_formatOpenAIResponse (newID : String) (created promptTokens completionTokens : Int) :
    (formatOpenAIResponse newID created marshal resp promptTokens completionTokens).text =
      ofString resp.content := by
  unfold formatOpenAIResponse ChatCompletionResponse.text
  split
  · rename_i hempty
    rw [hempty]
    rfl
  · rfl

theorem flatten_textOrNone {α : Type} {block : Bytes → α} {textOf : α → Bytes}
    (h : ∀ b, textOf (block b) = b) (text : String) :
    ((textOrNone block text).map textOf).flatten = ofString text := by
  unfold textOrNone
  split
  · rename_i hempty
    rw [hempty]
    rfl
  · simp [h]

theorem text_formatAnthropicResponse (newID : Nat → String) (usage : AnthropicUsage)
    (thinkingText thinkingSig : String) :
    (formatAnthropicResponse newID resp usage thinkingText thinkingSig).text =
      ofString resp.content ++ ofString resp.refusal := by
  have hthinking : ((if thinkingText = "" then []
      else [AnthropicContent.thinking thinkingText thinkingSig]).map
        AnthropicContent.textOf).flatten = [] := by
    split <;> rfl
  have htext : ∀ text, ((textOrNone AnthropicContent.text text).map
      AnthropicContent.textOf).flatten = ofString text := flatten_textOrNone fun _ => rfl
  rw [AnthropicResponse.text, formatAnthropicResponse]
  simp only [map_append, flatten_append, hthinking, htext, map_map,
    List.nil_append]
  exact (congrArg (_ ++ ·) (flatten_map_nil fun _ _ => rfl)).trans (append_nil _)

theorem text_formatGeminiResponse (toUpper : String → String) (promptTokens candidateTokens : Int) :
    (formatGeminiResponse toUpper resp promptTokens candidateTokens).text =
      ofString resp.content ++ ofString resp.refusal := by
  have htext : ∀ text, ((textOrNone GeminiPart.text text).map GeminiPart.textOf).flatten =
      ofString text := flatten_textOrNone fun _ => rfl
  rw [GeminiResponse.text, formatGeminiResponse]
  simp only [map_append, flatten_append, htext, map_map]
  exact (congrArg (_ ++ ·) (flatten_map_nil fun _ _ => rfl)).trans (append_nil _)

/-- What `g` finds in the output items: only a text part of the message counts. -/
theorem flatten_map_buildResponsesOutput {g : ResponseItem → Bytes} {f : Bytes → Bytes}
    (hcall : ∀ id callID name arguments status,
      g (.functionCall id callID name arguments status) = [])
    (hrefusal : ∀ id status role refusal, g (.message id status role [.refusal refusal]) = [])
    (htext : ∀ id status role text, g (.message id status role [.outputText text]) = f text)
    (hnil : f [] = []) (newID : Nat → String) :
    ((buildResponsesOutput newID marshal resp).map g).flatten =
      if resp.refusal = "" then f (ofString resp.content) else [] := by
  have hcalls : ∀ item : ToolCallSpec × Nat → ResponseItem, (∀ x, g (item x) = []) →
      (((resp.toolCalls.zipIdx).map item).map g).flatten = [] := by
    intro item hitem
    rw [map_map]
    exact flatten_map_nil fun x _ => hitem x
  rw [buildResponsesOutput, map_append, flatten_append, hcalls _ fun _ => hcall ..,
    responseMessage]
  by_cases hr : resp.refusal = ""
  · simp only [hr, ne_eq, not_true_eq_false, if_false, if_true, textOrNone]
    split
    · rename_i hempty
      rw [hempty]
      exact hnil.symm
    · simp [htext]
  · simp [hr, hrefusal]

theorem text_buildResponsesResponse (id : String) (newID : Nat → String) :
    (buildResponsesResponse id newID marshal resp).text =
      if resp.refusal = "" then ofString resp.content else [] :=
  flatten_map_buildResponsesOutput (f := fun text => text) (fun _ _ _ _ _ => rfl)
    (fun _ _ _ _ => rfl) (fun _ _ _ text => append_nil text) rfl newID

theorem responsesText_buildResponsesResponse (id : String) (newID : Nat → String) :
    responsesText (streamResponses (buildResponsesResponse id newID marshal resp) cfg) =
      if resp.refusal = "" then chunkedText cfg resp.content else [] := by
  rw [responsesText_streamResponses]
  exact flatten_map_buildResponsesOutput
    (f := fun text => ((newChunker (streamChunkSize cfg)).chunk text).flatten)
    (fun _ _ _ _ _ => rfl) (fun _ _ _ _ => rfl) (fun _ _ _ _ => rfl) rfl newID

/-- Only an item whose first part is a text has a `response.output_text.done` event. -/
theorem mem_streamItem_outputTextDone {chunker : Chunker} {item : ResponseItem} {k idx : Nat}
    {itemID : String} {text : Bytes}
    (h : ResponsesEvent.outputTextDone itemID idx text ∈ streamItem chunker k item) :
    ∃ id status role parts, item = .message id status role (.outputText text :: parts) := by
  cases item with
  | functionCall id callID name arguments status =>
    simp [streamItem] at h
  | message id status role content =>
    cases content with
    | nil => simp [streamItem] at h
    | cons part parts =>
      cases part with
      | refusal refusal => simp [streamItem, streamPart] at h
      | outputText t =>
        simp only [streamItem, List.head?_cons, Option.map_some, Option.getD_some, streamPart,
          mem_append, mem_cons, mem_map, List.not_mem_nil, or_false,
          reduceCtorEq, false_or, and_false, exists_false, ResponsesEvent.outputTextDone.injEq] at h
        exact ⟨id, status, role, parts, by rw [h.2.2]⟩

theorem outputTextDone_text {id itemID : String} {newID : Nat → String} {idx n : Nat} {text : Bytes}
    (h : (.outputTextDone itemID idx text, n) ∈
      streamResponses (buildResponsesResponse id newID marshal resp) cfg) :
    text = (buildResponsesResponse id newID marshal resp).text := by
  have hmem := List.fst_mem_of_mem_zipIdx h
  have hfinal : ∀ out : ResponsesResponse, ResponsesEvent.outputTextDone itemID idx text ≠
      if out.status = "incomplete" then .incomplete out else .completed out := by
    intro out
    split <;> exact nofun
  simp only [mem_append, mem_cons, List.not_mem_nil, or_false, reduceCtorEq, false_or,
    hfinal] at hmem
  obtain ⟨⟨item, i⟩, hitem, hevent⟩ := List.mem_flatMap.mp hmem
  obtain ⟨_, _, _, _, rfl⟩ := mem_streamItem_outputTextDone hevent
  have hout := List.fst_mem_of_mem_zipIdx hitem
  rw [text_buildResponsesResponse]
  -- the item is the message of the response
  rcases mem_append.mp hout with hmessage | hcall
  · unfold responseMessage textOrNone at hmessage
    by_cases hrefusal : resp.refusal = ""
    · by_cases hcontent : resp.content = ""
      · simp [hrefusal, hcontent] at hmessage
      · simp only [hrefusal, hcontent, ne_eq, not_true_eq_false, if_false, List.mem_singleton,
          ResponseItem.message.injEq, List.cons.injEq, ResponsePart.outputText.injEq] at hmessage
        rw [if_pos hrefusal]
        exact hmessage.2.2.2.1
    · simp [hrefusal] at hmessage
  · obtain ⟨_, _, hcall⟩ := mem_map.mp hcall
    cases hcall

/-! ## Same text -/

theorem chunkedText_eq_iff (cfg : Option StreamingConfig) (text : String) :
    chunkedText cfg text = ofString text ↔ isSingleSpaced (ofString text) = true :=
  Chunker.flatten_chunk_eq_iff _ _

/-- The text of content and refusal is streamed as it is iff there is only one of them and
    it is single-spaced. -/
theorem chunkedText_textBody_eq_iff (cfg : Option StreamingConfig) (resp : Response) :
    chunkedText cfg (textBody resp) = ofString resp.content ++ ofString resp.refusal ↔
      (resp.content = "" ∨ resp.refusal = "") ∧
        isSingleSpaced (ofString (textBody resp)) = true := by
  have hempty : ofString "" = [] := rfl
  by_cases hcontent : resp.content = ""
  · rw [hcontent, hempty, List.nil_append, textBody, if_pos hcontent, chunkedText_eq_iff]
    simp
  · rw [textBody, if_neg hcontent]
    by_cases hrefusal : resp.refusal = ""
    · rw [hrefusal, hempty, append_nil, chunkedText_eq_iff]
      simp
    · -- what is streamed is no longer than the content
      have hlen : (chunkedText cfg resp.content).length ≤ (ofString resp.content).length :=
        Chunker.length_flatten_chunk_le _ _
      have hpos : 0 < (ofString resp.refusal).length := by
        rw [List.length_pos_iff, Ne, Bytes.ofString_eq_nil_iff]
        exact hrefusal
      simp only [hcontent, hrefusal, or_self, false_and, iff_false]
      intro heq
      rw [heq, List.length_append] at hlen
      omega

/-- What a rendering draws from elsewhere: identifiers, the time, token counts, the thinking
    block of an Anthropic response, and two functions of the standard library. -/
structure RenderEnv where
  id : String
  newID : Nat → String
  created : Int
  promptTokens : Int
  completionTokens : Int
  usage : AnthropicUsage
  thinkingText : String
  thinkingSig : String
  marshal : Fields → Bytes
  toUpper : String → String

/-- A client of each of the four streams gets the text of the response that is not
    streamed. -/
structure SameText (env : RenderEnv) (resp : Response) (cfg : Option StreamingConfig) : Prop where
  openAI : deltaText (fun c => c.delta.content)
      (streamOpenAI env.id env.created env.marshal resp cfg) =
    (formatOpenAIResponse env.id env.created env.marshal resp env.promptTokens
      env.completionTokens).text
  anthropic : deltaText AnthropicEvent.text
      (streamAnthropic env.id env.newID env.marshal resp cfg) =
    (formatAnthropicResponse env.newID resp env.usage env.thinkingText env.thinkingSig).text
  gemini : deltaText GeminiResponse.text
      (streamGemini env.toUpper resp cfg env.promptTokens env.completionTokens) =
    (formatGeminiResponse env.toUpper resp env.promptTokens env.completionTokens).text
  responses : responsesText
      (streamResponses (buildResponsesResponse env.id env.newID env.marshal resp) cfg) =
    (buildResponsesResponse env.id env.newID env.marshal resp).text
  responsesDone : ∀ itemID idx text n, (.outputTextDone itemID idx text, n) ∈
      streamResponses (buildResponsesResponse env.id env.newID env.marshal resp) cfg →
    text = (buildResponsesResponse env.id env.newID env.marshal resp).text

/-- The chunks of a text give it back, whatever the chunk size, iff it is white space only
    or its words are separated by single spaces with nothing around them. The streams of a
    response carry the text of the response iff it does not have both a content and a
    refusal, and its text is of that form. -/
theorem streamed_text_iff (env : RenderEnv) (resp : Response) (cfg : Option StreamingConfig) :
    (∀ (chunkSize : Int) (content : Bytes),
      ((newChunker chunkSize).chunk content).flatten = content ↔
        isSingleSpaced content = true) ∧
    (NotTruncated cfg →
      (SameText env resp cfg ↔
        (resp.content = "" ∨ resp.refusal = "") ∧
          isSingleSpaced (ofString (textBody resp)) = true)) := by
  refine ⟨fun chunkSize => Chunker.flatten_chunk_eq_iff _, fun h => ?_⟩
  constructor
  · intro hsame
    have hanthropic := hsame.anthropic
    rw [deltaText_streamAnthropic h, text_formatAnthropicResponse] at hanthropic
    exact (chunkedText_textBody_eq_iff cfg resp).mp hanthropic
  · intro hcond
    have hbody := (chunkedText_textBody_eq_iff cfg resp).mpr hcond
    have hcontent : chunkedText cfg resp.content = ofString resp.content := by
      by_cases hempty : resp.content = ""
      · rw [hempty]
        rfl
      · rw [textBody, if_neg hempty] at hcond
        exact (chunkedText_eq_iff cfg resp.content).mpr hcond.2
    refine ⟨?_, ?_, ?_, ?_, fun itemID idx text n => outputTextDone_text⟩
    · rw [deltaText_streamOpenAI h, text_formatOpenAIResponse, hcontent]
    · rw [deltaText_streamAnthropic h, text_formatAnthropicResponse, hbody]
    · rw [deltaText_streamGemini h, text_formatGeminiResponse, hbody]
    · rw [responsesText_buildResponsesResponse, text_buildResponsesResponse, hcontent]

/-! ## Sample responses -/

def replyWith (content : String) : Response where
  agentName := "bot"
  model := "m"
  content := content
  scenarioName := "default"

def sampleEnv : RenderEnv where
  id := "1"
  newID := fun i => toString i
  created := 0
  promptTokens := 1
  completionTokens := 1
  usage := ⟨1, none, none, 1⟩
  thinkingText := ""
  thinkingSig := ""
  marshal := fun _ => ofString "[]"
  toUpper := fun s => s

theorem sentence_streamed :
    NotTruncated none ∧ SameText sampleEnv (replyWith "The quick brown fox jumps") none := by
  have hcfg : NotTruncated none := Int.le_refl 0
  refine ⟨hcfg, ((streamed_text_iff sampleEnv _ none).2 hcfg).mpr ⟨.inr rfl, ?_⟩⟩
  decide

def paragraphs : String := "First.\n\nSecond."

/-- The line breaks are streamed as one space, at every chunk size, while the response that
    is not streamed has them. -/
theorem paragraphs_not_streamed :
    (∀ chunkSize : Int, ((newChunker chunkSize).chunk
      (ofString paragraphs)).flatten = ofString "First. Second.") ∧
    deltaText (fun c => c.delta.content)
        (streamOpenAI sampleEnv.id sampleEnv.created sampleEnv.marshal (replyWith paragraphs)
          none) = ofString "First. Second." ∧
      (formatOpenAIResponse sampleEnv.id sampleEnv.created sampleEnv.marshal
        (replyWith paragraphs) 1 1).text = ofString paragraphs ∧
      ¬ SameText sampleEnv (replyWith paragraphs) none := by
  have hchunks : ∀ chunkSize : Int, ((newChunker chunkSize).chunk
      (ofString paragraphs)).flatten = ofString "First. Second." := by
    intro chunkSize
    rw [Chunker.flatten_chunk _ (by decide)]
    decide
  have hcfg : NotTruncated none := Int.le_refl 0
  refine ⟨hchunks, ?_, text_formatOpenAIResponse .., fun hsame => ?_⟩
  · rw [deltaText_streamOpenAI hcfg]
    exact hchunks _
  · exact absurd hsame.openAI (by decide)

end MockAgents
