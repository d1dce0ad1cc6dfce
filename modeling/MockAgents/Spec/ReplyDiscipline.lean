import MockAgents.ForStd.List
import MockAgents.Mcp.Stdio

/-!
# Replies to requests and notifications

By the rules of JSON-RPC a server answers every request, in a response with the request's id,
and no notification. `Handle` looks at the id only for an unknown method, and `HandleBytes`
forgets it when a line is not decoded. So some notifications are answered, and some requests
are not.
-/

namespace MockAgents

open Bytes (trimSpace ofString)
open Json (IsWritable IsLit written writtenObject)
open Json (isWritable_object isWritable_text value)
open Option (any_some map_eq_some_iff)

/-! ## The rules -/

/-- An id, where `null` is none. -/
def nonNull : Option Json → Option Json
  | some .null => none
  | id => id

/-- The id in a line: the value of its last member of this name. -/
def lineId (body : Bytes) : Option Json :=
  nonNull <| (Json.parse body).bind fun t =>
    ((t.members.filter fun m => keyNames "id" m.1).getLast?).map fun m => m.2.value

/-- The line is a request without an id. -/
def isNotificationLine (body : Bytes) : Bool :=
  (RPCRequest.unmarshal body).any RPCRequest.isNotification

/-- The line is no notification, so it is owed a reply. -/
def isOwed (body : Bytes) : Bool := !isNotificationLine body

/-- The lines that are not blank, without the white space around them. -/
def bodies (lines : List Bytes) : List Bytes := (lines.map trimSpace).filter fun body => body ≠ []

/-- A response on one line, with this id and either a result or an error. -/
structure IsReply (id : Option Json) (reply : Bytes) : Prop where
  oneLine : 10 ∉ reply
  response : ∃ t : Json, Json.IsTextOf reply t ∧ t.value.field "jsonrpc" = some (.text "2.0") ∧
    nonNull (t.value.field "id") = id ∧
    (t.value.field "result").isSome = !(t.value.field "error").isSome

/-- The output is one reply a line, to each line of the input that is not blank and no
    notification, in order. -/
def IsDisciplined (input output : Bytes) : Prop :=
  ∃ replies : List Bytes, output = replies.flatMap (· ++ [10]) ∧
    List.Forall₂ (fun body reply => IsReply (lineId body) reply)
      ((bodies (scanLines input)).filter isOwed) replies

/-- The line is treated as it should be: a line that is no request has no id, a notification
    is `notifications/initialized` or unknown, and a request with an id is anything else. -/
def IsWellTreated (body : Bytes) : Prop :=
  match RPCRequest.unmarshal body with
  | none => lineId body = none
  | some req =>
    if req.isNotification then
      req.jsonrpc = "2.0" ∧
        (Method.ofName req.method = some .initialized ∨ Method.ofName req.method = none)
    else ¬ (req.jsonrpc = "2.0" ∧ Method.ofName req.method = some .initialized)

def SchemasEncode (lib : MCPLib) (definition : MCPServerDefinition) : Prop :=
  ∀ t ∈ definition.spec.tools, (lib.marshalSchema t.inputSchema).isSome

/-! ## The JSON of results -/

section

variable {α : Type} {toJson : α → Json}

theorem isWritable_arr_map {l : List α} (h : ∀ a ∈ l, IsWritable (toJson a)) :
    IsWritable (.arr (l.map toJson)) := by
  refine Json.isWritable_arr fun v hv => ?_
  obtain ⟨a, ha, rfl⟩ := List.mem_map.mp hv
  exact h a ha

theorem isWritable_sliceJson (h : ∀ a, IsWritable (toJson a)) (l : Option (List α)) :
    IsWritable (sliceJson toJson l) := by
  cases l with
  | none => exact Json.isWritable_null
  | some l => exact isWritable_arr_map fun a _ => h a

end

/-- Every value of the members can be encoded. -/
def MembersWritable (l : List (String × Json)) : Prop := ∀ m ∈ l, IsWritable m.2

section

variable {l l' : List (String × Json)} (key : String)

@[simp] theorem isWritable_object_iff : IsWritable (.object l) ↔ MembersWritable l := by
  refine ⟨fun ⟨d, hd⟩ m hm => ?_, isWritable_object⟩
  exact ⟨d, (Json.writable_object_iff d l).mp (hd.mono d.le_succ) m hm⟩

@[simp] theorem membersWritable_nil : MembersWritable [] := by simp [MembersWritable]

@[simp] theorem membersWritable_cons {v : Json} :
    MembersWritable ((key, v) :: l) ↔ IsWritable v ∧ MembersWritable l :=
  List.forall_mem_cons

@[simp] theorem membersWritable_append :
    MembersWritable (l ++ l') ↔ MembersWritable l ∧ MembersWritable l' :=
  List.forall_mem_append

@[simp] theorem membersWritable_omitText (s : String) : MembersWritable (omitText key s) :=
  Json.isWritable_omitEmpty key _

@[simp] theorem membersWritable_omitFalse (b : Bool) : MembersWritable (omitFalse key b) := by
  cases b <;> simp [omitFalse]

end

theorem MCPContentBlock.isWritable_toJson (b : MCPContentBlock) : IsWritable b.toJson := by
  unfold MCPContentBlock.toJson
  split <;> simp

variable {lib : MCPLib} {e : ToolListEntry} {v : Json}

theorem ToolListEntry.isWritable_toJson (h : e.toJson lib = some v) : IsWritable v := by
  unfold ToolListEntry.toJson at h
  split at h
  · cases h
    simp
  · obtain ⟨schema, hschema, rfl⟩ := map_eq_some_iff.mp h
    simpa using lib.writable_schema hschema

theorem ResourceListEntry.isWritable_toJson (e : ResourceListEntry) : IsWritable e.toJson := by
  simp [ResourceListEntry.toJson]

theorem ResourceContents.isWritable_toJson (c : ResourceContents) : IsWritable c.toJson := by
  simp [ResourceContents.toJson]

theorem MCPPromptArg.isWritable_toJson (a : MCPPromptArg) : IsWritable a.toJson := by
  simp [MCPPromptArg.toJson]

theorem PromptListEntry.isWritable_toJson (e : PromptListEntry) : IsWritable e.toJson := by
  have hargs := isWritable_arr_map (l := e.arguments) fun a _ => a.isWritable_toJson
  unfold PromptListEntry.toJson
  split <;> simp [hargs]

theorem MCPPromptMessage.isWritable_toJson (m : MCPPromptMessage) : IsWritable m.toJson := by
  simp [MCPPromptMessage.toJson, m.content.isWritable_toJson]

theorem MCPCapabilities.isWritable_toJson (caps : MCPCapabilities) : IsWritable caps.toJson := by
  obtain ⟨tools, resources, prompts, logging⟩ := caps
  cases tools <;> cases resources <;> cases prompts <;> cases logging <;>
    simp [MCPCapabilities.toJson]

theorem MCPResult.isWritable_toJson {x : MCPResult} (h : x.toJson lib = some v) : IsWritable v := by
  cases x with
  | tools entries =>
    obtain ⟨l, hl, rfl⟩ := map_eq_some_iff.mp h
    have hall : ∀ v ∈ l, IsWritable v := by
      intro v hv
      obtain ⟨e, _, he⟩ := List.exists_of_mem_mapM hl hv
      exact ToolListEntry.isWritable_toJson he
    simpa using Json.isWritable_arr hall
  | empty =>
    cases h
    simp
  | init pv name caps =>
    cases h
    simp [caps.isWritable_toJson]
  | call content isError =>
    cases h
    simpa using isWritable_sliceJson MCPContentBlock.isWritable_toJson content
  | resources entries | contents entries | prompts entries =>
    cases h
    simpa using isWritable_arr_map fun e _ => e.isWritable_toJson
  | prompt description messages =>
    cases h
    simpa using isWritable_arr_map fun m _ => m.isWritable_toJson
  | completion values total hasMore =>
    cases h
    have hvalues := isWritable_sliceJson isWritable_text values
    split <;> simp [hvalues]

theorem ToolListEntry.isSome_toJson (h : (lib.marshalSchema e.inputSchema).isSome) :
    (e.toJson lib).isSome := by
  unfold ToolListEntry.toJson
  split
  · rfl
  · simpa using h

/-! ## Answers -/

/-- A response to a request with this id that can be encoded. -/
inductive IsAnswer (lib : MCPLib) (id : Option Json) : RPCResponse MCPResult → Prop
  | result {x : MCPResult} : (x.toJson lib).isSome → IsAnswer lib id (newResult id x)
  | error (code : Int) (message : String) {data : Option Json} :
      (∀ v ∈ data, IsWritable v) → IsAnswer lib id (newError id code message data)

namespace MCPServer

variable {lib : MCPLib} {s : MCPServer} {req : RPCRequest}

theorem isAnswer_invalidParams : IsAnswer lib req.id (invalidParams lib req) :=
  .error _ _ (by simp)

theorem isAnswer_missingField (message : String) :
    IsAnswer lib req.id (missingField req message) :=
  .error _ _ (by simp)

theorem isWritable_names (names : List String) : IsWritable (.arr (names.map .text)) :=
  isWritable_arr_map fun name _ => isWritable_text name

theorem isAnswer_handleToolsList (h : SchemasEncode lib s.definition) :
    IsAnswer lib req.id (s.handleToolsList req) := by
  refine .result ?_
  obtain ⟨l, hl⟩ : ∃ l, (s.definition.spec.tools.map fun t =>
      (⟨t.name, t.description, t.inputSchema⟩ : ToolListEntry)).mapM (ToolListEntry.toJson lib) =
        some l := by
    refine List.exists_mapM_eq_some fun e he => ?_
    obtain ⟨t, ht, rfl⟩ := List.mem_map.mp he
    exact ToolListEntry.isSome_toJson (h t ht)
  simp [MCPResult.toJson, hl]

theorem isAnswer_handleToolsCall : IsAnswer lib req.id (s.handleToolsCall lib req) := by
  fun_cases handleToolsCall lib s req
  · exact isAnswer_invalidParams
  · exact isAnswer_missingField _
  · exact .error _ _ (by simpa [available] using isWritable_names _)
  · rename_i params _ _ tool _
    refine .result ?_
    cases resolveToolResponse tool.responses params.arguments <;> rfl

theorem isAnswer_handleResourcesRead : IsAnswer lib req.id (s.handleResourcesRead lib req) := by
  fun_cases handleResourcesRead lib s req
  · exact isAnswer_invalidParams
  · exact .result rfl
  · exact .error _ _ (by simpa [available] using isWritable_names _)

theorem handleSubscription_spec (lib : MCPLib) (s : MCPServer) (req : RPCRequest)
    (update : GoMap String Bool → String → GoMap String Bool) :
    (s.handleSubscription lib req update).2.definition = s.definition ∧
      IsAnswer lib req.id (s.handleSubscription lib req update).1 := by
  fun_cases handleSubscription lib s req update
  · exact ⟨rfl, isAnswer_invalidParams⟩
  · exact ⟨rfl, isAnswer_missingField _⟩
  · exact ⟨rfl, .result rfl⟩

theorem isAnswer_handlePromptsGet : IsAnswer lib req.id (s.handlePromptsGet lib req) := by
  fun_cases handlePromptsGet lib s req
  · exact isAnswer_invalidParams
  · exact .result rfl
  · exact .error _ _ (by simp)

theorem isAnswer_handleCompletionComplete :
    IsAnswer lib req.id (s.handleCompletionComplete lib req) := by
  fun_cases handleCompletionComplete lib s req
  · exact isAnswer_invalidParams
  · exact isAnswer_missingField _
  · exact .result rfl

theorem handleLoggingSetLevel_spec :
    (s.handleLoggingSetLevel lib req).2.definition = s.definition ∧
      IsAnswer lib req.id (s.handleLoggingSetLevel lib req).1 := by
  fun_cases handleLoggingSetLevel lib s req
  · exact ⟨rfl, isAnswer_invalidParams⟩
  · exact ⟨rfl, isAnswer_missingField _⟩
  · exact ⟨rfl, .result rfl⟩
  · exact ⟨rfl, .error _ _ (by simpa using isWritable_names _)⟩

theorem isAnswer_serverInitiated : IsAnswer lib req.id (serverInitiated lib req) := by
  refine .error _ _ ?_
  simp only [Option.mem_some, forall_eq']
  exact isWritable_object (by simp)

/-- The server returns no response for these requests. -/
def isSilent (req : RPCRequest) : Bool :=
  req.jsonrpc = "2.0" &&
    match Method.ofName req.method with
    | some .initialized => true
    | some _ => false
    | none => req.isNotification

/-- What `Handle` returns: nothing, or an answer; and the definition stays the same. -/
theorem handle_spec (h : SchemasEncode lib s.definition) (req : RPCRequest) :
    (s.handle lib req).2.definition = s.definition ∧
      ((isSilent req = true ∧ (s.handle lib req).1 = none) ∨
        isSilent req = false ∧ ∃ r, (s.handle lib req).1 = some r ∧ IsAnswer lib req.id r) := by
  unfold handle isSilent
  by_cases hversion : req.jsonrpc = "2.0"
  · simp only [hversion, ne_eq, not_true, if_false, decide_true, Bool.true_and]
    cases Method.ofName req.method with
    | none =>
      cases req.isNotification with
      | true => exact ⟨rfl, .inl ⟨rfl, rfl⟩⟩
      | false => exact ⟨rfl, .inr ⟨rfl, _, rfl, .error _ _ (by simp)⟩⟩
    | some m =>
      cases m with
      | init | ping | resourcesList | promptsList => exact ⟨rfl, .inr ⟨rfl, _, rfl, .result rfl⟩⟩
      | initialized => exact ⟨rfl, .inl ⟨rfl, rfl⟩⟩
      | toolsList => exact ⟨rfl, .inr ⟨rfl, _, rfl, isAnswer_handleToolsList h⟩⟩
      | toolsCall => exact ⟨rfl, .inr ⟨rfl, _, rfl, isAnswer_handleToolsCall⟩⟩
      | resourcesRead => exact ⟨rfl, .inr ⟨rfl, _, rfl, isAnswer_handleResourcesRead⟩⟩
      | resourcesSubscribe =>
        obtain ⟨hdef, hanswer⟩ := handleSubscription_spec lib s req fun m uri => m.insert uri true
        exact ⟨hdef, .inr ⟨rfl, _, rfl, hanswer⟩⟩
      | resourcesUnsubscribe =>
        obtain ⟨hdef, hanswer⟩ := handleSubscription_spec lib s req fun m uri => m.erase uri
        exact ⟨hdef, .inr ⟨rfl, _, rfl, hanswer⟩⟩
      | promptsGet => exact ⟨rfl, .inr ⟨rfl, _, rfl, isAnswer_handlePromptsGet⟩⟩
      | completionComplete => exact ⟨rfl, .inr ⟨rfl, _, rfl, isAnswer_handleCompletionComplete⟩⟩
      | loggingSetLevel =>
        exact ⟨handleLoggingSetLevel_spec.1, .inr ⟨rfl, _, rfl, handleLoggingSetLevel_spec.2⟩⟩
      | samplingCreateMessage | rootsList =>
        exact ⟨rfl, .inr ⟨rfl, _, rfl, isAnswer_serverInitiated⟩⟩
  · rw [if_pos hversion, decide_eq_false hversion]
    exact ⟨rfl, .inr ⟨rfl, _, rfl, .error _ _ (by simp)⟩⟩

end MCPServer

/-! ## The text of an answer -/

variable {id : Option Json}

/-- The text of an object with a version, an id if there is one, and one more member. -/
theorem isReply_print {key : String} {x : Json} (hid : ∀ t ∈ id, IsLit t) (hx : IsLit x)
    (hkey : key = "result" ∨ key = "error") :
    IsReply (nonNull (id.map value))
      (writtenObject ([("jsonrpc", written (.text "2.0"))] ++
        (id.toList.map fun id => ("id", id.mapStr Json.escapeRaw)) ++ [(key, x)])).print := by
  have hlit : IsLit (writtenObject ([("jsonrpc", written (.text "2.0"))] ++
      (id.toList.map fun id => ("id", id.mapStr Json.escapeRaw)) ++ [(key, x)])) := by
    refine Json.isLit_writtenObject ?_
    simp only [List.forall_mem_append, List.forall_mem_singleton]
    refine ⟨⟨(isWritable_text "2.0").isLit_written, fun m hm => ?_⟩, hx⟩
    obtain ⟨t, ht, rfl⟩ := List.mem_map.mp hm
    exact (hid t (by simpa using ht)).escape
  refine ⟨hlit.not_mem_print, _, hlit.isTextOf, ?_⟩
  rw [Json.value_writtenObject]
  simp only [Json.field_object]
  cases id with
  | none => rcases hkey with rfl | rfl <;> simp [Json.value_written_text]
  | some t =>
    have hvalue := (hid t rfl).value_escape
    rcases hkey with rfl | rfl <;> simp [Json.value_written_text, hvalue]

theorem IsAnswer.isReply {r : RPCResponse MCPResult} (hid : ∀ t ∈ id, IsLit t)
    (h : IsAnswer lib id r) :
    ∃ out, r.marshal (MCPResult.toJson lib) = some out ∧
      IsReply (nonNull (id.map value)) out := by
  cases h with
  | @result x hx =>
    obtain ⟨v, hv⟩ := Option.isSome_iff_exists.mp hx
    refine ⟨_, by simp only [RPCResponse.marshal, newResult, hv]; rfl, ?_⟩
    simpa [RPCResponse.members, newResult] using
      isReply_print hid (MCPResult.isWritable_toJson hv).isLit_written (.inl rfl)
  | @error code message data hdata =>
    refine ⟨_, rfl, ?_⟩
    have herr : IsWritable (RPCError.toJson ⟨code, message, data⟩) := by
      refine isWritable_object (List.forall_mem_append.mpr ⟨by simp, fun m hm => ?_⟩)
      obtain ⟨v, hv, rfl⟩ := List.mem_map.mp hm
      exact hdata v (by simpa using hv)
    simpa [RPCResponse.members, newError] using isReply_print hid herr.isLit_written (.inr rfl)

/-! ## The id of a request -/

theorem keyNames_eq_false {a b : String} {key : Bytes} (h : keyNames a key = true)
    (hne : Interaction.foldName (ofString a) ≠ Interaction.foldName (ofString b)) :
    keyNames b key = false := by
  simp only [keyNames, decide_eq_true_eq, decide_eq_false_iff_not] at h ⊢
  exact h ▸ hne

variable {req req' : RPCRequest}

theorem RPCRequest.id_setMember {m : Bytes × Json} (h : req.setMember m = some req') :
    req'.id = if keyNames "id" m.1 then some m.2 else req.id := by
  revert h
  fun_cases RPCRequest.setMember req m <;> intro h
  · rename_i hkey
    obtain ⟨_, _, rfl⟩ := map_eq_some_iff.mp h
    rw [if_neg (by simp [keyNames_eq_false hkey (b := "id") (by decide)])]
  · cases h
    rw [if_pos ‹_›]
  · obtain ⟨_, _, rfl⟩ := map_eq_some_iff.mp h
    rw [if_neg ‹_›]
  · cases h
    rw [if_neg ‹_›]
  · cases h
    rw [if_neg ‹_›]

/-- The last member for the id is kept. -/
theorem RPCRequest.id_foldlM_setMember {ms : List (Bytes × Json)}
    (h : ms.foldlM setMember req = some req') :
    req'.id = (((ms.filter fun m => keyNames "id" m.1).getLast?).map Prod.snd).or req.id := by
  induction ms generalizing req with
  | nil =>
    cases h
    rfl
  | cons m ms ih =>
    rw [List.foldlM_cons] at h
    obtain ⟨p, hp, h⟩ := Option.bind_eq_some_iff.mp h
    rw [ih h, id_setMember hp, List.filter_cons]
    split
    · rw [List.getLast?_cons]
      cases (ms.filter fun m => keyNames "id" m.1).getLast? <;> rfl
    · rfl

variable {body : Bytes}

/-- The id that the server sees is that of the line. -/
theorem RPCRequest.id_of_unmarshal (h : RPCRequest.unmarshal body = some req) :
    (∀ t ∈ req.id, IsLit t) ∧ nonNull (req.id.map value) = lineId body := by
  obtain ⟨t, ht, hdecode⟩ := Option.bind_eq_some_iff.mp h
  have hlit := Json.lit_of_parse ht
  rw [lineId, ht]
  unfold decodeStruct at hdecode
  split at hdecode
  · cases hdecode
    exact ⟨by simp, rfl⟩
  · rename_i ms
    have hid := id_foldlM_setMember hdecode
    rw [Option.or_none] at hid
    refine ⟨fun t ht => ?_, ?_⟩
    · rw [hid] at ht
      obtain ⟨m, hm, rfl⟩ := map_eq_some_iff.mp ht
      have hmem := (List.mem_filter.mp (List.mem_of_getLast? hm)).1
      cases hlit with
      | obj _ hmembers => exact ⟨_, hmembers m hmem⟩
    · rw [hid, Option.map_map]
      rfl
  · cases hdecode

theorem RPCRequest.isNotification_eq (req : RPCRequest) :
    req.isNotification = (nonNull (req.id.map value)).isNone := by
  unfold RPCRequest.isNotification
  cases req.id with
  | none => rfl
  | some t => cases t <;> rfl

/-! ## One line -/

def isAnswered (body : Bytes) : Bool := !(RPCRequest.unmarshal body).any MCPServer.isSilent

def answerId (body : Bytes) : Option Json := (RPCRequest.unmarshal body).bind fun _ => lineId body

namespace MCPServer

variable {lib : MCPLib}

theorem handled_of_isAnswer {id : Option Json} {r : RPCResponse MCPResult}
    (hid : ∀ t ∈ id, IsLit t) (h : IsAnswer lib id r) :
    ∃ out, Handled.ofResponse lib r = .reply out ∧
      IsReply (nonNull (id.map value)) out := by
  obtain ⟨out, hout, hreply⟩ := h.isReply hid
  exact ⟨out, by rw [Handled.ofResponse, hout], hreply⟩

variable {s : MCPServer}

/-- What `HandleBytes` makes of a line; the definition stays the same. -/
theorem handleBytes_spec (h : SchemasEncode lib s.definition) (body : Bytes) :
    (s.handleBytes lib body).2.definition = s.definition ∧
      ((isAnswered body = false ∧ (s.handleBytes lib body).1 = .silent) ∨
        isAnswered body = true ∧
          ∃ out, (s.handleBytes lib body).1 = .reply out ∧ IsReply (answerId body) out) := by
  unfold handleBytes isAnswered answerId
  cases hreq : RPCRequest.unmarshal body with
  | none =>
    have hanswer : IsAnswer lib none (newError none errParseError "invalid JSON"
        (some (.text (lib.unmarshalError body)))) := .error _ _ (by simp)
    obtain ⟨out, hout, hreply⟩ := handled_of_isAnswer (by simp) hanswer
    exact ⟨rfl, .inr ⟨rfl, out, hout, hreply⟩⟩
  | some req =>
    obtain ⟨hid, hline⟩ := RPCRequest.id_of_unmarshal hreq
    have hspec := handle_spec h req
    rcases hhandle : s.handle lib req with ⟨resp, s'⟩
    rw [hhandle] at hspec
    simp only [hhandle]
    obtain ⟨hdef, ⟨hsilent, rfl⟩ | ⟨hsilent, r, rfl, hanswer⟩⟩ := hspec
    · exact ⟨hdef, .inl ⟨by simp [hsilent], rfl⟩⟩
    · obtain ⟨out, hout, hreply⟩ := handled_of_isAnswer hid hanswer
      rw [hline] at hreply
      exact ⟨hdef, .inr ⟨by simp [hsilent], out, hout, hreply⟩⟩

/-! ## A session -/

theorem bodies_cons (line : Bytes) (lines : List Bytes) :
    bodies (line :: lines) =
      if trimSpace line = [] then bodies lines else trimSpace line :: bodies lines := by
  rw [bodies, List.map_cons]
  by_cases hblank : trimSpace line = [] <;> simp [hblank, bodies]

theorem serveLines_spec (h : SchemasEncode lib s.definition) {lines : List Bytes}
    (hshort : ∀ line ∈ lines, line.length < maxFrame) :
    (serveLines lib s lines).err = none ∧
      ∃ replies : List Bytes, (serveLines lib s lines).output = replies.flatMap (· ++ [10]) ∧
        List.Forall₂ (fun body reply => IsReply (answerId body) reply)
          ((bodies lines).filter isAnswered) replies := by
  induction lines generalizing s with
  | nil => exact ⟨rfl, [], rfl, .nil⟩
  | cons line lines ih =>
    obtain ⟨hline, hlines⟩ := List.forall_mem_cons.mp hshort
    rw [serveLines, if_neg (Nat.not_le.mpr hline), bodies_cons]
    split
    · exact ih h hlines
    · obtain ⟨hdef, hhandled⟩ := handleBytes_spec h (trimSpace line)
      rcases hres : s.handleBytes lib (trimSpace line) with ⟨handled, s'⟩
      rw [hres] at hdef hhandled
      have h' : SchemasEncode lib s'.definition := hdef ▸ h
      obtain ⟨herr, replies, houtput, hreplies⟩ := ih h' hlines
      obtain ⟨hno, rfl⟩ | ⟨hyes, out, rfl, hreply⟩ := hhandled
      · rw [List.filter_cons_of_neg (by simp [hno])]
        exact ⟨herr, replies, houtput, hreplies⟩
      · rw [List.filter_cons_of_pos hyes]
        refine ⟨herr, out :: replies, ?_, .cons hreply hreplies⟩
        simp [houtput]

end MCPServer

/-! ## Which sessions keep to the rules -/

theorem IsReply.id_unique {id' : Option Json} {reply : Bytes} (h : IsReply id reply)
    (h' : IsReply id' reply) : id = id' := by
  obtain ⟨t, ⟨d, ht⟩, _, hid, _⟩ := h.response
  obtain ⟨t', ⟨d', ht'⟩, _, hid', _⟩ := h'.response
  have heq := (Json.parseValue_mono_le (le_max_left d d') ht).symm.trans
    (Json.parseValue_mono_le (le_max_right d d') ht')
  obtain rfl : t = t' := (Prod.mk.inj (Option.some.inj heq)).1
  exact hid.symm.trans hid'

variable {l replies : List Bytes} {f : Bytes → Option Json}

theorem oneLine_of_replies (h : List.Forall₂ (fun body reply => IsReply (f body) reply) l replies) :
    ∀ reply ∈ replies, 10 ∉ reply := by
  induction h with
  | nil => simp
  | cons hreply _ ih => exact List.forall_mem_cons.mpr ⟨hreply.oneLine, ih⟩

/-- Replies are to one list of ids only. -/
theorem map_id_eq {l' : List Bytes} {g : Bytes → Option Json}
    (h : List.Forall₂ (fun body reply => IsReply (f body) reply) l replies)
    (h' : List.Forall₂ (fun body reply => IsReply (g body) reply) l' replies) :
    l.map f = l'.map g := by
  induction h generalizing l' with
  | nil =>
    cases h'
    rfl
  | cons hreply _ ih =>
    cases h' with
    | cons hreply' hrest => rw [List.map_cons, List.map_cons, hreply.id_unique hreply', ih hrest]

/-- Lines that are owed a reply, with an id `f`, and lines that get one, with an id `g`: if
    the ids are the same one after another, the lines are. -/
theorem agree_of_map_eq {α β : Type} {l : List α} {p q : α → Bool} {f g : α → Option β}
    (hgf : ∀ a, (g a).isSome = true → f a = g a) (hfp : ∀ a, (f a).isSome = true → p a = true)
    (hpq : ∀ a, p a = true → (f a).isSome = false → q a = true)
    (h : (l.filter p).map f = (l.filter q).map g) :
    ∀ a ∈ l, p a = q a ∧ (q a = true → f a = g a) := by
  -- as many lines have an id as are answered with one
  have hids : l.countP (fun a => (g a).isSome && q a) = l.countP fun a => (f a).isSome := by
    have hcount := congrArg (List.countP Option.isSome) h
    rw [List.countP_map, List.countP_map, List.countP_filter, List.countP_filter] at hcount
    refine hcount.symm.trans (List.countP_congr fun a _ => ?_)
    simpa using hfp a
  have hid : ∀ a ∈ l, (f a).isSome = true → ((g a).isSome && q a) = true := by
    refine List.imp_of_countP_eq (fun a _ hg => ?_) hids
    rw [hgf a (by simp_all)]
    simp_all
  -- so every line that is owed a reply gets one, and no other does
  have himp : ∀ a ∈ l, p a = true → q a = true := by
    intro a ha hp
    cases hf : (f a).isSome with
    | false => exact hpq a hp hf
    | true => exact (Bool.and_eq_true _ _ ▸ hid a ha hf).2
  have hlen : l.countP p = l.countP q := by
    have hlength := congrArg List.length h
    rwa [List.length_map, List.length_map, ← List.countP_eq_length_filter,
      ← List.countP_eq_length_filter] at hlength
  have himp' := List.imp_of_countP_eq himp hlen
  intro a ha
  refine ⟨Bool.eq_iff_iff.mpr ⟨himp a ha, himp' a ha⟩, fun _ => ?_⟩
  cases hg : g a with
  | some b => exact (hgf a (by simp [hg])).trans hg
  | none =>
    by_contra hf
    have hsome : (f a).isSome = true := Option.isSome_iff_ne_none.mpr hf
    simpa [hg] using hid a ha hsome

theorem isNotification_of_unmarshal (h : RPCRequest.unmarshal body = some req) :
    req.isNotification = (lineId body).isNone := by
  rw [req.isNotification_eq, (RPCRequest.id_of_unmarshal h).2]

theorem answerId_of_isSome (body : Bytes) (h : (answerId body).isSome = true) :
    lineId body = answerId body := by
  unfold answerId at h ⊢
  cases hreq : RPCRequest.unmarshal body with
  | none =>
    rw [hreq] at h
    cases h
  | some req => rfl

theorem isOwed_of_lineId (body : Bytes) (h : (lineId body).isSome = true) :
    isOwed body = true := by
  unfold isOwed isNotificationLine
  cases hreq : RPCRequest.unmarshal body with
  | none => rfl
  | some req =>
    rw [any_some, isNotification_of_unmarshal hreq]
    simpa using h

/-- Only a line that is no request is owed a reply without an id. -/
theorem isAnswered_of_isOwed (body : Bytes) (h : isOwed body = true)
    (hid : (lineId body).isSome = false) : isAnswered body = true := by
  unfold isOwed isNotificationLine at h
  unfold isAnswered
  cases hreq : RPCRequest.unmarshal body with
  | none => rfl
  | some req =>
    rw [hreq, any_some, isNotification_of_unmarshal hreq] at h
    simp_all

theorem isWellTreated_iff (body : Bytes) :
    IsWellTreated body ↔
      isAnswered body = isOwed body ∧
        (isAnswered body = true → lineId body = answerId body) := by
  unfold IsWellTreated isAnswered isOwed isNotificationLine answerId
  cases hreq : RPCRequest.unmarshal body with
  | none => simp
  | some req =>
    simp only [any_some, Option.bind_some, implies_true, and_true, Bool.not_inj_iff,
      MCPServer.isSilent]
    by_cases hversion : req.jsonrpc = "2.0"
    · cases Method.ofName req.method with
      | none => cases req.isNotification <;> simp [hversion]
      | some m => cases m <;> cases req.isNotification <;> simp [hversion]
    · cases req.isNotification <;> simp [hversion]

namespace MCPServer

/-- A session keeps to the rules iff every line that is not blank is treated as it should
    be. -/
theorem serveStdio_disciplined_iff (lib : MCPLib) (s : MCPServer)
    (h : SchemasEncode lib s.definition) {input : Bytes}
    (hshort : ∀ line ∈ scanLines input, line.length < maxFrame) :
    IsDisciplined input (serveStdio lib s input).output ↔
      ∀ body ∈ bodies (scanLines input), IsWellTreated body := by
  obtain ⟨_, replies, houtput, hreplies⟩ := serveLines_spec h hshort
  constructor
  · rintro ⟨replies', houtput', hreplies'⟩
    -- the output has one division into lines
    obtain rfl : replies' = replies := by
      rw [← scanLines_flatMap (oneLine_of_replies hreplies),
        ← scanLines_flatMap (oneLine_of_replies hreplies'), ← houtput', ← houtput]
      rfl
    have hagree := agree_of_map_eq answerId_of_isSome isOwed_of_lineId isAnswered_of_isOwed
      (map_id_eq hreplies' hreplies)
    intro body hbody
    obtain ⟨howed, hid⟩ := hagree body hbody
    exact (isWellTreated_iff body).mpr ⟨howed.symm, hid⟩
  · intro hall
    have htreated (body) (hbody : body ∈ bodies (scanLines input)) :=
      (isWellTreated_iff body).mp (hall body hbody)
    refine ⟨replies, houtput, ?_⟩
    rw [← List.filter_congr fun body hbody => (htreated body hbody).1]
    obtain ⟨hlen, hzip⟩ := List.forall₂_iff_zip.mp hreplies
    refine List.forall₂_iff_zip.mpr ⟨hlen, fun hmem => ?_⟩
    obtain ⟨hbody, hanswered⟩ := List.mem_filter.mp (List.of_mem_zip hmem).1
    rw [(htreated _ hbody).2 hanswered]
    exact hzip hmem

/-- A server without tools. -/
def bareServer : MCPServer := { definition := { metadata := { name := "bare" } } }

/-- A request with an id and a notification. -/
def pingSession : Bytes := ofString
  ("\x7b\"jsonrpc\":\"2.0\",\"id\":1,\"method\":\"ping\"\x7d\n\n" ++
    "\x7b\"jsonrpc\":\"2.0\",\"method\":\"notifications/initialized\"\x7d\n")

theorem pingSession_disciplined :
    (serveStdio .plain bareServer pingSession).output =
        ofString "\x7b\"jsonrpc\":\"2.0\",\"id\":1,\"result\":\x7b\x7d\x7d\n" ∧
      IsDisciplined pingSession (serveStdio .plain bareServer pingSession).output := by
  refine ⟨by decide +kernel, ?_⟩
  refine (serveStdio_disciplined_iff .plain bareServer (by simp [SchemasEncode, bareServer])
    (by decide)).mpr fun body hbody => (isWellTreated_iff body).mpr ?_
  have hall : ∀ body ∈ bodies (scanLines pingSession), isAnswered body = isOwed body ∧
      (isAnswered body = true → (answerId body).isSome = true) := by
    decide +kernel
  obtain ⟨howed, hid⟩ := hall body hbody
  exact ⟨howed, fun hanswered => answerId_of_isSome body (hid hanswered)⟩

/-- A notification of a method that the server knows. -/
def pingNotification : Bytes :=
  ofString "\x7b\"jsonrpc\":\"2.0\",\"method\":\"ping\"\x7d\n"

/-- The notification is answered. -/
theorem pingNotification_not_disciplined :
    (serveStdio .plain bareServer pingNotification).output =
        ofString "\x7b\"jsonrpc\":\"2.0\",\"result\":\x7b\x7d\x7d\n" ∧
      ¬ IsDisciplined pingNotification (serveStdio .plain bareServer pingNotification).output := by
  refine ⟨by decide +kernel, ?_⟩
  rintro ⟨replies, heq, hreplies⟩
  have hnone : (bodies (scanLines pingNotification)).filter isOwed = [] := by decide +kernel
  rw [hnone] at hreplies
  obtain rfl := List.forall₂_nil_left_iff.mp hreplies
  exact absurd heq (by decide +kernel)

end MCPServer

end MockAgents

