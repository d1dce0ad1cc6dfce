import MockAgents.ForStd.JsonDecode
import MockAgents.ForStd.Runes
import MockAgents.Recording.Interaction

/-!
# JSON-RPC messages

The requests that the server decodes and the responses that it writes. A raw message is kept
as its tree of literals: it is compared with `null`, decoded, or written without its white
space.
-/

namespace Json

def members : Json → List (Bytes × Json)
  | obj ms => ms
  | _ => []

/-- The tree of literals that `json.Marshal` writes for a value. -/
def written (v : Json) : Json := v.mapStr (quote true)

/-- The object with these members, given as trees of literals. -/
def writtenObject (members : List (String × Json)) : Json :=
  obj (members.map fun m => (quote true (Bytes.ofString m.1), m.2))

theorem IsWritable.isLit_written {v : Json} (h : IsWritable v) : IsLit (written v) := by
  obtain ⟨d, hd⟩ := h
  exact ⟨d, hd.lit_quoted true⟩

theorem value_written_text (s : String) : (written (text s)).value = text s := by
  rw [written, (writable_text 0 s).value_quoted, mapStr_text]

variable {t : Json}

theorem IsLit.escape (h : IsLit t) : IsLit (t.mapStr escapeRaw) := by
  obtain ⟨d, hd⟩ := h
  exact ⟨d, hd.mapStr fun _ => isRaw_escapeRaw⟩

theorem IsLit.value_escape (h : IsLit t) : (t.mapStr escapeRaw).value = t.value := by
  obtain ⟨d, hd⟩ := h
  exact hd.value_mapStr fun _ => unquoted_escapeRaw

theorem isLit_writtenObject {members : List (String × Json)} (h : ∀ m ∈ members, IsLit m.2) :
    IsLit (writtenObject members) := by
  refine isLit_obj (fun m hm => ?_) (fun m hm => ?_)
  · obtain ⟨m', _, rfl⟩ := List.mem_map.mp hm
    exact isRaw_quote true _
  · obtain ⟨m', hm', rfl⟩ := List.mem_map.mp hm
    exact h m' hm'

theorem value_writtenObject (members : List (String × Json)) :
    (writtenObject members).value = object (members.map fun m => (m.1, m.2.value)) := by
  rw [writtenObject, value, mapStr, mapStrMembers_eq, object, List.map_map]
  simp [unquoted_quote_toValid, value]

end Json

namespace MockAgents

open Bytes (ofString)
open Interaction (foldName)
open Json (unquoted written writtenObject)

/-! ## Decoding -/

/-- The key of a member names the field of this tag. -/
def keyNames (tag : String) (key : Bytes) : Bool :=
  foldName (unquoted key) = foldName (ofString tag)

/-- Decode into a `string` that holds `old`. -/
def decodeText (old : String) : Json → Option String
  | .null => some old
  | .str raw => some (Strings.ofBytes (unquoted raw))
  | _ => none

/-- Decode into a struct that holds `old`, where `set` decodes one member. -/
def decodeStruct {ρ : Type} (set : ρ → Bytes × Json → Option ρ) (old : ρ) : Json → Option ρ
  | .null => some old
  | .obj ms => ms.foldlM set old
  | _ => none

theorem decodeStruct_inv {ρ : Type} {set : ρ → Bytes × Json → Option ρ} {P : ρ → Prop} {t : Json}
    (hset : ∀ p, ∀ m ∈ t.members, ∀ p', P p → set p m = some p' → P p') {old p : ρ}
    (hold : P old) (h : decodeStruct set old t = some p) : P p := by
  unfold decodeStruct at h
  split at h
  · cases h
    exact hold
  · rename_i ms
    induction ms generalizing old with
    | nil =>
      cases h
      exact hold
    | cons m ms ih =>
      obtain ⟨p', hp', h⟩ := Option.bind_eq_some_iff.mp h
      exact ih (hset old m List.mem_cons_self p' hold hp')
        (fun p m hm => hset p m (List.mem_cons_of_mem _ hm)) h
  · cases h

/-! ## Requests -/

/-- An incoming call or notification. -/
structure RPCRequest where
  jsonrpc : String := ""
  id : Option Json := none
  method : String := ""
  params : Option Json := none

namespace RPCRequest

def isNotification (req : RPCRequest) : Bool :=
  match req.id with
  | none | some .null => true
  | some _ => false

def setMember (req : RPCRequest) (m : Bytes × Json) : Option RPCRequest :=
  if keyNames "jsonrpc" m.1 then
    (decodeText req.jsonrpc m.2).map fun s => { req with jsonrpc := s }
  else if keyNames "id" m.1 then some { req with id := some m.2 }
  else if keyNames "method" m.1 then
    (decodeText req.method m.2).map fun s => { req with method := s }
  else if keyNames "params" m.1 then some { req with params := some m.2 }
  else some req

/-- `json.Unmarshal` into a request; `none` is an error. -/
def unmarshal (body : Bytes) : Option RPCRequest :=
  (Json.parse body).bind (decodeStruct setMember {})

end RPCRequest

/-! ## Responses -/

def errParseError : Int := -32700

def errInvalidRequest : Int := -32600

def errMethodNotFound : Int := -32601

def errInvalidParams : Int := -32602

/-- The error object of a response. -/
structure RPCError where
  code : Int
  message : String
  data : Option Json := none

/-- The JSON of an error object. -/
def RPCError.toJson (err : RPCError) : Json := .object <|
  [("code", .int err.code), ("message", .text err.message)] ++
    (err.data.toList.map fun data => ("data", data))

/-- An outgoing result or error, where `ρ` is the type of results. -/
structure RPCResponse (ρ : Type) where
  jsonrpc : String
  id : Option Json
  result : Option ρ := none
  error : Option RPCError := none

variable {ρ : Type}

def newError (id : Option Json) (code : Int) (message : String) (data : Option Json) :
    RPCResponse ρ :=
  { jsonrpc := "2.0", id, error := some { code, message, data } }

def newResult (id : Option Json) (result : ρ) : RPCResponse ρ :=
  { jsonrpc := "2.0", id, result := some result }

namespace RPCResponse

def members (r : RPCResponse ρ) (result : Option Json) : List (String × Json) :=
  [("jsonrpc", written (.text r.jsonrpc))] ++
    (r.id.toList.map fun id => ("id", id.mapStr Json.escapeRaw)) ++
    (result.toList.map fun v => ("result", written v)) ++
    (r.error.toList.map fun err => ("error", written err.toJson))

/-- `json.Marshal` of a response. `toJson` is the JSON of a result; without one there is an
    error. -/
def marshal (toJson : ρ → Option Json) (r : RPCResponse ρ) : Option Bytes :=
  match r.result with
  | none => some (writtenObject (r.members none)).print
  | some result => (toJson result).map fun v => (writtenObject (r.members (some v))).print

end RPCResponse

end MockAgents
