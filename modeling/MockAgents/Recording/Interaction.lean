import MockAgents.ForStd.JsonValue
import MockAgents.ForStd.Rfc3339

/-!
# Recorded interactions

An `Interaction` is a captured request and its response, and one line of a cassette file.
This module has the record, its JSON encoding with the tags of the struct, and the decoder
that `Load` runs on a line: keys match without regard to case, a later member overwrites an
earlier one, `null` leaves a field alone, and a value of another type is an error. A body
is a `json.RawMessage`: it is compacted when it is written and kept as it stands when it is
read.
-/

namespace MockAgents

open Json (unquoted)
open Bytes (ofString)

/-- A `map[string]string`, which the encoder writes with its keys in order. -/
structure StrMap where
  entries : List (Bytes × Bytes)
  sorted : SortedMap.Sorted entries

namespace StrMap

def empty : StrMap := ⟨[], .nil⟩

/-- `m[k] = v`. -/
def set (m : StrMap) (k v : Bytes) : StrMap := ⟨SortedMap.insert k v m.entries, m.sorted.insert k v⟩

/-- Write entries one after another. -/
def ofList (l : List (Bytes × Bytes)) : StrMap := l.foldl (fun m e => m.set e.1 e.2) empty

def mapValues (m : StrMap) (f : Bytes → Bytes) : StrMap :=
  ⟨m.entries.map fun e => (e.1, f e.2), m.sorted.map f⟩

end StrMap

/-- One chunk of a captured SSE response. -/
structure StreamEvent where
  delayMs : Int64
  data : Bytes

/-- A captured request/response pair. -/
structure Interaction where
  recordedAt : Time
  hash : Bytes
  method : Bytes
  path : Bytes
  requestHeaders : StrMap
  requestBody : Bytes
  responseStatus : Int64
  responseHeaders : StrMap
  responseBody : Bytes
  streaming : Bool
  streamEvents : List StreamEvent

namespace Interaction

def zero : Interaction where
  recordedAt := Time.zero
  hash := []
  method := []
  path := []
  requestHeaders := .empty
  requestBody := []
  responseStatus := 0
  responseHeaders := .empty
  responseBody := []
  streaming := false
  streamEvents := []

/-- The fields of the JSON object. -/
inductive Field where
  | recordedAt | hash | method | path | requestHeaders | requestBody | responseStatus
  | responseHeaders | responseBody | streaming | streamEvents
  deriving DecidableEq

def Field.tag : Field → Bytes
  | recordedAt => ofString "recorded_at"
  | hash => ofString "hash"
  | method => ofString "method"
  | path => ofString "path"
  | requestHeaders => ofString "request_headers"
  | requestBody => ofString "request_body"
  | responseStatus => ofString "response_status"
  | responseHeaders => ofString "response_headers"
  | responseBody => ofString "response_body"
  | streaming => ofString "streaming"
  | streamEvents => ofString "stream_events"

/-! ## Encoding -/

/-- A string as the encoder writes it. -/
def strJson (s : Bytes) : Json := .str (Json.quote true s)

def headersJson (h : StrMap) : Json :=
  .obj (h.entries.map fun e => (Json.quote true e.1, strJson e.2))

def delayTag : Bytes := ofString "delay_ms"

def dataTag : Bytes := ofString "data"

def eventJson (ev : StreamEvent) : Json :=
  .obj [(delayTag, .num (Decimal.intText ev.delayMs.toInt)), (dataTag, strJson ev.data)]

/-- A raw message, compacted; an error if it is not JSON. -/
def rawJson (body : Bytes) : Option Json := (Json.parse body).map (Json.mapStr Json.escapeRaw)

def omitEmpty (f : Field) (isEmpty : Bool) (value : Json) : List (Bytes × Json) :=
  if isEmpty then [] else [(f.tag, value)]

/-- A body, omitted if it is empty. -/
def bodyField (f : Field) (body : Bytes) : Option (List (Bytes × Json)) :=
  if body = [] then some [] else (rawJson body).map fun t => [(f.tag, t)]

/-- The members of the JSON object, in the order of the struct. -/
def members (it : Interaction) : Option (List (Bytes × Json)) :=
  match bodyField .requestBody it.requestBody, bodyField .responseBody it.responseBody with
  | some request, some response => some <|
    [(Field.recordedAt.tag, .str it.recordedAt.format), (Field.hash.tag, strJson it.hash),
      (Field.method.tag, strJson it.method), (Field.path.tag, strJson it.path)] ++
    omitEmpty .requestHeaders it.requestHeaders.entries.isEmpty (headersJson it.requestHeaders) ++
    request ++
    [(Field.responseStatus.tag, .num (Decimal.intText it.responseStatus.toInt))] ++
    omitEmpty .responseHeaders it.responseHeaders.entries.isEmpty
      (headersJson it.responseHeaders) ++
    response ++
    omitEmpty .streaming (!it.streaming) (.bool it.streaming) ++
    omitEmpty .streamEvents it.streamEvents.isEmpty (.arr (it.streamEvents.map eventJson))
  | _, _ => none

/-- What `Encoder.Encode` writes: the object and a newline. -/
def encode (it : Interaction) : Option Bytes :=
  it.members.map fun ms => (Json.obj ms).print ++ [10]

/-! ## Decoding -/

/-- `foldName`: upper case, with the two runes above U+007F that fold to a letter. -/
def foldName (s : Bytes) : Bytes :=
  (Bytes.segs s).flatMap fun x =>
    match x with
    | .ascii b => if 97 ≤ b.toNat ∧ b.toNat ≤ 122 then [b - 32] else [b]
    | .rune bs => if bs = [0xC5, 0xBF] then [83] else if bs = [0xE2, 0x84, 0xAA] then [75] else bs
    | .bad b => [b]

def Field.all : List Field :=
  [recordedAt, hash, method, path, requestHeaders, requestBody, responseStatus, responseHeaders,
    responseBody, streaming, streamEvents]

def Field.ofKey (key : Bytes) : Option Field :=
  Field.all.find? fun f => foldName key = foldName f.tag

/-- Decode into a `string` that holds `old`. -/
def decodeStr (old : Bytes) : Json → Option Bytes
  | .null => some old
  | .str raw => some (unquoted raw)
  | _ => none

/-- Decode into an integer of 64 bits. -/
def decodeInt (old : Int64) : Json → Option Int64
  | .null => some old
  | .num lit => (Decimal.parseInt lit).map Int64.ofInt
  | _ => none

def decodeBool (old : Bool) : Json → Option Bool
  | .null => some old
  | .bool b => some b
  | _ => none

/-- `Time.UnmarshalJSON`, which reads the text between the quotes as it stands. -/
def decodeTime (old : Time) : Json → Option Time
  | .null => some old
  | .str raw => Time.parse raw
  | _ => none

/-- Decode into a `map[string]string`: the members are added to it. -/
def decodeHeaders (old : StrMap) : Json → Option StrMap
  | .null => some .empty
  | .obj ms => ms.foldlM (fun m e => (decodeStr [] e.2).map (m.set (unquoted e.1))) old
  | _ => none

def setEventField (ev : StreamEvent) (m : Bytes × Json) : Option StreamEvent :=
  if foldName (unquoted m.1) = foldName delayTag then
    (decodeInt ev.delayMs m.2).map fun d => { ev with delayMs := d }
  else if foldName (unquoted m.1) = foldName dataTag then
    (decodeStr ev.data m.2).map fun s => { ev with data := s }
  else some ev

def decodeEvent : Json → Option StreamEvent
  | .null => some ⟨0, []⟩
  | .obj ms => ms.foldlM setEventField ⟨0, []⟩
  | _ => none

def decodeEvents : Json → Option (List StreamEvent)
  | .null => some []
  | .arr items => items.mapM decodeEvent
  | _ => none

/-- One member of an interaction: its key, the text of its value, and the value. -/
def setField (it : Interaction) (m : Bytes × Bytes × Json) : Option Interaction :=
  match Field.ofKey (unquoted m.1) with
  | none => some it
  | some .recordedAt => (decodeTime it.recordedAt m.2.2).map fun t => { it with recordedAt := t }
  | some .hash => (decodeStr it.hash m.2.2).map fun s => { it with hash := s }
  | some .method => (decodeStr it.method m.2.2).map fun s => { it with method := s }
  | some .path => (decodeStr it.path m.2.2).map fun s => { it with path := s }
  | some .requestHeaders =>
    (decodeHeaders it.requestHeaders m.2.2).map fun h => { it with requestHeaders := h }
  | some .requestBody => some { it with requestBody := m.2.1 }
  | some .responseStatus =>
    (decodeInt it.responseStatus m.2.2).map fun i => { it with responseStatus := i }
  | some .responseHeaders =>
    (decodeHeaders it.responseHeaders m.2.2).map fun h => { it with responseHeaders := h }
  | some .responseBody => some { it with responseBody := m.2.1 }
  | some .streaming => (decodeBool it.streaming m.2.2).map fun b => { it with streaming := b }
  | some .streamEvents => (decodeEvents m.2.2).map fun evs => { it with streamEvents := evs }

/-- The members of an object, with the texts of their values. -/
def parseMembers (depth : Nat) (s : Bytes) : Option (List (Bytes × Bytes × Json) × Bytes) :=
  Json.parseList 125 (Json.parseMember (Json.withText (Json.parseValue depth))) s

/-- The interaction of the members, if only white space follows them. -/
def ofParsed : Option (List (Bytes × Bytes × Json) × Bytes) → Option Interaction
  | some (ms, r) => if Json.skipWs r = [] then ms.foldlM setField zero else none
  | none => none

/-- `json.Unmarshal` of a line. -/
def unmarshal (line : Bytes) : Option Interaction :=
  match Json.skipWs line with
  | 123 :: s => ofParsed (parseMembers (Json.maxNestingDepth - 1) s)
  | s =>
    match Json.parse s with
    | some .null => some zero
    | _ => none

end Interaction

end MockAgents
