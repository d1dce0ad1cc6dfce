import MockAgents.Adapter.OpenAI
import MockAgents.ForStd.Runes

/-!
# The Batch API

`process` replays every line of an uploaded JSONL file through the handler of the batch's
endpoint. Lines that cannot be dispatched go to the error file, the responses of the others
to the output file.

The endpoint's handler is a parameter: it takes a request body and leaves a status and a body
on a `batchResponseRecorder`, and may change a state. So are the identifiers that `generateID`
draws for a line, and `strconv.IsPrint`. The sub-request is built from a fixed path, which
cannot fail.
-/

namespace MockAgents

open Bytes (ofString)

open Json (unquoted)
open Interaction (foldName strJson rawJson decodeStr)

/-! ## Input lines -/

/-- `json.Unmarshal` into a struct, with the zero value and what one member does to it. -/
def unmarshalStruct {σ : Type} (setField : σ → Bytes × Bytes × Json → Option σ) (zero : σ)
    (s : Bytes) : Option σ :=
  match Json.skipWs s with
  | 123 :: s =>
    match Interaction.parseMembers (Json.maxNestingDepth - 1) s with
    | some (ms, r) => if Json.skipWs r = [] then ms.foldlM setField zero else none
    | none => none
  | s =>
    match Json.parse s with
    | some .null => some zero
    | _ => none

structure BatchInputLine where
  customID : Bytes := []
  method : Bytes := []
  url : Bytes := []
  body : Bytes := []

namespace BatchInputLine

/-- One member of a line: its key, the text of its value, and the value. -/
def setField (l : BatchInputLine) (m : Bytes × Bytes × Json) : Option BatchInputLine :=
  let key := foldName (unquoted m.1)
  if key = ofString "CUSTOM_ID" then
    (decodeStr l.customID m.2.2).map fun s => { l with customID := s }
  else if key = ofString "METHOD" then
    (decodeStr l.method m.2.2).map fun s => { l with method := s }
  else if key = ofString "URL" then
    (decodeStr l.url m.2.2).map fun s => { l with url := s }
  else if key = ofString "BODY" then some { l with body := m.2.1 }
  else some l

/-- `json.Unmarshal` of a line. -/
def unmarshal (line : Bytes) : Option BatchInputLine := unmarshalStruct setField {} line

end BatchInputLine

/-- `bytes.TrimRight(line, "\r")`. -/
def trimCR (line : Bytes) : Bytes := (line.reverse.dropWhile (· == 13)).reverse

def splitJSONLines (data : Bytes) : List Bytes :=
  ((Bytes.split 10 data).map trimCR).filter fun line => Bytes.trimSpace line ≠ []

/-- `strings.EqualFold(method, "POST")`; `foldName` folds the runes that fold to a letter. -/
def isPost (method : Bytes) : Bool := foldName method = ofString "POST"

/-- `validateInputLine`: the reason to reject a line, with the custom ids seen so far. -/
def validateInputLine (isPrint : Nat → Bool) (inp : BatchInputLine) (endpoint : Bytes)
    (seen : List Bytes) : Option Bytes :=
  let quote := Strconv.quote isPrint
  if inp.customID = [] then some (ofString "missing custom_id")
  else if inp.customID ∈ seen then
    some (ofString "duplicate custom_id " ++ quote inp.customID)
  else if inp.method ≠ [] ∧ isPost inp.method = false then
    some (ofString "method must be POST, got " ++ quote inp.method)
  else if inp.url ≠ endpoint then
    some (ofString "request url " ++ quote inp.url ++
      ofString " must match the batch endpoint " ++ quote endpoint)
  else if Bytes.trimSpace inp.body = [] then some (ofString "request body is required")
  else none

/-! ## Output lines -/

structure BatchOutputResp where
  statusCode : Int
  requestID : Bytes
  body : Bytes

structure BatchOutputError where
  code : Bytes
  message : Bytes

structure BatchOutputLine where
  id : Bytes
  customID : Bytes := []
  response : Option BatchOutputResp := none
  error : Option BatchOutputError := none

/-- The JSON of a response. It fails if the body is not JSON. -/
def BatchOutputResp.toJson (r : BatchOutputResp) : Option Json :=
  (rawJson r.body).map fun body =>
    .obj [(ofString "status_code", .num (Decimal.intText r.statusCode)),
      (ofString "request_id", strJson r.requestID), (ofString "body", body)]

def BatchOutputError.toJson (e : BatchOutputError) : Json :=
  .obj [(ofString "code", strJson e.code), (ofString "message", strJson e.message)]

def BatchOutputLine.members (l : BatchOutputLine) : Option (List (Bytes × Json)) :=
  let members (response : Json) : List (Bytes × Json) :=
    [(ofString "id", strJson l.id), (ofString "custom_id", strJson l.customID),
      (ofString "response", response),
      (ofString "error", (l.error.map BatchOutputError.toJson).getD .null)]
  match l.response with
  | none => some (members .null)
  | some r => r.toJson.map members

/-- `writeJSONL`: a line that cannot be encoded is not written. -/
def writeJSONL (buf : Bytes) (l : BatchOutputLine) : Bytes :=
  match l.members with
  | some ms => buf ++ (Json.obj ms).print ++ [10]
  | none => buf

/-! ## Dispatch -/

/-- `disableStreaming`. The map that the body is decoded into is encoded with its keys in
    order. -/
def disableStreaming (body : Bytes) : Bytes :=
  match Json.parse body with
  | some (.obj ms) =>
    let m := SortedMap.ofList (ms.map fun e => (unquoted e.1, e.2))
    if m.any fun e => e.1 = ofString "stream" then
      let m := SortedMap.insert (ofString "stream") (.bool false) m
      (Json.obj (m.map fun e => (Json.quote true e.1, e.2.mapStr Json.escapeRaw))).print
    else body
  | _ => body

/-- What a handler leaves on a `batchResponseRecorder`; a status of 0 was not set. -/
structure Recorded where
  status : Int
  body : Bytes

/-- The status and the body that `dispatch` returns for what was recorded. -/
def Recorded.capture (rec : Recorded) : Int × Bytes :=
  (if rec.status = 0 then 200 else rec.status,
    if Bytes.trimSpace rec.body = [] then ofString "null" else Bytes.trimSpace rec.body)

section Process

variable {σ : Type} (handler : σ → Bytes → σ × Recorded) (isPrint : Nat → Bool)
  (newIDs : Nat → Bytes × Bytes) (endpoint : Bytes)

def dispatch (s : σ) (body : Bytes) : σ × Int × Bytes :=
  let served := handler s (disableStreaming body)
  (served.1, served.2.capture)

structure BatchRequestCounts where
  total : Nat := 0
  completed : Nat := 0
  failed : Nat := 0
  deriving DecidableEq

/-- The variables of the loop in `process`, and the state of the handler. -/
structure BatchRun (σ : Type) where
  state : σ
  out : Bytes := []
  err : Bytes := []
  counts : BatchRequestCounts := {}
  seen : List Bytes := []

/-- A line that goes to the error file. -/
def BatchRun.reject (r : BatchRun σ) (customID code message : Bytes) : BatchRun σ :=
  { r with
    err := writeJSONL r.err {
      id := ofString "batch_req_" ++ (newIDs r.counts.total).1
      customID := customID
      error := some ⟨code, message⟩ }
    counts := { r.counts with total := r.counts.total + 1, failed := r.counts.failed + 1 } }

def BatchRun.dispatch (r : BatchRun σ) (inp : BatchInputLine) : BatchRun σ :=
  let served := MockAgents.dispatch handler r.state inp.body
  let completed := served.2.1.tdiv 100 = 2
  { r with
    state := served.1
    out := writeJSONL r.out {
      id := ofString "batch_req_" ++ (newIDs r.counts.total).1
      customID := inp.customID
      response := some ⟨served.2.1, ofString "req_" ++ (newIDs r.counts.total).2,
        served.2.2⟩ }
    counts := {
      total := r.counts.total + 1
      completed := if completed then r.counts.completed + 1 else r.counts.completed
      failed := if completed then r.counts.failed else r.counts.failed + 1 } }

/-- One pass of the loop in `process`. -/
def BatchRun.line (r : BatchRun σ) (raw : Bytes) : BatchRun σ :=
  match BatchInputLine.unmarshal raw with
  | none =>
    r.reject newIDs [] (ofString "invalid_json") (ofString "line is not valid JSON")
  | some inp =>
    let reason := validateInputLine isPrint inp endpoint r.seen
    -- the id is taken even if the line is rejected
    let r := if inp.customID = [] then r else { r with seen := inp.customID :: r.seen }
    match reason with
    | some reason => r.reject newIDs inp.customID (ofString "invalid_request") reason
    | none => r.dispatch handler newIDs inp

def maxBatchRequests : Nat := 50000

/-- `process`: the state of the handler after it, the output and error files and the
    tallies. -/
def process (s : σ) (input : Bytes) : Except String (BatchRun σ) :=
  let lines := splitJSONLines input
  if lines.length = 0 then .error "input file has no requests"
  else if lines.length > maxBatchRequests then
    .error s!"input file has {lines.length} requests, which exceeds the limit of 50000"
  else .ok (lines.foldl (BatchRun.line handler isPrint newIDs endpoint) { state := s })

end Process

/-! ## Batches that are read -/

inductive BatchStatus where
  | inProgress
  | completed
  | cancelled
  deriving DecidableEq

/-- The fields of `Batch` that `render` sets. The others are those of `base`, which has no file
    ids. -/
structure Batch where
  status : BatchStatus
  inProgressAt : Int
  completedAt : Option Int := none
  cancelledAt : Option Int := none
  requestCounts : BatchRequestCounts
  outputFileID : Option String := none
  errorFileID : Option String := none

/-- `batchState`. Times are in nanoseconds. -/
structure BatchState where
  createdAt : Int
  delay : Int
  counts : BatchRequestCounts
  outputFileID : String
  errorFileID : String
  cancelled : Bool := false
  cancelledAt : Int := 0

def unix (t : Int) : Int := t / 1000000000

/-- `Time.Sub`, which saturates. -/
def timeSub (t u : Int) : Int := max (-9223372036854775808) (min 9223372036854775807 (t - u))

def fileID (id : String) : Option String := if id = "" then none else some id

namespace BatchState

def render (st : BatchState) (now : Int) : Batch :=
  if st.cancelled then
    { status := .cancelled
      inProgressAt := unix st.createdAt
      cancelledAt := some (unix st.cancelledAt)
      requestCounts := st.counts }
  else if timeSub now st.createdAt < st.delay then
    { status := .inProgress
      inProgressAt := unix st.createdAt
      requestCounts := { total := st.counts.total } }
  else
    { status := .completed
      inProgressAt := unix st.createdAt
      completedAt := some (unix (st.createdAt + st.delay))
      requestCounts := st.counts
      outputFileID := fileID st.outputFileID
      errorFileID := fileID st.errorFileID }

/-- `cancel`: the batch after it, its status, and whether it had ended before. -/
def cancel (st : BatchState) (now : Int) : BatchState × BatchStatus × Bool :=
  if st.cancelled then (st, .cancelled, true)
  else if timeSub now st.createdAt ≥ st.delay then (st, .completed, true)
  else ({ st with cancelled := true, cancelledAt := now }, .cancelled, false)

end BatchState

/-! ## The chat endpoint

The handler of `/v1/chat/completions` as a batch runs it: on a `batchResponseRecorder`, which
neither hijacks nor flushes, in a request without headers. `encode` is the text that `writeJSON`
writes for an answer. -/

def batchResponseRecorder : ResponseWriter := { hijacks := false, flushes := false }

/-- What an answer leaves on the recorder. -/
def HttpAnswer.record {α : Type} (encode : HttpAnswer α → Bytes) (answer : HttpAnswer α) :
    Recorded :=
  match answer with
  | .error status .. => ⟨status, encode answer⟩
  | .json .. => ⟨200, encode answer⟩
  | .fault _ | .stream .. | .unwritten _ => ⟨0, []⟩

/-- What one sub-request of a batch reads from outside. -/
structure SubRequest (host : Host) where
  tenantID : String := ""
  env : RequestEnv host
  newSession : String := ""
  newResponse : String := ""
  now : Int := 0

/-- `/v1/chat/completions`, after its body was decoded. -/
def chatEndpoint {host : Host} (lib : ChatLib) (defs : Definitions) (sub : SubRequest host)
    (codec : FieldCodec ChatField.Val) (encode : HttpAnswer ChatBody → Bytes) (e : Engine host)
    (body : Except BodyError (chatType codec).struct.State) :
    Engine host × Recorded :=
  let out := e.handleChatCompletions lib defs {
    tenantID := sub.tenantID
    writer := batchResponseRecorder
    body := body.map .ofState
    env := sub.env
    newSession := sub.newSession
    newID := sub.newResponse
    now := sub.now }
  (out.1, out.2.record encode)

/-- A handler that reads its body with `decodeJSONBody`. -/
def RequestType.handler (T : RequestType) {σ : Type}
    (serve : σ → Except BodyError T.struct.State → σ × Recorded) (s : σ) (body : Bytes) :
    σ × Recorded :=
  serve s (T.decodeJSONBody body)

end MockAgents
