import MockAgents.Recording.Cassette
import MockAgents.Recording.Redact

/-!
# The recording proxy

`Proxy` forwards a request to the upstream server, records the exchange in a cassette and
returns the upstream response. A response of type `text/event-stream` is forwarded chunk by
chunk as it is read, and each chunk becomes a `StreamEvent`.

The request that is sent upstream plays no part in what is recorded and is not modelled:
`Upstream` is what came back.
-/

namespace MockAgents

open Bytes (ofString)

/-! ## HTTP -/

abbrev Header := GoMap Bytes (List Bytes)

/-- `http.CanonicalHeaderKey` of a name made of letters, digits and hyphens. -/
def canonicalHeaderKey (name : Bytes) : Bytes := go true name
where
  go : (upper : Bool) → Bytes → Bytes
    | _, [] => []
    | upper, b :: s =>
      (if upper && isLower b then b - 32 else if !upper && isUpper b then b + 32 else b) ::
        go (b == 45) s

def Header.get (h : Header) (name : Bytes) : Bytes :=
  ((h.lookup (canonicalHeaderKey name)).getD []).headD []

structure Request where
  method : Bytes
  path : Bytes
  header : Header
  body : Bytes

/-- One read of the upstream body that returned data: the data, the milliseconds since the
    response began, and whether the client took it when it was written. -/
structure Chunk where
  data : Bytes
  delayMs : Int64
  accepted : Bool

/-- What the upstream server answered. Other statuses cannot be written to a client. -/
structure Upstream where
  status : Int64
  header : Header
  chunks : List Chunk
  /-- Reading the body ended with `io.EOF`, and not with an error. -/
  complete : Bool
  statusValid : 100 ≤ status.toInt ∧ status.toInt ≤ 999

theorem statusValid_ok : 100 ≤ (200 : Int64).toInt ∧ (200 : Int64).toInt ≤ 999 := by decide

def Upstream.body (u : Upstream) : Bytes := (u.chunks.map Chunk.data).flatten

def defaultCaptureHeaders : List Bytes :=
  [ofString "Content-Type", ofString "Accept", ofString "User-Agent",
    ofString "Anthropic-Version", ofString "OpenAI-Organization",
    ofString "X-Request-Id"]

def captureHeaders (h : Header) (whitelist : List Bytes) : StrMap :=
  whitelist.foldl (fun out k => if h.get k = [] then out else out.set k (h.get k)) .empty

/-- `isSSE`. No rune above U+007F has a letter of this type as its lower case. -/
def isSSE (contentType : Bytes) : Bool :=
  (ofString "text/event-stream").isPrefixOf
    (contentType.map fun b => if isUpper b then b + 32 else b)

/-! ## Recording -/

/-- A cassette and the content of its file. -/
structure Tape where
  cassette : Cassette
  file : Option Bytes

/-- What a call depends on besides its request: the time, and whether the file system
    reports no error. -/
structure Env where
  now : Time
  fsOk : Bool

structure Proxy where
  redactor : Option Redactor
  skipRecordOnError : Bool

/-- What the client gets. -/
structure ProxyReply where
  status : Int64
  body : Bytes
  recordError : Bool

namespace Proxy

variable (p : Proxy) (sha256 : Bytes → Bytes)

def skipRecording (status : Int64) : Bool := p.skipRecordOnError && decide (400 ≤ status)

/-- The interaction of an exchange, with the hash of the request as it came. -/
def interaction (r : Request) (u : Upstream) : Interaction :=
  { Interaction.zero with
    hash := hashRequest sha256 r.method r.path r.body
    method := r.method
    path := r.path
    requestHeaders := captureHeaders r.header defaultCaptureHeaders
    requestBody := r.body
    responseStatus := u.status
    responseHeaders := captureHeaders u.header defaultCaptureHeaders }

/-- Redact and append, unless the exchange is to be skipped. The second part is whether
    `Append` failed. -/
def record (env : Env) (tape : Tape) (skip : Bool) (it : Interaction) : Tape × Bool :=
  if skip then (tape, false)
  else
    let it := match p.redactor with
      | some r => r.apply it
      | none => it
    let (c, file, ok) := tape.cassette.append sha256 env.now env.fsOk tape.file it
    (⟨c, file⟩, !ok)

/-- The chunks that are recorded: all that were read, up to the first that the client did
    not take. A read without data is not recorded. -/
def streamEvents : List Chunk → List StreamEvent
  | [] => []
  | c :: cs =>
    if c.data = [] then streamEvents cs
    else if c.accepted then ⟨c.delayMs, c.data⟩ :: streamEvents cs
    else [⟨c.delayMs, c.data⟩]

/-- The bytes that reached the client. -/
def forwarded : List Chunk → Bytes
  | [] => []
  | c :: cs =>
    if c.data = [] then forwarded cs
    else if c.accepted then c.data ++ forwarded cs
    else []

/-- Reading the body failed before the client stopped taking it. -/
def upstreamErrored (u : Upstream) : Bool :=
  !u.complete && u.chunks.all fun c => c.data = [] || c.accepted

def serveStreaming (env : Env) (tape : Tape) (r : Request) (u : Upstream) : Tape × ProxyReply :=
  let it := { interaction sha256 r u with streaming := true, streamEvents := streamEvents u.chunks }
  let skip := p.skipRecording u.status || (p.skipRecordOnError && upstreamErrored u)
  let (tape, failed) := p.record sha256 env tape skip it
  (tape, ⟨u.status, forwarded u.chunks, failed⟩)

/-- `ServeHTTP`. Without an answer from upstream, or if its body cannot be read, the client
    gets a 502 and nothing is recorded. -/
def serveHTTP (env : Env) (tape : Tape) (r : Request) (upstream : Option Upstream) :
    Tape × ProxyReply :=
  match upstream with
  | none => (tape, ⟨502, [], false⟩)
  | some u =>
    if isSSE (u.header.get (ofString "Content-Type")) then
      p.serveStreaming sha256 env tape r u
    else if !u.complete then (tape, ⟨502, [], false⟩)
    else
      let it := { interaction sha256 r u with responseBody := u.body }
      let (tape, failed) := p.record sha256 env tape (p.skipRecording u.status) it
      (tape, ⟨u.status, u.body, failed⟩)

end Proxy

end MockAgents
