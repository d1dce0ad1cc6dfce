import MockAgents.ForStd.GoMap
import MockAgents.Types.Agent

/-!
# Chaos injection

`ChaosInjector.Before` decides, before any work is done, whether a request is
rejected by the rate limit (429), gets an injected error, or a connection fault.
Its state is three maps keyed by agent name: the rate windows and the two
`fail_first` counters.

Times and durations are nanoseconds. A duration computed from configured
milliseconds wraps as Go's `int64` does. The random draws of a request are inputs
of the request.
-/

namespace MockAgents

/-- `time.Duration(ms) * time.Millisecond`, in `int64` arithmetic. -/
def millis (ms : Int) : Int := (ms * 1000000).bmod (2 ^ 64)

/-- An injected fault, as the HTTP layer renders it. A non-empty `connection` marks a
    fault of the TCP connection. -/
structure ChaosError where
  statusCode : Int := 0
  message : String := ""
  retryAfter : Int := 0
  timeout : Bool := false
  connection : String := ""
  deriving DecidableEq

/-- How many requests an agent has served inside the current window. -/
structure RateBucket where
  windowStart : Int
  count : Int
  deriving DecidableEq

/-- The injector's maps, keyed by agent name. -/
structure ChaosInjector where
  buckets : GoMap String RateBucket
  errorCounts : GoMap String Int
  connCounts : GoMap String Int

/-- What one `Before` call reads from the clock and the random source. -/
structure ChaosDraws where
  now : Int := 0
  errorDraw : Rat := 0
  connDraw : Rat := 0
  statusPick : Nat := 0

/-- Go's `http.StatusText`. -/
def statusText (code : Int) : String :=
  match code with
  | 100 => "Continue" | 101 => "Switching Protocols" | 102 => "Processing"
  | 103 => "Early Hints"
  | 200 => "OK" | 201 => "Created" | 202 => "Accepted"
  | 203 => "Non-Authoritative Information" | 204 => "No Content" | 205 => "Reset Content"
  | 206 => "Partial Content" | 207 => "Multi-Status" | 208 => "Already Reported"
  | 226 => "IM Used"
  | 300 => "Multiple Choices" | 301 => "Moved Permanently" | 302 => "Found"
  | 303 => "See Other" | 304 => "Not Modified" | 305 => "Use Proxy"
  | 307 => "Temporary Redirect" | 308 => "Permanent Redirect"
  | 400 => "Bad Request" | 401 => "Unauthorized" | 402 => "Payment Required"
  | 403 => "Forbidden" | 404 => "Not Found" | 405 => "Method Not Allowed"
  | 406 => "Not Acceptable" | 407 => "Proxy Authentication Required"
  | 408 => "Request Timeout" | 409 => "Conflict" | 410 => "Gone"
  | 411 => "Length Required" | 412 => "Precondition Failed"
  | 413 => "Request Entity Too Large" | 414 => "Request URI Too Long"
  | 415 => "Unsupported Media Type" | 416 => "Requested Range Not Satisfiable"
  | 417 => "Expectation Failed" | 418 => "I'm a teapot" | 421 => "Misdirected Request"
  | 422 => "Unprocessable Entity" | 423 => "Locked" | 424 => "Failed Dependency"
  | 425 => "Too Early" | 426 => "Upgrade Required" | 428 => "Precondition Required"
  | 429 => "Too Many Requests" | 431 => "Request Header Fields Too Large"
  | 451 => "Unavailable For Legal Reasons"
  | 500 => "Internal Server Error" | 501 => "Not Implemented" | 502 => "Bad Gateway"
  | 503 => "Service Unavailable" | 504 => "Gateway Timeout"
  | 505 => "HTTP Version Not Supported" | 506 => "Variant Also Negotiates"
  | 507 => "Insufficient Storage" | 508 => "Loop Detected" | 510 => "Not Extended"
  | 511 => "Network Authentication Required"
  | _ => ""

def hasAnyChaosSection (cfg : ChaosConfig) : Bool :=
  cfg.latency.isSome || cfg.errors.isSome || cfg.rateLimit.isSome || cfg.connection.isSome

/-- `chaosFor`: the effective chaos section of an agent. -/
def chaosFor (agent : AgentDefinition) : Option ChaosConfig :=
  match agent.spec.behavior.chaos with
  | none => none
  -- a section counts as enabled if it configures anything
  | some cfg => if !cfg.enabled && !hasAnyChaosSection cfg then none else some cfg

def clampUnitInterval (r : Rat) : Rat :=
  if r < 0 then 0 else if 1 < r then 1 else r

namespace ChaosInjector

def newChaosInjector : ChaosInjector := ⟨∅, ∅, ∅⟩

/-- `shouldTrigger`: fail the first `failFirst` requests, else draw against the rate.
    Returns the counter map and whether the fault fires. -/
def shouldTrigger (agentName : String) (rate : Rat) (failFirst : Int) (draw : Rat)
    (counter : GoMap String Int) : GoMap String Int × Bool :=
  if failFirst > 0 then
    -- the first `failFirst` requests fail, and the counter is never reset
    let n := (counter.lookup agentName).getD 0 + 1
    (counter.insert agentName n, n ≤ failFirst)
  else (counter, draw < clampUnitInterval rate)

/-- `checkRateLimit`: one rolling window per agent name. -/
def checkRateLimit (agentName : String) (rl : ChaosRateLimitConfig) (now : Int)
    (buckets : GoMap String RateBucket) : GoMap String RateBucket × Option ChaosError :=
  if rl.windowMs ≤ 0 then (buckets, none)
  else
    let window := millis rl.windowMs
    match buckets.lookup agentName with
    | none => (buckets.insert agentName ⟨now, 1⟩, none)
    | some bucket =>
      -- the window has passed: start a new one with this request
      if now - bucket.windowStart ≥ window then
        (buckets.insert agentName ⟨now, 1⟩, none)
      else
        let bucket := { bucket with count := bucket.count + 1 }
        (buckets.insert agentName bucket,
          if bucket.count > rl.requests then
            some {
              statusCode := 429
              message := "rate limit exceeded"
              retryAfter := window - (now - bucket.windowStart) }
          else none)

/-- `pickStatusCode`: one of the listed codes, or the single one. -/
def pickStatusCode (e : ChaosErrorConfig) (pick : Nat) : Int :=
  if e.statusCodes.length > 0 then
    e.statusCodes.getD (pick % e.statusCodes.length) 0
  else e.statusCode

/-- The error that `maybeInjectError` builds once it has triggered. -/
def injectedError (e : ChaosErrorConfig) (pick : Nat) : ChaosError :=
  if e.timeout then
    { statusCode := 504
      message := "request timed out"
      retryAfter := millis e.timeoutMs
      timeout := true }
  else
    let status := pickStatusCode e pick
    -- an unset code is a plain 500
    let status := if status = 0 then 500 else status
    let msg := if e.message = "" then statusText status else e.message
    { statusCode := status, message := msg }

def maybeInjectError (agentName : String) (e : ChaosErrorConfig) (draws : ChaosDraws)
    (counter : GoMap String Int) : GoMap String Int × Option ChaosError :=
  let (counter, fires) := shouldTrigger agentName e.rate e.failFirst draws.errorDraw counter
  (counter, if fires then some (injectedError e draws.statusPick) else none)

/-- `maybeInjectConnectionFault`; a blank mode means `"empty"`. -/
def maybeInjectConnectionFault (agentName : String) (cc : ChaosConnectionConfig)
    (draws : ChaosDraws) (counter : GoMap String Int) :
    GoMap String Int × Option ChaosError :=
  let (counter, fires) := shouldTrigger agentName cc.rate cc.failFirst draws.connDraw counter
  (counter, if fires then
      some { connection := if cc.mode = "" then "empty" else cc.mode }
    else none)

/-- The rate-limit step of `Before`. -/
def beforeRateLimit (c : ChaosInjector) (agentName : String) (cfg : ChaosConfig)
    (draws : ChaosDraws) : ChaosInjector × Option ChaosError :=
  match cfg.rateLimit with
  | none => (c, none)
  | some rl =>
    if rl.requests > 0 then
      let (buckets, err) := checkRateLimit agentName rl draws.now c.buckets
      ({ c with buckets := buckets }, err)
    else (c, none)

/-- The error-injection step of `Before`. -/
def beforeErrors (c : ChaosInjector) (agentName : String) (cfg : ChaosConfig)
    (draws : ChaosDraws) : ChaosInjector × Option ChaosError :=
  match cfg.errors with
  | none => (c, none)
  | some e =>
    if e.rate > 0 ∨ e.failFirst > 0 then
      let (counts, err) := maybeInjectError agentName e draws c.errorCounts
      ({ c with errorCounts := counts }, err)
    else (c, none)

/-- The connection-fault step of `Before`. -/
def beforeConnection (c : ChaosInjector) (agentName : String) (cfg : ChaosConfig)
    (draws : ChaosDraws) : ChaosInjector × Option ChaosError :=
  match cfg.connection with
  | none => (c, none)
  | some cc =>
    if cc.rate > 0 ∨ cc.failFirst > 0 then
      let (counts, err) := maybeInjectConnectionFault agentName cc draws c.connCounts
      ({ c with connCounts := counts }, err)
    else (c, none)

/-- Run the next step of `Before` unless this one has already rejected the request. -/
def andThen (r : ChaosInjector × Option ChaosError)
    (next : ChaosInjector → ChaosInjector × Option ChaosError) :
    ChaosInjector × Option ChaosError :=
  match r with
  | (c, some err) => (c, some err)
  | (c, none) => next c

/-- `Before`: rate limit, then error injection, then connection fault; the first error
    aborts the request. -/
def before (c : ChaosInjector) (agent : AgentDefinition) (draws : ChaosDraws) :
    ChaosInjector × Option ChaosError :=
  match chaosFor agent with
  | none => (c, none)
  | some cfg =>
    let name := agent.metadata.name
    andThen (beforeRateLimit c name cfg draws) fun c =>
      andThen (beforeErrors c name cfg draws) fun c =>
        beforeConnection c name cfg draws

end ChaosInjector

end MockAgents
