import MockAgents.ForStd.Goroutines
import MockAgents.ForStd.Trace

/-!
# Event streams of a session

The server-to-client half of the Streamable HTTP transport: a session numbers its events, keeps
the last ones in a log, and offers each to the GET streams that are registered. A stream that
is opened with a `Last-Event-ID` gets the later events of the log first.

`Streaming` is a session with one client that reads its streams one after the other, and any
number of streams of others. `broadcastNotification`, `subscribe`, `close` and the cancel hook
run under the session's mutex and are one step each; a handler writes one event in a step, and
the client reads one.
-/

namespace MockAgents

def maxSessionLogEvents : Nat := 1024

def maxSubscribersPerSession : Nat := 64

def subscriberChanBuffer : Nat := 64

structure LoggedEvent (δ : Type) where
  id : Nat
  data : δ
  deriving DecidableEq

/-- A GET request in `handleGet`. -/
structure GetStream (δ : Type) where
  ch : Chan (LoggedEvent δ)
  /-- What is left of the replay. -/
  replay : List (LoggedEvent δ) := []
  /-- What was written and not read yet. -/
  wire : List (LoggedEvent δ) := []
  done : Bool := false
  /-- A broadcast has found the channel full. -/
  skipped : Bool := false
  deriving DecidableEq

/-- `streamSession`, with all GET streams there have been. -/
structure StreamSession (δ : Type) where
  nextID : Nat := 0
  log : List (LoggedEvent δ) := []
  streams : List (GetStream δ) := []
  /-- The streams whose channels are in the map. -/
  subs : List Nat := []
  closed : Bool := false
  /-- A send on a closed channel, or a second `close` of one. -/
  panicked : Bool := false
  deriving DecidableEq

namespace GetStream

variable {δ : Type}

/-- The non-blocking send of `broadcastNotification`; `none` if it panics. -/
def offer (g : GetStream δ) (ev : LoggedEvent δ) : Option (GetStream δ) :=
  match g.ch.trySend ev with
  | .sent ch => some { g with ch := ch }
  | .full => some { g with skipped := true }
  | .panic => none

/-- The handler writes the next event: the replay first, then what it receives. A closed channel
    ends it. `none` if it has to wait, or has returned. -/
def write (g : GetStream δ) : Option (GetStream δ) :=
  if g.done then none
  else
    match g.replay with
    | ev :: replay => some { g with replay := replay, wire := g.wire ++ [ev] }
    | [] =>
      match g.ch.receive with
      | .value ev ch => some { g with ch := ch, wire := g.wire ++ [ev] }
      | .closed => some { g with done := true }
      | .blocked => none

end GetStream

namespace StreamSession

variable {δ : Type}

/-- A loop over the map: each channel in it is visited once, and has a stream of its own, so
    their order makes no difference. -/
def forSubs (s : StreamSession δ) (f : GetStream δ → Option (GetStream δ)) : StreamSession δ :=
  { s with
    streams := s.streams.mapIdx fun k g => if k ∈ s.subs then (f g).getD g else g
    panicked := s.panicked || s.subs.any fun k => (s.streams[k]?.bind f).isNone }

/-- `broadcastNotification`; there is no data if the notification cannot be encoded. -/
def broadcastNotification (s : StreamSession δ) (data : Option δ) : StreamSession δ :=
  match data with
  | none => s
  | some data =>
    if s.closed then s
    else
      let ev : LoggedEvent δ := ⟨s.nextID + 1, data⟩
      let log := s.log ++ [ev]
      { s with
        nextID := s.nextID + 1
        log := log.drop (log.length - maxSessionLogEvents) }.forSubs (·.offer ev)

/-- `subscribe`; `none` if the session has no room for a stream. -/
def subscribe (s : StreamSession δ) (after : Int) : Option (StreamSession δ) :=
  if s.closed then
    let ch := { Chan.make (LoggedEvent δ) subscriberChanBuffer with closed := true }
    some { s with streams := s.streams ++ [{ ch := ch }] }
  else if maxSubscribersPerSession ≤ s.subs.length then none
  else
    some { s with
      streams := s.streams ++ [
        { ch := Chan.make _ subscriberChanBuffer
          replay := s.log.filter fun ev => decide (after < ev.id) }]
      subs := s.subs ++ [s.streams.length] }

/-- The end of a handler, with its cancel hook. -/
def finish (s : StreamSession δ) (k : Nat) (g : GetStream δ) : StreamSession δ :=
  { s with
    streams := s.streams.set k { g with done := true }
    subs := s.subs.filter (· ≠ k) }

def close (s : StreamSession δ) : StreamSession δ :=
  if s.closed then s
  else
    { s.forSubs (fun g => g.ch.close.map fun ch => { g with ch := ch }) with
      closed := true
      subs := [] }

end StreamSession

/-- A client that keeps the largest event id it has received. -/
structure EventClient where
  last : Nat := 0
  received : List Nat := []
  /-- The number of events of the session at the first subscription. -/
  first : Option Nat := none
  /-- The stream it reads. -/
  current : Option Nat := none
  deriving DecidableEq

/-- A session and one client of it. -/
structure Streaming (δ : Type) where
  session : StreamSession δ := {}
  client : EventClient := {}
  deriving DecidableEq

/-- A step of a session and its clients. -/
inductive StreamingEvent (δ : Type) where
  | broadcast (data : Option δ)
  /-- The client opens a stream, with the last id it has received. -/
  | connect
  | receive
  | disconnect
  /-- Someone else opens a stream. -/
  | get (after : Int)
  | write (k : Nat)
  /-- The handler of a stream sees that its client is gone. -/
  | finish (k : Nat)
  | close

namespace Streaming

variable {δ : Type}

def setStream (s : Streaming δ) (k : Nat) (g : GetStream δ) : Streaming δ :=
  { s with session := { s.session with streams := s.session.streams.set k g } }

/-- The client gets the first event on the wire. -/
def receive (s : Streaming δ) (k : Nat) (g : GetStream δ) : Option (Streaming δ) :=
  match g.wire with
  | [] => none
  | ev :: wire =>
    some { s.setStream k { g with wire := wire } with
      client := { s.client with
        last := max s.client.last ev.id
        received := s.client.received ++ [ev.id] } }

/-- One step; `none` if the event is not enabled. A client with a stream does not open another
    one, and a GET that is refused changes nothing. -/
def step (s : Streaming δ) : StreamingEvent δ → Option (Streaming δ)
  | .broadcast data => some { s with session := s.session.broadcastNotification data }
  | .connect =>
    match s.client.current with
    | some _ => none
    | none =>
      match s.session.subscribe s.client.last with
      | none => some s
      | some session =>
        some { s with
          session := session
          client := { s.client with
            first := some (s.client.first.getD s.session.nextID)
            current := some s.session.streams.length } }
  | .receive =>
    s.client.current.bind fun k => s.session.streams[k]?.bind fun g => s.receive k g
  | .disconnect => some { s with client := { s.client with current := none } }
  | .get after =>
    match s.session.subscribe after with
    | none => some s
    | some session => some { s with session := session }
  | .write k => s.session.streams[k]?.bind fun g => g.write.map (s.setStream k)
  | .finish k => s.session.streams[k]?.map fun g => { s with session := s.session.finish k g }
  | .close => some { s with session := s.session.close }

def run (s : Streaming δ) (events : List (StreamingEvent δ)) : Option (Streaming δ) :=
  runOption step s events

end Streaming

end MockAgents
