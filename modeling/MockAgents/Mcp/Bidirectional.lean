import MockAgents.ForStd.Decimal
import MockAgents.ForStd.GoMap
import MockAgents.ForStd.Goroutines
import MockAgents.ForStd.Trace

/-!
# Server-initiated messages

The state behind the server's own requests and notifications. `Outbox` holds the messages on
their way to a client: a buffer, and the channel of the subscriber that is attached, if there
is one. `SendRequest` queues a request and waits for the response that `DeliverResponse` hands
over by the request's id.

Everything but a receive runs under one mutex, so an event of `Bidirectional` is one critical
section, or one channel operation. The payloads of messages and responses are arbitrary.
-/

namespace MockAgents

/-- An `OutboundMessage`: a request with its id, or a notification. -/
inductive OutboundMessage (μ : Type) where
  | request (id : Bytes) (payload : μ)
  | notification (payload : μ)
  deriving DecidableEq

/-- A subscriber: its channel, what it has received, and whether its cancel function ran. -/
structure OutboxSubscriber (μ : Type) where
  ch : Chan (OutboundMessage μ)
  received : List (OutboundMessage μ) := []
  cancelled : Bool := false
  deriving DecidableEq

/-- The outgoing half of `bidirectional`, with all subscribers there have been. -/
structure Outbox (μ : Type) where
  outbound : List (OutboundMessage μ) := []
  sub : Option Nat := none
  subscribers : List (OutboxSubscriber μ) := []
  enqueued : List (OutboundMessage μ) := []
  /-- A send on a closed channel, or a second `close`. -/
  panicked : Bool := false
  deriving DecidableEq

namespace Outbox

variable {μ : Type}

def attached (o : Outbox μ) : Option (OutboxSubscriber μ) :=
  o.sub.bind fun k => o.subscribers[k]?

def setSubscriber (o : Outbox μ) (k : Nat) (sub : OutboxSubscriber μ) : Outbox μ :=
  { o with subscribers := o.subscribers.set k sub }

def buffer (o : Outbox μ) (msg : OutboundMessage μ) : Outbox μ :=
  { o with outbound := o.outbound ++ [msg] }

def enqueue (o : Outbox μ) (msg : OutboundMessage μ) : Outbox μ :=
  let o := { o with enqueued := o.enqueued ++ [msg] }
  match o.sub with
  | none => o.buffer msg
  | some k =>
    match o.subscribers[k]? with
    | none => o.buffer msg
    | some sub =>
      match sub.ch.trySend msg with
      | .sent ch => o.setSubscriber k { sub with ch := ch }
      | .full => o.buffer msg
      | .panic => { o with panicked := true }

/-- The loop of `Subscribe`: send until the channel is full, and keep the rest. -/
def replay (ch : Chan (OutboundMessage μ)) :
    List (OutboundMessage μ) → Chan (OutboundMessage μ) × List (OutboundMessage μ)
  | [] => (ch, [])
  | msg :: msgs =>
    match ch.trySend msg with
    | .sent ch => replay ch msgs
    | _ => (ch, msg :: msgs)

/-- The close of the previous subscriber's channel in `Subscribe`. -/
def steal (o : Outbox μ) : Outbox μ :=
  match o.sub with
  | none => o
  | some k =>
    match o.subscribers[k]? with
    | none => o
    | some sub =>
      match sub.ch.close with
      | some ch => o.setSubscriber k { sub with ch := ch }
      | none => { o with panicked := true }

def subscribe (o : Outbox μ) (buffer : Int) : Outbox μ :=
  let o := o.steal
  let (ch, rest) := replay (Chan.make _ (if buffer ≤ 0 then 16 else buffer.toNat)) o.outbound
  { o with
    sub := some o.subscribers.length
    subscribers := o.subscribers ++ [{ ch := ch }]
    outbound := rest }

def cancel (o : Outbox μ) (k : Nat) (sub : OutboxSubscriber μ) : Outbox μ :=
  if o.sub = some k then
    match sub.ch.close with
    | some ch =>
      let drained := { ch with buf := [], le_cap := Nat.zero_le _ }
      { o with
        outbound := ch.buf ++ o.outbound
        sub := none }.setSubscriber k { sub with ch := drained, cancelled := true }
    | none => { o with panicked := true }
  else o.setSubscriber k { sub with cancelled := true }

/-- A subscriber receives; `none` if it has to wait, or has cancelled. A closed channel tells it
    to leave. -/
def receive (o : Outbox μ) (k : Nat) (sub : OutboxSubscriber μ) : Option (Outbox μ) :=
  if sub.cancelled then none
  else
    match sub.ch.receive with
    | .value msg ch =>
      some (o.setSubscriber k { sub with ch := ch, received := sub.received ++ [msg] })
    | .closed => some o
    | .blocked => none

end Outbox

/-- A `Response` of a client. Only its id is looked at. -/
structure ClientReply (ρ : Type) where
  id : Bytes
  body : ρ
  deriving DecidableEq

/-- Why `SendRequest` returns an error. -/
inductive SendError where
  | marshal
  | context
  deriving DecidableEq

/-- Where a `SendRequest` call is: what it does next. -/
inductive SendPc (ρ : Type) where
  /-- `newServerID`. -/
  | issuing
  /-- `json.Marshal(params)`. -/
  | encoding
  /-- `registerPending`. -/
  | registering
  /-- `enqueue`. -/
  | queueing
  /-- The `select`. -/
  | waiting
  /-- The deferred `cleanup`. -/
  | cleaning (result : Except SendError (ClientReply ρ))
  | returned (result : Except SendError (ClientReply ρ))
  deriving DecidableEq

structure SendCall (μ ρ : Type) where
  payload : μ
  /-- `json.Marshal` takes the parameters. -/
  encodable : Bool
  /-- The number that `newServerID` drew. -/
  id : Nat := 0
  /-- The channel of `registerPending`. -/
  ch : Chan (ClientReply ρ) := Chan.make _ 1
  cancelled : Bool := false
  pc : SendPc ρ := .issuing
  deriving DecidableEq

/-- The id of a call as `pending` knows it. -/
def SendCall.key {μ ρ : Type} (c : SendCall μ ρ) : Bytes := Decimal.natText c.id

inductive DeliverPc where
  /-- Take the channel out of `pending`. -/
  | looking
  /-- Send on the channel of a call. -/
  | sending (target : Nat)
  | succeeded (target : Nat)
  | failed
  deriving DecidableEq

structure DeliverCall (ρ : Type) where
  resp : ClientReply ρ
  pc : DeliverPc
  deriving DecidableEq

/-- `bidirectional` with the calls on it. -/
structure Bidirectional (μ ρ : Type) where
  outbox : Outbox μ := {}
  /-- Ids to the calls whose channels stand there. -/
  pending : GoMap Bytes Nat := ∅
  nextID : Nat := 0
  sends : List (SendCall μ ρ) := []
  delivers : List (DeliverCall ρ) := []
  panicked : Bool := false

/-- A step of the system. -/
inductive BidiEvent (μ ρ : Type) where
  | send (payload : μ) (encodable : Bool)
  /-- The next step of a `SendRequest` call, up to its `select`, or its clean-up. -/
  | advance (i : Nat)
  /-- The `select` takes the response. -/
  | reply (i : Nat)
  /-- The `select` sees that the context is done. -/
  | expire (i : Nat)
  /-- The context of a `SendRequest` call is done. -/
  | cancelCtx (i : Nat)
  | deliver (resp : ClientReply ρ)
  | advanceDeliver (j : Nat)
  /-- `pushNotification`. -/
  | notify (payload : μ)
  | subscribe (buffer : Int)
  | receive (k : Nat)
  | cancel (k : Nat)

namespace Bidirectional

variable {μ ρ : Type}

def setSend (s : Bidirectional μ ρ) (i : Nat) (c : SendCall μ ρ) : Bidirectional μ ρ :=
  { s with sends := s.sends.set i c }

def moveDeliver (s : Bidirectional μ ρ) (j : Nat) (d : DeliverCall ρ) (pc : DeliverPc) :
    Bidirectional μ ρ :=
  { s with delivers := s.delivers.set j { d with pc := pc } }

/-- The next step of a `SendRequest` call outside its `select`. -/
def advance (s : Bidirectional μ ρ) (i : Nat) (c : SendCall μ ρ) :
    Option (Bidirectional μ ρ) :=
  match c.pc with
  | .issuing =>
    some ({ s with nextID := s.nextID + 1 }.setSend i
      { c with id := s.nextID + 1, pc := .encoding })
  | .encoding =>
    if c.encodable then some (s.setSend i { c with pc := .registering })
    else some (s.setSend i { c with pc := .returned (.error .marshal) })
  | .registering =>
    some ({ s with pending := s.pending.insert c.key i }.setSend i
      { c with ch := Chan.make _ 1, pc := .queueing })
  | .queueing =>
    some ({ s with outbox := s.outbox.enqueue (.request c.key c.payload) }.setSend i
      { c with pc := .waiting })
  | .waiting => none
  | .cleaning result =>
    some ({ s with pending := s.pending.erase c.key }.setSend i
      { c with pc := .returned result })
  | .returned _ => none

/-- The next step of a `DeliverResponse` call. The send blocks while the channel is full. -/
def advanceDeliver (s : Bidirectional μ ρ) (j : Nat) (d : DeliverCall ρ) :
    Option (Bidirectional μ ρ) :=
  match d.pc with
  | .looking =>
    match s.pending.lookup d.resp.id with
    | none => some (s.moveDeliver j d .failed)
    | some i =>
      some ({ s with pending := s.pending.erase d.resp.id }.moveDeliver j d (.sending i))
  | .sending i =>
    match s.sends[i]? with
    | none => none
    | some c =>
      match c.ch.trySend d.resp with
      | .sent ch => some ((s.setSend i { c with ch := ch }).moveDeliver j d (.succeeded i))
      | .full => none
      | .panic => some { s with panicked := true }
  | .succeeded _ => none
  | .failed => none

/-- One step; `none` if the event is not enabled. -/
def step (s : Bidirectional μ ρ) : BidiEvent μ ρ → Option (Bidirectional μ ρ)
  | .send payload encodable =>
    some { s with sends := s.sends ++ [{ payload := payload, encodable := encodable }] }
  | .advance i => s.sends[i]?.bind (s.advance i)
  | .reply i =>
    s.sends[i]?.bind fun c =>
      match c.pc, c.ch.receive with
      | .waiting, .value resp ch =>
        some (s.setSend i { c with ch := ch, pc := .cleaning (.ok resp) })
      | _, _ => none
  | .expire i =>
    s.sends[i]?.bind fun c =>
      match c.pc, c.cancelled with
      | .waiting, true => some (s.setSend i { c with pc := .cleaning (.error .context) })
      | _, _ => none
  | .cancelCtx i => s.sends[i]?.map fun c => s.setSend i { c with cancelled := true }
  | .deliver resp =>
    -- a response without an id is refused at once
    let pc : DeliverPc := if resp.id = [] then .failed else .looking
    some { s with delivers := s.delivers ++ [⟨resp, pc⟩] }
  | .advanceDeliver j => s.delivers[j]?.bind (s.advanceDeliver j)
  | .notify payload => some { s with outbox := s.outbox.enqueue (.notification payload) }
  | .subscribe buffer => some { s with outbox := s.outbox.subscribe buffer }
  | .receive k =>
    s.outbox.subscribers[k]?.bind fun sub =>
      (s.outbox.receive k sub).map fun outbox => { s with outbox := outbox }
  | .cancel k =>
    s.outbox.subscribers[k]?.map fun sub => { s with outbox := s.outbox.cancel k sub }

def run (s : Bidirectional μ ρ) (events : List (BidiEvent μ ρ)) : Option (Bidirectional μ ρ) :=
  runOption step s events

end Bidirectional

end MockAgents
