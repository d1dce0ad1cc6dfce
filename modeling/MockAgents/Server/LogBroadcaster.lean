import MockAgents.ForStd.Goroutines
import MockAgents.ForStd.Trace

/-!
# The fan-out of the interaction log

`LogBroadcaster` hands every published entry to the subscriptions that are registered. All of
its methods run under one mutex, but a subscriber receives from its channel without it, also
while `Publish` or `Close` goes through the subscribers. So these two take one step for each
subscriber, in any order, since Go leaves the order of a map open.
-/

namespace MockAgents

/-- A `storage.InteractionLog`: its tenant, and the fields that nobody here reads. -/
structure InteractionLog (ε : Type) where
  tenantID : String
  rest : ε
  deriving DecidableEq

def defaultLogStreamBuffer : Nat := 64

/-- A `LogSubscription`, with what its caller has received from it. -/
structure LogSubscription (ε : Type) where
  ch : Chan (InteractionLog ε)
  dropped : Nat := 0
  /-- Empty for all tenants. -/
  tenantID : String
  received : List (InteractionLog ε) := []
  deriving DecidableEq

/-- Who holds the mutex of the broadcaster: nobody, or a call with the subscribers that it has
    still to visit. -/
inductive BroadcasterLock (ε : Type) where
  | free
  | publishing (entry : InteractionLog ε) (todo : List Nat)
  | closing (todo : List Nat)
  deriving DecidableEq

/-- A `LogBroadcaster` with all subscriptions that it has handed out. A subscription is known
    by its number. -/
structure LogBroadcaster (ε : Type) where
  subs : List (LogSubscription ε) := []
  /-- The keys of the map. -/
  subscribers : List Nat := []
  closed : Bool := false
  lock : BroadcasterLock ε := .free
  /-- The entries that were published, each with the subscribers at that time. -/
  history : List (InteractionLog ε × List Nat) := []
  /-- A send on a closed channel, or a second `close`. -/
  panicked : Bool := false
  deriving DecidableEq

/-- A step of the broadcaster or of a subscriber. -/
inductive BroadcastEvent (ε : Type) where
  | subscribe (buffer : Int) (tenantID : String)
  | publish (entry : InteractionLog ε)
  | deliver (k : Nat)
  | endPublish
  | receive (k : Nat)
  | cancel (k : Nat)
  | close
  | closeSub (k : Nat)
  | endClose

/-- `Publish` does not pass the entry over. -/
def LogSubscription.wants {ε : Type} (sub : LogSubscription ε) (entry : InteractionLog ε) : Bool :=
  sub.tenantID = "" ∨ entry.tenantID = sub.tenantID

namespace LogBroadcaster

variable {ε : Type}

def setSub (b : LogBroadcaster ε) (k : Nat) (sub : LogSubscription ε) : LogBroadcaster ε :=
  { b with subs := b.subs.set k sub }

def subscribe (b : LogBroadcaster ε) (buffer : Int) (tenantID : String) : LogBroadcaster ε :=
  let ch := Chan.make _ (if buffer ≤ 0 then defaultLogStreamBuffer else buffer.toNat)
  if b.closed then
    -- the channel is new, so that closing it cannot fail
    { b with subs := b.subs ++ [{ ch := { ch with closed := true }, tenantID := tenantID }] }
  else
    { b with
      subs := b.subs ++ [{ ch := ch, tenantID := tenantID }]
      subscribers := b.subs.length :: b.subscribers }

/-- The body of the loop of `Publish`. -/
def deliver (b : LogBroadcaster ε) (k : Nat) (sub : LogSubscription ε)
    (entry : InteractionLog ε) : LogBroadcaster ε :=
  if sub.wants entry then
    match sub.ch.trySend entry with
    | .sent ch => b.setSub k { sub with ch := ch }
    | .full => b.setSub k { sub with dropped := sub.dropped + 1 }
    | .panic => { b with panicked := true }
  else b

/-- `close(sub.ch)`. -/
def closeSub (b : LogBroadcaster ε) (k : Nat) (sub : LogSubscription ε) : LogBroadcaster ε :=
  match sub.ch.close with
  | some ch => b.setSub k { sub with ch := ch }
  | none => { b with panicked := true }

/-- One step; `none` if the event is not enabled. -/
def step (b : LogBroadcaster ε) : BroadcastEvent ε → Option (LogBroadcaster ε)
  | .subscribe buffer tenantID =>
    match b.lock with
    | .free => some (b.subscribe buffer tenantID)
    | _ => none
  | .publish entry =>
    match b.lock with
    | .free =>
      some { b with
        lock := .publishing entry b.subscribers
        history := b.history ++ [(entry, b.subscribers)] }
    | _ => none
  | .deliver k =>
    match b.lock, b.subs[k]? with
    | .publishing entry todo, some sub =>
      if k ∈ todo then
        some ({ b with lock := .publishing entry (todo.erase k) }.deliver k sub entry)
      else none
    | _, _ => none
  | .endPublish =>
    match b.lock with
    | .publishing _ [] => some { b with lock := .free }
    | _ => none
  | .receive k =>
    b.subs[k]?.bind fun sub =>
      match sub.ch.receive with
      | .value entry ch =>
        some (b.setSub k { sub with ch := ch, received := sub.received ++ [entry] })
      | .closed => some b
      | .blocked => none
  | .cancel k =>
    match b.lock, b.subs[k]? with
    | .free, some sub =>
      if k ∈ b.subscribers then
        some ({ b with subscribers := b.subscribers.erase k }.closeSub k sub)
      else some b
    | _, _ => none
  | .close =>
    match b.lock with
    | .free =>
      if b.closed then some b
      else some { b with closed := true, lock := .closing b.subscribers }
    | _ => none
  | .closeSub k =>
    match b.lock, b.subs[k]? with
    | .closing todo, some sub =>
      if k ∈ todo then some ({ b with lock := .closing (todo.erase k) }.closeSub k sub) else none
    | _, _ => none
  | .endClose =>
    match b.lock with
    | .closing [] => some { b with subscribers := [], lock := .free }
    | _ => none

def run (b : LogBroadcaster ε) (events : List (BroadcastEvent ε)) : Option (LogBroadcaster ε) :=
  runOption step b events

end LogBroadcaster

end MockAgents
