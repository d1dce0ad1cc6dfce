import MockAgents.ForStd.Goroutines
import MockAgents.ForStd.Trace

/-!
# The interaction-log worker

`LogWorker` is a bounded queue with a pool of goroutines that write its entries to the log
store. `LogSystem` interleaves any number of `Submit` calls, the workers and one `Shutdown`
call with its timer, at the grain of single lock operations, atomic operations and channel
operations.

The entries are of an arbitrary type. Counters are natural numbers and do not wrap around.
What the store does with an entry, whether for its own reasons or because `Shutdown` cancelled
the context, is the choice of the event.
-/

namespace MockAgents

def defaultLogWorkerCount : Nat := 4

def defaultLogQueueSize : Nat := 1024

structure LogWorkerConfig where
  workers : Int := 0
  queueSize : Int := 0

/-- Where a `Submit` call is: what it does next. -/
inductive SubmitPc where
  /-- Take the read lock. -/
  | locking
  /-- Look at `stopped`. -/
  | checking
  /-- `submitted.Add(1)`. -/
  | counting
  | sending
  /-- The queue was full: `submitted.Add(^uint64(0))`. -/
  | rollingBack
  /-- `dropped.Add(1)`. -/
  | dropping
  | unlocking (accepted : Bool)
  | returned (accepted : Bool)
  deriving DecidableEq

structure SubmitCall (ε : Type) where
  entry : ε
  pc : SubmitPc
  deriving DecidableEq

/-- An entry in the queue or in the hands of a worker, with the number of its call. -/
structure Submission (ε : Type) where
  call : Nat
  entry : ε
  deriving DecidableEq

inductive LogWorkerPc (ε : Type) where
  /-- The first `select`, which only looks at `quit`. -/
  | polling
  /-- The second `select`. -/
  | waiting
  | writing (sub : Submission ε)
  | publishing (entry : ε)
  | exited
  deriving DecidableEq

/-- Where the `Shutdown` call is. -/
inductive ShutdownPc where
  | idle
  /-- Holding the lock: `stopped.Store(true)`. -/
  | storing
  | closing
  | unlocking
  /-- The timer is set: wait for the workers. -/
  | waiting
  /-- Stop the timer. -/
  | stopping
  | returned
  deriving DecidableEq

/-- A `LogWorker` with the calls on it. -/
structure LogSystem (ε : Type) where
  /-- Whether there is a log store. -/
  enabled : Bool
  queue : Chan (Submission ε)
  submitted : Nat := 0
  written : Nat := 0
  dropped : Nat := 0
  failed : Nat := 0
  stopped : Bool := false
  quit : Bool := false
  /-- The timer of `Shutdown` has fired. -/
  fired : Bool := false
  submits : List (SubmitCall ε) := []
  workers : List (LogWorkerPc ε)
  shutdown : ShutdownPc := .idle
  /-- The entries that were counted as written or failed. -/
  processed : List (Submission ε) := []
  /-- The entries that were handed to the broadcaster. -/
  published : List ε := []
  /-- A send on the closed queue, or a second `close`. -/
  panicked : Bool := false
  deriving DecidableEq

/-- A step of the system. -/
inductive LogEvent (ε : Type) where
  | submit (entry : ε)
  | advance (call : Nat)
  | poll (worker : Nat)
  /-- The second `select` of a worker sees that `quit` is closed. -/
  | leave (worker : Nat)
  /-- The second `select` of a worker receives from the queue. -/
  | take (worker : Nat)
  /-- `store.Log` returns, with or without an error. -/
  | write (worker : Nat) (ok : Bool)
  | publish (worker : Nat)
  | shutdown
  | deadline
  /-- The function of the timer closes `quit`. -/
  | quit

def SubmitPc.holdsLock : SubmitPc → Bool
  | .locking | .returned _ => false
  | _ => true

/-- `Shutdown` holds the write lock. -/
def ShutdownPc.holdsLock : ShutdownPc → Bool
  | .storing | .closing | .unlocking => true
  | _ => false

namespace LogSystem

variable {ε : Type}

/-- `NewLogWorker`. `enabled` says that the store is not nil. -/
def newLogWorker (enabled : Bool) (cfg : LogWorkerConfig) : LogSystem ε where
  enabled := enabled
  queue := Chan.make _ (if cfg.queueSize ≤ 0 then defaultLogQueueSize else cfg.queueSize.toNat)
  workers := List.replicate
    (if cfg.workers ≤ 0 then defaultLogWorkerCount else cfg.workers.toNat) .polling

def moveSubmit (s : LogSystem ε) (k : Nat) (c : SubmitCall ε) (pc : SubmitPc) : LogSystem ε :=
  { s with submits := s.submits.set k { c with pc := pc } }

def moveWorker (s : LogSystem ε) (j : Nat) (pc : LogWorkerPc ε) : LogSystem ε :=
  { s with workers := s.workers.set j pc }

/-- The next step of the `Submit` call `c`, the `k`-th one. -/
def advance (s : LogSystem ε) (k : Nat) (c : SubmitCall ε) : Option (LogSystem ε) :=
  match c.pc with
  | .locking => if s.shutdown.holdsLock then none else some (s.moveSubmit k c .checking)
  | .checking => some (s.moveSubmit k c (if s.stopped then .dropping else .counting))
  | .counting => some ({ s with submitted := s.submitted + 1 }.moveSubmit k c .sending)
  | .sending =>
    match s.queue.trySend ⟨k, c.entry⟩ with
    | .sent queue => some ({ s with queue := queue }.moveSubmit k c (.unlocking true))
    | .full => some (s.moveSubmit k c .rollingBack)
    | .panic => some { s with panicked := true }
  | .rollingBack => some ({ s with submitted := s.submitted - 1 }.moveSubmit k c .dropping)
  | .dropping =>
    some ({ s with dropped := s.dropped + 1 }.moveSubmit k c (.unlocking false))
  | .unlocking accepted => some (s.moveSubmit k c (.returned accepted))
  | .returned _ => none

/-- The next step of `Shutdown`. -/
def advanceShutdown (s : LogSystem ε) : Option (LogSystem ε) :=
  match s.shutdown with
  | .idle =>
    if s.submits.any (·.pc.holdsLock) then none else some { s with shutdown := .storing }
  | .storing => some { s with stopped := true, shutdown := .closing }
  | .closing =>
    match s.queue.close with
    | some queue => some { s with queue := queue, shutdown := .unlocking }
    | none => some { s with panicked := true }
  | .unlocking => some { s with shutdown := .waiting }
  | .waiting =>
    if s.workers.all (· matches .exited) then some { s with shutdown := .stopping } else none
  | .stopping => some { s with shutdown := .returned }
  | .returned => none

/-- One step; `none` if the event is not enabled. A `Submit` call without a store returns
    before it does anything. -/
def step (s : LogSystem ε) : LogEvent ε → Option (LogSystem ε)
  | .submit entry =>
    if s.enabled then some { s with submits := s.submits ++ [⟨entry, .locking⟩] } else some s
  | .advance k => s.submits[k]?.bind (s.advance k)
  | .poll j =>
    match s.workers[j]? with
    | some .polling => some (s.moveWorker j (if s.quit then .exited else .waiting))
    | _ => none
  | .leave j =>
    match s.workers[j]? with
    | some .waiting => if s.quit then some (s.moveWorker j .exited) else none
    | _ => none
  | .take j =>
    match s.workers[j]? with
    | some .waiting =>
      match s.queue.receive with
      | .value sub queue => some ({ s with queue := queue }.moveWorker j (.writing sub))
      | .closed => some (s.moveWorker j .exited)
      | .blocked => none
    | _ => none
  | .write j ok =>
    match s.workers[j]? with
    | some (.writing sub) =>
      let s := { s with processed := s.processed ++ [sub] }
      if ok then some ({ s with written := s.written + 1 }.moveWorker j (.publishing sub.entry))
      else some ({ s with failed := s.failed + 1 }.moveWorker j .polling)
    | _ => none
  | .publish j =>
    match s.workers[j]? with
    | some (.publishing entry) =>
      some ({ s with published := s.published ++ [entry] }.moveWorker j .polling)
    | _ => none
  | .shutdown => s.advanceShutdown
  | .deadline =>
    -- after `Stop` the timer does not fire any more
    if s.shutdown = .waiting ∨ s.shutdown = .stopping then some { s with fired := true } else none
  | .quit => if s.fired ∧ s.quit = false then some { s with quit := true } else none

def run (s : LogSystem ε) (events : List (LogEvent ε)) : Option (LogSystem ε) :=
  runOption step s events

end LogSystem

end MockAgents
