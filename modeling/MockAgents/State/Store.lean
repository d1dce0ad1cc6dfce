import MockAgents.ForStd.GoMap
import MockAgents.ForStd.Trace
import MockAgents.State.Session

/-!
# The session store

`MemoryStore` maps session keys to session pointers. `GetOrCreate` hands out the
store's own pointer, so a session lives on in the heap after its key was evicted.

`StoreSystem` runs requests, `Get` and `Cleanup` calls concurrently. Its events are the
lock regions of the source: `GetOrCreate` under the store lock, a turn under the session
lock from its user message to its reply, the lookup, the expiry check and the
compare-and-delete of `Get`, and the three phases of `Cleanup`. An expiry check waits
for a turn in progress; a compare-and-delete does not.
-/

namespace MockAgents

abbrev SessionPtr := Nat

/-- `DefaultSessionTTL`: 30 minutes. -/
def defaultSessionTTL : Int := 30 * 60 * 1000000000

/-- The store's map, the sessions it has allocated, and the TTL it gives them. -/
structure MemoryStore where
  sessions : GoMap String SessionPtr
  heap : SessionPtr → Session
  next : SessionPtr
  ttl : Int

namespace MemoryStore

def newMemoryStore (ttl : Int) : MemoryStore where
  sessions := ∅
  heap := fun _ => default
  next := 0
  ttl := if ttl ≤ 0 then defaultSessionTTL else ttl

def create (st : MemoryStore) (id agentName : String) (now : Int) :
    MemoryStore × SessionPtr :=
  ({ st with
      sessions := st.sessions.insert id st.next
      heap := Function.update st.heap st.next (Session.newSession id agentName st.ttl now)
      next := st.next + 1 },
    st.next)

/-- `GetOrCreate`; `checkAt` and `createAt` are the clock readings of the expiry check
    and of `NewSession`. -/
def getOrCreate (st : MemoryStore) (id agentName : String) (checkAt createAt : Int) :
    MemoryStore × SessionPtr :=
  match st.sessions.lookup id with
  | some p =>
    if (st.heap p).isExpired checkAt then
      { st with sessions := st.sessions.erase id }.create id agentName createAt
    else (st, p)
  | none => st.create id agentName createAt

def deleteIfSame (st : MemoryStore) (id : String) (p : SessionPtr) : MemoryStore :=
  if st.sessions.lookup id = some p then { st with sessions := st.sessions.erase id }
  else st

/-- The snapshot of `Cleanup`, in the order of the map iteration. -/
def snapshot (st : MemoryStore) (ord : MapOrder) : List SessionPtr :=
  (ord.visit st.sessions.entries).map (·.2)

/-- The body of `Cleanup`'s deletion loop: still the same pointer, still expired. -/
def deleteIfExpired (st : MemoryStore) (p : SessionPtr) (now : Int) : MemoryStore :=
  if (st.heap p).isExpired now then st.deleteIfSame (st.heap p).id p else st

/-- Change a session in place. -/
def update (st : MemoryStore) (p : SessionPtr) (f : Session → Session) : MemoryStore :=
  { st with heap := Function.update st.heap p (f (st.heap p)) }

end MemoryStore

/-! ## Concurrent use -/

/-- Where a client of the store is. -/
inductive StorePc where
  | idle
  | holding (key : String) (p : SessionPtr)
  | inTurn (key : String) (p : SessionPtr)
  | looked (key : String) (p : SessionPtr)
  | evicting (key : String) (p : SessionPtr)
  | checking (todo expired : List SessionPtr)
  | deleting (todo : List SessionPtr)

/-- A successful turn: the key and the session it was applied to, when it ended, and the
    session as it left it. -/
structure DoneTurn where
  key : String
  ptr : SessionPtr
  endedAt : Int
  session : Session

/-- The store, the latest clock reading, the sessions with a turn in progress and the
    clients. `done` records the successful turns. -/
structure StoreSystem (ι : Type) where
  store : MemoryStore
  now : Int
  busy : SessionPtr → Bool
  pc : ι → StorePc
  done : List DoneTurn

/-- The lock regions, each with its clock readings. A turn that ends without a reply is
    one whose `build` callback failed. -/
inductive StoreEvent (ι : Type) where
  | getOrCreate (i : ι) (key agentName : String) (checkAt createAt : Int)
  | beginTurn (i : ι) (content : String) (now : Int)
  | endTurn (i : ι) (vars : Fields) (reply : Option Reply) (now : Int)
  | getLookup (i : ι) (key : String)
  | getCheck (i : ι) (now : Int)
  | getEvict (i : ι) (now : Int)
  | cleanupSnapshot (i : ι) (ord : MapOrder)
  | cleanupCheck (i : ι) (now : Int)
  | cleanupDelete (i : ι) (now : Int)

namespace StoreSystem

variable {ι : Type} [DecidableEq ι]

/-- A new store without clients. -/
def initial (ttl now : Int) : StoreSystem ι where
  store := MemoryStore.newMemoryStore ttl
  now := now
  busy := fun _ => false
  pc := fun _ => .idle
  done := []

/-- The session under the key, if there is one, has no turn in progress. -/
def unlocked (s : StoreSystem ι) (key : String) : Bool :=
  match s.store.sessions.lookup key with
  | some p => !s.busy p
  | none => true

/-- Move one client, on a new store and at a new time. -/
def move (s : StoreSystem ι) (i : ι) (pc : StorePc) (store : MemoryStore) (now : Int) :
    StoreSystem ι :=
  { s with store := store, now := now, pc := Function.update s.pc i pc }

/-- One step; `none` if the event is not enabled. The clock never goes back. -/
def step (s : StoreSystem ι) : StoreEvent ι → Option (StoreSystem ι)
  | .getOrCreate i key agentName checkAt createAt =>
    match s.pc i with
    | .idle =>
      if s.now ≤ checkAt ∧ checkAt ≤ createAt ∧ s.unlocked key = true then
        let (store, p) := s.store.getOrCreate key agentName checkAt createAt
        some (s.move i (.holding key p) store createAt)
      else none
    | _ => none
  | .beginTurn i content now =>
    match s.pc i with
    | .holding key p =>
      if s.now ≤ now ∧ s.busy p = false then
        let store := s.store.update p (·.appendUserMessage content now)
        some { s.move i (.inTurn key p) store now with busy := Function.update s.busy p true }
      else none
    | _ => none
  | .endTurn i vars reply now =>
    match s.pc i with
    | .inTurn key p =>
      if s.now ≤ now then
        let busy := Function.update s.busy p false
        let store := s.store.update p fun session => { session with vars := vars }
        match reply with
        | none => some { s.move i .idle store now with busy := busy }
        | some reply =>
          let store := store.update p fun session =>
            session.appendAssistantMessage reply.content reply.toolCalls now
          some { s.move i .idle store now with
            busy := busy
            done := s.done ++ [⟨key, p, now, store.heap p⟩] }
      else none
    | _ => none
  | .getLookup i key =>
    match s.pc i, s.store.sessions.lookup key with
    | .idle, some p => some (s.move i (.looked key p) s.store s.now)
    | .idle, none => some s
    | _, _ => none
  | .getCheck i now =>
    match s.pc i with
    | .looked key p =>
      if s.now ≤ now ∧ s.busy p = false then
        let pc := if (s.store.heap p).isExpired now then .evicting key p else .idle
        some (s.move i pc s.store now)
      else none
    | _ => none
  | .getEvict i now =>
    match s.pc i with
    | .evicting key p =>
      if s.now ≤ now then some (s.move i .idle (s.store.deleteIfSame key p) now) else none
    | _ => none
  | .cleanupSnapshot i ord =>
    match s.pc i with
    | .idle => some (s.move i (.checking (s.store.snapshot ord) []) s.store s.now)
    | _ => none
  | .cleanupCheck i now =>
    match s.pc i with
    | .checking [] expired =>
      if s.now ≤ now then some (s.move i (.deleting expired) s.store now) else none
    | .checking (p :: todo) expired =>
      if s.now ≤ now ∧ s.busy p = false then
        let expired := if (s.store.heap p).isExpired now then expired ++ [p] else expired
        some (s.move i (.checking todo expired) s.store now)
      else none
    | _ => none
  | .cleanupDelete i now =>
    match s.pc i with
    | .deleting [] => if s.now ≤ now then some (s.move i .idle s.store now) else none
    | .deleting (p :: todo) =>
      if s.now ≤ now ∧ s.busy p = false then
        some (s.move i (.deleting todo) (s.store.deleteIfExpired p now) now)
      else none
    | _ => none

def run (s : StoreSystem ι) (events : List (StoreEvent ι)) : Option (StoreSystem ι) :=
  runOption step s events

end StoreSystem

end MockAgents
