import MockAgents.ForStd.InstantText

/-!
# The audit log

The audit store over its one table: `Append` adds a row, with the time as a text in UTC, and
`List` selects rows. Texts are compared byte by byte, as SQLite compares them.
-/

namespace MockAgents.Audit

/-- `EventKind`. A text that is none of the known kinds is `other`. -/
inductive EventKind where
  | tenantCreated
  | tenantDeleted
  | apiKeyCreated
  | apiKeyDeleted
  | apiKeyRoleChanged
  | apiKeyRotated
  | agentReloaded
  | agentCreated
  | agentUpdated
  | agentDeleted
  | pipelineSaved
  | authDenied
  | other (text : String)
  deriving DecidableEq

namespace EventKind

def text : EventKind → String
  | tenantCreated => "tenant.created"
  | tenantDeleted => "tenant.deleted"
  | apiKeyCreated => "api_key.created"
  | apiKeyDeleted => "api_key.deleted"
  | apiKeyRoleChanged => "api_key.role_changed"
  | apiKeyRotated => "api_key.rotated"
  | agentReloaded => "agent.reloaded"
  | agentCreated => "agent.created"
  | agentUpdated => "agent.updated"
  | agentDeleted => "agent.deleted"
  | pipelineSaved => "pipeline.saved"
  | authDenied => "auth.denied"
  | other text => text

def valid : EventKind → Bool
  | other _ => false
  | _ => true

end EventKind

/-- A `time.Time`: an instant, seen in a zone some seconds ahead of UTC. -/
structure ZonedTime where
  instant : Instant
  offset : Int := 0
  deriving DecidableEq

namespace ZonedTime

def isZero (t : ZonedTime) : Bool := t.instant = Instant.zero

def utc (t : ZonedTime) : ZonedTime := { t with offset := 0 }

end ZonedTime

structure Actor where
  name : String := ""
  tenantID : String := ""
  keyID : String := ""
  role : String := ""
  remoteIP : String := ""
  deriving DecidableEq

structure Event where
  id : Nat := 0
  timestamp : ZonedTime
  kind : EventKind
  actor : Actor := {}
  target : String := ""
  details : String := ""
  deriving DecidableEq

/-- A row of `audit_events`. -/
structure Row where
  id : Nat
  timestamp : Bytes
  kind : EventKind
  actor : Actor
  target : String
  details : String
  deriving DecidableEq

structure Query where
  kind : EventKind := .other ""
  actor : String := ""
  since : ZonedTime := ⟨Instant.zero, 0⟩
  limit : Int := 0
  actorTenant : String := ""
  deriving DecidableEq

/-- The table. Rows are only added, so the ids are the numbers from 1. -/
structure Store where
  rows : List Row := []
  ids : rows.map (·.id) = List.range' 1 rows.length := by rfl

/-- The event as `Append` leaves it: with a time in UTC, an actor and an id. -/
def Event.normalize (e : Event) (now : ZonedTime) (id : Nat) : Event :=
  { e with
    id := id
    timestamp := (if e.timestamp.isZero then now else e.timestamp).utc
    actor := if e.actor.name = "" then { e.actor with name := "anonymous" } else e.actor }

def Event.row (e : Event) : Row :=
  ⟨e.id, e.timestamp.instant.text, e.kind, e.actor, e.target, e.details⟩

/-- `Append`, with the time that `time.Now` returns. An invalid kind is refused. -/
def Store.append (s : Store) (now : ZonedTime) (e : Event) : Option (Store × Event) :=
  if e.kind.valid then
    let e := e.normalize now (s.rows.length + 1)
    some (⟨s.rows ++ [e.row], by
      rw [List.map_append, s.ids, List.length_append, List.length_singleton,
        List.range'_1_concat, Nat.add_comm 1]
      rfl⟩, e)
  else none

/-- The conditions of the statement, of which the empty ones are left out. -/
def Query.selects (q : Query) (row : Row) : Bool :=
  (q.kind.text = "" ∨ row.kind.text = q.kind.text) &&
  (q.actor = "" ∨ row.actor.name = q.actor) &&
  (q.actorTenant = "" ∨ row.actor.tenantID = q.actorTenant) &&
  (q.since.isZero || (compare row.timestamp q.since.utc.instant.text).isGE)

/-- The limit, by default 100 and at most 1000. -/
def Query.clampedLimit (q : Query) : Nat :=
  let limit := if q.limit ≤ 0 then 100 else q.limit
  (if limit > 1000 then 1000 else limit).toNat

/-- `scanEvent`. The texts in the table are those that `Append` writes, which both layouts read
    alike; one that cannot be read leaves the zero time. -/
def scanEvent (row : Row) : Event :=
  { id := row.id
    timestamp := ⟨((Time.parse row.timestamp).map Time.instant).getD Instant.zero, 0⟩
    kind := row.kind
    actor := row.actor
    target := row.target
    details := row.details }

/-- `List`: `ORDER BY id DESC LIMIT`. -/
def Store.list (s : Store) (q : Query) : List Event :=
  (((s.rows.filter q.selects).mergeSort fun a b => b.id ≤ a.id).take q.clampedLimit).map scanEvent

structure AppendCall where
  now : ZonedTime
  event : Event

def AppendCall.instant (c : AppendCall) : Instant :=
  if c.event.timestamp.isZero then c.now.instant else c.event.timestamp.instant

/-- The store after some calls, and the events that were appended, in order. -/
def appendAll : List AppendCall → Store × List Event → Store × List Event
  | [], st => st
  | c :: calls, (s, events) =>
    match s.append c.now c.event with
    | some (s', e) => appendAll calls (s', events ++ [e])
    | none => appendAll calls (s, events)

end MockAgents.Audit
