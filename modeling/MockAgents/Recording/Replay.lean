import MockAgents.Recording.Proxy

/-!
# Replay

`Replay` serves the interactions of a cassette. Requests are matched by their hash, or by a
match key if a `Matcher` ignores some fields of the body. The interactions of one key are
served in the order they were recorded, and the last one again after that.

The cassette is shared with whoever appends to it, so it is an argument here and no part of
the state of a `Replay`.
-/

namespace MockAgents

/-! ## Match keys -/

/-- A set of top-level fields of the request body that are ignored. -/
structure Matcher where
  ignoreFields : List Bytes

namespace Matcher

/-- `active`, also of a nil matcher. -/
def active (m : Option Matcher) : Bool := m.any fun m => !m.ignoreFields.isEmpty

/-- `strip`, of an active matcher. -/
def strip (m : Matcher) (body : Bytes) : Bytes :=
  match Json.unmarshal body with
  | some (.obj members) =>
    Json.encode true (.obj (members.filter fun e => e.1 ∉ m.ignoreFields))
  | _ => body

def key (m : Matcher) (sha256 : Bytes → Bytes) (method path body : Bytes) : Bytes :=
  hashRequest sha256 method path (m.strip body)

end Matcher

/-! ## The handler -/

structure Replay where
  matcher : Option Matcher
  cursor : GoMap Bytes Nat
  builtLen : Nat
  byMatchKey : GoMap Bytes (List Interaction)

/-- What the client gets. A miss goes to the fallback, or is a 404. -/
inductive Replayed where
  | hit (status : Int64) (headers : StrMap) (body : Bytes)
  | streaming (status : Int64) (headers : StrMap) (chunks : List Bytes)
  | miss

namespace Replay

variable (sha256 : Bytes → Bytes)

/-- `NewReplay`, with a matcher. -/
def new (matcher : Option Matcher) : Replay := ⟨matcher, ∅, 0, ∅⟩

def advance (rp : Replay) (key : Bytes) (seq : List Interaction) : Replay × Option Interaction :=
  if seq = [] then (rp, none)
  else
    let idx := (rp.cursor.lookup key).getD 0
    if seq.length ≤ idx then (rp, seq[seq.length - 1]?)
    else ({ rp with cursor := rp.cursor.insert key (idx + 1) }, seq[idx]?)

def next (rp : Replay) (c : Cassette) (hash : Bytes) : Replay × Option Interaction :=
  rp.advance hash (c.lookupSequence hash)

def extendMatchIndex (rp : Replay) (m : Matcher) (c : Cassette) : Replay :=
  { rp with
    byMatchKey := (c.interactions.drop rp.builtLen).foldl
      (fun idx it =>
        let key := m.key sha256 it.method it.path it.requestBody
        idx.insert key ((idx.lookup key).getD [] ++ [it]))
      rp.byMatchKey
    builtLen := c.len }

/-- `nextFromMatchIndex`. An index that is not built yet is empty. -/
def nextFromMatchIndex (rp : Replay) (m : Matcher) (c : Cassette) (key : Bytes) :
    Replay × Option Interaction :=
  let rp := if rp.builtLen < c.len then rp.extendMatchIndex sha256 m c else rp
  rp.advance key ((rp.byMatchKey.lookup key).getD [])

def find (rp : Replay) (c : Cassette) (r : Request) : Replay × Option Interaction :=
  match rp.matcher with
  | some m =>
    if Matcher.active (some m) then
      rp.nextFromMatchIndex sha256 m c (m.key sha256 r.method r.path r.body)
    else rp.next c (hashRequest sha256 r.method r.path r.body)
  | none => rp.next c (hashRequest sha256 r.method r.path r.body)

def statusOf (it : Interaction) : Int64 := if it.responseStatus = 0 then 200 else it.responseStatus

/-- The chunks that `serveStreaming` writes. `taken` says for how many the client stays. -/
def writtenChunks (it : Interaction) (taken : Nat) : List Bytes :=
  (it.streamEvents.map StreamEvent.data).take taken

/-- What an interaction is served as, to a client that takes everything. -/
def replyOf (it : Interaction) : Replayed :=
  if it.streaming then
    .streaming (statusOf it) it.responseHeaders (writtenChunks it it.streamEvents.length)
  else .hit (statusOf it) it.responseHeaders it.responseBody

def serveHTTP (rp : Replay) (c : Cassette) (r : Request) : Replay × Replayed :=
  match rp.find sha256 c r with
  | (rp, none) => (rp, .miss)
  | (rp, some it) => (rp, replyOf it)

end Replay

end MockAgents
