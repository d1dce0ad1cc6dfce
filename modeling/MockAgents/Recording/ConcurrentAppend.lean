import MockAgents.ForStd.Trace
import MockAgents.Recording.Cassette

/-!
# Concurrent appends

`TapeSystem` runs `Append` and `AppendAll` calls on one cassette concurrently. A call has
two steps: under the lock it adds its interactions and takes a snapshot of all of them, and
later it writes the snapshot to a temporary file of its own and renames that over the
cassette's file, if it has a path. `Append` is `AppendAll` of one interaction.

`onDisk` is the snapshot that was renamed last.
-/

namespace MockAgents

/-- Where a client of the cassette is: not in a call, or with a snapshot to write. -/
inductive AppendPc where
  | idle
  | writing (snapshot : List Interaction)

def AppendPc.isIdle : AppendPc → Bool
  | .idle => true
  | .writing _ => false

theorem AppendPc.isIdle_iff {pc : AppendPc} : pc.isIdle = true ↔ pc = .idle := by
  cases pc <;> simp [isIdle]

/-- The cassette, its file and its clients. `failed` says that some call returned an
    error. -/
structure TapeSystem (ι : Type) where
  cassette : Cassette
  file : Option Bytes
  onDisk : List Interaction
  pc : ι → AppendPc
  failed : Bool

/-- The two steps of a call. -/
inductive AppendEvent (ι : Type) where
  | add (i : ι) (its : List Interaction) (now : Time)
  | rename (i : ι) (fsOk : Bool)

namespace TapeSystem

variable {ι : Type}

/-- A cassette without clients. -/
def initial (cassette : Cassette) (file : Option Bytes) : TapeSystem ι where
  cassette := cassette
  file := file
  onDisk := []
  pc := fun _ => .idle
  failed := false

variable [DecidableEq ι] (sha256 : Bytes → Bytes)

/-- The part under the lock. -/
def add (s : TapeSystem ι) (i : ι) (its : List Interaction) (now : Time) : TapeSystem ι :=
  let c := s.cassette.addAll sha256 now its
  { s with cassette := c, pc := Function.update s.pc i (.writing c.interactions) }

/-- The file is replaced and the call returns nil. -/
def replace (s : TapeSystem ι) (i : ι) (snapshot : List Interaction) (content : Bytes) :
    TapeSystem ι :=
  { s with file := some content, onDisk := snapshot, pc := Function.update s.pc i .idle }

/-- The call returns nil without a file to write. -/
def leave (s : TapeSystem ι) (i : ι) : TapeSystem ι :=
  { s with pc := Function.update s.pc i .idle }

/-- The call returns an error, and leaves the file alone. -/
def fail (s : TapeSystem ι) (i : ι) : TapeSystem ι :=
  { s with failed := true, pc := Function.update s.pc i .idle }

/-- One step; `none` if the event is not enabled. -/
def step (s : TapeSystem ι) : AppendEvent ι → Option (TapeSystem ι)
  | .add i its now =>
    match s.pc i with
    | .idle => some (s.add sha256 i its now)
    | .writing _ => none
  | .rename i fsOk =>
    match s.pc i with
    | .idle => none
    | .writing snapshot =>
      if s.cassette.path = [] then some (s.leave i)
      else
        match writeCassette fsOk snapshot with
        | some content => some (s.replace i snapshot content)
        | none => some (s.fail i)

def run (s : TapeSystem ι) (es : List (AppendEvent ι)) : Option (TapeSystem ι) :=
  runOption (step sha256) s es

end TapeSystem

end MockAgents
