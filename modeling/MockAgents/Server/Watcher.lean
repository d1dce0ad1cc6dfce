import MockAgents.Config.Loader

/-!
# The watcher of the agents directory

`reloadFile` is what the watcher runs for a path whose file changed: it loads the file
and registers its agent, or, when the file is gone, removes the agent that the path last
declared. The watcher remembers one agent name per path in `fileAgents`.

Here one call runs by itself; its critical sections are functions of their own, which
`ReloadSystem` interleaves. Paths are cleaned by the callers.
-/

namespace MockAgents

/-- What `reloadFile` makes of a file before it touches anything. -/
inductive Reload where
  /-- `isTransientMissing`: the file is gone. -/
  | missing
  /-- The file does not load, is of another kind, or does not validate. -/
  | ignored
  | agent (p : DefPtr)
  deriving DecidableEq

/-- The first part of `reloadFile`: load, check the kind, apply the defaults, validate. -/
def DocLib.reload (lib : DocLib) (dir : Directory) (path : String) : Reload :=
  match lib.loadFile dir path with
  | .error e => if e = .notExist then .missing else .ignored
  | .ok result =>
    if result.definition.kind ≠ "" ∧ result.definition.kind ≠ "Agent" then .ignored
    else if lib.validate (applyDefaults result.definition) result.node = [] then
      .agent (lib.place result.node)
    else .ignored

/-- What the reloads write: the registry, and the name that each path last declared. -/
structure Watch where
  registry : AgentRegistry
  fileAgents : GoMap String String := ∅

namespace Watch

variable (lib : DocLib)

/-! ## Critical sections -/

/-- The registration of `reloadFile`. -/
def register (ord : MapOrder) (w : Watch) (path : String) (p : DefPtr) : Watch :=
  { w with registry := w.registry.registerWithSource lib.defs ord path (some p) }

/-- The locked part of `rememberFile`, with the name to drop if the path declared another
    one before. -/
def record (w : Watch) (path name : String) : Watch × Option String :=
  ({ w with fileAgents := w.fileAgents.insert path name },
    (w.fileAgents.lookup path).filter fun prev => prev ≠ name)

/-- The locked part of `unregisterFile`, with the name that the path declared. -/
def forget (w : Watch) (path : String) : Watch × Option String :=
  match w.fileAgents.lookup path with
  | none => (w, none)
  | some name => ({ w with fileAgents := w.fileAgents.erase path }, some name)

/-- The locked loop of `removeIfUnclaimed`: some path still declares the name. -/
def claimed (w : Watch) (name : String) : Bool := w.fileAgents.entries.any fun e => e.2 = name

/-- `Registry.Remove`; that nothing was there is not an error for the watcher. -/
def remove (ord : MapOrder) (w : Watch) (name : String) : Watch :=
  { w with registry := (w.registry.remove lib.defs ord name).1 }

/-! ## One call -/

def removeIfUnclaimed (ord : MapOrder) (w : Watch) (name : String) : Watch :=
  if w.claimed name then w else w.remove lib ord name

/-- What `rememberFile` and `unregisterFile` end with: drop a name, if there is one. -/
def dropName (ord : MapOrder) (w : Watch) : Option String → Watch
  | none => w
  | some name => w.removeIfUnclaimed lib ord name

def rememberFile (ord : MapOrder) (w : Watch) (path name : String) : Watch :=
  let (w, prev) := w.record path name
  w.dropName lib ord prev

def unregisterFile (ord : MapOrder) (w : Watch) (path : String) : Watch :=
  let (w, name) := w.forget path
  w.dropName lib ord name

def reloadFile (ord : MapOrder) (dir : Directory) (w : Watch) (path : String) : Watch :=
  match lib.reload dir path with
  | .missing => w.unregisterFile lib ord path
  | .ignored => w
  | .agent p => (w.register lib ord path p).rememberFile lib ord path (lib.defs.name p)

end Watch

end MockAgents
