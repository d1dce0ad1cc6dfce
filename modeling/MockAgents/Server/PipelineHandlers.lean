import Mathlib.Data.List.Infix
import MockAgents.ForStd.Goroutines
import MockAgents.ForStd.Trace
import MockAgents.Server.AgentWriteHandlers

/-!
# The pipeline editor's API

`GET` and `PUT` on `/api/v1/pipelines/{name}`. A `GET` returns the registered definition with an
`ETag`, the hash of the source file or, without one, of the definition; a `PUT` with an
`If-Match` writes the edited definition back to the source file and registers it.

Requests run concurrently, and files are edited by others. An event of `PipelineSystem` is one
access of a request to the registry or to a file; a `PUT` holds `writeMu` from the version check
to its end. Definitions are arbitrary: of one only its name is looked at.
-/

namespace MockAgents

/-- What the handlers use of libraries and of other parts of the server, and their directory. -/
structure PipelineLib (δ : Type) where
  name : δ → String
  /-- `json.Unmarshal`, or the text of its error. -/
  unmarshalJSON : Bytes → Except String δ
  marshal : δ → Option Bytes
  /-- The definition in a file. -/
  parse : Bytes → Option δ
  /-- `config.ValidateBytes` reports no error. -/
  valid : Bytes → Bool
  sha256 : Bytes → Bytes
  /-- Go's `%q`. -/
  quote : String → String
  /-- `AgentsDir`, cleaned; empty when there is none. -/
  agentsDir : String
  /-- `filepath.Abs` of it. -/
  absDir : String

structure PipelineRegistry (δ : Type) where
  pipelines : GoMap String δ := ∅
  sources : GoMap String String := ∅

namespace PipelineRegistry

variable {δ : Type}

def getPipeline (r : PipelineRegistry δ) (name : String) : Option δ := r.pipelines.lookup name

def source (r : PipelineRegistry δ) (name : String) : String := (r.sources.lookup name).getD ""

def registerWithSource (lib : PipelineLib δ) (r : PipelineRegistry δ) (d : δ) (path : String) :
    PipelineRegistry δ :=
  if lib.name d = "" then r
  else
    { pipelines := r.pipelines.insert (lib.name d) d
      sources := if path = "" then r.sources.erase (lib.name d)
        else r.sources.insert (lib.name d) path }

end PipelineRegistry

def maxPipelineBodyBytes : Nat := 1048576

def safePipelineName (name : String) : Bool :=
  if name = "" ∨ name = "." ∨ name = ".." then false
  else
    !(name.toList.any fun c => c = '/' ∨ c = '\\') && !decide (['.', '.'] <:+: name.toList)

/-- `strings.Trim(s, "\"")`. -/
def trimQuotes (s : Bytes) : Bytes :=
  ((s.dropWhile (· = 34)).reverse.dropWhile (· = 34)).reverse

def quoted (version : Bytes) : Bytes := 34 :: version ++ [34]

namespace PipelineLib

variable {δ : Type} (lib : PipelineLib δ)

def hashHex (data : Bytes) : Bytes := Bytes.hexEncode (lib.sha256 data)

/-- The target of `resolveTargetFile` for a pipeline without a source. -/
def newTarget (name : String) : Option String :=
  if lib.agentsDir = "" then none
  else
    let absTarget := joinFile lib.absDir (name ++ ".yaml")
    if absTarget ≠ lib.absDir ∧
        (lib.absDir ++ "/").toList.isPrefixOf absTarget.toList = false then none
    else some (joinFile lib.agentsDir (name ++ ".yaml"))

end PipelineLib

/-- Where a `GetPipeline` request is, with the definition it is going to return. -/
inductive GetPc (δ : Type) where
  /-- `Registry.GetPipeline`. -/
  | looking
  /-- `Registry.Source` in `pipelineVersion`. -/
  | sourcing (d : δ)
  /-- `os.ReadFile`. -/
  | reading (d : δ) (src : String)
  /-- The definition's own hash. -/
  | hashing (d : δ)
  | answered (d : δ) (etag : Option Bytes)
  | notFound
  deriving DecidableEq

structure GetCall (δ : Type) where
  name : String
  pc : GetPc δ := .looking
  deriving DecidableEq

/-- A definition that is to be saved, and its file. -/
structure PipelineEdit (δ : Type) where
  definition : δ
  text : Bytes
  deriving DecidableEq

/-- Where an `UpdatePipeline` request is. -/
inductive PutPc (δ : Type) where
  /-- Everything before the lock. -/
  | validating
  /-- `writeMu.Lock`. -/
  | locking (e : PipelineEdit δ)
  /-- `Registry.Source` in `pipelineVersion`. -/
  | sourcing (e : PipelineEdit δ)
  /-- `os.ReadFile`. -/
  | reading (e : PipelineEdit δ) (src : String)
  /-- The definition's own hash. -/
  | hashing (e : PipelineEdit δ)
  /-- The comparison with `If-Match`. -/
  | comparing (e : PipelineEdit δ) (current : Bytes)
  /-- `resolveTargetFile`. -/
  | resolving (e : PipelineEdit δ)
  /-- `atomicWriteFile`. -/
  | writing (e : PipelineEdit δ) (target : String)
  /-- `RegisterWithSource`; `before` is what was stored before the write. -/
  | registering (e : PipelineEdit δ) (target : String) (before : Option δ)
  | saved (before : Option δ)
  /-- 422 with the errors of the validator. -/
  | invalid
  | refused (status : Nat) (message : String)
  deriving DecidableEq

structure PutCall (δ : Type) where
  name : String
  body : Bytes
  /-- An error while the body is read. -/
  readError : Option String := none
  ifMatch : Bytes
  /-- `validateAgentRefs` finds no error. -/
  refsKnown : Bool := true
  /-- `atomicWriteFile` fails. -/
  writeFails : Bool := false
  pc : PutPc δ := .validating
  deriving DecidableEq

/-- The files, the registry and the requests. -/
structure PipelineSystem (δ : Type) where
  files : Directory
  registry : PipelineRegistry δ
  /-- The request that holds `writeMu`. -/
  writeMu : Option Nat := none
  gets : List (GetCall δ) := []
  puts : List (PutCall δ) := []

/-- A step of the system. -/
inductive PipelineEvent where
  | get (name : String)
  | put (name : String) (body : Bytes) (readError : Option String) (ifMatch : Bytes)
      (refsKnown writeFails : Bool)
  | advanceGet (i : Nat)
  | advancePut (i : Nat)
  /-- Someone writes a file, or removes it. -/
  | edit (path : String) (data : Option Bytes)

namespace PipelineSystem

variable {δ : Type} (lib : PipelineLib δ)

/-- The source file of a pipeline, if there is one that can be read. -/
def sourceFile (s : PipelineSystem δ) (name : String) : Option Bytes :=
  if s.registry.source name = "" then none else s.files.read (s.registry.source name)

/-- The definition that is stored: the one in the source file, or the registered one. -/
def stored (s : PipelineSystem δ) (name : String) : Option δ :=
  match s.sourceFile name with
  | some data => lib.parse data
  | none => s.registry.getPipeline name

/-- `GetPipeline`. A version that cannot be computed leaves the `ETag` out. -/
def nextGet (s : PipelineSystem δ) (c : GetCall δ) : Option (GetPc δ) :=
  match c.pc with
  | .looking =>
    match s.registry.getPipeline c.name with
    | none => some .notFound
    | some d => some (.sourcing d)
  | .sourcing d =>
    if s.registry.source c.name = "" then some (.hashing d)
    else some (.reading d (s.registry.source c.name))
  | .reading d src =>
    match s.files.read src with
    | some data => some (.answered d (some (quoted (lib.hashHex data))))
    | none => some (.hashing d)
  | .hashing d =>
    let version := (s.registry.getPipeline c.name).bind fun d' => (lib.marshal d').map lib.hashHex
    some (.answered d (version.map quoted))
  | .answered _ _ => none
  | .notFound => none

/-- `UpdatePipeline` up to the lock. -/
def validate (s : PipelineSystem δ) (c : PutCall δ) : PutPc δ :=
  if (s.registry.getPipeline c.name).isNone then .refused 404 "pipeline not found"
  else if maxPipelineBodyBytes < c.body.length then .refused 413 "request body too large"
  else
    match c.readError with
    | some err => .refused 400 ("reading body: " ++ err)
    | none =>
      match lib.unmarshalJSON c.body with
      | .error err => .refused 400 ("invalid JSON: " ++ err)
      | .ok d =>
        if lib.name d ≠ c.name then
          .refused 400 ("metadata.name " ++ lib.quote (lib.name d) ++ " does not match path " ++
            lib.quote c.name)
        else if !safePipelineName c.name then .refused 400 "invalid pipeline name"
        else
          match lib.marshal d with
          | none => .refused 500 "internal error"
          | some text =>
            if !lib.valid text || !c.refsKnown then .invalid
            else .locking ⟨d, text⟩

def setPut (s : PipelineSystem δ) (i : Nat) (c : PutCall δ) (pc : PutPc δ) : PipelineSystem δ :=
  { s with puts := s.puts.set i { c with pc := pc } }

/-- A `PUT` that holds the lock returns. -/
def release (s : PipelineSystem δ) (i : Nat) (c : PutCall δ) (pc : PutPc δ) : PipelineSystem δ :=
  { s.setPut i c pc with writeMu := none }

/-- `UpdatePipeline`; `none` while the lock is taken. -/
def advancePut (s : PipelineSystem δ) (i : Nat) (c : PutCall δ) : Option (PipelineSystem δ) :=
  match c.pc with
  | .validating => some (s.setPut i c (s.validate lib c))
  | .locking e =>
    match s.writeMu with
    | none => some { s.setPut i c (.sourcing e) with writeMu := some i }
    | some _ => none
  | .sourcing e =>
    if s.registry.source c.name = "" then some (s.setPut i c (.hashing e))
    else some (s.setPut i c (.reading e (s.registry.source c.name)))
  | .reading e src =>
    match s.files.read src with
    | some data => some (s.setPut i c (.comparing e (lib.hashHex data)))
    | none => some (s.setPut i c (.hashing e))
  | .hashing e =>
    match s.registry.getPipeline c.name with
    | none => some (s.setPut i c (.comparing e []))
    | some d =>
      match lib.marshal d with
      | none => some (s.release i c (.refused 500 "internal error"))
      | some text => some (s.setPut i c (.comparing e (lib.hashHex text)))
  | .comparing e current =>
    if trimQuotes c.ifMatch = [] then
      some (s.release i c (.refused 428 "If-Match header required (echo the ETag from GET)"))
    else if trimQuotes c.ifMatch ≠ current then
      some (s.release i c
        (.refused 412 "pipeline changed since it was loaded; reload and re-apply"))
    else some (s.setPut i c (.resolving e))
  | .resolving e =>
    if s.registry.source c.name ≠ "" then
      some (s.setPut i c (.writing e (s.registry.source c.name)))
    else
      match lib.newTarget c.name with
      | none => some (s.release i c (.refused 500 "internal error"))
      | some target => some (s.setPut i c (.writing e target))
  | .writing e target =>
    if c.writeFails then some (s.release i c (.refused 500 "internal error"))
    else
      some { s.setPut i c (.registering e target (s.stored lib c.name)) with
        files := s.files.write target e.text }
  | .registering e target before =>
    some { s.release i c (.saved before) with
      registry := s.registry.registerWithSource lib e.definition target }
  | .saved _ => none
  | .invalid => none
  | .refused _ _ => none

/-- One step; `none` if the event is not enabled. -/
def step (s : PipelineSystem δ) : PipelineEvent → Option (PipelineSystem δ)
  | .get name => some { s with gets := s.gets ++ [{ name := name }] }
  | .put name body readError ifMatch refsKnown writeFails =>
    some { s with puts := s.puts ++ [{ name, body, readError, ifMatch, refsKnown, writeFails }] }
  | .advanceGet i =>
    s.gets[i]?.bind fun c => (s.nextGet lib c).map fun pc =>
      { s with gets := s.gets.set i { c with pc := pc } }
  | .advancePut i => s.puts[i]?.bind (s.advancePut lib i)
  | .edit path data =>
    some { s with
      files := match data with
        | some data => s.files.write path data
        | none => s.files.remove path }

def run (s : PipelineSystem δ) (events : List PipelineEvent) : Option (PipelineSystem δ) :=
  runOption (step lib) s events

end PipelineSystem

end MockAgents
