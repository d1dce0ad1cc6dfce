import MockAgents.Config.Defaults
import MockAgents.Config.PipelineValidator
import MockAgents.Engine.AgentRegistry
import MockAgents.ForStd.Directory
import MockAgents.ForStd.Json

/-!
# Loading agent documents

`LoadFile` reads one document and `LoadAllDocuments` every document of a directory; at
boot the server registers each agent that validates, with the file it came from.
`ValidateBytes` checks a document that is not in a file.

The YAML library and the validator are the fields of `DocLib`. A definition that is
decoded from a file gets an address, and what stands there is the definition with its
defaults, because `ApplyDefaults` runs before anyone else sees it.
-/

namespace MockAgents

/-- What the loaders use: the YAML library, the validator, and where the definitions that
    they decode are allocated. -/
structure DocLib where
  Node : Type
  /-- `yaml.Unmarshal` into a node. -/
  unmarshal : Bytes → Option Node
  /-- `yaml.Marshal` of the value of a JSON text. -/
  marshalJSON : Bytes → Option Bytes
  /-- `peekKind`: the value of the top-level `kind`. -/
  peekKind : Node → String
  /-- `Node.Decode` into an agent document. -/
  decode : Node → Option AgentDocument
  validate : AgentDocument → Node → List ValidationError
  /-- What `ValidateBytes` finds in a document of another kind. -/
  validateOther : Node → List ValidationError
  /-- `parseErrorAsValidationError` of the error of the YAML library. -/
  parseError : Bytes → ValidationError
  /-- The error of `encoding/json`. -/
  jsonError : Bytes → String
  /-- `yaml.Unmarshal` into an agent document. -/
  unmarshalAgent : Bytes → Option AgentDocument
  /-- `yaml.Marshal` of an agent document. -/
  marshal : AgentDocument → Option Bytes
  /-- What a pointer to a document points at. -/
  heap : DefPtr → AgentDocument
  /-- Where the document of a node is allocated. -/
  place : Node → DefPtr
  heap_place : ∀ node doc, decode node = some doc → heap (place node) = applyDefaults doc

namespace DocLib

variable (lib : DocLib)

/-- The definitions that the registry reads. -/
def defs : Definitions := fun p => (lib.heap p).definition

def jsonToYAML (data : Bytes) : Option Bytes :=
  if Json.valid data then lib.marshalJSON data else none

end DocLib

/-- `filepath.Ext`: from the last dot of the last element, or nothing. -/
def ext (path : String) : List Char :=
  let base := path.toList.reverse.takeWhile (· ≠ '/')
  if '.' ∈ base then '.' :: (base.takeWhile (· ≠ '.')).reverse else []

def isJSON (path : String) : Bool := (ext path).map Char.toLower = ".json".toList

/-- The extensions that `listDocumentPaths` keeps. -/
def isDocumentPath (path : String) : Bool :=
  (ext path).map Char.toLower ∈ [".yaml".toList, ".yml".toList, ".json".toList]

/-- Why a document is not loaded. -/
inductive LoadError where
  /-- `fs.ErrNotExist`. -/
  | notExist
  /-- `file is empty`. -/
  | empty
  /-- `invalid JSON`. -/
  | invalidJSON
  | parse
  deriving DecidableEq

namespace DocLib

variable (lib : DocLib)

/-- What `readAndParse` does with the bytes of a file. -/
def parseDocument (path : String) (data : Bytes) : Except LoadError lib.Node :=
  if (Bytes.trimSpace data).isEmpty then .error .empty
  else
    match if isJSON path then lib.jsonToYAML data else some data with
    | none => .error .invalidJSON
    | some data =>
      match lib.unmarshal data with
      | none => .error .parse
      | some doc => .ok doc

def readAndParse (dir : Directory) (path : String) : Except LoadError lib.Node :=
  match dir.read path with
  | none => .error .notExist
  | some data => lib.parseDocument path data

/-- A `LoadResult`, with the decoded document at the address `lib.place node`. -/
structure LoadResult where
  definition : AgentDocument
  node : lib.Node
  filePath : String

def loadFile (dir : Directory) (path : String) : Except LoadError lib.LoadResult :=
  match lib.readAndParse dir path with
  | .error e => .error e
  | .ok doc =>
    match lib.decode doc with
    | none => .error .parse
    | some definition => .ok ⟨definition, doc, path⟩

def listDocumentPaths (dir : Directory) : List String := dir.paths.filter isDocumentPath

/-- The loop body of `LoadAllDocuments`, for the agents. -/
def loadDocument (dir : Directory) (path : String) : Option lib.LoadResult :=
  match lib.readAndParse dir path with
  | .error _ => none
  | .ok doc =>
    if lib.peekKind doc = "Agent" ∨ lib.peekKind doc = "" then
      (lib.decode doc).map fun definition => ⟨definition, doc, path⟩
    else none

/-- `LoadAllDocuments`, as far as the agents go. -/
def loadAllDocuments (dir : Directory) : List lib.LoadResult :=
  (listDocumentPaths dir).filterMap (lib.loadDocument dir)

/-- The loop body of `runStart`: an agent that does not validate is skipped. -/
def registerLoaded (ord : MapOrder) (r : AgentRegistry) (result : lib.LoadResult) :
    AgentRegistry :=
  if lib.validate (applyDefaults result.definition) result.node = [] then
    r.registerWithSource lib.defs ord result.filePath (some (lib.place result.node))
  else r

/-- The registry that `runStart` builds from the agents directory. -/
def buildRegistry (ord : MapOrder) (dir : Directory) : AgentRegistry :=
  (lib.loadAllDocuments dir).foldl (lib.registerLoaded ord) .newAgentRegistry

/-! ## Documents that are not in a file -/

structure ValidateReport where
  kind : String := ""
  errors : List ValidationError := []

/-- `looksLikeJSON`: the first byte that is not white space opens an object or an array. -/
def looksLikeJSON (data : Bytes) : Bool :=
  match data.dropWhile fun b => b = 32 ∨ b = 9 ∨ b = 10 ∨ b = 13 with
  | b :: _ => b = 123 ∨ b = 91
  | [] => false

def documentError (message : String) : ValidationError :=
  { file := "", line := 0, column := 0, field := "document", message, suggestion := "" }

def validateBytes (data : Bytes) : ValidateReport :=
  if (Bytes.trimSpace data).isEmpty then { errors := [documentError "document is empty"] }
  else
    match if looksLikeJSON data then lib.jsonToYAML data else some data with
    | none => { errors := [documentError ("invalid JSON: " ++ lib.jsonError data)] }
    | some data =>
      match lib.unmarshal data with
      | none => { errors := [lib.parseError data] }
      | some doc =>
        if lib.peekKind doc = "" ∨ lib.peekKind doc = "Agent" then
          match lib.decode doc with
          | none => { kind := lib.peekKind doc, errors := [lib.parseError data] }
          | some definition => { kind := "Agent", errors := lib.validate definition doc }
        else { kind := lib.peekKind doc, errors := lib.validateOther doc }

end DocLib

end MockAgents
