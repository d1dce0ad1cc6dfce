import MockAgents.Config.Loader

/-!
# The agent write API

`POST`, `PUT` and `DELETE` on `/api/v1/agents`. A write is validated, persisted to a file of
the agents directory and registered; a delete removes the file and then the agent. The
file is the recorded source of the agent if there is one, and otherwise one whose name is
made from the agent's name and its owner.

A request runs under `agentWriteMu`, so a request is one function from store to store.
Audit events and log lines are left out.
-/

namespace MockAgents

/-- The agents directory and the registry. -/
structure AgentStore where
  dir : Directory
  registry : AgentRegistry

/-- The fields of `Handlers` that the write API reads. -/
structure AgentHandlers where
  lib : DocLib
  /-- `AgentsDir`, cleaned; empty when there is none. -/
  agentsDir : String
  /-- `filepath.Abs` of it. -/
  absDir : String
  /-- Go's `%q`. -/
  quote : String → String

structure AgentWriteResponse where
  status : String
  agent : String
  persisted : Bool := false
  file : String := ""
  deriving DecidableEq

inductive WriteAnswer where
  /-- `writeError`. -/
  | error (status : Nat) (message : String)
  /-- 422 with the errors of the validator. -/
  | invalid (report : DocLib.ValidateReport)
  | success (status : Nat) (response : AgentWriteResponse)

/-- The request did what it asked for. -/
def WriteAnswer.isSuccess : WriteAnswer → Bool
  | .success _ _ => true
  | _ => false

/-- `writeServerError`: the cause is logged, not sent. -/
def WriteAnswer.serverError : WriteAnswer := .error 500 "internal error"

/-- Ownership is set by the server, never trusted from the body. -/
def AgentDocument.ownedBy (doc : AgentDocument) (tenantID : String) : AgentDocument :=
  { doc with definition := { doc.definition with
      metadata := { doc.definition.metadata with tenantID } } }

def AgentDocument.name (doc : AgentDocument) : String := doc.definition.metadata.name

/-- The body of a write by a tenant, and where its document is allocated. -/
structure WriteBody (lib : DocLib) (tenantID : String) where
  body : Bytes
  /-- An error while the body is read. -/
  readError : Option String := none
  addr : DefPtr
  placed : ∀ doc, lib.unmarshalAgent body = some doc →
    lib.heap addr = applyDefaults (doc.ownedBy tenantID)

/-- What a request asks for. -/
inductive WriteMethod (lib : DocLib) (tenantID : String) where
  | create (body : WriteBody lib tenantID)
  | put (pathName : String) (body : WriteBody lib tenantID)
  | delete (name : String)

/-- A request, with the caller's tenant, the iteration order of the registry's loops, and
    whether the file system fails. -/
structure WriteRequest (lib : DocLib) where
  tenantID : String
  method : WriteMethod lib tenantID
  ord : MapOrder := .stored
  fsFails : Bool := false

def maxAgentBodyBytes : Nat := 1048576

def safeAgentName (name : String) : Bool :=
  decide (name.utf8ByteSize ≤ 63) && matchesMetadataName name

/-- The characters that `sanitizeFilenamePart` keeps. -/
def isFilenameChar (c : Char) : Bool :=
  ('a' ≤ c && c ≤ 'z') || ('A' ≤ c && c ≤ 'Z') || ('0' ≤ c && c ≤ '9') || c == '-' || c == '_'

def sanitizeFilenamePart (s : String) : String :=
  if s = "" then "tenant"
  else String.ofList (s.toList.map fun c => if isFilenameChar c then c else '_')

/-- `filepath.Join` of a clean directory and the name of a file. -/
def joinFile (dir file : String) : String :=
  if dir = "." then file else if dir = "/" then "/" ++ file else dir ++ "/" ++ file

/-- `filepath.Base`. -/
def baseName (path : String) : String :=
  String.ofList (path.toList.reverse.takeWhile (· ≠ '/')).reverse

namespace AgentHandlers

variable (h : AgentHandlers)

/-- `decodeAgent`; `wantName` is empty for a create. -/
def decodeAgent {tenantID : String} (b : WriteBody h.lib tenantID) (wantName : String) :
    Except WriteAnswer (AgentDocument × Bytes) :=
  if maxAgentBodyBytes < b.body.length then .error (.error 413 "request body too large")
  else
    match b.readError with
    | some e => .error (.error 400 ("reading body: " ++ e))
    | none =>
      match h.lib.unmarshalAgent b.body with
      | none =>
        .error (.error 400 ("invalid agent document: " ++ (h.lib.parseError b.body).message))
      | some doc =>
        if doc.name.toList.all isSpace then .error (.error 400 "metadata.name is required")
        else if wantName ≠ "" ∧ doc.name ≠ wantName then
          .error (.error 400 ("metadata.name " ++ h.quote doc.name ++ " does not match path " ++
            h.quote wantName))
        else if !safeAgentName doc.name then
          .error (.error 400 ("invalid metadata.name " ++ h.quote doc.name ++
            ": must be lowercase kebab-case"))
        else
          let doc := applyDefaults (doc.ownedBy tenantID)
          match h.lib.marshal doc with
          | none => .error .serverError
          | some canonical =>
            let report := h.lib.validateBytes canonical
            if report.kind ≠ "" ∧ report.kind ≠ "Agent" then
              .error (.error 400 ("expected an Agent document, got " ++ h.quote report.kind))
            else if report.errors ≠ [] then .error (.invalid report)
            else .ok (doc, canonical)

/-- The name of the file that an agent without a known source persists to. -/
def agentFileName (name tenantID : String) : String :=
  (if tenantID ≠ "" then sanitizeFilenamePart tenantID ++ "." ++ name else name) ++ ".yaml"

/-- `agentFilePath`; `none` for a path that escapes the directory. -/
def agentFilePath (name tenantID : String) : Option String :=
  if h.agentsDir = "" then some ""
  else
    let file := agentFileName name tenantID
    let absTarget := joinFile h.absDir file
    if absTarget ≠ h.absDir ∧ (h.absDir ++ "/").toList.isPrefixOf absTarget.toList = false then
      none
    else some (joinFile h.agentsDir file)

def resolveAgentTarget (st : AgentStore) (name tenantID : String) : Option String :=
  if h.agentsDir = "" then some ""
  else if st.registry.source name tenantID ≠ "" then some (st.registry.source name tenantID)
  else h.agentFilePath name tenantID

/-- `persistAndRegister`: the file that was written, if any. -/
def persistAndRegister (st : AgentStore) (ord : MapOrder) (fsFails : Bool) (p : DefPtr)
    (name tenantID : String) (canonical : Bytes) : Option (AgentStore × String × Bool) :=
  match h.resolveAgentTarget st name tenantID with
  | none => none
  | some target =>
    if target = "" then
      some ({ st with registry := st.registry.register h.lib.defs ord (some p) }, "", false)
    else if fsFails then none
    else
      some ({ dir := st.dir.write target canonical
              registry := st.registry.registerWithSource h.lib.defs ord target (some p) },
        baseName target, true)

def createAgent (st : AgentStore) (ord : MapOrder) (fsFails : Bool) {tenantID : String}
    (b : WriteBody h.lib tenantID) : AgentStore × WriteAnswer :=
  match h.decodeAgent b "" with
  | .error answer => (st, answer)
  | .ok (doc, canonical) =>
    if (st.registry.getOwnedForTenant doc.name tenantID).isSome then
      (st, .error 409 ("agent " ++ h.quote doc.name ++
        " already exists (use PUT /api/v1/agents/" ++ doc.name ++ " to replace)"))
    else
      match h.persistAndRegister st ord fsFails b.addr doc.name tenantID canonical with
      | none => (st, .serverError)
      | some (st, file, persisted) =>
        (st, .success 201 { status := "created", agent := doc.name, persisted, file })

def putAgent (st : AgentStore) (ord : MapOrder) (fsFails : Bool) {tenantID : String}
    (pathName : String) (b : WriteBody h.lib tenantID) : AgentStore × WriteAnswer :=
  if !safeAgentName pathName then (st, .error 400 "invalid agent name in path")
  else
    match h.decodeAgent b pathName with
    | .error answer => (st, answer)
    | .ok (doc, canonical) =>
      let existed := (st.registry.getOwnedForTenant doc.name tenantID).isSome
      match h.persistAndRegister st ord fsFails b.addr doc.name tenantID canonical with
      | none => (st, .serverError)
      | some (st, file, persisted) =>
        (st, .success (if existed then 200 else 201)
          { status := if existed then "updated" else "created", agent := doc.name
            persisted, file })

/-- The file that `DeleteAgent` removes, or `""`. -/
def deleteTarget (st : AgentStore) (name tenantID : String) : String :=
  if st.registry.source name tenantID ≠ "" then st.registry.source name tenantID
  else (h.agentFilePath name tenantID).getD ""

/-- `DeleteAgent`; that the file is gone already is no failure. -/
def deleteAgent (st : AgentStore) (ord : MapOrder) (fsFails : Bool) (tenantID name : String) :
    AgentStore × WriteAnswer :=
  if !safeAgentName name then (st, .error 400 "invalid agent name in path")
  else if (st.registry.getOwnedForTenant name tenantID).isNone then
    (st, .error 404 ("agent " ++ h.quote name ++ " not found"))
  else
    let target := h.deleteTarget st name tenantID
    let there := target ≠ "" ∧ (st.dir.read target).isSome
    if there ∧ fsFails then (st, .serverError)
    else
      ({ dir := if there then st.dir.remove target else st.dir
         registry := (st.registry.removeForTenant h.lib.defs ord name tenantID).1 },
        .success 200 { status := "deleted", agent := name
                       file := if there then baseName target else "" })

def handle (st : AgentStore) (req : WriteRequest h.lib) : AgentStore × WriteAnswer :=
  match req.method with
  | .create b => h.createAgent st req.ord req.fsFails b
  | .put pathName b => h.putAgent st req.ord req.fsFails pathName b
  | .delete name => h.deleteAgent st req.ord req.fsFails req.tenantID name

def boot (ord : MapOrder) (dir : Directory) : AgentStore := ⟨dir, h.lib.buildRegistry ord dir⟩

end AgentHandlers

end MockAgents
