import MockAgents.ForStd.GoMap
import MockAgents.Types.Agent

/-!
# Agent registry

The in-memory store of loaded agent definitions, keyed by owner tenant and name,
with its two model indexes: the tenant-agnostic `byModel` (last writer wins) and
the tenant-aware `byModelTenant` (smallest name wins), which is rebuilt one model
at a time on every write.

Every operation of the source runs under the registry's lock, so an operation is
one function from registry to registry. Loops over maps take a `MapOrder`.
-/

namespace MockAgents

namespace Definitions

variable (defs : Definitions)

def name (p : DefPtr) : String := (defs p).metadata.name

/-- `def.Metadata.TenantID`, the owner; `""` for a global agent. -/
def owner (p : DefPtr) : String := (defs p).metadata.tenantID

def model (p : DefPtr) : String := (defs p).spec.model

end Definitions

/-- The registry: owner → name → definition, the model indexes, and the file each
    agent was loaded from. -/
structure AgentRegistry where
  agents : GoMap String (GoMap String DefPtr)
  byModel : GoMap String DefPtr
  byModelTenant : GoMap String (GoMap String DefPtr)
  sources : GoMap String (GoMap String String)

/-- The error of a removal that finds no agent. -/
inductive RemoveError where
  | notFound (name : String)
  | notFoundForTenant (name tenantID : String)
  deriving DecidableEq

namespace AgentRegistry

def newAgentRegistry : AgentRegistry := ⟨∅, ∅, ∅, ∅⟩

variable (defs : Definitions)

/-! ## Index maintenance -/

/-- The body of the loop of `rebuildModelBucket`: `def` claims its owner's slot
    unless it declares another model or a smaller name already holds the slot. -/
def claimSlot (model owner : String) (owners : GoMap String DefPtr) (p : DefPtr) :
    GoMap String DefPtr :=
  if defs.model p ≠ model then owners
  else
    match owners.lookup owner with
    | none => owners.insert owner p
    | some cur => if defs.name p < defs.name cur then owners.insert owner p else owners

/-- The inner loop of `rebuildModelBucket`, over one owner's agents. -/
def claimBucket (ord : MapOrder) (model owner : String) (owners : GoMap String DefPtr)
    (byName : GoMap String DefPtr) : GoMap String DefPtr :=
  (ord.visit byName.entries).foldl (fun acc e => claimSlot defs model owner acc e.2) owners

/-- The map `owners` that `rebuildModelBucket` computes. -/
def collectOwners (ord : MapOrder) (agents : GoMap String (GoMap String DefPtr))
    (model : String) : GoMap String DefPtr :=
  (ord.visit agents.entries).foldl (fun acc e => claimBucket defs ord model e.1 acc e.2) ∅

/-- `rebuildModelBucket`: recompute `byModelTenant[model]` from the agents. -/
def rebuildModelBucket (ord : MapOrder) (r : AgentRegistry) (model : String) :
    AgentRegistry :=
  if model = "" then r
  else
    let owners := collectOwners defs ord r.agents model
    if owners.entries.isEmpty then
      { r with byModelTenant := r.byModelTenant.erase model }
    else
      { r with byModelTenant := r.byModelTenant.insert model owners }

/-- Clear the `byModel` entry of a definition that is replaced or removed, but only
    if it still points at that definition. -/
def unindex (byModel : GoMap String DefPtr) (p : DefPtr) : GoMap String DefPtr :=
  if defs.model p ≠ "" ∧ byModel.lookup (defs.model p) = some p then
    byModel.erase (defs.model p)
  else byModel

/-! ## Writes -/

def registerLocked (ord : MapOrder) (r : AgentRegistry) (p : DefPtr) : AgentRegistry :=
  let prev := r.agents.get₂ (defs.owner p) (defs.name p)
  let oldModel := match prev with
    | some q => defs.model q
    | none => ""
  let byModel := match prev with
    | some q => unindex defs r.byModel q
    | none => r.byModel
  let r := { r with
    agents := r.agents.insert₂ (defs.owner p) (defs.name p) p
    byModel := if defs.model p ≠ "" then byModel.insert (defs.model p) p else byModel }
  -- the new model's bucket, and the old one's if the agent moved between models
  let r := rebuildModelBucket defs ord r (defs.model p)
  if oldModel ≠ "" ∧ oldModel ≠ defs.model p then rebuildModelBucket defs ord r oldModel else r

/-- `Register`; a nil definition is ignored. -/
def register (ord : MapOrder) (r : AgentRegistry) : Option DefPtr → AgentRegistry
  | none => r
  | some p => registerLocked defs ord r p

def registerWithSource (ord : MapOrder) (r : AgentRegistry) (sourcePath : String) :
    Option DefPtr → AgentRegistry
  | none => r
  | some p =>
    let r := registerLocked defs ord r p
    if sourcePath ≠ "" then
      { r with sources := r.sources.insert₂ (defs.owner p) (defs.name p) sourcePath }
    else r

/-- The local variables of the sweep of `Remove`. -/
structure Sweep where
  registry : AgentRegistry
  models : GoMap String Unit
  found : Bool

/-- The body of the sweep of `Remove`: drop `name` from one owner's agents. -/
def sweepOwner (name : String) (st : Sweep) (owner : String)
    (byName : GoMap String DefPtr) : Sweep :=
  match byName.lookup name with
  | none => st
  | some p =>
    { registry := { st.registry with
        agents := st.registry.agents.erase₂ owner name
        byModel := unindex defs st.registry.byModel p
        sources := st.registry.sources.erase₂ owner name }
      models := if defs.model p ≠ "" then st.models.insert (defs.model p) () else st.models
      found := true }

/-- The sweep of `Remove` over every owner. -/
def sweep (ord : MapOrder) (r : AgentRegistry) (name : String) : Sweep :=
  (ord.visit r.agents.entries).foldl (fun st e => sweepOwner defs name st e.1 e.2)
    ⟨r, ∅, false⟩

/-- `Remove`: delete every agent named `name`, whoever owns it. -/
def remove (ord : MapOrder) (r : AgentRegistry) (name : String) :
    AgentRegistry × Option RemoveError :=
  let st := sweep defs ord r name
  if st.found then
    ((ord.visit st.models.entries).foldl (fun r e => rebuildModelBucket defs ord r e.1)
      st.registry, none)
  else (st.registry, some (.notFound name))

/-- `RemoveForTenant`: delete the agent `name` of one owner. -/
def removeForTenant (ord : MapOrder) (r : AgentRegistry) (name tenantID : String) :
    AgentRegistry × Option RemoveError :=
  match r.agents.get₂ tenantID name with
  | none => (r, some (.notFoundForTenant name tenantID))
  | some p =>
    let r := { r with
      agents := r.agents.erase₂ tenantID name
      byModel := unindex defs r.byModel p
      sources := r.sources.erase₂ tenantID name }
    (rebuildModelBucket defs ord r (defs.model p), none)

/-! ## Reads -/

/-- `GetByModel`: the legacy tenant-agnostic lookup. -/
def getByModel (r : AgentRegistry) (model : String) : Option DefPtr :=
  r.byModel.lookup model

/-- `GetOwnedForTenant`: the agent owned by `tenantID` itself. -/
def getOwnedForTenant (r : AgentRegistry) (name tenantID : String) : Option DefPtr :=
  r.agents.get₂ tenantID name

/-- `Source`: the file behind an agent, or `""` if it is unknown. -/
def source (r : AgentRegistry) (name tenantID : String) : String :=
  (r.sources.get₂ tenantID name).getD ""

/-- `GetForTenant`: the tenant's own agent, else the global one. -/
def getForTenant (r : AgentRegistry) (name tenantID : String) : Option DefPtr :=
  match r.agents.get₂ tenantID name with
  | some p => some p
  | none => if tenantID ≠ "" then r.agents.get₂ "" name else none

/-- `GetByModelForTenant`: the tenant's own agent for a model, else the global one,
    read from `byModelTenant`. -/
def getByModelForTenant (r : AgentRegistry) (model tenantID : String) : Option DefPtr :=
  match r.byModelTenant.lookup model with
  | none => none
  | some owners =>
    match owners.lookup tenantID with
    | some p => some p
    | none => owners.lookup ""

/-- `mergedForTenantLocked`: globals first, then the tenant's own agents. -/
def mergedForTenantLocked (ord : MapOrder) (r : AgentRegistry) (tenantID : String) :
    GoMap String DefPtr :=
  let globals := (r.agents.lookup "").getD ∅
  let merged := (ord.visit globals.entries).foldl (fun acc e => acc.insert e.1 e.2)
    (∅ : GoMap String DefPtr)
  if tenantID ≠ "" then
    let own := (r.agents.lookup tenantID).getD ∅
    (ord.visit own.entries).foldl (fun acc e => acc.insert e.1 e.2) merged
  else merged

/-- `ListForTenant`: the agents visible to a tenant, sorted by name. -/
def listForTenant (ord : MapOrder) (r : AgentRegistry) (tenantID : String) : List DefPtr :=
  sortBy defs.name
    ((ord.visit (mergedForTenantLocked ord r tenantID).entries).map fun e => e.2)

/-- `ListNamesForTenant`: the names visible to a tenant, sorted. -/
def listNamesForTenant (ord : MapOrder) (r : AgentRegistry) (tenantID : String) :
    List String :=
  sortBy (fun s => s)
    ((ord.visit (mergedForTenantLocked ord r tenantID).entries).map fun e => e.1)

/-! ## Runs -/

/-- One write on a registry, with the iteration order of its loops. -/
inductive Op where
  | register (p : Option DefPtr) (ord : MapOrder)
  | registerWithSource (p : Option DefPtr) (sourcePath : String) (ord : MapOrder)
  | remove (name : String) (ord : MapOrder)
  | removeForTenant (name tenantID : String) (ord : MapOrder)

/-- The registry after one write. -/
def apply (r : AgentRegistry) : Op → AgentRegistry
  | .register p ord => r.register defs ord p
  | .registerWithSource p sourcePath ord => r.registerWithSource defs ord sourcePath p
  | .remove name ord => (r.remove defs ord name).1
  | .removeForTenant name tenantID ord => (r.removeForTenant defs ord name tenantID).1

/-- The registry after a sequence of writes. -/
def run (r : AgentRegistry) (ops : List Op) : AgentRegistry :=
  ops.foldl (apply defs) r

end AgentRegistry

end MockAgents
