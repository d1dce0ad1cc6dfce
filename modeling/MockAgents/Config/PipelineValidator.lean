import MockAgents.ForStd.GoMap
import MockAgents.Types.Pipeline

/-!
# Pipeline validation

`ValidatePipeline` checks a pipeline document: version, kind, name, topology, nodes and
edges, and for a graph that it has no cycle and no unreachable node. Errors are
collected in a context; the position of a field in the document and Go's `%q` are
parameters of the context.

The depth-first search takes fuel; the number of nodes is enough.
-/

namespace MockAgents

/-- A validation problem with its location. -/
structure ValidationError where
  file : String
  line : Int
  column : Int
  field : String
  message : String
  suggestion : String
  deriving DecidableEq

/-- `validationContext`. `lineColOf` finds a field in the decoded document. -/
structure ValidationContext where
  file : String
  lineColOf : String → Int × Int
  quote : String → String
  errors : List ValidationError := []

namespace ValidationContext

/-- The error that `addError` appends. -/
def mkError (ctx : ValidationContext) (field message suggestion : String) : ValidationError where
  file := ctx.file
  line := (ctx.lineColOf field).1
  column := (ctx.lineColOf field).2
  field := field
  message := message
  suggestion := suggestion

def addError (ctx : ValidationContext) (field message suggestion : String) :
    ValidationContext :=
  { ctx with errors := ctx.errors ++ [ctx.mkError field message suggestion] }

/-- Append an error if the condition holds. -/
def addErrorIf (ctx : ValidationContext) (cond : Bool) (field message suggestion : String) :
    ValidationContext :=
  if cond then ctx.addError field message suggestion else ctx

end ValidationContext

/-- `[a-z0-9]`. -/
def isLowerAlnum (c : Char) : Bool := ('a' ≤ c && c ≤ 'z') || ('0' ≤ c && c ≤ '9')

/-- The automaton of `metadataNameRe`, `^[a-z0-9]+(-[a-z0-9]+)*$`; `need` says that a
    letter or digit has to come next. -/
def metadataNameFrom (need : Bool) : List Char → Bool
  | [] => !need
  | c :: cs =>
    if isLowerAlnum c then metadataNameFrom false cs
    else if c = '-' ∧ need = false then metadataNameFrom true cs
    else false

/-- `metadataNameRe.MatchString`. -/
def matchesMetadataName (s : String) : Bool := metadataNameFrom true s.toList

/-- Go's `unicode.IsSpace`. -/
def isSpace (c : Char) : Bool :=
  c.toNat ∈ [0x09, 0x0a, 0x0b, 0x0c, 0x0d, 0x20, 0x85, 0xa0, 0x1680, 0x2028, 0x2029,
    0x202f, 0x205f, 0x3000] || (0x2000 ≤ c.toNat && c.toNat ≤ 0x200a)

def validPipelineTopologies : List String :=
  [topologySequential, topologyParallel, topologyGraph]

def validatePipelineAPIVersion (ctx : ValidationContext) (p : PipelineDefinition) :
    ValidationContext :=
  if p.apiVersion = "" then
    ctx.addError "apiVersion" "required field missing" ("Add apiVersion: " ++ agentAPIVersion)
  else
    ctx.addErrorIf (p.apiVersion ≠ agentAPIVersion) "apiVersion"
      ("unsupported version " ++ ctx.quote p.apiVersion) ("Use apiVersion: " ++ agentAPIVersion)

def validatePipelineKind (ctx : ValidationContext) (p : PipelineDefinition) :
    ValidationContext :=
  if p.kind = "" then
    ctx.addError "kind" "required field missing" ("Add kind: " ++ pipelineKind)
  else
    ctx.addErrorIf (p.kind ≠ pipelineKind) "kind"
      ("unsupported kind " ++ ctx.quote p.kind) ("Use kind: " ++ pipelineKind)

def validatePipelineMetadata (ctx : ValidationContext) (p : PipelineDefinition) :
    ValidationContext :=
  let name := p.metadata.name
  if name = "" then
    ctx.addError "metadata.name" "required field missing"
      "Add a kebab-case name, e.g. metadata.name: research-pipeline"
  else
    let ctx := ctx.addErrorIf (name.utf8ByteSize > 63) "metadata.name"
      ("name exceeds 63 characters (got " ++ toString name.utf8ByteSize ++ ")")
      "Shorten the pipeline name to 63 characters or fewer."
    ctx.addErrorIf (!matchesMetadataName name) "metadata.name"
      ("invalid name " ++ ctx.quote name ++ ": must be lowercase kebab-case")
      "Use lowercase letters, numbers, and hyphens only."

/-- The topology check of `validatePipelineSpec`. -/
def validateTopology (ctx : ValidationContext) (topology : String) : ValidationContext :=
  if topology = "" then
    ctx.addError "spec.topology" "required field missing"
      ("Set spec.topology to one of: " ++ ", ".intercalate validPipelineTopologies)
  else
    ctx.addErrorIf (topology ∉ validPipelineTopologies) "spec.topology"
      ("invalid topology " ++ ctx.quote topology)
      ("Must be one of: " ++ ", ".intercalate validPipelineTopologies)

/-- The loop of `validatePipelineSpec` over the nodes; `seen` maps an id to its index. -/
def validateAgents (ctx : ValidationContext) (seen : GoMap String Nat) :
    List (PipelineAgent × Nat) → ValidationContext × GoMap String Nat
  | [] => (ctx, seen)
  | (a, i) :: rest =>
    let field := "spec.agents[" ++ toString i ++ "]"
    if a.id = "" then
      validateAgents
        (ctx.addError (field ++ ".id") "required field missing"
          "Every pipeline node needs an id (unique within the pipeline).")
        seen rest
    else
      let ctx := ctx.addErrorIf (a.ref = "") (field ++ ".ref") "required field missing"
        "Every pipeline node needs a ref pointing at a loaded agent's metadata.name."
      match seen.lookup a.id with
      | some prev =>
        validateAgents
          (ctx.addError (field ++ ".id")
            ("duplicate node id " ++ ctx.quote a.id ++ " (first seen at spec.agents[" ++
              toString prev ++ "])")
            "Each node id must be unique within a pipeline.")
          seen rest
      | none => validateAgents ctx (seen.insert a.id i) rest

/-- The check of one end of an edge. -/
def validateEndpoint (ctx : ValidationContext) (seen : GoMap String Nat) (field label id : String) :
    ValidationContext :=
  if id = "" then
    ctx.addError (field ++ "." ++ label) "required field missing"
      ("Every edge needs a \x60" ++ label ++ "\x60 node id.")
  else
    ctx.addErrorIf (seen.lookup id).isNone (field ++ "." ++ label)
      ("references unknown node " ++ ctx.quote id)
      ("Point \x60" ++ label ++ "\x60 at a node id declared under spec.agents.")

structure EdgeKey where
  src : String
  dst : String
  whenContains : String
  deriving DecidableEq

def duplicateEdgeMessage (ctx : ValidationContext) (e : PipelineEdge) (prev : Nat) : String :=
  let guard := if e.whenContains = "" then "" else " guarded by " ++ ctx.quote e.whenContains
  "duplicate edge " ++ e.src ++ " → " ++ e.dst ++ guard ++ " (first seen at spec.edges[" ++
    toString prev ++ "])"

/-- The loop of `validatePipelineSpec` over the edges. -/
def validateEdges (ctx : ValidationContext) (seen : GoMap String Nat)
    (seenEdges : GoMap EdgeKey Nat) : List (PipelineEdge × Nat) → ValidationContext
  | [] => ctx
  | (e, i) :: rest =>
    let field := "spec.edges[" ++ toString i ++ "]"
    let ctx := validateEndpoint ctx seen field "from" e.src
    let ctx := validateEndpoint ctx seen field "to" e.dst
    let ctx := ctx.addErrorIf (e.src ≠ "" ∧ e.src = e.dst) field
      ("self-loop on node " ++ ctx.quote e.src)
      "Pipeline edges must connect two distinct nodes."
    let ctx := ctx.addErrorIf (e.whenContains ≠ "" ∧ e.whenContains.toList.all isSpace)
      (field ++ ".when_contains") "when_contains is whitespace-only"
      "Either remove when_contains entirely or set it to a meaningful substring."
    if e.src = "" ∨ e.dst = "" then validateEdges ctx seen seenEdges rest
    else
      match seenEdges.lookup ⟨e.src, e.dst, e.whenContains⟩ with
      | some prev =>
        validateEdges
          (ctx.addError field (duplicateEdgeMessage ctx e prev)
            "Remove the duplicate edge. Two identical guards are redundant; different guards should use distinct when_contains substrings.")
          seen seenEdges rest
      | none =>
        validateEdges ctx seen (seenEdges.insert ⟨e.src, e.dst, e.whenContains⟩ i) rest

def validatePipelineSpec (ctx : ValidationContext) (p : PipelineDefinition) :
    ValidationContext :=
  let spec := p.spec
  let ctx := validateTopology ctx spec.topology
  let ctx := ctx.addErrorIf (spec.agents.length = 0) "spec.agents" "pipeline declares no agents"
    "Add at least one node under spec.agents with an id and a ref."
  let r := validateAgents ctx ∅ spec.agents.zipIdx
  if spec.edges.length > 0 then
    let ctx := r.1.addErrorIf (spec.topology ≠ "" ∧ spec.topology ≠ topologyGraph) "spec.edges"
      ("edges are only honored under topology " ++ r.1.quote topologyGraph ++ " (got " ++
        r.1.quote spec.topology ++ ")")
      "Either change spec.topology to graph or remove spec.edges."
    validateEdges ctx r.2 ∅ spec.edges.zipIdx
  else r.1

/-! ## The graph pass -/

/-- The colors of the depth-first search. -/
inductive Color where
  | white
  | gray
  | black
  deriving DecidableEq

/-- The variables of `detectPipelineCycle`. -/
structure DfsState where
  ctx : ValidationContext
  color : GoMap String Color
  cycleFound : Bool

/-- `color[n]`, white if absent. -/
def DfsState.colorOf (st : DfsState) (n : String) : Color := (st.color.lookup n).getD .white

/-- The error of a back edge to `m`. -/
def cycleError (ctx : ValidationContext) (m : String) : ValidationError :=
  ctx.mkError "spec.edges" ("graph contains a cycle involving node " ++ ctx.quote m)
    "Pipeline execution would revisit a node — remove the back edge or split the cycle with a guard."

/-- The loop of `dfs` over the successors of a node; the flag says that `dfs` returned
    from inside the loop. -/
def dfsLoop (visit : DfsState → String → DfsState) (st : DfsState) :
    List String → DfsState × Bool
  | [] => (st, false)
  | m :: ms =>
    if st.cycleFound then (st, true)
    else
      match st.colorOf m with
      | .gray =>
        ({ st with
            ctx := { st.ctx with errors := st.ctx.errors ++ [cycleError st.ctx m] }
            cycleFound := true }, true)
      | .white => dfsLoop visit (visit st m) ms
      | .black => dfsLoop visit st ms

/-- The recursive `dfs` of `detectPipelineCycle`. -/
def dfs (forward : GoMap String (List String)) : Nat → DfsState → String → DfsState
  | 0, st, _ => st
  | fuel + 1, st, n =>
    if st.cycleFound then st
    else
      let st := { st with color := st.color.insert n .gray }
      let r := dfsLoop (dfs forward fuel) st ((forward.lookup n).getD [])
      if r.2 then r.1 else { r.1 with color := r.1.color.insert n .black }

/-- The outer loop of `detectPipelineCycle`, in declaration order. -/
def dfsAgents (visit : DfsState → String → DfsState) (st : DfsState) :
    List PipelineAgent → DfsState
  | [] => st
  | a :: rest =>
    if st.cycleFound then st
    else if a.id = "" then dfsAgents visit st rest
    else if st.colorOf a.id = .white then dfsAgents visit (visit st a.id) rest
    else dfsAgents visit st rest

def detectPipelineCycle (ctx : ValidationContext) (agents : List PipelineAgent)
    (forward : GoMap String (List String)) : DfsState :=
  dfsAgents (dfs forward agents.length) ⟨ctx, ∅, false⟩ agents

/-- The maps that `validatePipelineGraph` builds. -/
structure ForwardMaps where
  forward : GoMap String (List String)
  inDegree : GoMap String Int

/-- The loop body over the nodes. -/
def declareNode (g : ForwardMaps) (a : PipelineAgent) : ForwardMaps :=
  if a.id = "" then g
  else { forward := g.forward.insert a.id [], inDegree := g.inDegree.insert a.id 0 }

/-- The loop body over the edges: edges of unknown nodes and self-loops are skipped. -/
def forwardEdge (g : ForwardMaps) (e : PipelineEdge) : ForwardMaps :=
  if (g.forward.lookup e.src).isNone then g
  else if (g.forward.lookup e.dst).isNone then g
  else if e.src = e.dst then g
  else {
    forward := g.forward.insert e.src ((g.forward.lookup e.src).getD [] ++ [e.dst])
    inDegree := g.inDegree.insert e.dst ((g.inDegree.lookup e.dst).getD 0 + 1) }

/-- The maps of `validatePipelineGraph`. -/
def forwardMaps (agents : List PipelineAgent) (edges : List PipelineEdge) : ForwardMaps :=
  edges.foldl forwardEdge (agents.foldl declareNode ⟨∅, ∅⟩)

/-- The breadth-first search of `validatePipelineGraph`. -/
def bfs (forward : GoMap String (List String)) :
    Nat → GoMap String Bool → List String → GoMap String Bool
  | 0, reachable, _ => reachable
  | _ + 1, reachable, [] => reachable
  | fuel + 1, reachable, n :: queue =>
    if (reachable.lookup n).getD false then bfs forward fuel reachable queue
    else
      bfs forward fuel (reachable.insert n true) (queue ++ (forward.lookup n).getD [])

/-- The final loop of `validatePipelineGraph`: report the unreachable nodes. -/
def reportUnreachable (indexByID : GoMap String Nat) (reachable : GoMap String Bool)
    (ctx : ValidationContext) : List PipelineAgent → ValidationContext
  | [] => ctx
  | a :: rest =>
    let ctx := ctx.addErrorIf (a.id ≠ "" ∧ (reachable.lookup a.id).getD false = false)
      ("spec.agents[" ++ toString ((indexByID.lookup a.id).getD 0) ++ "].id")
      ("node " ++ ctx.quote a.id ++ " is unreachable from any source")
      "Add an inbound edge from another node, or remove the unreachable node."
    reportUnreachable indexByID reachable ctx rest

/-- `validatePipelineGraph`. The search makes at most one step for each node and each
    edge, and one for each source. -/
def validatePipelineGraph (ord : MapOrder) (ctx : ValidationContext) (p : PipelineDefinition) :
    ValidationContext :=
  if p.spec.topology ≠ topologyGraph then ctx
  else if p.spec.agents.length = 0 then ctx
  else
    let g := forwardMaps p.spec.agents p.spec.edges
    let st := detectPipelineCycle ctx p.spec.agents g.forward
    if st.cycleFound then st.ctx
    else
      let sources := ((ord.visit g.inDegree.entries).filter fun e => e.2 = 0).map fun e => e.1
      if sources.length = 0 then st.ctx
      else
        let indexByID := p.spec.agents.zipIdx.foldl
          (fun m a => if a.1.id = "" then m else m.insert a.1.id a.2) (∅ : GoMap String Nat)
        let reachable := bfs g.forward
          (p.spec.agents.length + p.spec.edges.length + sources.length) ∅ sources
        reportUnreachable indexByID reachable st.ctx p.spec.agents

/-- `ValidatePipeline`: the errors, or nothing if the document is accepted. -/
def validatePipeline (ord : MapOrder) (file : String) (lineColOf : String → Int × Int)
    (quote : String → String) (p : PipelineDefinition) : Option (List ValidationError) :=
  let ctx : ValidationContext := { file := file, lineColOf := lineColOf, quote := quote }
  let ctx := validatePipelineAPIVersion ctx p
  let ctx := validatePipelineKind ctx p
  let ctx := validatePipelineMetadata ctx p
  let ctx := validatePipelineSpec ctx p
  let ctx := validatePipelineGraph ord ctx p
  if ctx.errors.length = 0 then none else some ctx.errors

end MockAgents
