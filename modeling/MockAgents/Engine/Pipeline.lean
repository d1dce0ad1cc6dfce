import MockAgents.Engine.Engine
import MockAgents.Types.Pipeline

/-!
# Pipeline execution

`RunContext` runs the agents of a pipeline one after the other, all at once, or along
the edges of a graph. The three topologies are written over an arbitrary invocation of
a node; `invokeNode` is the one that calls the engine.

Every invocation is recorded as a `NodeCall` with its input, result and error; the
`Nodes` of a sequential or graph result are the results of its calls, in order.
Latencies are left out. The recursive walk and the peeling loop take fuel, and an
exhausted walk returns the error `outOfFuel`, which no run of the source has.
-/

namespace MockAgents

/-- The errors of a pipeline run, with the values of their messages. -/
inductive RunError where
  | nilDefinition
  | noAgents
  | unknownTopology (topology : String)
  | cycle (nodes : List String)
  | unknownNode (pipeline id : String)
  | missingRef (pipeline node : String)
  | noResponse (pipeline node : String)
  | engine (err : EngineError)
  | joined (errs : List RunError)
  | outOfFuel

/-- One agent invocation inside a run. -/
structure NodeResult where
  nodeID : String
  agentName : String := ""
  response : Option Response := none

/-- The aggregated output of a run. -/
structure PipelineResult where
  pipelineName : String
  topology : String
  nodes : List NodeResult

/-- A record of one invocation. -/
structure NodeCall where
  node : PipelineAgent
  input : String
  result : NodeResult
  err : Option RunError

/-- `nr.Response.Content`. -/
def NodeCall.output (c : NodeCall) : String := (c.result.response.map Response.content).getD ""

/-- How a node is invoked on an input, in a state of the engine. -/
abbrev Invoke (σ : Type) := σ → PipelineAgent → String → σ × NodeResult × Option RunError

/-- The engine's state and the calls made so far. -/
structure Progress (σ : Type) where
  state : σ
  calls : List NodeCall

namespace Progress

variable {σ : Type} (invoke : Invoke σ)

/-- Invoke a node and record the call. -/
def call (s : Progress σ) (node : PipelineAgent) (input : String) : Progress σ × NodeCall :=
  let r := invoke s.state node input
  let c : NodeCall := ⟨node, input, r.2.1, r.2.2⟩
  (⟨r.1, s.calls ++ [c]⟩, c)

end Progress

/-! ## Sequential and parallel runs -/

section Topologies

variable {σ : Type} (invoke : Invoke σ)

/-- `runSequential`: each agent gets the output of the one before it. -/
def runSequential (s : Progress σ) (input : String) :
    List PipelineAgent → Progress σ × Option RunError
  | [] => (s, none)
  | node :: rest =>
    let r := s.call invoke node input
    match r.2.err with
    | some err => (r.1, some err)
    | none => runSequential r.1 r.2.output rest

/-- Go's `errors.Join`. -/
def joinErrors (errs : List (Option RunError)) : Option RunError :=
  match errs.filterMap id with
  | [] => none
  | err :: rest => some (.joined (err :: rest))

/-- The calls of a parallel run, in the order in which the goroutines happen to run,
    each stored at its index. -/
def parallelCalls (s : Progress σ) (input : String) (agents : List (PipelineAgent × Nat)) :
    Progress σ × GoMap Nat NodeCall :=
  agents.foldl
    (fun acc node =>
      let r := acc.1.call invoke node.1 input
      (r.1, acc.2.insert node.2 r.2))
    (s, ∅)

/-- `runParallel`: every agent gets the user message; results are in definition order
    and all errors are joined. -/
def runParallel (ord : MapOrder) (s : Progress σ) (input : String)
    (agents : List PipelineAgent) : Progress σ × List NodeResult × Option RunError :=
  let r := parallelCalls invoke s input (ord.visit agents.zipIdx)
  let slots := (List.range agents.length).map r.2.lookup
  (r.1, slots.filterMap fun slot => slot.map NodeCall.result,
    joinErrors (slots.map fun slot => slot.bind NodeCall.err))

end Topologies

/-! ## Graph runs -/

/-- The maps that `runGraph` builds from the edges. -/
structure GraphMaps where
  outgoing : GoMap String (List PipelineEdge)
  indegree : GoMap String Int

def nodesByID (agents : List PipelineAgent) : GoMap String PipelineAgent :=
  agents.foldl (fun m n => m.insert n.id n) ∅

/-- The loop body of `runGraph` over the edges: every edge goes to `outgoing`, and one
    between two distinct known nodes counts in `indegree`. -/
def countEdge (nodes : GoMap String PipelineAgent) (g : GraphMaps) (e : PipelineEdge) :
    GraphMaps :=
  -- an edge from an unknown node is kept here, but no walk gets to it
  let g := { g with
    outgoing := g.outgoing.insert e.src ((g.outgoing.lookup e.src).getD [] ++ [e]) }
  if e.src = e.dst then g
  else if (nodes.lookup e.src).isSome ∧ (nodes.lookup e.dst).isSome then
    { g with indegree := g.indegree.insert e.dst ((g.indegree.lookup e.dst).getD 0 + 1) }
  else g

/-- The maps of `runGraph`. -/
def graphMaps (agents : List PipelineAgent) (edges : List PipelineEdge) : GraphMaps :=
  edges.foldl (countEdge (nodesByID agents))
    ⟨∅, agents.foldl (fun m n => m.insert n.id 0) ∅⟩

/-- The inner loop of `cyclicNodes`: an edge leaving a peeled node. -/
def relax (st : GoMap String Int × List String) (e : PipelineEdge) :
    GoMap String Int × List String :=
  if e.src = e.dst then st
  else
    -- the target may be peeled already or not be declared
    match st.1.lookup e.dst with
    | none => st
    | some d =>
      (st.1.insert e.dst (d - 1), if d - 1 = 0 then st.2 ++ [e.dst] else st.2)

/-- The peeling loop of `cyclicNodes`: what is left when the queue is empty. -/
def peel (outgoing : GoMap String (List PipelineEdge)) :
    Nat → GoMap String Int → List String → GoMap String Int
  | 0, remaining, _ => remaining
  | _ + 1, remaining, [] => remaining
  | fuel + 1, remaining, id :: queue =>
    let st := ((outgoing.lookup id).getD []).foldl relax (remaining.erase id, queue)
    peel outgoing fuel st.1 st.2

/-- The final loop of `cyclicNodes`: the remaining ids in definition order, each once. -/
def listRemaining : GoMap String Int → List PipelineAgent → List String
  | _, [] => []
  | remaining, n :: rest =>
    if (remaining.lookup n.id).isSome then n.id :: listRemaining (remaining.erase n.id) rest
    else listRemaining remaining rest

/-- `cyclicNodes`: Kahn's algorithm. -/
def cyclicNodes (ord : MapOrder) (agents : List PipelineAgent)
    (outgoing : GoMap String (List PipelineEdge)) (indegree : GoMap String Int) :
    List String :=
  let remaining := (ord.visit indegree.entries).foldl (fun m e => m.insert e.1 e.2)
    (∅ : GoMap String Int)
  let queue := ((ord.visit remaining.entries).filter fun e => e.2 = 0).map fun e => e.1
  listRemaining (peel outgoing remaining.entries.length remaining queue) agents

section Walk

variable {σ : Type} (invoke : Invoke σ)

/-- The variables that the walk changes. -/
structure WalkState (σ : Type) where
  progress : Progress σ
  visited : GoMap String Bool

/-- The guard of an edge: absent, or a substring of the output of its source. -/
def PipelineEdge.fires (e : PipelineEdge) (output : String) : Bool :=
  e.whenContains = "" || hasSubstr output e.whenContains

/-- The loop of `walk` over the outgoing edges of a node with this output. -/
def walkEdges (visit : WalkState σ → String → String → WalkState σ × Option RunError)
    (output : String) (s : WalkState σ) : List PipelineEdge → WalkState σ × Option RunError
  | [] => (s, none)
  | e :: rest =>
    if !e.fires output then walkEdges visit output s rest
    else
      let r := visit s e.dst output
      match r.2 with
      | some err => (r.1, some err)
      | none => walkEdges visit output r.1 rest

/-- The recursive `walk` of `runGraph`. -/
def walk (pipeline : String) (nodes : GoMap String PipelineAgent)
    (outgoing : GoMap String (List PipelineEdge)) :
    Nat → WalkState σ → String → String → WalkState σ × Option RunError
  -- never reached from `runGraph`, which starts with more fuel than there are nodes
  | 0, s, _, _ => (s, some .outOfFuel)
  | fuel + 1, s, id, input =>
    if (s.visited.lookup id).getD false then (s, none)
    else
      let s := { s with visited := s.visited.insert id true }
      match nodes.lookup id with
      | none => (s, some (.unknownNode pipeline id))
      | some node =>
        let r := s.progress.call invoke node input
        let s := { s with progress := r.1 }
        match r.2.err with
        | some err => (s, some err)
        | none =>
          walkEdges (walk pipeline nodes outgoing fuel) r.2.output s
            ((outgoing.lookup id).getD [])

/-- The loop of `runGraph` over the roots. -/
def walkRoots (visit : WalkState σ → String → String → WalkState σ × Option RunError)
    (indegree : GoMap String Int) (userMsg : String) (s : WalkState σ) :
    List PipelineAgent → WalkState σ × Option RunError
  | [] => (s, none)
  | n :: rest =>
    if (indegree.lookup n.id).getD 0 = 0 then
      let r := visit s n.id userMsg
      match r.2 with
      | some err => (r.1, some err)
      | none => walkRoots visit indegree userMsg r.1 rest
    else walkRoots visit indegree userMsg s rest

def runGraph (ord : MapOrder) (pipeline : String) (agents : List PipelineAgent)
    (edges : List PipelineEdge) (s : Progress σ) (userMsg : String) :
    Progress σ × Option RunError :=
  let g := graphMaps agents edges
  match cyclicNodes ord agents g.outgoing g.indegree with
  | [] =>
    let r := walkRoots
      (walk invoke pipeline (nodesByID agents) g.outgoing (agents.length + 1))
      g.indegree userMsg ⟨s, ∅⟩ agents
    (r.1.progress, r.2)
  | id :: rest => (s, some (.cycle (id :: rest)))

end Walk

/-! ## The executor -/

/-- The outcome of `RunContext`, with the calls it made. -/
structure RunOutcome (σ : Type) where
  state : σ
  result : Option PipelineResult
  err : Option RunError
  calls : List NodeCall

/-- `RunContext` over any invocation of nodes. -/
def runContext {σ : Type} (invoke : PipelineDefinition → Invoke σ) (ord : MapOrder)
    (state : σ) (pipeline : Option PipelineDefinition) (userMsg : String) : RunOutcome σ :=
  match pipeline with
  | none => ⟨state, none, some .nilDefinition, []⟩
  | some p =>
    if p.spec.agents.length = 0 then ⟨state, none, some .noAgents, []⟩
    else
      let res := fun nodes => some ⟨p.metadata.name, p.spec.topology, nodes⟩
      let s : Progress σ := ⟨state, []⟩
      -- a definition without a topology runs sequentially
      if p.spec.topology = topologySequential ∨ p.spec.topology = "" then
        let r := runSequential (invoke p) s userMsg p.spec.agents
        ⟨r.1.state, res (r.1.calls.map NodeCall.result), r.2, r.1.calls⟩
      else if p.spec.topology = topologyParallel then
        let r := runParallel (invoke p) ord s userMsg p.spec.agents
        ⟨r.1.state, res r.2.1, r.2.2, r.1.calls⟩
      else if p.spec.topology = topologyGraph then
        let r := runGraph (invoke p) ord p.metadata.name p.spec.agents p.spec.edges s userMsg
        ⟨r.1.state, res (r.1.calls.map NodeCall.result), r.2, r.1.calls⟩
      else ⟨state, none, some (.unknownTopology p.spec.topology), []⟩

/-- The engine, and the number of requests the executor has made to it. -/
structure ExecState (host : Host) where
  engine : Engine host
  requests : Nat

/-- The session id that a node uses: client session, pipeline and node, joined. -/
def scopedSession (sessionID pipelineName nodeID : String) : String :=
  sessionID ++ "::" ++ pipelineName ++ "::" ++ nodeID

/-- The request that `invokeNode` sends. -/
def nodeRequest (pipelineName sessionID : String) (node : PipelineAgent) (input : String) :
    InboundRequest where
  agentName := node.ref
  sessionID := scopedSession sessionID pipelineName node.id
  messages := [{ role := "user", content := input }]

/-- `invokeNode`; `env` gives the surroundings of the run's requests, in order. -/
def invokeNode {host : Host} (defs : Definitions) (env : Nat → RequestEnv host)
    (tenantID sessionID : String) (p : PipelineDefinition) : Invoke (ExecState host) :=
  fun s node input =>
    if node.ref = "" then
      (s, { nodeID := node.id }, some (.missingRef p.metadata.name node.id))
    else
      let served := s.engine.processRequestContext defs tenantID
        (nodeRequest p.metadata.name sessionID node input) (env s.requests)
      -- a missing response is an error of its own
      let err := match served.2.err with
        | some err => some (.engine err)
        | none =>
          if served.2.resp.isNone then some (.noResponse p.metadata.name node.id) else none
      (⟨served.1, s.requests + 1⟩,
        { nodeID := node.id, agentName := node.ref, response := served.2.resp }, err)

/-- `PipelineExecutor.RunContext`. -/
def executePipeline {host : Host} (defs : Definitions) (env : Nat → RequestEnv host)
    (ord : MapOrder) (tenantID : String) (engine : Engine host)
    (pipeline : Option PipelineDefinition) (userMsg sessionID : String) :
    RunOutcome (ExecState host) :=
  runContext (invokeNode defs env tenantID sessionID) ord ⟨engine, 0⟩ pipeline userMsg

end MockAgents
