import MockAgents.Engine.AgentRegistry
import MockAgents.Engine.Chaos
import MockAgents.Engine.ResponseGenerator
import MockAgents.State.Store

/-!
# The request engine

`ProcessRequestContext`: resolve the agent, inject chaos, obtain the session and apply
one turn to it. The turn's callback matches a scenario, generates the response and
resolves its tool calls.

Logging, tracing and the latency sleep after a response have no effect on the outcome
and are left out. Everything a request reads from outside the engine (its context, the
clock, random sources, map iteration order) is in its `RequestEnv`.
-/

namespace MockAgents

/-- The library functions the engine calls. `processToolCalls` is the tool processor, a
    function of the calls, the agent's tools and its own randomness. -/
structure Host extends TextLib, TemplateLib where
  ToolEntropy : Type
  processToolCalls : List ToolCallSpec → List ToolDefinition → ToolEntropy → List ToolCallResult

/-- A host without regular expressions, templates and tools. -/
def plainHost : Host where
  toLower := fun s => s
  Regexp := Empty
  compile := fun _ => none
  subexpNames := fun _ => []
  findStringSubmatch := fun _ _ => none
  Template := Empty
  parse := fun _ => .error "templates are not supported"
  Entropy := Unit
  execute := fun _ _ _ => .error "templates are not supported"
  ToolEntropy := Unit
  processToolCalls := fun _ _ _ => []

structure RequestMessage where
  role : String
  content : String
  imageCount : Int := 0

/-- A parsed client request. -/
structure InboundRequest where
  agentName : String := ""
  model : String := ""
  sessionID : String := ""
  messages : List RequestMessage := []

/-- What a request reads from its surroundings. -/
structure RequestEnv (host : Host) where
  ctxErr : Option String := none
  draws : ChaosDraws := {}
  checkAt : Int := 0
  createAt : Int := 0
  userAt : Int := 0
  replyAt : Int := 0
  entropy : host.Entropy
  toolEntropy : host.ToolEntropy
  ord : MapOrder := .stored

def plainEnv : RequestEnv plainHost := { entropy := (), toolEntropy := () }

/-- The errors of `ProcessRequestContext`, with the values of their messages. -/
inductive EngineError where
  | agentNotFound (identifier : String) (available : List String)
  | context (message : String)
  | chaos (err : ChaosError)
  | emptyMessage
  | generating (agent : String) (err : GenerateError)
  deriving DecidableEq

/-- What the generator was given: the scenario and the template data. -/
structure GeneratorInput where
  scenario : Scenario
  ctx : TemplateContext

/-- The outcome of a request: the agent it resolved to, what the generator was given if
    it got that far, and the returned response and error. -/
structure Outcome where
  agent : Option DefPtr := none
  input : Option GeneratorInput := none
  resp : Option Response := none
  err : Option EngineError := none

structure Engine (host : Host) where
  registry : AgentRegistry
  states : MemoryStore
  matcher : ScenarioMatcher host.toTextLib
  generator : ResponseGenerator host.toTemplateLib
  chaos : ChaosInjector

/-- `scopedSessionKey`: tenant, agent name and client session id, separated by NUL. -/
def scopedSessionKey (tenantID agentName sessionID : String) : String :=
  tenantID ++ "\x00" ++ agentName ++ "\x00" ++ sessionID

def latestUserMessage (messages : List RequestMessage) : String :=
  match messages.reverse.find? (·.role == "user") with
  | some m => m.content
  | none => ""

def latestUserImageCount (messages : List RequestMessage) : Int :=
  match messages.reverse.find? (·.role == "user") with
  | some m => m.imageCount
  | none => 0

/-- The scenario used when none matches and the agent has no default. -/
def fallbackScenario (agentName : String) : Scenario where
  name := "_fallback"
  response := { content := "Mock response from " ++ agentName }

namespace Engine

variable {host : Host} (defs : Definitions)

def newEngine (registry : AgentRegistry) (states : MemoryStore) : Engine host where
  registry := registry
  states := states
  matcher := .newScenarioMatcher host.toTextLib
  generator := .newResponseGenerator host.toTemplateLib
  chaos := .newChaosInjector

/-- A new engine on an empty registry and an empty store. -/
def start (host : Host) (ttl : Int) : Engine host :=
  newEngine AgentRegistry.newAgentRegistry (MemoryStore.newMemoryStore ttl)

def resolveByModel (r : AgentRegistry) (req : InboundRequest) (tenantID : String) :
    Option DefPtr :=
  if req.model ≠ "" then r.getByModelForTenant req.model tenantID else none

def resolveByName (r : AgentRegistry) (req : InboundRequest) (tenantID : String) :
    Option DefPtr :=
  if req.agentName ≠ "" then r.getForTenant req.agentName tenantID else none

/-- The default of `resolveAgentForTenant`: an anonymous caller who can see exactly one
    agent gets that agent. -/
def resolveDefault (ord : MapOrder) (r : AgentRegistry) (tenantID : String) : Option DefPtr :=
  if tenantID = "" then
    match r.listForTenant defs ord "" with
    | [p] => some p
    | _ => none
  else none

/-- `resolveAgentForTenant`: by name, then by model, then the default. -/
def resolveAgentForTenant (ord : MapOrder) (r : AgentRegistry) (req : InboundRequest)
    (tenantID : String) : Except EngineError DefPtr :=
  match resolveByName r req tenantID with
  | some p => .ok p
  | none =>
    match resolveByModel r req tenantID with
    | some p => .ok p
    | none =>
      match resolveDefault defs ord r tenantID with
      | some p => .ok p
      | none =>
        let identifier := if req.agentName = "" then req.model else req.agentName
        .error (.agentNotFound identifier (r.listNamesForTenant ord tenantID))

/-- What the callback of a turn leaves in the variables it captures. -/
structure TurnEffects (host : Host) where
  matcher : ScenarioMatcher host.toTextLib
  generator : ResponseGenerator host.toTemplateLib
  input : GeneratorInput
  resp : Option Response

def selectScenario (agent : AgentDefinition) :
    Option MatchResult → Scenario × Option Captures
  | some r => (r.scenario, r.captures)
  | none => (fallbackScenario agent.metadata.name, none)

/-- The tool calls of a response, as the history records them. -/
def toolCallMsgs (resp : Response) : List ToolCallMsg :=
  resp.toolCalls.map fun tc => { name := tc.name, arguments := tc.arguments }

def resolveTools (host : Host) (agent : AgentDefinition) (entropy : host.ToolEntropy)
    (resp : Response) : Response :=
  if resp.toolCalls.length > 0 then
    { resp with toolResults := host.processToolCalls resp.toolCalls agent.spec.tools entropy }
  else resp

/-- The callback that `ProcessRequestContext` hands to `ApplyTurn`. -/
def buildTurn (e : Engine host) (agent : AgentDefinition) (req : InboundRequest)
    (env : RequestEnv host) (userMsg : String) (imageCount : Int)
    (turnCount : Nat) (vars : Fields) : Built EngineError (TurnEffects host) :=
  let matched := e.matcher.matchWithCaptures agent.spec.behavior.scenarios userMsg turnCount
    imageCount
  let selected := selectScenario agent matched.2
  let ctx : TemplateContext := {
    agent := agent
    message := userMsg
    turnNumber := turnCount
    sessionID := req.sessionID
    vars := vars
    captures := selected.2 }
  -- the callback never writes the variables, so they go back as they came
  let generated := e.generator.generate agent selected.1 ctx env.entropy
  match generated.2 with
  | .error err =>
    { outcome := .error (.generating agent.metadata.name err)
      vars := vars
      captured := ⟨matched.1, generated.1, ⟨selected.1, ctx⟩, none⟩ }
  | .ok resp =>
    let resp := resolveTools host agent env.toolEntropy resp
    { outcome := .ok ⟨resp.content, toolCallMsgs resp⟩
      vars := vars
      captured := ⟨matched.1, generated.1, ⟨selected.1, ctx⟩, some resp⟩ }

/-- The session and turn part of `ProcessRequestContext`. -/
def serveTurn (e : Engine host) (p : DefPtr) (agent : AgentDefinition) (tenantID : String)
    (req : InboundRequest) (env : RequestEnv host) (userMsg : String) (imageCount : Int) :
    Engine host × Outcome :=
  let key := scopedSessionKey tenantID agent.metadata.name req.sessionID
  let got := e.states.getOrCreate key agent.metadata.name env.checkAt env.createAt
  let turn := (got.1.heap got.2).applyTurn userMsg env.userAt env.replyAt
    (buildTurn e agent req env userMsg imageCount)
  let effects := turn.2.2
  ({ e with
      states := got.1.update got.2 fun _ => turn.1
      matcher := effects.matcher
      generator := effects.generator },
    -- an error of the callback is returned as it is, without a response
    match turn.2.1 with
    | .error err => { agent := some p, input := some effects.input, err := some err }
    | .ok () => { agent := some p, input := some effects.input, resp := effects.resp })

def processRequestContext (e : Engine host) (tenantID : String) (req : InboundRequest)
    (env : RequestEnv host) : Engine host × Outcome :=
  match resolveAgentForTenant defs env.ord e.registry req tenantID with
  | .error err => (e, { err := some err })
  | .ok p =>
    -- the context is checked after the resolution and before any fault is drawn
    match env.ctxErr with
    | some msg => (e, { agent := some p, err := some (.context msg) })
    | none =>
      let checked := e.chaos.before (defs p) env.draws
      let e := { e with chaos := checked.1 }
      match checked.2 with
      | some err => (e, { agent := some p, err := some (.chaos err) })
      | none =>
        let userMsg := latestUserMessage req.messages
        let imageCount := latestUserImageCount req.messages
        if userMsg = "" ∧ imageCount = 0 then
          (e, { agent := some p, err := some .emptyMessage })
        else e.serveTurn p (defs p) tenantID req env userMsg imageCount

/-! ## Runs -/

/-- An operation on a running engine. -/
inductive Op (host : Host) where
  | register (p : Option DefPtr) (ord : MapOrder)
  | registerWithSource (p : Option DefPtr) (sourcePath : String) (ord : MapOrder)
  | removeForTenant (name tenantID : String) (ord : MapOrder)
  | request (tenantID : String) (req : InboundRequest) (env : RequestEnv host)

/-- One operation, with the outcome of a request. -/
def step (e : Engine host) : Op host → Engine host × Option Outcome
  | .register p ord => ({ e with registry := e.registry.register defs ord p }, none)
  | .registerWithSource p sourcePath ord =>
    ({ e with registry := e.registry.registerWithSource defs ord sourcePath p }, none)
  | .removeForTenant name tenantID ord =>
    ({ e with registry := (e.registry.removeForTenant defs ord name tenantID).1 }, none)
  | .request tenantID req env =>
    let served := e.processRequestContext defs tenantID req env
    (served.1, some served.2)

end Engine

end MockAgents
