import Mathlib.Data.Rat.Defs

/-!
# Agent definitions

The document types of `internal/types` that the engine reads: an agent's
metadata, its protocol, model, tools and scenarios, and its chaos section. Fields that
no modelled function reads (the agent's description and tags) are left out; the streaming
section and the chaos preset name that the loader expands are in `AgentDocument`.

Probabilities are `float64` in the source and rationals here.
-/

namespace MockAgents

/-- A dynamically typed value (`any`) decoded from YAML or JSON. -/
inductive Value where
  | null
  | bool (b : Bool)
  | int (i : Int)
  | float (q : Rat)
  | str (s : String)
  | arr (items : List Value)
  | obj (fields : List (String × Value))

/-- A `map[string]any`, as its entries. -/
abbrev Fields := List (String × Value)

/-- A tool call that a scenario asks the agent to emit. -/
structure ToolCallSpec where
  name : String
  arguments : Fields := []
  rawArguments : String := ""

/-- The label of a planted hallucination. -/
structure HallucinationSpec where
  type : String := ""
  groundTruth : String := ""
  note : String := ""
  deriving DecidableEq

/-- What an agent answers when a scenario matches. -/
structure ScenarioResponse where
  content : String := ""
  toolCalls : List ToolCallSpec := []
  metadata : Fields := []
  finishReason : String := ""
  refusal : String := ""
  hallucination : Option HallucinationSpec := none

/-- The conditions under which a scenario activates; an absent condition holds. -/
structure MatchRule where
  contentContains : String := ""
  contentRegex : String := ""
  turnNumber : Option Int := none
  hasImage : Option Bool := none
  deriving DecidableEq

/-- A scenario; one without a rule is a default. -/
structure Scenario where
  name : String
  rule : Option MatchRule := none
  response : ScenarioResponse

/-! ## Chaos -/

/-- Latency injected after a response. -/
structure ChaosLatencyConfig where
  distribution : String := ""
  minMs : Int := 0
  maxMs : Int := 0
  meanMs : Int := 0
  stddevMs : Int := 0
  deriving DecidableEq

/-- Error injection. `failFirst > 0` takes precedence over `rate`. -/
structure ChaosErrorConfig where
  rate : Rat := 0
  statusCode : Int := 0
  statusCodes : List Int := []
  timeout : Bool := false
  timeoutMs : Int := 0
  message : String := ""
  failFirst : Int := 0
  deriving DecidableEq

/-- A cap on the number of requests in a window. -/
structure ChaosRateLimitConfig where
  requests : Int
  windowMs : Int
  deriving DecidableEq

/-- A fault of the TCP connection, triggered as an injected error is. -/
structure ChaosConnectionConfig where
  mode : String
  rate : Rat := 0
  failFirst : Int := 0
  deriving DecidableEq

/-- Fault injection applied to every request an agent serves. -/
structure ChaosConfig where
  enabled : Bool := false
  latency : Option ChaosLatencyConfig := none
  errors : Option ChaosErrorConfig := none
  rateLimit : Option ChaosRateLimitConfig := none
  connection : Option ChaosConnectionConfig := none
  deriving DecidableEq

/-! ## Tools -/

structure ToolError where
  code : String
  message : String
  deriving DecidableEq

/-- Maps arguments of a tool call to a response or an error. -/
structure ToolResponseRule where
  pattern : Fields := []
  response : Value := .null
  error : Option ToolError := none
  isDefault : Bool := false

/-- A tool an agent can call. -/
structure ToolDefinition where
  name : String
  description : String := ""
  parameters : Fields := []
  responses : List ToolResponseRule := []
  validate : Bool := false
  errorRate : Rat := 0

/-! ## Agents -/

/-- How an agent responds. -/
structure BehaviorConfig where
  scenarios : List Scenario := []
  chaos : Option ChaosConfig := none

/-- Identifying information. An agent with an empty `tenantID` is global. -/
structure Metadata where
  name : String
  tenantID : String := ""
  deriving DecidableEq

/-- An agent's protocol, model, tools and behavior. -/
structure AgentSpec where
  protocol : String := ""
  model : String := ""
  systemPrompt : String := ""
  tools : List ToolDefinition := []
  behavior : BehaviorConfig := {}

/-- A mock agent document. -/
structure AgentDefinition where
  metadata : Metadata
  spec : AgentSpec := {}

/-- A `*AgentDefinition`. Go compares definitions by address, so the registry
    model stores addresses and reads the definitions through a `Definitions`. -/
abbrev DefPtr := Nat

/-- What every definition pointer points at. Definitions are not mutated after
    registration, so one fixed function serves a whole run. -/
abbrev Definitions := DefPtr → AgentDefinition

end MockAgents
