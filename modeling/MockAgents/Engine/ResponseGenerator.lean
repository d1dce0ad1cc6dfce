import MockAgents.Engine.ScenarioMatcher

/-!
# Response generation

`Generate` renders a matched scenario. Content without template delimiters is returned
as it is; other content is a Go template, parsed once and cached. Parsing and executing
templates are parameters, and what a template draws from the clock and the random
source is an input of the execution.
-/

namespace MockAgents

/-- A resolved tool call, as it is reported to the client. -/
structure ToolCallResult where
  id : String
  toolName : String
  response : Option Value := none
  error : Option ToolError := none
  isError : Bool := false

/-- The engine's output for a request. -/
structure Response where
  agentName : String
  model : String
  content : String
  toolCalls : List ToolCallSpec := []
  toolResults : List ToolCallResult := []
  scenarioName : String
  systemPrompt : String := ""
  metadata : Fields := []
  finishReason : String := ""
  refusal : String := ""
  hallucination : Option HallucinationSpec := none

/-- The data that a template sees. -/
structure TemplateContext where
  agent : AgentDefinition
  message : String
  turnNumber : Int
  sessionID : String
  timestamp : String := ""
  vars : Fields
  captures : Option Captures

/-- The functions of `text/template` that generation calls. -/
structure TemplateLib where
  Template : Type
  parse : String → Except String Template
  Entropy : Type
  execute : Template → TemplateContext → Entropy → Except String String

/-- Why content could not be rendered, with the library's message. -/
inductive RenderError where
  | parsing (message : String)
  | executing (message : String)
  deriving DecidableEq

structure GenerateError where
  scenario : String
  cause : RenderError
  deriving DecidableEq

/-- The generator's template cache. -/
structure ResponseGenerator (lib : TemplateLib) where
  cache : MemoOk lib.parse

namespace ResponseGenerator

variable {lib : TemplateLib}

def newResponseGenerator (lib : TemplateLib) : ResponseGenerator lib := ⟨.empty lib.parse⟩

def renderContent (g : ResponseGenerator lib) (content : String) (ctx : TemplateContext)
    (entropy : lib.Entropy) : ResponseGenerator lib × Except RenderError String :=
  if !hasSubstr content "\x7b\x7b" then (g, .ok content)
  else
    let tmpl := g.cache.load content
    (⟨tmpl.1⟩,
      match tmpl.2 with
      | .error err => .error (.parsing err)
      | .ok tmpl => (lib.execute tmpl ctx entropy).mapError .executing)

def generate (g : ResponseGenerator lib) (agent : AgentDefinition) (scenario : Scenario)
    (ctx : TemplateContext) (entropy : lib.Entropy) :
    ResponseGenerator lib × Except GenerateError Response :=
  let rendered := g.renderContent scenario.response.content ctx entropy
  (rendered.1,
    match rendered.2 with
    | .error err => .error ⟨scenario.name, err⟩
    | .ok content => .ok {
        agentName := agent.metadata.name
        model := agent.spec.model
        content := content
        toolCalls := scenario.response.toolCalls
        scenarioName := scenario.name
        systemPrompt := agent.spec.systemPrompt
        metadata := scenario.response.metadata
        hallucination := scenario.response.hallucination
        finishReason := scenario.response.finishReason
        refusal := scenario.response.refusal })

/-- Rendering does not depend on which templates are cached. -/
theorem renderContent_snd (g g' : ResponseGenerator lib) (content : String)
    (ctx : TemplateContext) (entropy : lib.Entropy) :
    (g.renderContent content ctx entropy).2 = (g'.renderContent content ctx entropy).2 := by
  unfold renderContent
  split
  · rfl
  · simp

theorem generate_snd (g g' : ResponseGenerator lib) (agent : AgentDefinition)
    (scenario : Scenario) (ctx : TemplateContext) (entropy : lib.Entropy) :
    (g.generate agent scenario ctx entropy).2 = (g'.generate agent scenario ctx entropy).2 := by
  simp only [generate, renderContent_snd g g']

theorem generate_agentName {g : ResponseGenerator lib} {agent : AgentDefinition}
    {scenario : Scenario} {ctx : TemplateContext} {entropy : lib.Entropy} {resp : Response}
    (h : (g.generate agent scenario ctx entropy).2 = .ok resp) :
    resp.agentName = agent.metadata.name := by
  simp only [generate] at h
  split at h
  · cases h
  · rw [← Except.ok.inj h]

end ResponseGenerator

end MockAgents
