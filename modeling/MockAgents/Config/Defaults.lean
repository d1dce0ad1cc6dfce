import MockAgents.Streaming.Chunker
import MockAgents.Types.Agent

/-!
# Defaults of an agent document

A document as the loaders decode it: the definition together with the fields that only
the loaders and the validator read. `ApplyDefaults` fills in the model, the streaming
section and the sections that a chaos preset stands for.
-/

namespace MockAgents

structure StreamingSection where
  config : StreamingConfig
  chunkDelayMs : Int := 0

/-- An agent document, with the streaming section and the chaos preset beside the
    definition. -/
structure AgentDocument where
  apiVersion : String := ""
  kind : String := ""
  definition : AgentDefinition
  streaming : Option StreamingSection := none
  preset : String := ""

/-- A field that the author left at its zero value takes its default. -/
def fillIn {α : Type} [DecidableEq α] (zero default v : α) : α :=
  if v = zero then default else v

def defaultModel : String := "mock-agent"

/-- The error section of a preset; one that the author wrote wins. -/
def presetErrors (errors : ChaosErrorConfig) (c : ChaosConfig) : ChaosConfig :=
  if c.errors.isNone then { c with errors := some errors } else c

def chaosPresets (preset : String) : Option (ChaosConfig → ChaosConfig) :=
  if preset = "server-down" then some <| presetErrors
    { rate := 1, statusCode := 503, message := "the server is temporarily unavailable" }
  else if preset = "rate-limited" then some <| presetErrors
    { rate := 1, statusCode := 429, message := "rate limit exceeded" }
  else if preset = "access-denied" then some <| presetErrors
    { rate := 1, statusCode := 403, message := "you do not have access to this resource" }
  else if preset = "unauthorized" then some <| presetErrors
    { rate := 1, statusCode := 401, message := "invalid authentication credentials" }
  else if preset = "flaky" then some <| presetErrors
    { failFirst := 2, statusCode := 503, message := "temporarily overloaded, please retry" }
  else if preset = "slow" then some fun c =>
    if c.latency.isNone then
      { c with latency := some { distribution := "uniform", minMs := 2000, maxMs := 5000 } }
    else c
  else if preset = "connection-reset" then some fun c =>
    if c.connection.isNone then { c with connection := some { mode := "reset", rate := 1 } }
    else c
  else none

/-- `expandChaosPreset`; an unknown preset is left to the validator. -/
def expandChaosPreset (preset : String) (chaos : ChaosConfig) : ChaosConfig :=
  if preset = "" then chaos
  else
    match chaosPresets preset with
    | none => chaos
    | some apply => { apply chaos with enabled := true }

def defaultChunkDelayMs : Int := 50

/-- The streaming section of `ApplyDefaults`. -/
def streamingDefaults (s : StreamingSection) : StreamingSection where
  config := { s.config with chunkSize := fillIn 0 defaultChunkSize s.config.chunkSize }
  chunkDelayMs := fillIn 0 defaultChunkDelayMs s.chunkDelayMs

def applyDefaults (doc : AgentDocument) : AgentDocument :=
  let spec := doc.definition.spec
  { doc with
    streaming := doc.streaming.map streamingDefaults
    definition := { doc.definition with
      spec := { spec with
        model := fillIn "" defaultModel spec.model
        behavior := { spec.behavior with
          chaos := spec.behavior.chaos.map (expandChaosPreset doc.preset) } } } }

/-! ## Filling in twice -/

theorem fillIn_idem {α : Type} [DecidableEq α] {zero default : α} (h : default ≠ zero) (v : α) :
    fillIn zero default (fillIn zero default v) = fillIn zero default v := by
  by_cases hv : v = zero
  · rw [fillIn, fillIn, if_pos hv, if_neg h]
  · have hkeep : fillIn zero default v = v := if_neg hv
    rw [hkeep, hkeep]

theorem presetErrors_idem (e : ChaosErrorConfig) (c : ChaosConfig) (b : Bool) :
    presetErrors e { presetErrors e c with enabled := b } =
      { presetErrors e c with enabled := b } := by
  rw [presetErrors, if_neg]
  rw [presetErrors]
  split
  · simp
  · rename_i h
    exact h

theorem chaosPresets_idem {preset : String} {apply : ChaosConfig → ChaosConfig}
    (h : chaosPresets preset = some apply) (c : ChaosConfig) (b : Bool) :
    apply { apply c with enabled := b } = { apply c with enabled := b } := by
  unfold chaosPresets at h
  -- five presets set the errors, one the latency and one the connection
  iterate 5
    split at h
    · cases h; exact presetErrors_idem _ c b
  split at h
  · cases h
    cases hl : c.latency <;> simp [hl]
  split at h
  · cases h
    cases hc : c.connection <;> simp [hc]
  · cases h

theorem expandChaosPreset_idem (preset : String) (c : ChaosConfig) :
    expandChaosPreset preset (expandChaosPreset preset c) = expandChaosPreset preset c := by
  unfold expandChaosPreset
  split
  · rfl
  · cases h : chaosPresets preset with
    | none => rfl
    | some apply =>
      show ({ apply { apply c with enabled := true } with enabled := true } : ChaosConfig) = _
      rw [chaosPresets_idem h]

theorem streamingDefaults_idem (s : StreamingSection) :
    streamingDefaults (streamingDefaults s) = streamingDefaults s := by
  simp only [streamingDefaults]
  rw [fillIn_idem (by decide), fillIn_idem (by decide)]

/-- Filling in the defaults again changes nothing. -/
theorem applyDefaults_applyDefaults (doc : AgentDocument) :
    applyDefaults (applyDefaults doc) = applyDefaults doc := by
  obtain ⟨apiVersion, kind, ⟨metadata, ⟨protocol, model, prompt, tools, ⟨scenarios, chaos⟩⟩⟩,
    streaming, preset⟩ := doc
  have hstreaming : (streaming.map streamingDefaults).map streamingDefaults =
      streaming.map streamingDefaults := by
    cases streaming with
    | none => rfl
    | some s => exact congrArg some (streamingDefaults_idem s)
  have hchaos : (chaos.map (expandChaosPreset preset)).map (expandChaosPreset preset) =
      chaos.map (expandChaosPreset preset) := by
    cases chaos with
    | none => rfl
    | some c => exact congrArg some (expandChaosPreset_idem preset c)
  have hmodel := fillIn_idem (show defaultModel ≠ "" by decide) model
  simp only [applyDefaults, hmodel, hstreaming, hchaos]

end MockAgents
