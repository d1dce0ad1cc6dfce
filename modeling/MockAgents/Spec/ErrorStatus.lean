import MockAgents.Adapter.Gemini
import MockAgents.Adapter.Responses
import MockAgents.Spec.FailedTurns

/-!
# The HTTP status of engine errors

The provider handlers look for `not found` and `empty` in the text of an engine error, while
`POST /v1/engines/process` asks which error it is. The texts of `ErrAgentNotFound` and
`ErrEmptyMessage` begin with these words. Other texts may hold them too: that of the context's
error, and that of a response that could not be generated, which quotes the names of the agent
and of the scenario.
-/

namespace MockAgents

def HttpAnswer.status {α : Type} : HttpAnswer α → Option Int
  | .error status .. => some status
  | _ => none

/-- The handlers take the text for one of another error. -/
def misleads (text : String) : Bool := hasSubstr text "not found" || hasSubstr text "empty"

/-- The text of a response that could not be generated. -/
def generatingText (quote : String → String) (agent scenario : String) (cause : RenderError) :
    String :=
  "generating response for agent " ++ quote agent ++ ": rendering scenario " ++ quote scenario ++
    " content: " ++ cause.text

/-- The error has another status in the handlers than its own. -/
def EngineError.Misread (quote : String → String) : EngineError → Prop
  | .context message => misleads message = true
  | .generating agent err => misleads (generatingText quote agent err.scenario err.cause) = true
  | _ => False

theorem hasSubstr_append {s sub : String} (h : hasSubstr s sub = true) (t : String) :
    hasSubstr (s ++ t) sub = true := by
  simp only [hasSubstr, decide_eq_true_eq, String.toList_append] at h ⊢
  exact h.trans (List.prefix_append _ _).isInfix

variable {α : Type} (quote : String → String) (w : ResponseWriter)

theorem status_writeErrorText (text : String) :
    (writeErrorText text : HttpAnswer α).status = some 500 ↔ misleads text = false := by
  simp only [writeErrorText, writeError, HttpAnswer.status, misleads]
  split
  · simp [*]
  · split <;> simp [*]

theorem status_handlers {err : EngineError} (hchaos : ∀ ce, err ≠ .chaos ce) :
    (writeAnthropicEngineError quote w err : HttpAnswer α).status =
        (writeEngineError quote w err : HttpAnswer α).status ∧
      (writeGeminiEngineError quote w err : HttpAnswer α).status =
        (writeEngineError quote w err : HttpAnswer α).status := by
  cases err with
  | chaos ce => exact absurd rfl (hchaos ce)
  | _ => exact ⟨rfl, rfl⟩

theorem status_writeEngineError {err : EngineError} (hchaos : ∀ ce, err ≠ .chaos ce) :
    (writeEngineError quote w err : HttpAnswer α).status = some (processErrorStatus err) ↔
      ¬ err.Misread quote := by
  cases err with
  | chaos ce => exact absurd rfl (hchaos ce)
  | agentNotFound identifier available =>
    -- the text begins with that of `ErrAgentNotFound`
    have hfound : hasSubstr "agent not found: " "not found" = true := by decide
    simp [writeEngineError, writeErrorText, String.append_assoc, hasSubstr_append hfound,
      writeError, HttpAnswer.status, processErrorStatus, EngineError.Misread]
  | emptyMessage =>
    have hstatus : (writeErrorText "empty user message" : HttpAnswer α).status = some 400 := by
      simp only [writeErrorText, writeError, HttpAnswer.status]
      decide
    exact iff_of_true hstatus id
  | context message =>
    exact (status_writeErrorText message).trans (Bool.not_eq_true _).symm.to_iff
  | generating agent err =>
    exact (status_writeErrorText _).trans (Bool.not_eq_true _).symm.to_iff

namespace Engine

variable {host : Host} (defs : Definitions) (e : Engine host) (tenantID : String)
  (req : InboundRequest) (env : RequestEnv host)

/-- What the handlers of OpenAI and the Responses API, of Anthropic and of Gemini answer to the
    error of a request, if it is no injected fault, has the status of
    `POST /v1/engines/process`. -/
def ErrorsMapped : Prop :=
  ∀ err, (e.processRequestContext defs tenantID req env).2.err = some err →
    (∀ ce, err ≠ .chaos ce) → ∀ α : Type,
    (writeEngineError quote w err : HttpAnswer α).status = some (processErrorStatus err) ∧
    (writeAnthropicEngineError quote w err : HttpAnswer α).status =
      some (processErrorStatus err) ∧
    (writeGeminiEngineError quote w err : HttpAnswer α).status = some (processErrorStatus err)

variable {quote w defs e tenantID req env}

/-- An error of the generator names the scenario that the turn selected. -/
theorem scenario_of_generated {p : DefPtr} {err : GenerateError}
    (h : e.generated defs tenantID req env p = .error err) :
    err.scenario = (e.turn defs tenantID req env p).captured.input.scenario.name := by
  simp only [generated, ResponseGenerator.generate] at h
  split at h
  · cases h
    rfl
  · cases h

/-- The errors whose texts come from the inputs of the request. -/
theorem misread_cases {err : EngineError}
    (h : (e.processRequestContext defs tenantID req env).2.err = some err)
    (hmisread : err.Misread quote) :
    (∃ p message, resolveAgentForTenant defs env.ord e.registry req tenantID = .ok p ∧
      env.ctxErr = some message ∧ err = .context message) ∨
    ∃ p cause, e.ReachesTurn defs tenantID req env p ∧
      e.generated defs tenantID req env p = .error cause ∧
      err = .generating (defs p).metadata.name cause := by
  by_cases hreach : ∃ p, e.ReachesTurn defs tenantID req env p
  · obtain ⟨p, hreach⟩ := hreach
    rw [hreach.processRequestContext] at h
    cases hgen : e.generated defs tenantID req env p with
    | ok resp =>
      rw [serveTurn_of_ok hgen] at h
      cases h
    | error cause =>
      rw [serveTurn_of_error hgen] at h
      exact .inr ⟨p, cause, hreach, hgen, (Option.some.inj h).symm⟩
  · -- the other errors have texts of their own
    unfold processRequestContext at h
    split at h
    · rename_i hres
      unfold resolveAgentForTenant at hres
      grind [EngineError.Misread]
    · rename_i p hres
      split at h
      · cases h
        exact .inl ⟨p, _, hres, ‹_›, rfl⟩
      · dsimp only at h
        split at h
        · cases h
          exact hmisread.elim
        · split at h
          · cases h
            exact hmisread.elim
          · exact absurd ⟨p, hres, ‹_›, ‹_›, ‹_›⟩ hreach

/-- The handlers are right unless a text misleads them: that of the context's error, or the one
    made of the names of the agent and the scenario and the error of the template. -/
theorem errorsMapped_iff :
    e.ErrorsMapped quote w defs tenantID req env ↔
      (∀ p message, resolveAgentForTenant defs env.ord e.registry req tenantID = .ok p →
        env.ctxErr = some message → misleads message = false) ∧
      ∀ p cause, e.ReachesTurn defs tenantID req env p →
        e.generated defs tenantID req env p = .error cause →
        misleads (generatingText quote (defs p).metadata.name
          (e.turn defs tenantID req env p).captured.input.scenario.name cause.cause) = false := by
  constructor
  · intro h
    -- each of the two errors is returned, and is not misread
    have hnot : ∀ err, (e.processRequestContext defs tenantID req env).2.err = some err →
        (∀ ce, err ≠ .chaos ce) → ¬ err.Misread quote := fun err herr hchaos =>
      (status_writeEngineError quote w hchaos).mp (h err herr hchaos Unit).1
    constructor
    · intro p message hres hctx
      have herr : (e.processRequestContext defs tenantID req env).2.err =
          some (.context message) := by simp only [processRequestContext, hres, hctx]
      exact Bool.eq_false_iff.mpr (hnot _ herr (by simp))
    · intro p cause hreach hgen
      have herr : (e.processRequestContext defs tenantID req env).2.err =
          some (.generating (defs p).metadata.name cause) := by
        rw [hreach.processRequestContext, serveTurn_of_error hgen]
      rw [← scenario_of_generated hgen]
      exact Bool.eq_false_iff.mpr (hnot _ herr (by simp))
  · rintro ⟨hctx, hgen⟩ err herr hchaos α
    have hread : ¬ err.Misread quote := by
      intro hmisread
      rcases misread_cases herr hmisread with
        ⟨p, message, hres, hmessage, rfl⟩ | ⟨p, cause, hreach, hcause, rfl⟩
      · exact Bool.eq_false_iff.mp (hctx p message hres hmessage) hmisread
      · have hfalse := hgen p cause hreach hcause
        rw [← scenario_of_generated hcause] at hfalse
        exact Bool.eq_false_iff.mp hfalse hmisread
    have hstatus := (status_writeEngineError (α := α) quote w hchaos).mpr hread
    obtain ⟨hanthropic, hgemini⟩ := status_handlers (α := α) quote w hchaos
    exact ⟨hstatus, hanthropic.trans hstatus, hgemini.trans hstatus⟩

/-! ## The handlers -/

variable (defs e)

/-- The chat handler answers an error of the engine with `writeEngineError`. -/
theorem handleChatCompletions_of_err (lib : ChatLib) {call : ChatCall host}
    {body : ChatCompletionRequest} (hbody : call.body = .ok body) (hmodel : body.model ≠ "")
    (hmessages : body.messages ≠ []) {err : EngineError}
    (h : (e.processRequestContext defs call.tenantID
      { model := body.model
        sessionID := extractSessionID call.sessionHeader call.newSession
        messages := (convertOpenAIMessages body.messages).1 } call.env).2.err = some err) :
    (e.handleChatCompletions lib defs call).2 = writeEngineError lib.quote call.writer err := by
  simp only [handleChatCompletions, hbody, hmodel, hmessages, if_false,
    resp_eq_none_of_err defs h, h, Option.map_some, Option.getD_some]

@[inherit_doc handleChatCompletions_of_err]
theorem handleGenerate_of_err (lib : ChatLib) (toUpper : String → String)
    {call : GeminiCall host} {model method : String} {body : GeminiRequest}
    (hpath : cutColon call.modelMethod = some (model, method)) (hmodel : model ≠ "")
    (hbody : call.body = .ok body) (hcontents : body.contents.isEmpty = false)
    {err : EngineError}
    (h : (e.processRequestContext defs call.tenantID
      { model := model
        sessionID := extractSessionID call.sessionHeader call.newSession
        messages := convertGeminiContents body.contents body.systemInstruction }
      call.env).2.err = some err) :
    (e.handleGenerate lib toUpper defs call).2 =
      writeGeminiEngineError lib.quote call.writer err := by
  simp only [handleGenerate, hpath, hbody, hmodel, hcontents, if_false, Bool.false_eq_true,
    resp_eq_none_of_err defs h, h, Option.map_some, Option.getD_some]

/-- A template that does not parse, in a scenario called `empty`, is answered with 400. -/
theorem emptyScenario_not_errorsMapped :
    let e : Engine plainHost := { Engine.start plainHost 60 with
      registry := AgentRegistry.newAgentRegistry.register templateDefs .stored (some 0) }
    ¬ e.ErrorsMapped (fun s => "\"" ++ s ++ "\"") http1 templateDefs ""
      { messages := [{ role := "user", content := "hi" }] } plainEnv := by
  intro e h
  have hstatus := (h (.generating "bot" ⟨"empty", .parsing "templates are not supported"⟩)
    (by decide) (by simp) Unit).1
  revert hstatus
  decide +kernel

end Engine

/-- The handler of the Responses API answers an error of the engine with `writeEngineError`. -/
theorem ResponsesHandler.handleResponses_of_err {host : Host} (lib : AdapterLib)
    (defs : Definitions) (h : ResponsesHandler host) {call : ResponsesCall host}
    {body : ResponsesRequest} (hbody : call.body = .ok body) {messages : List RequestMessage}
    (hmessages : assembleMessages h.store body = .ok messages) {err : EngineError}
    (herr : (h.engine.processRequestContext defs call.tenantID (inbound call body messages)
      call.env).2.err = some err) :
    (h.handleResponses lib defs call).2.answer = writeEngineError lib.quote call.writer err := by
  simp only [handleResponses, hbody, hmessages, Engine.resp_eq_none_of_err defs herr, herr,
    Option.map_some, Option.getD_some]

end MockAgents
