import MockAgents.Engine.Engine

/-!
# The outcome of a request

What `ProcessRequestContext` returns, from the agent that the request resolves to: an
unresolved request fails with the error of the resolution; a resolved one returns either
an error or a response of the resolved agent, and never both or neither.
-/

namespace MockAgents

/-- One agent without scenarios. -/
def soleDefs : Definitions := fun _ => { metadata := { name := "bot" } }

namespace Engine

variable {host : Host} (defs : Definitions)

/-- Requests do not change the registry. -/
theorem processRequestContext_registry (e : Engine host) (tenantID : String)
    (req : InboundRequest) (env : RequestEnv host) :
    (e.processRequestContext defs tenantID req env).1.registry = e.registry := by
  unfold processRequestContext
  split
  · rfl
  · split
    · rfl
    · dsimp only
      split
      · rfl
      · split <;> rfl

variable {e : Engine host} {tenantID : String} {req : InboundRequest} {env : RequestEnv host}

theorem processRequestContext_of_error {err : EngineError}
    (h : resolveAgentForTenant defs env.ord e.registry req tenantID = .error err) :
    e.processRequestContext defs tenantID req env = (e, { err := some err }) := by
  simp only [processRequestContext, h]

/-- The callback of a turn fails, or it leaves a response of the agent behind. -/
theorem buildTurn_outcome (e : Engine host) (agent : AgentDefinition) (req : InboundRequest)
    (env : RequestEnv host) (userMsg : String) (imageCount : Int) (turnCount : Nat)
    (vars : Fields) :
    let b := e.buildTurn agent req env userMsg imageCount turnCount vars
    (∃ cause, b.outcome = .error (.generating agent.metadata.name cause)) ∨
      (∃ reply, b.outcome = .ok reply) ∧
        ∃ resp, b.captured.resp = some resp ∧ resp.agentName = agent.metadata.name := by
  simp only [buildTurn]
  split
  · exact .inl ⟨_, rfl⟩
  · rename_i resp hgen
    refine .inr ⟨⟨_, rfl⟩, _, rfl, ?_⟩
    rw [← ResponseGenerator.generate_agentName hgen]
    unfold resolveTools
    split <;> rfl

/-- The response of a turn is the resolved agent's, and it is there unless the turn
    returns an error. -/
theorem serveTurn_outcome (e : Engine host) (p : DefPtr) (agent : AgentDefinition)
    (tenantID : String) (req : InboundRequest) (env : RequestEnv host) (userMsg : String)
    (imageCount : Int) :
    let out := (e.serveTurn p agent tenantID req env userMsg imageCount).2
    (∃ cause, out.err = some (.generating agent.metadata.name cause) ∧ out.resp = none) ∨
      (out.err = none ∧ ∃ resp, out.resp = some resp ∧ resp.agentName = agent.metadata.name) := by
  simp only [serveTurn, Session.applyTurn]
  generalize (e.states.getOrCreate _ _ _ _) = got
  generalize (got.1.heap got.2).appendUserMessage userMsg env.userAt = session
  have hbuilt :=
    e.buildTurn_outcome agent req env userMsg imageCount session.turnCount session.vars
  generalize e.buildTurn agent req env userMsg imageCount session.turnCount session.vars = b
    at hbuilt ⊢
  obtain ⟨outcome, vars, captured⟩ := b
  cases hbuilt with
  | inl herr =>
    obtain ⟨cause, rfl⟩ := herr
    exact .inl ⟨cause, rfl, rfl⟩
  | inr hok =>
    obtain ⟨⟨reply, rfl⟩, resp, hresp, hname⟩ := hok
    exact .inr ⟨rfl, resp, hresp, hname⟩

/-- A resolved request returns either an error, which is not that of the resolution, or a
    response of its agent. -/
theorem processRequestContext_of_ok {p : DefPtr}
    (h : resolveAgentForTenant defs env.ord e.registry req tenantID = .ok p) :
    let out := (e.processRequestContext defs tenantID req env).2
    (∃ err, out.err = some err ∧ out.resp = none ∧
        ∀ identifier available, err ≠ .agentNotFound identifier available) ∨
      (out.err = none ∧ ∃ resp, out.resp = some resp ∧
        resp.agentName = (defs p).metadata.name) := by
  simp only [processRequestContext, h]
  split
  · exact .inl ⟨_, rfl, rfl, by simp⟩
  · split
    · exact .inl ⟨_, rfl, rfl, by simp⟩
    · split
      · exact .inl ⟨_, rfl, rfl, by simp⟩
      · refine (serveTurn_outcome _ p (defs p) tenantID req env _ _).imp_left ?_
        rintro ⟨cause, herr, hresp⟩
        exact ⟨_, herr, hresp, by simp⟩

variable (e tenantID req env)

/-- The request gets to a turn of the agent at `p`. -/
structure ReachesTurn (p : DefPtr) : Prop where
  resolved : resolveAgentForTenant defs env.ord e.registry req tenantID = .ok p
  live : env.ctxErr = none
  admitted : (e.chaos.before (defs p) env.draws).2 = none
  message : ¬ (latestUserMessage req.messages = "" ∧ latestUserImageCount req.messages = 0)

variable {e tenantID req env}

theorem ReachesTurn.processRequestContext {p : DefPtr}
    (h : e.ReachesTurn defs tenantID req env p) :
    e.processRequestContext defs tenantID req env =
      ({ e with chaos := (e.chaos.before (defs p) env.draws).1 }).serveTurn p (defs p) tenantID
        req env (latestUserMessage req.messages) (latestUserImageCount req.messages) := by
  simp only [Engine.processRequestContext, h.resolved, h.live, h.admitted, h.message, if_false]

/-- A request fails before its turn, with an error that is not the generator's, or it is served
    a turn by the agent it resolved to. -/
theorem processRequestContext_cases :
    (∃ agent err, (∀ name cause, err ≠ .generating name cause) ∧
      (e.processRequestContext defs tenantID req env).1.states = e.states ∧
      (e.processRequestContext defs tenantID req env).2 = { agent := agent, err := some err }) ∨
    ∃ p, e.ReachesTurn defs tenantID req env p := by
  unfold processRequestContext
  split
  · rename_i err hres
    unfold resolveAgentForTenant at hres
    grind
  · rename_i p hres
    split
    · exact .inl ⟨_, _, by simp, rfl, rfl⟩
    · dsimp only
      split
      · exact .inl ⟨_, _, by simp, rfl, rfl⟩
      · split
        · exact .inl ⟨_, _, by simp, rfl, rfl⟩
        · exact .inr ⟨p, hres, ‹_›, ‹_›, ‹_›⟩

theorem processRequestContext_of_resp {resp : Response}
    (h : (e.processRequestContext defs tenantID req env).2.resp = some resp) :
    ∃ p chaos, resolveAgentForTenant defs env.ord e.registry req tenantID = .ok p ∧
      e.processRequestContext defs tenantID req env =
        ({ e with chaos := chaos }).serveTurn p (defs p) tenantID req env
          (latestUserMessage req.messages) (latestUserImageCount req.messages) := by
  obtain ⟨_, _, _, _, hfail⟩ | ⟨p, hreach⟩ := processRequestContext_cases defs
  · rw [hfail] at h
    cases h
  · exact ⟨p, _, hreach.resolved, hreach.processRequestContext⟩

theorem resp_eq_none_of_err {err : EngineError}
    (h : (e.processRequestContext defs tenantID req env).2.err = some err) :
    (e.processRequestContext defs tenantID req env).2.resp = none := by
  cases hres : resolveAgentForTenant defs env.ord e.registry req tenantID with
  | error err => rw [processRequestContext_of_error defs hres]
  | ok p =>
    rcases processRequestContext_of_ok defs hres with ⟨_, _, hnone, _⟩ | ⟨hnone, _⟩
    · exact hnone
    · rw [hnone] at h
      cases h

/-- A request without an error has a response. -/
theorem resp_isSome_of_err (h : (e.processRequestContext defs tenantID req env).2.err = none) :
    (e.processRequestContext defs tenantID req env).2.resp.isSome := by
  cases hres : resolveAgentForTenant defs env.ord e.registry req tenantID with
  | error err =>
    rw [processRequestContext_of_error defs hres] at h
    cases h
  | ok p =>
    cases processRequestContext_of_ok defs hres with
    | inl hfail =>
      obtain ⟨err, herr, _⟩ := hfail
      rw [herr] at h
      cases h
    | inr hok =>
      obtain ⟨_, resp, hresp, _⟩ := hok
      rw [hresp]
      rfl

end Engine

end MockAgents
