import MockAgents.Spec.PipelineCalls
import MockAgents.Spec.RequestOutcome
import MockAgents.Spec.Visibility

/-!
# Agents of pipeline nodes

A pipeline node runs the agent that its ref names, as the tenant sees it. A node request
names no model, so the only fallback of the engine's resolution that it can reach is the
one for anonymous callers: if they can see exactly one agent, a node whose ref names no
visible agent runs that one. In all other cases such a node fails with
`ErrAgentNotFound`.
-/

namespace MockAgents

open AgentRegistry

/-- The agent is the only one that anonymous callers can see. -/
def SoleVisible (r : AgentRegistry) (d : DefPtr) : Prop :=
  ∀ d', (∃ n, r.getForTenant n "" = some d') ↔ d' = d

section Resolution

variable (defs : Definitions)

/-- The default of the resolution is the only agent that anonymous callers see. -/
theorem soleVisible_of_resolveDefault {ord : MapOrder} {r : AgentRegistry} {t : String}
    {d : DefPtr} (h : Engine.resolveDefault defs ord r t = some d) :
    t = "" ∧ SoleVisible r d := by
  unfold Engine.resolveDefault at h
  split at h
  · rename_i ht
    split at h
    · rename_i p hlist
      cases h
      refine ⟨ht, fun d' => ?_⟩
      rw [← mem_listForTenant defs ord r "" d', hlist, List.mem_singleton]
    · cases h
  · cases h

/-- The only agent that anonymous callers see is the default of the resolution. -/
theorem resolveDefault_of_soleVisible {ord : MapOrder} {r : AgentRegistry} (hk : Keyed defs r)
    {d : DefPtr} (h : SoleVisible r d) : Engine.resolveDefault defs ord r "" = some d := by
  have hlist : (r.listForTenant defs ord "").Perm [d] := by
    refine (List.perm_ext_iff_of_nodup (nodup_listForTenant defs hk ord "")
      (List.nodup_singleton d)).mpr fun d' => ?_
    rw [mem_listForTenant, List.mem_singleton]
    exact h d'
  rw [Engine.resolveDefault, if_pos rfl, List.perm_singleton.mp hlist]

/-- A node request is resolved by its ref, or else by the anonymous default. -/
theorem resolve_nodeRequest (ord : MapOrder) (r : AgentRegistry) (t : String)
    {node : PipelineAgent} (href : node.ref ≠ "") (pipelineName sessionID input : String) :
    Engine.resolveAgentForTenant defs ord r (nodeRequest pipelineName sessionID node input) t =
      match (r.getForTenant node.ref t).or (Engine.resolveDefault defs ord r t) with
      | some d => .ok d
      | none => .error (.agentNotFound node.ref (r.listNamesForTenant ord t)) := by
  have hname : Engine.resolveByName r (nodeRequest pipelineName sessionID node input) t =
      r.getForTenant node.ref t := if_pos href
  have hmodel : Engine.resolveByModel r (nodeRequest pipelineName sessionID node input) t =
      none := rfl
  unfold Engine.resolveAgentForTenant
  rw [hname, hmodel]
  cases r.getForTenant node.ref t with
  | some d => rfl
  | none =>
    cases Engine.resolveDefault defs ord r t with
    | some d => rfl
    | none => simp [nodeRequest, href]

end Resolution

/-! ## Invocations -/

/-- An agent of this name was asked: it answers, or its request fails with another error than
    that of an agent that is not found. -/
def AskedAgent (name : String) (c : NodeCall) : Prop :=
  (∃ resp, c.result.response = some resp ∧ resp.agentName = name) ∨
    c.result.response = none ∧ ∃ err, c.err = some (.engine err) ∧
      ∀ identifier available, err ≠ .agentNotFound identifier available

/-- The caller is anonymous and can see one agent only. -/
def OnlyAgent (r : AgentRegistry) (tenantID : String) (d : DefPtr) : Prop :=
  tenantID = "" ∧ SoleVisible r d

/-- What a call of a node shows of the agent that ran, by what the node's ref names. -/
structure RunsReferenced (defs : Definitions) (r : AgentRegistry) (tenantID pipelineName : String)
    (c : NodeCall) : Prop where
  node : c.result.nodeID = c.node.id
  missing : c.node.ref = "" →
    c.result.response = none ∧ c.err = some (.missingRef pipelineName c.node.id)
  visible : c.node.ref ≠ "" → (r.getForTenant c.node.ref tenantID).isSome →
    AskedAgent c.node.ref c
  /-- The only agent that an anonymous caller sees stands in for an unknown one. -/
  fallback : c.node.ref ≠ "" → r.getForTenant c.node.ref tenantID = none →
    ∀ d, OnlyAgent r tenantID d → AskedAgent (defs d).metadata.name c
  unknown : c.node.ref ≠ "" → r.getForTenant c.node.ref tenantID = none →
    (∀ d, ¬ OnlyAgent r tenantID d) → c.result.response = none ∧
      ∃ available, c.err = some (.engine (.agentNotFound c.node.ref available))

section Invocation

variable {host : Host} (defs : Definitions) (env : Nat → RequestEnv host)
  (tenantID sessionID : String) (p : PipelineDefinition)

theorem invokeNode_registry (s : ExecState host) (node : PipelineAgent) (input : String) :
    (invokeNode defs env tenantID sessionID p s node input).1.engine.registry =
      s.engine.registry := by
  unfold invokeNode
  split
  · rfl
  · exact Engine.processRequestContext_registry defs _ _ _ _

/-- One invocation, by the way its ref is resolved. -/
theorem invokeNode_agent {s : ExecState host} (hk : Keyed defs s.engine.registry) {c : NodeCall}
    (hc : (invokeNode defs env tenantID sessionID p s c.node c.input).2 = (c.result, c.err)) :
    RunsReferenced defs s.engine.registry tenantID p.metadata.name c := by
  by_cases href : c.node.ref = ""
  · -- no request is made
    simp only [invokeNode, href, if_true] at hc
    obtain ⟨hresult, herr⟩ := Prod.mk.inj hc
    exact ⟨by rw [← hresult], fun _ => ⟨by rw [← hresult], herr.symm⟩,
      fun hne => absurd href hne, fun hne => absurd href hne, fun hne => absurd href hne⟩
  · have hresolve := resolve_nodeRequest defs (env s.requests).ord s.engine.registry tenantID href
      p.metadata.name sessionID c.input
    simp only [invokeNode, href, if_false] at hc
    obtain ⟨hresult, herr⟩ := Prod.mk.inj hc
    have hresp : c.result.response = (s.engine.processRequestContext defs tenantID
        (nodeRequest p.metadata.name sessionID c.node c.input) (env s.requests)).2.resp := by
      rw [← hresult]
    -- whatever agent the ref is resolved to is asked
    have hasked : ∀ d, (s.engine.registry.getForTenant c.node.ref tenantID).or
        (Engine.resolveDefault defs (env s.requests).ord s.engine.registry tenantID) = some d →
        AskedAgent (defs d).metadata.name c := by
      intro d hd
      rw [hd] at hresolve
      rcases Engine.processRequestContext_of_ok defs hresolve with
        ⟨err, herror, hnone, hfound⟩ | ⟨_, resp, hsome, hname⟩
      · rw [herror] at herr
        exact .inr ⟨hresp.trans hnone, err, herr.symm, hfound⟩
      · exact .inl ⟨resp, hresp.trans hsome, hname⟩
    refine ⟨by rw [← hresult], fun heq => absurd heq href, fun _ hvisible => ?_,
      fun _ hnone d hsole => ?_, fun _ hnone hother => ?_⟩
    · obtain ⟨d, hd⟩ := Option.isSome_iff_exists.mp hvisible
      have hasked := hasked d (by rw [hd]; rfl)
      rwa [show (defs d).metadata.name = c.node.ref from name_of_getForTenant defs hk hd] at hasked
    · obtain ⟨rfl, hsole⟩ := hsole
      exact hasked d (by rw [hnone, resolveDefault_of_soleVisible defs hk hsole]; rfl)
    · -- nothing resolves the ref: the request ends with `ErrAgentNotFound`
      have hdefault : Engine.resolveDefault defs (env s.requests).ord s.engine.registry tenantID =
          none := by
        by_contra hne
        obtain ⟨d, hd⟩ := Option.ne_none_iff_exists'.mp hne
        exact hother d (soleVisible_of_resolveDefault defs hd)
      rw [hnone, hdefault] at hresolve
      rw [Engine.processRequestContext_of_error defs hresolve] at hresp herr
      exact ⟨hresp, _, herr.symm⟩

/-- Pipeline nodes run the agents they reference. For every registry, tenant, pipeline and
    topology, each node result of a run is the result of a call of a node of the pipeline.
    A node without a ref fails; a ref that names a visible agent is answered by it; and one that
    names none yields `ErrAgentNotFound` and no response, unless the caller is anonymous and
    exactly one agent is visible, which is then asked. -/
theorem nodes_run_referenced_agent (ops : List AgentRegistry.Op) (ord : MapOrder)
    (engine : Engine host) (hreg : engine.registry = newAgentRegistry.run defs ops)
    (userMsg : String) :
    let out := executePipeline defs env ord tenantID engine (some p) userMsg sessionID
    (∀ res, out.result = some res → ∀ nr ∈ res.nodes, ∃ c ∈ out.calls, c.result = nr) ∧
      ∀ c ∈ out.calls, c.node ∈ p.spec.agents ∧
        RunsReferenced defs engine.registry tenantID p.metadata.name c := by
  refine ⟨fun res hres => runContext_nodes p ord _ userMsg hres, fun c hc => ?_⟩
  have hk : Keyed defs engine.registry :=
    hreg ▸ ((indexed_newAgentRegistry defs).run defs ops).keyed
  obtain ⟨hnode, s, hs, hcall⟩ :=
    runContext_calls (I := fun s : ExecState host => s.engine.registry = engine.registry)
      (fun s node input hs => (invokeNode_registry defs env tenantID sessionID p s node input).trans
        hs) ord rfl userMsg c hc
  rw [← hs] at hk
  exact ⟨hnode, hs ▸ invokeNode_agent defs env tenantID sessionID p hk hcall⟩

end Invocation

/-! ## The anonymous fallback -/

def soleEngine : Engine plainHost :=
  { Engine.start plainHost 60 with
    registry := newAgentRegistry.run soleDefs [.register (some 0) .stored] }

/-- A node whose ref names no agent. -/
def strayPipeline : PipelineDefinition where
  metadata := { name := "p" }
  spec := {
    topology := topologySequential
    agents := [⟨"n", "ghost"⟩] }

/-- For an anonymous caller the sole agent answers in the place of `ghost`. -/
theorem strayNode_runs_sole :
    soleEngine.registry.getForTenant "ghost" "" = none ∧
      (executePipeline soleDefs (fun _ => plainEnv) .stored "" soleEngine (some strayPipeline)
        "hi" "s").err.isNone ∧
      ((executePipeline soleDefs (fun _ => plainEnv) .stored "" soleEngine (some strayPipeline)
        "hi" "s").result.map fun res => res.nodes.map fun nr =>
          (nr.nodeID, nr.response.map Response.agentName)) = some [("n", some "bot")] := by
  exact ⟨by decide, by decide, by decide⟩

/-- The same node fails for a tenant. -/
theorem nodes_run_referenced_agent_stray :
    ∃ c ∈ (executePipeline soleDefs (fun _ => plainEnv) .stored "acme" soleEngine
        (some strayPipeline) "hi" "s").calls,
      c.result.response = none ∧
        ∃ available, c.err = some (.engine (.agentNotFound "ghost" available)) := by
  have hcalls : 0 < (executePipeline soleDefs (fun _ => plainEnv) .stored "acme" soleEngine
      (some strayPipeline) "hi" "s").calls.length := by decide
  obtain ⟨c, hc⟩ := List.exists_mem_of_length_pos hcalls
  obtain ⟨hnode, hruns⟩ := (nodes_run_referenced_agent soleDefs (fun _ => plainEnv) "acme" "s"
    strayPipeline [.register (some 0) .stored] .stored soleEngine rfl "hi").2 c hc
  have href : c.node.ref = "ghost" := by rw [List.mem_singleton.mp hnode]
  obtain ⟨hnone, herr⟩ := hruns.unknown (by rw [href]; decide) (by rw [href]; decide)
    fun _ honly => absurd honly.1 (by decide)
  rw [href] at herr
  exact ⟨c, hc, hnone, herr⟩

end MockAgents
