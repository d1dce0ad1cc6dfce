import MockAgents.Spec.GraphExecution
import MockAgents.Spec.PipelineValidation
import MockAgents.Spec.RequestOutcome

/-!
# The validator and the executor agree

An accepted pipeline never fails for a structural reason: whatever error a run returns,
the engine returned it for one of the nodes. Conversely, the executor refuses a graph as
cyclic exactly if the validator reports a cycle, although the one peels nodes and the
other searches depth-first.
-/

namespace MockAgents

open Relation

/-! ## Errors of a run -/

theorem runContext_err {σ : Type} {invoke : PipelineDefinition → Invoke σ}
    {p : PipelineDefinition} (hp : WellFormed p) (ord : MapOrder) (state : σ) (userMsg : String)
    {err : RunError} (h : (runContext invoke ord state (some p) userMsg).err = some err) :
    let calls := (runContext invoke ord state (some p) userMsg).calls
    if p.spec.topology = topologyParallel then
      ∃ errs, err = .joined errs ∧ errs ≠ [] ∧ ∀ x ∈ errs, ∃ c ∈ calls, c.err = some x
    else ∃ c ∈ calls, c.err = some err := by
  have hagents : ¬ p.spec.agents.length = 0 := fun h => hp.agents (List.length_eq_zero_iff.mp h)
  have htop : p.spec.topology = topologySequential ∨ p.spec.topology = topologyParallel ∨
      p.spec.topology = topologyGraph := by
    simpa [validPipelineTopologies] using hp.topology
  simp only [runContext, hagents, if_false] at h ⊢
  obtain htop | htop | htop := htop
  · simp only [htop, true_or, if_true] at h ⊢
    exact runSequential_err _ _ _ h
  · rw [htop] at h ⊢
    exact runParallel_err ord _ _ _ h
  · rw [htop] at h ⊢
    exact (runGraph_spec hp.declared (hp.acyclic htop) _ ord _ state userMsg).2.1 err h

section Executor

variable {host : Host} (defs : Definitions) (env : Nat → RequestEnv host)
  (tenantID sessionID : String) (p : PipelineDefinition)

theorem invokeNode_err {s : ExecState host} {node : PipelineAgent} {input : String}
    (href : node.ref ≠ "") {err : RunError}
    (h : (invokeNode defs env tenantID sessionID p s node input).2.2 = some err) :
    ∃ e, err = .engine e ∧ (s.engine.processRequestContext defs tenantID
      (nodeRequest p.metadata.name sessionID node input) (env s.requests)).2.err = some e := by
  simp only [invokeNode, href, if_false] at h
  split at h
  · rename_i e he
    cases h
    exact ⟨e, rfl, he⟩
  · rename_i hnone
    -- without an error there is a response, so it cannot be missing
    have hsome := Engine.resp_isSome_of_err defs hnone
    split at h
    · rename_i hmissing
      rw [Option.isNone_iff_eq_none.mp hmissing] at hsome
      cases hsome
    · cases h

/-- An invocation never reports a cycle. -/
theorem invokeNode_ne_cycle (s : ExecState host) (node : PipelineAgent) (input : String)
    (nodes : List String) :
    (invokeNode defs env tenantID sessionID p s node input).2.2 ≠ some (.cycle nodes) := by
  intro h
  by_cases href : node.ref = ""
  · simp only [invokeNode, href, if_true] at h
    cases h
  · obtain ⟨e, he, _⟩ := invokeNode_err defs env tenantID sessionID p href h
    cases he

/-- `ProcessRequestContext` returned this error for one of the calls. -/
def EngineFailure (calls : List NodeCall) (err : RunError) : Prop :=
  ∃ c ∈ calls, c.node ∈ p.spec.agents ∧ c.err = some err ∧
    ∃ (s : ExecState host) (e : EngineError), err = .engine e ∧
      (s.engine.processRequestContext defs tenantID
        (nodeRequest p.metadata.name sessionID c.node c.input) (env s.requests)).2.err = some e

theorem engineFailure_of_call {p : PipelineDefinition} (hp : WellFormed p) {ord : MapOrder}
    {engine : Engine host} {userMsg : String} {c : NodeCall} {err : RunError}
    (hc : c ∈ (executePipeline defs env ord tenantID engine (some p) userMsg sessionID).calls)
    (herr : c.err = some err) :
    EngineFailure defs env tenantID sessionID p
      (executePipeline defs env ord tenantID engine (some p) userMsg sessionID).calls err := by
  obtain ⟨hnode, s, _, hcall⟩ :=
    runContext_calls (I := fun _ => True) (fun _ _ _ _ => trivial) ord trivial userMsg c hc
  have hinvoke : (invokeNode defs env tenantID sessionID p s c.node c.input).2.2 = some err := by
    rw [hcall]
    exact herr
  exact ⟨c, hc, hnode, herr, s,
    invokeNode_err defs env tenantID sessionID p (hp.referenced c.node hnode) hinvoke⟩

/-- The executor refuses a graph exactly if the validator reports a cycle, and then it
    has not invoked any node. -/
theorem runGraph_cycle_iff {p : PipelineDefinition} (htop : p.spec.topology = topologyGraph)
    (hnamed : ∀ a ∈ p.spec.agents, a.id ≠ "") (hdecl : Declared p.spec.agents p.spec.edges)
    (ord ord' : MapOrder) (ctx : ValidationContext) (state : ExecState host)
    (userMsg : String) :
    let run := runGraph (invokeNode defs env tenantID sessionID p) ord p.metadata.name
      p.spec.agents p.spec.edges ⟨state, []⟩ userMsg
    ((∃ nodes, run.2 = some (.cycle nodes)) ↔
        ReportsCycle ctx (validatePipelineGraph ord' ctx p)) ∧
      (ReportsCycle ctx (validatePipelineGraph ord' ctx p) → run.1 = ⟨state, []⟩) := by
  intro run
  rw [validatePipelineGraph_reportsCycle ord' ctx htop, namedIDs_eq hnamed]
  by_cases hacyclic : NoCycle (Arc (nodeIDs p.spec.agents) p.spec.edges)
  · refine ⟨⟨fun ⟨nodes, hcycle⟩ => ?_, fun h => absurd hacyclic h⟩, fun h => absurd hacyclic h⟩
    -- the error would be that of a call
    obtain ⟨c, hc, herr⟩ :=
      (runGraph_spec hdecl hacyclic _ ord p.metadata.name state userMsg).2.1 _ hcycle
    obtain ⟨_, s, _, hcall⟩ := runGraph_calls _ ord p.metadata.name _ _ state userMsg c hc
    refine absurd ?_ (invokeNode_ne_cycle defs env tenantID sessionID p s c.node c.input nodes)
    rw [hcall]
    exact herr
  · cases hnodes : cyclicNodes ord p.spec.agents (graphMaps p.spec.agents p.spec.edges).outgoing
        (graphMaps p.spec.agents p.spec.edges).indegree with
    | nil => exact absurd ((cyclicNodes_eq_nil_iff ord _ _).mp hnodes) hacyclic
    | cons id rest =>
      -- Kahn's algorithm leaves nodes over, and the walk is not started
      have hrun : run = (⟨state, []⟩, some (.cycle (id :: rest))) := by
        simp only [run, runGraph, hnodes]
      rw [hrun]
      exact ⟨⟨fun _ => hacyclic, fun _ => ⟨_, rfl⟩⟩, fun _ => rfl⟩

/-- The validator and the executor agree. A run of an accepted pipeline fails only with
    an error that the engine returned for a node (in a parallel run, the join of such
    errors), so never because of missing agents or refs, an unknown topology or node, or
    a cycle. And on a graph with named nodes and declared edges, the executor returns the
    cycle error exactly if the validator reports a cycle, before it invokes any node. -/
theorem validator_executor_agree (ord ord' : MapOrder) (userMsg : String) :
    (∀ file lineColOf quote, validatePipeline ord' file lineColOf quote p = none →
      ∀ (engine : Engine host) err,
        (executePipeline defs env ord tenantID engine (some p) userMsg sessionID).err = some err →
        let calls := (executePipeline defs env ord tenantID engine (some p) userMsg sessionID).calls
        if p.spec.topology = topologyParallel then
          ∃ errs, err = .joined errs ∧ errs ≠ [] ∧
            ∀ x ∈ errs, EngineFailure defs env tenantID sessionID p calls x
        else EngineFailure defs env tenantID sessionID p calls err) ∧
      (p.spec.topology = topologyGraph → (∀ a ∈ p.spec.agents, a.id ≠ "") →
        Declared p.spec.agents p.spec.edges → ∀ (ctx : ValidationContext) (state : ExecState host),
        let run := runGraph (invokeNode defs env tenantID sessionID p) ord p.metadata.name
          p.spec.agents p.spec.edges ⟨state, []⟩ userMsg
        ((∃ nodes, run.2 = some (.cycle nodes)) ↔
            ReportsCycle ctx (validatePipelineGraph ord' ctx p)) ∧
          (ReportsCycle ctx (validatePipelineGraph ord' ctx p) → run.1 = ⟨state, []⟩)) := by
  refine ⟨fun file lineColOf quote haccepted engine err herr => ?_,
    fun htop hnamed hdecl ctx state =>
      runGraph_cycle_iff defs env tenantID sessionID htop hnamed hdecl ord ord' ctx state userMsg⟩
  have hp := wellFormed_of_accepted haccepted
  have hcalls := runContext_err hp ord _ userMsg herr
  dsimp only at hcalls ⊢
  split
  · rename_i htop
    rw [if_pos htop] at hcalls
    obtain ⟨errs, hjoined, hne, hall⟩ := hcalls
    refine ⟨errs, hjoined, hne, fun x hx => ?_⟩
    obtain ⟨c, hc, hcx⟩ := hall x hx
    exact engineFailure_of_call defs env tenantID sessionID hp hc hcx
  · rename_i htop
    rw [if_neg htop] at hcalls
    obtain ⟨c, hc, hcx⟩ := hcalls
    exact engineFailure_of_call defs env tenantID sessionID hp hc hcx

end Executor

/-- Two nodes in a row. -/
def linePipeline : PipelineDefinition where
  metadata := { name := "line" }
  spec := {
    topology := topologyGraph
    agents := [⟨"a", "bot"⟩, ⟨"b", "bot"⟩]
    edges := [⟨"a", "b", ""⟩] }

/-- Two nodes in a circle. -/
def loopPipeline : PipelineDefinition where
  metadata := { name := "loop" }
  spec := {
    topology := topologyGraph
    agents := [⟨"a", "bot"⟩, ⟨"b", "bot"⟩]
    edges := [⟨"a", "b", ""⟩, ⟨"b", "a", "x"⟩] }

/-- One agent, which the runs below do not register. -/
def botDefs : Definitions := fun _ => { metadata := { name := "bot" } }

theorem validator_executor_agree_lineAndLoop :
    EngineFailure botDefs (fun _ => plainEnv) "" "s" linePipeline
        (executePipeline botDefs (fun _ => plainEnv) .stored "" (.start plainHost 60)
          (some linePipeline) "hi" "s").calls (.engine (.agentNotFound "bot" [])) ∧
      ReportsCycle ⟨"loop.yaml", fun _ => (0, 0), fun s => s, []⟩
        (validatePipelineGraph .stored ⟨"loop.yaml", fun _ => (0, 0), fun s => s, []⟩
          loopPipeline) := by
  have hline := (validator_executor_agree botDefs (fun _ => plainEnv) "" "s"
    linePipeline .stored .stored "hi").1 "line.yaml" (fun _ => (0, 0)) (fun s => s) (by decide)
    (.start plainHost 60) (.engine (.agentNotFound "bot" [])) rfl
  have hloop := (validator_executor_agree botDefs (fun _ => plainEnv) "" "s"
    loopPipeline .stored .stored "hi").2 rfl (by decide) (by unfold Declared; decide)
    ⟨"loop.yaml", fun _ => (0, 0), fun s => s, []⟩ ⟨.start plainHost 60, 0⟩
  exact ⟨hline, hloop.1.mp ⟨["a", "b"], rfl⟩⟩

end MockAgents
