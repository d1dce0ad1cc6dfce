import MockAgents.Spec.CycleSearch

/-!
# Accepted pipelines

What `ValidatePipeline` guarantees about a document that it accepts. Errors are only
ever added, so a context that is clean at the end was clean at every check, and every
check passed.
-/

namespace MockAgents

open Relation

/-- No error so far. -/
def ValidationContext.Clean (ctx : ValidationContext) : Prop := ctx.errors = []

@[simp] theorem ValidationContext.clean_addError (ctx : ValidationContext)
    (field message suggestion : String) :
    ¬ (ctx.addError field message suggestion).Clean := by
  simp [Clean, addError]

@[simp] theorem ValidationContext.clean_addErrorIf (ctx : ValidationContext) (cond : Bool)
    (field message suggestion : String) :
    (ctx.addErrorIf cond field message suggestion).Clean ↔ ctx.Clean ∧ cond = false := by
  cases cond with
  | true => simp [addErrorIf]
  | false => simp [addErrorIf]

theorem ValidationContext.errors_addErrorIf (ctx : ValidationContext) (cond : Bool)
    (field message suggestion : String) :
    (ctx.addErrorIf cond field message suggestion).errors =
      ctx.errors ++ if cond then [ctx.mkError field message suggestion] else [] := by
  cases cond with
  | true => rfl
  | false => exact (List.append_nil _).symm

open ValidationContext (Clean clean_addError clean_addErrorIf errors_addErrorIf)

/-- What the executor relies on. -/
structure WellFormed (p : PipelineDefinition) : Prop where
  name : matchesMetadataName p.metadata.name = true
  topology : p.spec.topology ∈ validPipelineTopologies
  agents : p.spec.agents ≠ []
  named : ∀ a ∈ p.spec.agents, a.id ≠ ""
  referenced : ∀ a ∈ p.spec.agents, a.ref ≠ ""
  unique : (nodeIDs p.spec.agents).Nodup
  declared : ∀ e ∈ p.spec.edges,
    e.src ∈ nodeIDs p.spec.agents ∧ e.dst ∈ nodeIDs p.spec.agents
  noLoop : ∀ e ∈ p.spec.edges, e.src ≠ e.dst
  acyclic : p.spec.topology = topologyGraph →
    NoCycle (Arc (nodeIDs p.spec.agents) p.spec.edges)

/-! ## The field checks -/

variable {ctx : ValidationContext} {p : PipelineDefinition}

theorem clean_of_validatePipelineMetadata (h : (validatePipelineMetadata ctx p).Clean) :
    ctx.Clean ∧ matchesMetadataName p.metadata.name = true := by
  unfold validatePipelineMetadata at h
  dsimp only at h
  split at h
  · exact absurd h (ctx.clean_addError _ _ _)
  · simp only [clean_addErrorIf, Bool.not_eq_false'] at h
    exact ⟨h.1.1, h.2⟩

theorem clean_of_validateTopology {topology : String} (h : (validateTopology ctx topology).Clean) :
    ctx.Clean ∧ topology ∈ validPipelineTopologies := by
  unfold validateTopology at h
  split at h
  · exact absurd h (ctx.clean_addError _ _ _)
  · simpa only [clean_addErrorIf, decide_eq_false_iff_not, not_not] using h

variable {seen : GoMap String Nat}

/-- The loop over the nodes: ids and refs are there, ids are new, and the ids seen at the
    end are those seen before and those of the nodes. -/
theorem clean_of_validateAgents (agents : List (PipelineAgent × Nat))
    (h : (validateAgents ctx seen agents).1.Clean) :
    ctx.Clean ∧ (∀ a ∈ agents, a.1.id ≠ "" ∧ a.1.ref ≠ "" ∧ (seen.lookup a.1.id).isNone) ∧
      (agents.map fun a => a.1.id).Nodup ∧
      ∀ id, ((validateAgents ctx seen agents).2.lookup id).isSome ↔
        (seen.lookup id).isSome ∨ id ∈ agents.map fun a => a.1.id := by
  induction agents generalizing ctx seen with
  | nil =>
    refine ⟨h, nofun, List.nodup_nil, fun id => ?_⟩
    simp [validateAgents]
  | cons a agents ih =>
    obtain ⟨a, i⟩ := a
    by_cases hid : a.id = ""
    · -- an empty id is an error
      simp only [validateAgents, hid, if_true] at h
      exact absurd (ih h).1 (ctx.clean_addError _ _ _)
    · cases hseen : seen.lookup a.id with
      | some prev =>
        -- so is one that was seen before
        simp only [validateAgents, hid, if_false, hseen] at h
        exact absurd (ih h).1 (clean_addError _ _ _ _)
      | none =>
        have hloop : validateAgents ctx seen ((a, i) :: agents) =
            validateAgents (ctx.addErrorIf (a.ref = "") ("spec.agents[" ++ toString i ++ "]" ++
              ".ref") "required field missing"
              "Every pipeline node needs a ref pointing at a loaded agent's metadata.name.")
              (seen.insert a.id i) agents := by
          simp [validateAgents, hid, hseen]
        rw [hloop] at h ⊢
        obtain ⟨hclean, hall, hnodup, hdom⟩ := ih h
        simp only [clean_addErrorIf, decide_eq_false_iff_not] at hclean
        -- a later node has another id, as it is not among those seen up to here
        have hother : ∀ b ∈ agents, b.1.id ≠ a.id ∧ (seen.lookup b.1.id).isNone := by
          intro b hb
          have hnone := (hall b hb).2.2
          rw [GoMap.lookup_insert_eq] at hnone
          split at hnone
          · cases hnone
          · rename_i hne
            exact ⟨hne, hnone⟩
        refine ⟨hclean.1, fun b hb => ?_, ?_, fun id => ?_⟩
        · cases List.mem_cons.mp hb with
          | inl heq =>
            subst heq
            exact ⟨hid, hclean.2, by rw [hseen]; rfl⟩
          | inr htl => exact ⟨(hall b htl).1, (hall b htl).2.1, (hother b htl).2⟩
        · refine List.nodup_cons.mpr ⟨fun hmem => ?_, hnodup⟩
          obtain ⟨b, hb, heq⟩ := List.mem_map.mp hmem
          exact (hother b hb).1 heq
        · rw [hdom, GoMap.lookup_insert_eq, List.map_cons]
          by_cases heq : id = a.id
          · simp [heq]
          · simp [heq]

theorem clean_of_validateEndpoint {field label id : String}
    (h : (validateEndpoint ctx seen field label id).Clean) :
    ctx.Clean ∧ id ≠ "" ∧ (seen.lookup id).isSome := by
  unfold validateEndpoint at h
  split at h
  · exact absurd h (ctx.clean_addError _ _ _)
  · rename_i hid
    simp only [clean_addErrorIf, Option.isNone_eq_false_iff] at h
    exact ⟨h.1, hid, h.2⟩

/-- The checks of one edge. -/
private theorem clean_of_edgeChecks {e : PipelineEdge} {cond : Bool}
    {field field₁ message₁ suggestion₁ field₂ message₂ suggestion₂ : String}
    (h : (((validateEndpoint (validateEndpoint ctx seen field "from" e.src) seen field "to"
      e.dst).addErrorIf (e.src ≠ "" ∧ e.src = e.dst) field₁ message₁ suggestion₁).addErrorIf cond
      field₂ message₂ suggestion₂).Clean) :
    ctx.Clean ∧ (seen.lookup e.src).isSome ∧ (seen.lookup e.dst).isSome ∧ e.src ≠ e.dst := by
  simp only [clean_addErrorIf, decide_eq_false_iff_not, not_and] at h
  obtain ⟨hclean₁, _, hdst⟩ := clean_of_validateEndpoint h.1.1
  obtain ⟨hclean, hname, hsrc⟩ := clean_of_validateEndpoint hclean₁
  exact ⟨hclean, hsrc, hdst, h.1.2 hname⟩

theorem clean_of_validateEdges (edges : List (PipelineEdge × Nat)) {seenEdges : GoMap EdgeKey Nat}
    (h : (validateEdges ctx seen seenEdges edges).Clean) :
    ctx.Clean ∧ ∀ e ∈ edges, (seen.lookup e.1.src).isSome ∧ (seen.lookup e.1.dst).isSome ∧
      e.1.src ≠ e.1.dst := by
  induction edges generalizing ctx seenEdges with
  | nil => exact ⟨h, nofun⟩
  | cons e edges ih =>
    simp only [validateEdges] at h
    split at h
    · obtain ⟨hchecks, htail⟩ := ih h
      obtain ⟨hclean, hedge⟩ := clean_of_edgeChecks hchecks
      exact ⟨hclean, List.forall_mem_cons.mpr ⟨hedge, htail⟩⟩
    · split at h
      · -- a duplicate edge is an error
        exact absurd (ih h).1 (clean_addError _ _ _ _)
      · obtain ⟨hchecks, htail⟩ := ih h
        obtain ⟨hclean, hedge⟩ := clean_of_edgeChecks hchecks
        exact ⟨hclean, List.forall_mem_cons.mpr ⟨hedge, htail⟩⟩

/-! ## The document -/

/-- The node loop of `validatePipelineSpec`. -/
private theorem clean_of_nodeLoop {agents : List PipelineAgent}
    (h : (validateAgents ctx ∅ agents.zipIdx).1.Clean) :
    ctx.Clean ∧ (∀ a ∈ agents, a.id ≠ "" ∧ a.ref ≠ "") ∧ (nodeIDs agents).Nodup ∧
      ∀ id, ((validateAgents ctx ∅ agents.zipIdx).2.lookup id).isSome ↔
        id ∈ nodeIDs agents := by
  have hfst : agents.zipIdx.map Prod.fst = agents := List.zipIdx_map_fst 0 agents
  have hids : (agents.zipIdx.map fun a => a.1.id) = nodeIDs agents := by
    rw [nodeIDs]
    nth_rewrite 2 [← hfst]
    rw [List.map_map]
    rfl
  obtain ⟨hclean, hall, hnodup, hdom⟩ := clean_of_validateAgents _ h
  refine ⟨hclean, fun a ha => ?_, hids ▸ hnodup, fun id => ?_⟩
  · rw [← hfst] at ha
    obtain ⟨b, hb, rfl⟩ := List.mem_map.mp ha
    exact ⟨(hall b hb).1, (hall b hb).2.1⟩
  · rw [hdom, hids]
    simp

/-- What `validatePipelineSpec` guarantees. -/
theorem clean_of_validatePipelineSpec (h : (validatePipelineSpec ctx p).Clean) :
    ctx.Clean ∧ p.spec.topology ∈ validPipelineTopologies ∧ p.spec.agents ≠ [] ∧
      (∀ a ∈ p.spec.agents, a.id ≠ "" ∧ a.ref ≠ "") ∧ (nodeIDs p.spec.agents).Nodup ∧
      ∀ e ∈ p.spec.edges, e.src ∈ nodeIDs p.spec.agents ∧ e.dst ∈ nodeIDs p.spec.agents ∧
        e.src ≠ e.dst := by
  simp only [validatePipelineSpec] at h
  have hfront : ∀ {path message suggestion : String},
      ((validateTopology ctx p.spec.topology).addErrorIf (p.spec.agents.length = 0) path message
        suggestion).Clean →
      ctx.Clean ∧ p.spec.topology ∈ validPipelineTopologies ∧ p.spec.agents ≠ [] := by
    intro path message suggestion hcheck
    obtain ⟨htop, hne⟩ := (clean_addErrorIf _ _ _ _ _).mp hcheck
    obtain ⟨hctx, htopology⟩ := clean_of_validateTopology htop
    exact ⟨hctx, htopology, fun hnil => by simp [hnil] at hne⟩
  -- the node loop is clean in both cases, and the edge loop if there are edges
  split at h
  · obtain ⟨hclean, hedges⟩ := clean_of_validateEdges _ h
    obtain ⟨hcheck, hnodes, hnodup, hdom⟩ :=
      clean_of_nodeLoop ((clean_addErrorIf _ _ _ _ _).mp hclean).1
    obtain ⟨hctx, htopology, hagents⟩ := hfront hcheck
    refine ⟨hctx, htopology, hagents, hnodes, hnodup, fun e he => ?_⟩
    · rw [← List.zipIdx_map_fst 0 p.spec.edges] at he
      obtain ⟨b, hb, rfl⟩ := List.mem_map.mp he
      obtain ⟨hsrc, hdst, hloop⟩ := hedges b hb
      exact ⟨(hdom _).mp hsrc, (hdom _).mp hdst, hloop⟩
  · rename_i hlen
    obtain ⟨hcheck, hnodes, hnodup, _⟩ := clean_of_nodeLoop h
    obtain ⟨hctx, htopology, hagents⟩ := hfront hcheck
    refine ⟨hctx, htopology, hagents, hnodes, hnodup, fun e he => ?_⟩
    · exact absurd (List.length_pos_of_mem he) hlen

/-! ## The graph pass -/

/-- `ctx'` has a cycle error that `ctx` does not have. -/
def ReportsCycle (ctx ctx' : ValidationContext) : Prop :=
  ∃ added, ctx'.errors = ctx.errors ++ added ∧ ∃ m, cycleError ctx m ∈ added

private theorem agentField_ne (index : String) :
    "spec.agents[" ++ index ++ "].id" ≠ "spec.edges" := by
  intro h
  -- the sixth character differs
  have hchar := congrArg (fun s : String => s.toList[5]?) h
  simp at hchar

/-- Reports of unreachable nodes are about a node, not about the edges. -/
theorem reportUnreachable_errors (indexByID : GoMap String Nat) (reachable : GoMap String Bool)
    (agents : List PipelineAgent) (ctx : ValidationContext) :
    ∃ added, (reportUnreachable indexByID reachable ctx agents).errors = ctx.errors ++ added ∧
      ∀ err ∈ added, err.field ≠ "spec.edges" := by
  induction agents generalizing ctx with
  | nil => exact ⟨[], by simp [reportUnreachable], nofun⟩
  | cons a agents ih =>
    rw [reportUnreachable]
    obtain ⟨added, herrors, hfields⟩ := ih (ctx.addErrorIf _ _ _ _)
    refine ⟨_, by rw [herrors, errors_addErrorIf, List.append_assoc], ?_⟩
    intro err herr
    cases List.mem_append.mp herr with
    | inl hnew =>
      -- the error about this node, if it is unreachable
      split at hnew
      · cases List.mem_singleton.mp hnew
        exact agentField_ne _
      · cases hnew
    | inr hrest => exact hfields err hrest

/-- The graph pass adds one cycle error if there is a cycle, and otherwise only errors
    about nodes. -/
theorem validatePipelineGraph_errors (ord : MapOrder) (ctx : ValidationContext)
    (htop : p.spec.topology = topologyGraph) :
    (¬ NoCycle (Arc (namedIDs p.spec.agents) p.spec.edges) ∧
        ∃ m, (validatePipelineGraph ord ctx p).errors = ctx.errors ++ [cycleError ctx m]) ∨
      (NoCycle (Arc (namedIDs p.spec.agents) p.spec.edges) ∧
        ∃ added, (validatePipelineGraph ord ctx p).errors = ctx.errors ++ added ∧
          ∀ err ∈ added, err.field ≠ "spec.edges") := by
  have hnil : ∃ added, ctx.errors = ctx.errors ++ added ∧
      ∀ err ∈ added, err.field ≠ "spec.edges" :=
    ⟨[], (List.append_nil _).symm, nofun⟩
  simp only [validatePipelineGraph, htop, ne_eq, not_true_eq_false, if_false]
  split
  · rename_i hempty
    refine .inr ⟨fun v hv => ?_, hnil⟩
    -- without nodes there are no arcs
    obtain ⟨u, hvu, _⟩ := TransGen.head'_iff.mp hv
    have hmem := hvu.mem_left
    rw [List.length_eq_zero_iff.mp hempty] at hmem
    cases hmem
  · cases detectPipelineCycle_spec ctx p.spec.agents p.spec.edges with
    | inl hfound =>
      obtain ⟨hfound, hcycle, m, hctx⟩ := hfound
      rw [if_pos hfound]
      exact .inl ⟨hcycle, m, by rw [hctx]⟩
    | inr hclear =>
      obtain ⟨hfound, hacyclic, hctx⟩ := hclear
      rw [if_neg (by rw [hfound]; exact Bool.false_ne_true), hctx]
      refine .inr ⟨hacyclic, ?_⟩
      -- unreachable nodes are only looked for if there are roots
      split
      · exact hnil
      · exact reportUnreachable_errors _ _ _ ctx

/-- The graph pass reports a cycle exactly if there is one. -/
theorem validatePipelineGraph_reportsCycle (ord : MapOrder) (ctx : ValidationContext)
    (htop : p.spec.topology = topologyGraph) :
    ReportsCycle ctx (validatePipelineGraph ord ctx p) ↔
      ¬ NoCycle (Arc (namedIDs p.spec.agents) p.spec.edges) := by
  cases validatePipelineGraph_errors ord ctx htop with
  | inl hcycle =>
    obtain ⟨hcycle, m, herrors⟩ := hcycle
    exact ⟨fun _ => hcycle, fun _ => ⟨_, herrors, m, List.mem_cons_self⟩⟩
  | inr hclear =>
    obtain ⟨hacyclic, added, herrors, hfields⟩ := hclear
    refine ⟨fun ⟨added', herrors', m, hm⟩ => ?_, fun hcycle => absurd hacyclic hcycle⟩
    rw [herrors] at herrors'
    rw [← List.append_cancel_left herrors'] at hm
    exact absurd rfl (hfields _ hm)

theorem clean_of_validatePipelineGraph {ord : MapOrder}
    (h : (validatePipelineGraph ord ctx p).Clean) :
    ctx.Clean ∧ (p.spec.topology = topologyGraph →
      NoCycle (Arc (namedIDs p.spec.agents) p.spec.edges)) := by
  by_cases htop : p.spec.topology = topologyGraph
  · cases validatePipelineGraph_errors ord ctx htop with
    | inl hcycle =>
      obtain ⟨_, m, herrors⟩ := hcycle
      rw [Clean, herrors] at h
      exact absurd (List.append_eq_nil_iff.mp h).2 (List.cons_ne_nil _ _)
    | inr hclear =>
      obtain ⟨hacyclic, added, herrors, _⟩ := hclear
      rw [Clean, herrors] at h
      exact ⟨(List.append_eq_nil_iff.mp h).1, fun _ => hacyclic⟩
  · rw [validatePipelineGraph, if_pos htop] at h
    exact ⟨h, fun hgraph => absurd hgraph htop⟩

/-- An accepted pipeline is well-formed. -/
theorem wellFormed_of_accepted {ord : MapOrder} {file : String} {lineColOf : String → Int × Int}
    {quote : String → String} (h : validatePipeline ord file lineColOf quote p = none) :
    WellFormed p := by
  simp only [validatePipeline] at h
  split at h
  · rename_i hlen
    have hclean : Clean _ := List.length_eq_zero_iff.mp hlen
    obtain ⟨hspec, hacyclic⟩ := clean_of_validatePipelineGraph hclean
    obtain ⟨hmeta, htopology, hagents, hnodes, hunique, hedges⟩ :=
      clean_of_validatePipelineSpec hspec
    have hnamed : namedIDs p.spec.agents = nodeIDs p.spec.agents :=
      namedIDs_eq fun a ha => (hnodes a ha).1
    exact {
      name := (clean_of_validatePipelineMetadata hmeta).2
      topology := htopology
      agents := hagents
      named := fun a ha => (hnodes a ha).1
      referenced := fun a ha => (hnodes a ha).2
      unique := hunique
      declared := fun e he => ⟨(hedges e he).1, (hedges e he).2.1⟩
      noLoop := fun e he => (hedges e he).2.2
      acyclic := fun htop => hnamed ▸ hacyclic htop }
  · cases h

end MockAgents
