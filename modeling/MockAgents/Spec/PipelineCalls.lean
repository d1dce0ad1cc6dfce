import MockAgents.Spec.Peeling

/-!
# The calls of a pipeline run

Whatever the topology, a run changes the engine's state only by invoking nodes of the
pipeline, and it reports nothing that did not come from such a call: every node result
is the result of a call, and errors of a sequential or parallel run are errors of calls.
-/

namespace MockAgents

section Invariants

variable {σ : Type} {invoke : Invoke σ} {agents : List PipelineAgent} {P : Progress σ → Prop}
  (hcall : ∀ s node input, node ∈ agents → P s → P (s.call invoke node input).1)

include hcall

variable {s : Progress σ}

theorem runSequential_inv {nodes : List PipelineAgent} (hnodes : ∀ n ∈ nodes, n ∈ agents)
    (hs : P s) (input : String) : P (runSequential invoke s input nodes).1 := by
  fun_induction runSequential invoke s input nodes with
  | case1 => exact hs
  | case2 s input node => exact hcall s node input (hnodes node List.mem_cons_self) hs
  | case3 s input node rest _ _ ih =>
    exact ih (fun n hn => hnodes n (List.mem_cons_of_mem node hn))
      (hcall s node input (hnodes node List.mem_cons_self) hs)

theorem parallelCalls_inv {nodes : List (PipelineAgent × Nat)}
    (hnodes : ∀ n ∈ nodes, n.1 ∈ agents) (hs : P s) (input : String) :
    P (parallelCalls invoke s input nodes).1 :=
  List.foldlRecOn (motive := fun acc : Progress σ × GoMap Nat NodeCall => P acc.1)
    nodes _ hs fun acc hacc n hn => hcall acc.1 n.1 input (hnodes n hn) hacc

variable {visit : WalkState σ → String → String → WalkState σ × Option RunError}

omit hcall in
theorem walkEdges_inv (hvisit : ∀ s id input, P s.progress → P (visit s id input).1.progress)
    (edges : List PipelineEdge) {s : WalkState σ} (hs : P s.progress) (output : String) :
    P (walkEdges visit output s edges).1.progress := by
  fun_induction walkEdges visit output s edges with
  | case1 => exact hs
  | case2 s e rest _ ih => exact ih hs
  | case3 s e => exact hvisit s e.dst output hs
  | case4 s e rest _ _ _ ih => exact ih (hvisit s e.dst output hs)

theorem walk_inv (pipeline : String) (outgoing : GoMap String (List PipelineEdge)) (fuel : Nat)
    {s : WalkState σ} (hs : P s.progress) (id input : String) :
    P (walk invoke pipeline (nodesByID agents) outgoing fuel s id input).1.progress := by
  induction fuel generalizing s id input with
  | zero => exact hs
  | succ fuel ih =>
    rw [walk]
    split
    · exact hs
    · dsimp only
      split
      · exact hs
      · rename_i node hnode
        -- the one place where the walk changes the progress
        have hnext := hcall s.progress node input (nodesByID_eq_some hnode).1 hs
        split
        · exact hnext
        · exact walkEdges_inv (fun s id input hs => ih hs id input) _ hnext _

omit hcall in
theorem walkRoots_inv (hvisit : ∀ s id input, P s.progress → P (visit s id input).1.progress)
    (indegree : GoMap String Int) (userMsg : String) (roots : List PipelineAgent)
    {s : WalkState σ} (hs : P s.progress) :
    P (walkRoots visit indegree userMsg s roots).1.progress := by
  fun_induction walkRoots visit indegree userMsg s roots with
  | case1 => exact hs
  | case2 s n => exact hvisit s n.id userMsg hs
  | case3 s n rest _ _ _ ih => exact ih (hvisit s n.id userMsg hs)
  | case4 s n rest _ ih => exact ih hs

theorem runGraph_inv (ord : MapOrder) (pipeline : String) (edges : List PipelineEdge) (hs : P s)
    (userMsg : String) : P (runGraph invoke ord pipeline agents edges s userMsg).1 := by
  unfold runGraph
  dsimp only
  split
  · exact walkRoots_inv (fun s id input hs => walk_inv hcall pipeline _ _ hs id input) _ _ _ hs
  · exact hs

end Invariants

/-! ## Calls are invocations -/

section Calls

variable {σ : Type}

/-- The call is an invocation of a node, in a state that satisfies `I`. -/
def NodeCall.Invoked (invoke : Invoke σ) (I : σ → Prop) (agents : List PipelineAgent)
    (c : NodeCall) : Prop :=
  c.node ∈ agents ∧ ∃ s, I s ∧ (invoke s c.node c.input).2 = (c.result, c.err)

/-- The state satisfies `I`, and every call was an invocation in such a state. -/
structure Progress.Sound (invoke : Invoke σ) (I : σ → Prop) (agents : List PipelineAgent)
    (s : Progress σ) : Prop where
  state : I s.state
  calls : ∀ c ∈ s.calls, c.Invoked invoke I agents

variable {invoke : Invoke σ} {I : σ → Prop} {agents : List PipelineAgent}

theorem Progress.Sound.initial {state : σ} (hstate : I state) :
    Progress.Sound invoke I agents ⟨state, []⟩ :=
  ⟨hstate, nofun⟩

theorem Progress.Sound.call {s : Progress σ} (hs : s.Sound invoke I agents)
    (hinvoke : ∀ s node input, I s → I (invoke s node input).1) {node : PipelineAgent}
    (hnode : node ∈ agents) (input : String) :
    (s.call invoke node input).1.Sound invoke I agents := by
  refine ⟨hinvoke s.state node input hs.state, List.forall_mem_append.mpr ⟨hs.calls, ?_⟩⟩
  exact List.forall_mem_singleton.mpr ⟨hnode, s.state, hs.state, rfl⟩

/-- The calls of a graph run. -/
theorem runGraph_calls (invoke : Invoke σ) (ord : MapOrder) (pipeline : String)
    (agents : List PipelineAgent) (edges : List PipelineEdge) (state : σ) (userMsg : String) :
    ∀ c ∈ (runGraph invoke ord pipeline agents edges ⟨state, []⟩ userMsg).1.calls,
      c.Invoked invoke (fun _ => True) agents :=
  (runGraph_inv (P := Progress.Sound invoke (fun _ => True) agents)
    (fun _ _ input hnode hs => hs.call (fun _ _ _ _ => trivial) hnode input) ord pipeline edges
    (Progress.Sound.initial trivial) userMsg).calls

end Calls

section Runs

variable {σ : Type} {invoke : PipelineDefinition → Invoke σ} {p : PipelineDefinition}

/-- Every property of the progress that calls of nodes preserve holds at the end. -/
theorem runContext_inv {P : Progress σ → Prop}
    (hcall : ∀ s node input, node ∈ p.spec.agents → P s → P (s.call (invoke p) node input).1)
    (ord : MapOrder) (state : σ) (hstate : P ⟨state, []⟩) (userMsg : String) :
    P ⟨(runContext invoke ord state (some p) userMsg).state,
      (runContext invoke ord state (some p) userMsg).calls⟩ := by
  generalize hp : some p = pipeline
  fun_cases runContext invoke ord state pipeline userMsg <;> cases hp
  · exact hstate
  · exact runSequential_inv hcall (fun _ hn => hn) hstate userMsg
  · -- the goroutines run the agents in some order
    refine parallelCalls_inv hcall (fun n hn => ?_) hstate userMsg
    exact List.fst_mem_of_mem_zipIdx ((ord.perm _).mem_iff.mp hn)
  · exact runGraph_inv hcall ord _ _ hstate userMsg
  · exact hstate

/-- The calls of a run, under an invariant `I` that invocations preserve. -/
theorem runContext_calls {I : σ → Prop}
    (hinvoke : ∀ s node input, I s → I (invoke p s node input).1) (ord : MapOrder) {state : σ}
    (hstate : I state) (userMsg : String) :
    ∀ c ∈ (runContext invoke ord state (some p) userMsg).calls,
      c.Invoked (invoke p) I p.spec.agents :=
  (runContext_inv (fun _ _ input hnode hs => hs.call hinvoke hnode input) ord state
    (Progress.Sound.initial hstate) userMsg).calls

/-! ## Results and errors -/

theorem parallelCalls_lookup (invoke : Invoke σ) (s : Progress σ) (input : String)
    (nodes : List (PipelineAgent × Nat)) :
    ∀ i c, (parallelCalls invoke s input nodes).2.lookup i = some c →
      c ∈ (parallelCalls invoke s input nodes).1.calls := by
  refine List.foldlRecOn
    (motive := fun acc : Progress σ × GoMap Nat NodeCall =>
      ∀ i c, acc.2.lookup i = some c → c ∈ acc.1.calls)
    nodes _ (nofun) fun acc hacc n _ i c h => ?_
  rw [GoMap.lookup_insert_eq] at h
  split at h
  · cases h
    exact List.mem_append_right _ List.mem_cons_self
  · exact List.mem_append_left _ (hacc i c h)

theorem runContext_nodes (p : PipelineDefinition) (ord : MapOrder) (state : σ)
    (userMsg : String) {res : PipelineResult}
    (hres : (runContext invoke ord state (some p) userMsg).result = some res) :
    ∀ nr ∈ res.nodes, ∃ c ∈ (runContext invoke ord state (some p) userMsg).calls,
      c.result = nr := by
  revert hres
  generalize hp : some p = pipeline
  fun_cases runContext invoke ord state pipeline userMsg <;> cases hp <;> intro hres <;>
    cases hres
  · exact fun nr hnr => List.mem_map.mp hnr
  · -- a result of a parallel run is read from a slot
    intro nr hnr
    obtain ⟨slot, hslot, hmap⟩ := List.mem_filterMap.mp hnr
    obtain ⟨i, _, rfl⟩ := List.mem_map.mp hslot
    obtain ⟨c, hc, rfl⟩ := Option.map_eq_some_iff.mp hmap
    exact ⟨c, parallelCalls_lookup (invoke p) ⟨state, []⟩ userMsg _ i c hc, rfl⟩
  · exact fun nr hnr => List.mem_map.mp hnr

variable {err : RunError}

theorem runSequential_err {invoke : Invoke σ} (nodes : List PipelineAgent) (s : Progress σ)
    (input : String) (h : (runSequential invoke s input nodes).2 = some err) :
    ∃ c ∈ (runSequential invoke s input nodes).1.calls, c.err = some err := by
  induction nodes generalizing s input with
  | nil => cases h
  | cons node rest ih =>
    rw [runSequential] at h ⊢
    cases herr : (s.call invoke node input).2.err with
    | some err' =>
      rw [herr] at h
      cases h
      exact ⟨_, List.mem_append_right _ List.mem_cons_self, herr⟩
    | none =>
      rw [herr] at h
      exact ih _ _ h

theorem runParallel_err {invoke : Invoke σ} (ord : MapOrder) (agents : List PipelineAgent)
    (s : Progress σ) (input : String) (h : (runParallel invoke ord s input agents).2.2 = some err) :
    ∃ errs, err = .joined errs ∧ errs ≠ [] ∧
      ∀ x ∈ errs, ∃ c ∈ (runParallel invoke ord s input agents).1.calls, c.err = some x := by
  simp only [runParallel, joinErrors] at h
  split at h
  · cases h
  · rename_i err₀ rest hsome
    cases h
    refine ⟨_, rfl, List.cons_ne_nil _ _, fun x hx => ?_⟩
    rw [← hsome] at hx
    obtain ⟨slot, hslot, rfl⟩ := List.mem_filterMap.mp hx
    obtain ⟨slot', hslot', hbind⟩ := List.mem_map.mp hslot
    obtain ⟨i, _, rfl⟩ := List.mem_map.mp hslot'
    obtain ⟨c, hc, herr⟩ := Option.bind_eq_some_iff.mp hbind
    exact ⟨c, parallelCalls_lookup invoke s input _ i c hc, herr⟩

end Runs

end MockAgents
