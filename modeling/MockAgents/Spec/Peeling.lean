import MockAgents.Engine.Pipeline
import MockAgents.ForStd.Graph

/-!
# Kahn's algorithm in the executor

`cyclicNodes` returns nothing exactly if the edges between distinct declared nodes have
no cycle, for every list of nodes and edges and every map iteration order.

The loop invariant `Peeling` says that the counter of a node is the number of its
inbound edges from nodes that have not been peeled, that the queue holds the nodes whose
counter is zero, and that peeled nodes are accessible.
-/

namespace MockAgents

def nodeIDs (agents : List PipelineAgent) : List String := agents.map PipelineAgent.id

/-- An edge between two distinct declared nodes. -/
def PipelineEdge.counted (ids : List String) (e : PipelineEdge) : Bool :=
  decide (e.src ≠ e.dst ∧ e.src ∈ ids ∧ e.dst ∈ ids)

theorem PipelineEdge.counted_iff (ids : List String) (e : PipelineEdge) :
    e.counted ids = true ↔ e.src ≠ e.dst ∧ e.src ∈ ids ∧ e.dst ∈ ids := by
  simp [counted]

/-- There is an edge from `a` to `b`, two distinct declared nodes. -/
def Arc (ids : List String) (edges : List PipelineEdge) (a b : String) : Prop :=
  ∃ e ∈ edges, e.counted ids = true ∧ e.src = a ∧ e.dst = b

variable {ids : List String} {edges : List PipelineEdge} {a b : String}

theorem Arc.mem_right (h : Arc ids edges a b) : b ∈ ids := by
  obtain ⟨e, _, hc, _, rfl⟩ := h
  exact ((e.counted_iff ids).mp hc).2.2

theorem Arc.mem_left (h : Arc ids edges a b) : a ∈ ids := by
  obtain ⟨e, _, hc, rfl, _⟩ := h
  exact ((e.counted_iff ids).mp hc).2.1

/-! ## The maps of the executor -/

variable (agents : List PipelineAgent)

theorem isSome_nodesByID (id : String) :
    ((nodesByID agents).lookup id).isSome ↔ id ∈ nodeIDs agents := by
  rw [nodesByID, GoMap.isSome_lookup_foldl_insert PipelineAgent.id fun n => n]
  simp [nodeIDs]

theorem nodesByID_eq_some {agents : List PipelineAgent} {id : String} {n : PipelineAgent}
    (h : (nodesByID agents).lookup id = some n) : n ∈ agents ∧ n.id = id := by
  obtain ⟨a, ha, hid, rfl⟩ | hnone :=
    GoMap.lookup_foldl_insert_eq_some PipelineAgent.id (fun n => n) agents ∅ h
  · exact ⟨ha, hid⟩
  · cases hnone

theorem countEdge_outgoing (nodes : GoMap String PipelineAgent) (g : GraphMaps)
    (e : PipelineEdge) : (countEdge nodes g e).outgoing =
      g.outgoing.insert e.src ((g.outgoing.lookup e.src).getD [] ++ [e]) := by
  simp only [countEdge]
  split
  · rfl
  · split <;> rfl

/-- `outgoing` holds the edges of every node, in order. -/
theorem outgoing_graphMaps (edges : List PipelineEdge) (id : String) :
    (((graphMaps agents edges).outgoing.lookup id).getD []) =
      edges.filter fun e => e.src = id := by
  have hfold : ∀ g : GraphMaps, edges.foldl (fun m e =>
      m.insert e.src ((m.lookup e.src).getD [] ++ [e])) g.outgoing =
        (edges.foldl (countEdge (nodesByID agents)) g).outgoing := fun _ =>
    List.foldl_hom GraphMaps.outgoing fun g e => (countEdge_outgoing _ g e).symm
  rw [graphMaps, ← hfold, GoMap.lookup_foldl_group PipelineEdge.src]
  simp

def inbound (ids : List String) (edges : List PipelineEdge) (v : String) : Nat :=
  edges.countP fun e => e.counted ids && e.dst = v

theorem countEdge_indegree (g : GraphMaps) (e : PipelineEdge)
    (hdom : ∀ v, v ∈ nodeIDs agents → (g.indegree.lookup v).isSome) (v : String) :
    (countEdge (nodesByID agents) g e).indegree.lookup v =
      (g.indegree.lookup v).map fun d =>
        if e.counted (nodeIDs agents) && e.dst = v then d + 1 else d := by
  have hknown : ((nodesByID agents).lookup e.src).isSome ∧
      ((nodesByID agents).lookup e.dst).isSome ↔
      e.src ∈ nodeIDs agents ∧ e.dst ∈ nodeIDs agents := by
    rw [isSome_nodesByID, isSome_nodesByID]
  simp only [countEdge]
  -- the two tests of the source are those of a counted edge
  by_cases hc : e.counted (nodeIDs agents) = true
  · obtain ⟨hne, hmem⟩ := (e.counted_iff _).mp hc
    rw [if_neg hne, if_pos (hknown.mpr hmem)]
    simp only [GoMap.lookup_insert_eq, hc, Bool.true_and]
    by_cases hv : v = e.dst
    · subst hv
      obtain ⟨d, hd⟩ := Option.isSome_iff_exists.mp (hdom e.dst hmem.2)
      simp [hd]
    · have hv' : ¬ e.dst = v := fun h => hv h.symm
      simp [hv, hv']
  · have hsame : ∀ g' : GraphMaps, g'.indegree = g.indegree →
        g'.indegree.lookup v = (g.indegree.lookup v).map fun d =>
          if e.counted (nodeIDs agents) && e.dst = v then d + 1 else d := by
      intro g' hg
      simp [hg, hc]
    split
    · exact hsame _ rfl
    · rename_i hne
      have hmem : ¬(e.src ∈ nodeIDs agents ∧ e.dst ∈ nodeIDs agents) :=
        fun hmem => hc ((e.counted_iff _).mpr ⟨hne, hmem⟩)
      rw [if_neg fun h => hmem (hknown.mp h)]
      exact hsame _ rfl

theorem indegree_graphMaps (edges : List PipelineEdge) (v : String) :
    (graphMaps agents edges).indegree.lookup v =
      if v ∈ nodeIDs agents then some (inbound (nodeIDs agents) edges v : Int) else none := by
  have hfold : ∀ (edges : List PipelineEdge) (g : GraphMaps),
      (∀ v, v ∈ nodeIDs agents → (g.indegree.lookup v).isSome) →
      (edges.foldl (countEdge (nodesByID agents)) g).indegree.lookup v =
        (g.indegree.lookup v).map fun d => d + (inbound (nodeIDs agents) edges v : Int) := by
    intro edges
    induction edges with
    | nil => intro g _; simp [inbound]
    | cons e edges ih =>
      intro g hdom
      have hdom' : ∀ v, v ∈ nodeIDs agents →
          ((countEdge (nodesByID agents) g e).indegree.lookup v).isSome := by
        intro v hv
        rw [countEdge_indegree agents g e hdom, Option.isSome_map]
        exact hdom v hv
      rw [List.foldl_cons, ih _ hdom', countEdge_indegree agents g e hdom, Option.map_map]
      congr 1
      funext d
      simp only [Function.comp, inbound, List.countP_cons]
      split <;> omega
  -- every declared node starts at zero
  have hstart : ∀ v, ((agents.foldl (fun m n => m.insert n.id (0 : Int)) ∅ :
      GoMap String Int).lookup v) = if v ∈ nodeIDs agents then some 0 else none := by
    intro v
    have hsome := GoMap.isSome_lookup_foldl_insert PipelineAgent.id (fun _ => (0 : Int)) agents ∅ v
    split
    · rename_i hv
      obtain ⟨d, hd⟩ := Option.isSome_iff_exists.mp (hsome.mpr (Or.inl hv))
      obtain ⟨_, _, _, rfl⟩ | hnone :=
        GoMap.lookup_foldl_insert_eq_some PipelineAgent.id (fun _ => (0 : Int)) agents ∅ hd
      · exact hd
      · cases hnone
    · rename_i hv
      rw [← Option.not_isSome_iff_eq_none, hsome]
      simpa [nodeIDs] using hv
  rw [graphMaps, hfold, hstart]
  · split <;> simp
  · intro v hv
    rw [hstart, if_pos hv]
    rfl

/-! ## The peeling loop -/

section Peel

variable (ids : List String) (edges : List PipelineEdge)

/-- The number of counted edges into `v` from nodes that are still there. -/
def inboundLive (live : String → Bool) (v : String) : Nat :=
  edges.countP fun e => e.counted ids && (e.dst = v && live e.src)

/-- The number of edges of the list that the inner loop will take off `v`. -/
def pending (l : List PipelineEdge) (v : String) : Nat :=
  l.countP fun e => e.src ≠ e.dst && e.dst = v

/-- The invariant of the inner loop, with the edges `l` still to come: `remaining` has
    the nodes that are `live`, each with the number of its inbound edges from live nodes
    and from `l`; the queue holds those at zero. -/
structure Peeling (live : String → Bool) (l : List PipelineEdge)
    (st : GoMap String Int × List String) : Prop where
  dom : ∀ v, (st.1.lookup v).isSome = live v
  count : ∀ v d, st.1.lookup v = some d →
    d = (inboundLive ids edges live v : Int) + (pending l v : Int)
  queue : ∀ v, v ∈ st.2 ↔ st.1.lookup v = some 0
  nodup : st.2.Nodup

variable {ids edges}

/-- The inner loop takes its edge off the target's counter. -/
theorem Peeling.relax {live : String → Bool} {e : PipelineEdge} {l : List PipelineEdge}
    {st : GoMap String Int × List String} (h : Peeling ids edges live (e :: l) st) :
    Peeling ids edges live l (relax st e) := by
  unfold MockAgents.relax
  split
  · -- a self-loop was never counted
    rename_i hself
    refine ⟨h.dom, fun v d hd => ?_, h.queue, h.nodup⟩
    simpa [pending, hself] using h.count v d hd
  · rename_i hne
    cases hdst : st.1.lookup e.dst with
    | none =>
      -- the target is not there any more, so no counter waits for this edge
      refine ⟨h.dom, fun v d hd => ?_, h.queue, h.nodup⟩
      have hv : ¬ e.dst = v := by
        intro heq
        rw [heq, hd] at hdst
        cases hdst
      simpa [pending, hv] using h.count v d hd
    | some d₀ =>
      -- the counter still includes this edge
      have hd₀ : d₀ = (inboundLive ids edges live e.dst : Int) + (pending l e.dst : Int) + 1 := by
        have := h.count e.dst d₀ hdst
        simp only [pending, List.countP_cons, hne, ne_eq, not_false_eq_true, decide_true,
          Bool.true_and, if_true] at this ⊢
        omega
      simp only
      refine ⟨?_, ?_, ?_, ?_⟩
      · intro v
        rw [GoMap.lookup_insert_eq]
        split
        · rename_i hv
          rw [← h.dom v, hv, hdst]
          rfl
        · exact h.dom v
      · intro v d hd
        rw [GoMap.lookup_insert_eq] at hd
        split at hd
        · rename_i hv
          rw [hv, ← Option.some.inj hd, hd₀]
          omega
        · rename_i hv
          have hv' : ¬ e.dst = v := fun heq => hv heq.symm
          simpa [pending, hv'] using h.count v d hd
      · intro v
        rw [GoMap.lookup_insert_eq]
        by_cases hv : v = e.dst
        · -- before this edge the counter was positive, so the node was not queued
          have hnot : v ∉ st.2 := by
            rw [h.queue, hv, hdst, Option.some.injEq]
            omega
          rw [if_pos hv, Option.some.injEq]
          split
          · rename_i hzero
            simp [hv, hzero]
          · rename_i hzero
            simp [hnot, hzero]
        · rw [if_neg hv, ← h.queue v]
          split
          · simp [hv]
          · rfl
      · split
        · have hnot : e.dst ∉ st.2 := by
            rw [h.queue, hdst, Option.some.injEq]
            omega
          exact List.nodup_append.mpr ⟨h.nodup, by simp, by
            intro a ha b hb
            rw [List.mem_singleton.mp hb]
            exact fun heq => hnot (heq ▸ ha)⟩
        · exact h.nodup

variable {live : String → Bool}

theorem Peeling.relax_foldl {l : List PipelineEdge} {st : GoMap String Int × List String}
    (h : Peeling ids edges live l st) :
    Peeling ids edges live [] (l.foldl MockAgents.relax st) := by
  induction l generalizing st with
  | nil => exact h
  | cons e l ih => exact ih h.relax

theorem length_relax_foldl (l : List PipelineEdge)
    (st : GoMap String Int × List String) :
    (l.foldl MockAgents.relax st).1.entries.length = st.1.entries.length := by
  induction l generalizing st with
  | nil => rfl
  | cons e l ih =>
    rw [List.foldl_cons, ih]
    unfold MockAgents.relax
    split
    · rfl
    · cases hdst : st.1.lookup e.dst with
      | none => rfl
      | some d => exact GoMap.length_insert st.1 _ (by rw [hdst]; rfl)

variable {id : String}

/-- The inbound edges of `v` are those from the peeled node and those from the rest. -/
theorem inboundLive_split {v : String} (hid : id ∈ ids) (hv : v ∈ ids)
    (hlive : live id = true) :
    inboundLive ids edges live v =
      inboundLive ids edges (fun u => live u && u ≠ id) v +
        pending (edges.filter fun e => e.src = id) v := by
  unfold inboundLive pending
  induction edges with
  | nil => rfl
  | cons e edges ih =>
    simp only [List.countP_cons, List.filter_cons]
    by_cases hsrc : e.src = id
    · -- an edge of the peeled node is counted unless it is a self-loop
      have hcounted : (e.counted ids && (e.dst = v && live e.src)) =
          (e.src ≠ e.dst && e.dst = v : Bool) := by
        by_cases hdst : e.dst = v
        · simp [PipelineEdge.counted, hsrc, hdst, hid, hv, hlive]
        · simp [hdst]
      rw [ih, hcounted]
      simp only [hsrc, ne_eq, not_true_eq_false, decide_false, Bool.and_false, if_false,
        decide_true, if_true, List.countP_cons, Bool.false_eq_true]
      omega
    · rw [ih]
      simp only [hsrc, ne_eq, not_false_eq_true, decide_true, Bool.and_true, decide_false,
        Bool.false_eq_true, if_false]
      omega

variable {remaining : GoMap String Int} {queue : List String}

/-- Dequeuing a node: its outgoing edges become pending. -/
theorem Peeling.dequeue (h : Peeling ids edges live [] (remaining, id :: queue))
    (hids : ∀ v, live v = true → v ∈ ids) :
    Peeling ids edges (fun u => live u && u ≠ id) (edges.filter fun e => e.src = id)
      (remaining.erase id, queue) := by
  have hid : remaining.lookup id = some 0 := (h.queue id).mp List.mem_cons_self
  have hlive : live id = true := by rw [← h.dom id, hid]; rfl
  obtain ⟨hnotin, hnodup⟩ := List.nodup_cons.mp h.nodup
  have hlookup : ∀ v, (remaining.erase id).lookup v =
      if v = id then none else remaining.lookup v := GoMap.lookup_erase_eq remaining id
  refine ⟨?_, ?_, ?_, hnodup⟩
  · intro v
    simp only [hlookup]
    by_cases hv : v = id
    · simp [hv]
    · simp [hv, ← h.dom v]
  · intro v d hd
    simp only [hlookup] at hd
    split at hd
    · cases hd
    · -- edges from `id` were edges from a live node and are pending now
      have hvlive : live v = true := by rw [← h.dom v, hd]; rfl
      have hd' := h.count v d hd
      rw [inboundLive_split (hids id hlive) (hids v hvlive) hlive] at hd'
      simpa [pending] using hd'
  · intro v
    simp only [hlookup]
    by_cases hv : v = id
    · simp [hv, hnotin]
    · rw [if_neg hv, ← h.queue v]
      simp [hv]

/-- All predecessors of a node with counter zero are peeled. -/
theorem Peeling.acc (h : Peeling ids edges live [] (remaining, queue))
    (hid : remaining.lookup id = some 0)
    (hacc : ∀ v ∈ ids, live v = false → Acc (Arc ids edges) v) : Acc (Arc ids edges) id := by
  have hzero : inboundLive ids edges live id = 0 := by
    have := h.count id 0 hid
    omega
  refine ⟨id, fun u hu => hacc u hu.mem_left ?_⟩
  obtain ⟨e, he, hc, hsrc, hdst⟩ := hu
  have := List.countP_eq_zero.mp hzero e he
  simpa [hc, hsrc, hdst] using this

/-- The peeling loop ends with an empty queue, and peels only accessible nodes. -/
theorem peel_spec (outgoing : GoMap String (List PipelineEdge))
    (hout : ∀ id, (outgoing.lookup id).getD [] = edges.filter fun e => e.src = id)
    (fuel : Nat) (remaining : GoMap String Int) (queue : List String) (live : String → Bool)
    (hfuel : remaining.entries.length ≤ fuel)
    (h : Peeling ids edges live [] (remaining, queue))
    (hids : ∀ v, live v = true → v ∈ ids)
    (hacc : ∀ v ∈ ids, live v = false → Acc (Arc ids edges) v) :
    ∃ live', Peeling ids edges live' [] (peel outgoing fuel remaining queue, []) ∧
      (∀ v, live' v = true → v ∈ ids) ∧
      ∀ v ∈ ids, live' v = false → Acc (Arc ids edges) v := by
  induction fuel generalizing remaining queue live with
  | zero =>
    -- nothing remains, so nothing can be queued
    have hempty : remaining.entries = [] := List.length_eq_zero_iff.mp (Nat.le_zero.mp hfuel)
    have hqueue : queue = [] := by
      refine List.eq_nil_iff_forall_not_mem.mpr fun v hv => ?_
      have hlook := (h.queue v).mp hv
      rw [AList.lookup, hempty] at hlook
      cases hlook
    exact ⟨live, hqueue ▸ h, hids, hacc⟩
  | succ fuel ih =>
    cases queue with
    | nil => exact ⟨live, h, hids, hacc⟩
    | cons id queue =>
      have hid : remaining.lookup id = some 0 := (h.queue id).mp List.mem_cons_self
      have hstep := (h.dequeue hids).relax_foldl
      simp only [peel, hout]
      refine ih _ _ _ ?_ hstep ?_ ?_
      · have hlen := GoMap.length_erase remaining (k := id) (by rw [hid]; rfl)
        rw [length_relax_foldl]
        show (remaining.erase id).entries.length ≤ fuel
        omega
      · intro v hv
        simp only [Bool.and_eq_true] at hv
        exact hids v hv.1
      · intro v hv hpeeled
        by_cases hvid : v = id
        · -- the peeled node had counter zero
          exact hvid ▸ h.acc hid hacc
        · exact hacc v hv (by simpa [hvid] using hpeeled)

end Peel

/-! ## The cycle check -/

variable {v : String}

theorem mem_listRemaining {remaining : GoMap String Int} {agents : List PipelineAgent} :
    v ∈ listRemaining remaining agents ↔
      v ∈ nodeIDs agents ∧ (remaining.lookup v).isSome = true := by
  induction agents generalizing remaining with
  | nil => simp [listRemaining, nodeIDs]
  | cons n rest ih =>
    simp only [nodeIDs, List.map_cons, List.mem_cons] at ih ⊢
    unfold listRemaining
    by_cases hv : v = n.id
    · subst hv
      split <;> simp [*]
    · split
      · simp [ih, hv, AList.lookup_erase_ne hv]
      · simp [ih, hv]

theorem listRemaining_sublist (remaining : GoMap String Int)
    (agents : List PipelineAgent) :
    (listRemaining remaining agents).Sublist (nodeIDs agents) := by
  induction agents generalizing remaining with
  | nil => exact .slnil
  | cons n rest ih =>
    unfold listRemaining
    split
    · exact (ih _).cons_cons _
    · exact (ih _).cons _

theorem nodup_listRemaining (remaining : GoMap String Int)
    (agents : List PipelineAgent) : (listRemaining remaining agents).Nodup := by
  induction agents generalizing remaining with
  | nil => exact .nil
  | cons n rest ih =>
    unfold listRemaining
    split
    · -- an id is listed and then taken out of the map
      exact List.nodup_cons.mpr ⟨fun hn => by simp [mem_listRemaining] at hn, ih _⟩
    · exact ih _

/-- The initial state of the peeling loop. -/
theorem peeling_initial (ids : List String) (edges : List PipelineEdge)
    (ord : MapOrder) (remaining : GoMap String Int)
    (hrem : ∀ v, remaining.lookup v = if v ∈ ids then some (inbound ids edges v : Int) else none) :
    Peeling ids edges (fun v => decide (v ∈ ids)) []
      (remaining, ((ord.visit remaining.entries).filter fun e => e.2 = 0).map fun e => e.1) := by
  have hlive : ∀ v, inboundLive ids edges (fun v => decide (v ∈ ids)) v = inbound ids edges v := by
    intro v
    refine List.countP_congr fun e _ => ?_
    simp only [PipelineEdge.counted, Bool.and_eq_true, decide_eq_true_iff]
    exact ⟨fun h => ⟨h.1, h.2.1⟩, fun h => ⟨h.1, h.2, h.1.2.1⟩⟩
  refine ⟨?_, ?_, ?_, ?_⟩
  · intro v
    rw [hrem]
    split <;> simp [*]
  · intro v d hd
    rw [hrem] at hd
    split at hd
    · rw [← Option.some.inj hd, hlive]
      simp [pending]
    · cases hd
  · intro v
    simp only [List.mem_map, List.mem_filter, MapOrder.mem_visit, decide_eq_true_iff]
    constructor
    · rintro ⟨⟨u, d⟩, ⟨he, hd⟩, hu⟩
      subst hd hu
      exact (GoMap.lookup_eq_some_iff remaining u 0).mpr he
    · intro hv
      exact ⟨⟨v, 0⟩, ⟨(GoMap.lookup_eq_some_iff remaining v 0).mp hv, rfl⟩, rfl⟩
  · have hkeys : ((ord.visit remaining.entries).map Sigma.fst).Nodup :=
      (((ord.perm remaining.entries).map Sigma.fst).nodup_iff).mpr remaining.nodupKeys
    exact hkeys.sublist (List.filter_sublist.map _)

/-- What is left after the peeling is what a cycle leads to, whatever order the maps are
    visited in. -/
theorem mem_cyclicNodes {ord : MapOrder} {agents : List PipelineAgent} :
    v ∈ cyclicNodes ord agents (graphMaps agents edges).outgoing
        (graphMaps agents edges).indegree ↔
      ∃ u, Relation.TransGen (Arc (nodeIDs agents) edges) u u ∧
        Relation.ReflTransGen (Arc (nodeIDs agents) edges) u v := by
  have hinit := peeling_initial (nodeIDs agents) edges ord
    ((ord.visit (graphMaps agents edges).indegree.entries).foldl (fun m e => m.insert e.1 e.2) ∅)
    (fun v => by rw [GoMap.lookup_copy, indegree_graphMaps]; simp)
  obtain ⟨live, hend, hids, hacc⟩ := peel_spec (graphMaps agents edges).outgoing
    (outgoing_graphMaps agents edges) _ _ _ _ le_rfl hinit (fun v hv => by simpa using hv)
    (fun v hv hnot => by simp [hv] at hnot)
  rw [cyclicNodes, mem_listRemaining, hend.dom v]
  constructor
  · -- what is left has predecessors among what is left
    rintro ⟨_, hleft⟩
    refine Relation.exists_cycle_reaching (S := { v | live v = true })
      ((List.finite_toSet (nodeIDs agents)).subset hids) (fun w hw => ?_) hleft
    obtain ⟨d, hd⟩ := Option.isSome_iff_exists.mp ((hend.dom w).trans hw)
    have hcount := hend.count w d hd
    have hpos : 0 < inboundLive (nodeIDs agents) edges live w := by
      have hne : d ≠ 0 := fun hzero => nomatch (hend.queue w).mpr (hzero ▸ hd)
      simp only [pending, List.countP_nil] at hcount
      omega
    obtain ⟨e, he, hp⟩ := List.countP_pos_iff.mp hpos
    simp only [Bool.and_eq_true, decide_eq_true_iff] at hp
    exact ⟨e.src, hp.2.2, e, he, hp.1, rfl, hp.2.1⟩
  · -- what was peeled is accessible, and no cycle leads there
    rintro ⟨u, hcycle, huv⟩
    have hmem : v ∈ nodeIDs agents := by
      obtain ⟨_, _, hv⟩ := Relation.TransGen.tail'_iff.mp (hcycle.trans_left huv)
      exact hv.mem_right
    refine ⟨hmem, Bool.not_eq_false _ ▸ fun hgone => ?_⟩
    exact Relation.not_transGen_self_of_acc
      (Relation.acc_of_reflTransGen (hacc v hmem hgone) huv) hcycle

/-- The cycle check returns the declared nodes that lie on a cycle of counted edges or that one
    leads to, each once and in definition order: a counted edge joins two different declared
    nodes. -/
theorem cyclicNodes_exact (ord : MapOrder) (agents : List PipelineAgent)
    (edges : List PipelineEdge) :
    let cyclic := cyclicNodes ord agents (graphMaps agents edges).outgoing
      (graphMaps agents edges).indegree
    cyclic.Nodup ∧ cyclic.Sublist (nodeIDs agents) ∧
      ∀ v, v ∈ cyclic ↔
        ∃ u, Relation.TransGen (Arc (nodeIDs agents) edges) u u ∧
          Relation.ReflTransGen (Arc (nodeIDs agents) edges) u v :=
  ⟨nodup_listRemaining _ _, listRemaining_sublist _ _, fun _ => mem_cyclicNodes⟩

/-- The executor rejects a pipeline exactly when its counted edges form a cycle. -/
theorem cyclicNodes_eq_nil_iff (ord : MapOrder) (agents : List PipelineAgent)
    (edges : List PipelineEdge) :
    cyclicNodes ord agents (graphMaps agents edges).outgoing (graphMaps agents edges).indegree =
        [] ↔
      Relation.NoCycle (Arc (nodeIDs agents) edges) := by
  simp only [List.eq_nil_iff_forall_not_mem, mem_cyclicNodes, not_exists, not_and]
  exact ⟨fun h v hv => h v v hv .refl, fun h _ u hu => absurd hu (h u)⟩

end MockAgents
