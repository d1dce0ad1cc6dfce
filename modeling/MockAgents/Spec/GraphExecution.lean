import Mathlib.Data.Finset.Card
import MockAgents.Spec.PipelineCalls

/-!
# Graph execution

`runGraph` walks an acyclic graph depth-first from its roots and follows the edges that
fire. The invariant `Trail` says that the visited nodes are the invoked ones, each
invoked once, and that every call got its input from a root's user message or from an
earlier call along a fired edge. A walk that returns without an error leaves no fired
edge of its calls unfollowed (`Followed`).
-/

namespace MockAgents

open Relation
open List (forall_mem_cons mem_map mem_map_of_mem)

def Edge (edges : List PipelineEdge) (a b : String) : Prop :=
  ∃ e ∈ edges, e.src = a ∧ e.dst = b

/-- An edge from `a` to `b` fires on the output of `a`. -/
def FiredEdge (edges : List PipelineEdge) (out : String → String) (a b : String) : Prop :=
  ∃ e ∈ edges, e.src = a ∧ e.dst = b ∧ e.fires (out a) = true

/-- Both ends of every edge are nodes of the pipeline. -/
def Declared (agents : List PipelineAgent) (edges : List PipelineEdge) : Prop :=
  ∀ e ∈ edges, e.src ∈ nodeIDs agents ∧ e.dst ∈ nodeIDs agents

/-- A node without inbound edges. -/
def Root (agents : List PipelineAgent) (edges : List PipelineEdge) (id : String) : Prop :=
  ∀ u, ¬ Arc (nodeIDs agents) edges u id

theorem inbound_eq_zero_iff (ids : List String) (edges : List PipelineEdge) (v : String) :
    inbound ids edges v = 0 ↔ ∀ u, ¬ Arc ids edges u v := by
  simp only [inbound, List.countP_eq_zero, Bool.and_eq_true, decide_eq_true_eq, not_and, Arc,
    not_exists]
  exact ⟨fun h u e he hc _ hdst => h e he hc hdst, fun h e he hc hdst => h e.src e he hc rfl hdst⟩

/-- The roots that `runGraph` finds. -/
theorem indegree_eq_zero_iff {agents : List PipelineAgent} (edges : List PipelineEdge)
    {n : PipelineAgent} (hn : n ∈ agents) :
    ((graphMaps agents edges).indegree.lookup n.id).getD 0 = 0 ↔ Root agents edges n.id := by
  have hid : n.id ∈ nodeIDs agents := mem_map_of_mem hn
  rw [indegree_graphMaps, if_pos hid, Root, ← inbound_eq_zero_iff]
  simp

/-! ## The walk -/

section Walk

variable {σ : Type}

/-- `visited[v]`. -/
def WalkState.Visited (s : WalkState σ) (v : String) : Prop :=
  (s.visited.lookup v).getD false = true

instance (s : WalkState σ) : DecidablePred s.Visited :=
  fun v => inferInstanceAs (Decidable ((s.visited.lookup v).getD false = true))

theorem WalkState.visited_insert (progress : Progress σ) (s : WalkState σ) (id v : String) :
    (⟨progress, s.visited.insert id true⟩ : WalkState σ).Visited v ↔ v = id ∨ s.Visited v := by
  simp only [WalkState.Visited, GoMap.lookup_insert_eq]
  split
  · rename_i h
    simp [h]
  · rename_i h
    simp [h]

/-- The ids of the invoked nodes, in order. -/
def Progress.ids (s : Progress σ) : List String := s.calls.map fun c => c.node.id

variable (agents : List PipelineAgent) (edges : List PipelineEdge) (userMsg : String)

/-- After these calls, a node may be invoked on this input: it is a root and the input
    is the user message, or a fired edge leads to it from a call with this output. -/
def Feeds (calls : List NodeCall) (id input : String) : Prop :=
  (Root agents edges id ∧ input = userMsg) ∨
    ∃ c ∈ calls, ∃ e ∈ edges, e.src = c.node.id ∧ e.dst = id ∧
      e.fires c.output = true ∧ input = c.output

structure Trail (s : WalkState σ) : Prop where
  visited : ∀ v, s.Visited v ↔ v ∈ s.progress.ids
  nodup : s.progress.ids.Nodup
  member : ∀ c ∈ s.progress.calls, c.node ∈ agents
  fed : ∀ pre c post, s.progress.calls = pre ++ c :: post →
    Feeds agents edges userMsg pre c.node.id c.input

/-- Between `s` and `s'` no call failed, and every fired edge of a new call was followed. -/
def Followed (s s' : WalkState σ) : Prop :=
  ∀ c ∈ s'.progress.calls, ¬ s.Visited c.node.id →
    c.err = none ∧
      ∀ e ∈ edges, e.src = c.node.id → e.fires c.output = true → s'.Visited e.dst

/-- The nodes that are still to be visited. -/
def unvisited (s : WalkState σ) : Finset String :=
  (nodeIDs agents).toFinset.filter fun v => ¬ s.Visited v

variable {agents edges userMsg} {s : WalkState σ} {s' : WalkState σ}

theorem Trail.visited_mono (h : Trail agents edges userMsg s) (h' : Trail agents edges userMsg s')
    (hpre : s.progress.calls <+: s'.progress.calls) {v : String} (hv : s.Visited v) :
    s'.Visited v := by
  rw [h'.visited]
  exact (hpre.map _).subset ((h.visited v).mp hv)

variable {c : NodeCall}

theorem Followed.refl (h : Trail agents edges userMsg s) : Followed edges s s :=
  fun c hc hnew => absurd ((h.visited c.node.id).mpr (mem_map_of_mem hc)) hnew

theorem Followed.trans {s₁ s₂ s₃ : WalkState σ} (h₂ : Trail agents edges userMsg s₂)
    (h₃ : Trail agents edges userMsg s₃) (hpre : s₂.progress.calls <+: s₃.progress.calls)
    (h₁₂ : Followed edges s₁ s₂) (h₂₃ : Followed edges s₂ s₃) : Followed edges s₁ s₃ := by
  intro c hc hnew
  by_cases hvis : s₂.Visited c.node.id
  · -- `c` is one of the calls of `s₂`, as its node is invoked only once
    obtain ⟨c', hc', hid⟩ := mem_map.mp ((h₂.visited c.node.id).mp hvis)
    cases List.inj_on_of_nodup_map h₃.nodup (hpre.subset hc') hc hid
    obtain ⟨hok, hedges⟩ := h₁₂ c hc' hnew
    exact ⟨hok, fun e he hsrc hfires => h₂.visited_mono h₃ hpre (hedges e he hsrc hfires)⟩
  · exact h₂₃ c hc hvis

theorem Trail.unvisited_le (h : Trail agents edges userMsg s) (h' : Trail agents edges userMsg s')
    (hpre : s.progress.calls <+: s'.progress.calls) :
    (unvisited agents s').card ≤ (unvisited agents s).card := by
  refine Finset.card_le_card fun v hv => ?_
  obtain ⟨hmem, hnot⟩ := Finset.mem_filter.mp hv
  exact Finset.mem_filter.mpr ⟨hmem, fun hvis => hnot (h.visited_mono h' hpre hvis)⟩

theorem Trail.initial (state : σ) : Trail agents edges userMsg ⟨⟨state, []⟩, ∅⟩ where
  visited _ := ⟨fun h => (nomatch h), fun h => (nomatch h)⟩
  nodup := List.nodup_nil
  member _ hc := nomatch hc
  fed pre c post h :=
    absurd h.symm (List.append_ne_nil_of_right_ne_nil pre (List.cons_ne_nil c post))

theorem Trail.call {s : WalkState σ} (h : Trail agents edges userMsg s) (invoke : Invoke σ)
    {id input : String} {node : PipelineAgent} (hnode : (nodesByID agents).lookup id = some node)
    (hnew : ¬ s.Visited id) (hfeeds : Feeds agents edges userMsg s.progress.calls id input) :
    Trail agents edges userMsg
      ⟨(s.progress.call invoke node input).1, s.visited.insert id true⟩ := by
  obtain ⟨hmem, hid⟩ := nodesByID_eq_some hnode
  have hids : (s.progress.call invoke node input).1.ids = s.progress.ids ++ [id] := by
    simp [Progress.ids, Progress.call, hid]
  refine ⟨fun v => ?_, ?_, ?_, fun pre c post heq => ?_⟩
  · rw [s.visited_insert, hids, List.mem_append, List.mem_singleton, ← h.visited v, or_comm]
  · rw [hids]
    refine List.nodup_append.mpr ⟨h.nodup, List.nodup_singleton id, fun a ha b hb => ?_⟩
    rw [List.mem_singleton.mp hb]
    exact fun hab => hnew ((h.visited id).mpr (hab ▸ ha))
  · exact List.forall_mem_append.mpr ⟨h.member, List.forall_mem_singleton.mpr hmem⟩
  · -- the call is the last one, or it was there before
    cases List.eq_nil_or_concat post with
    | inl hnil =>
      subst hnil
      obtain ⟨hpre, hlast⟩ := List.append_inj' heq rfl
      cases hlast
      exact hpre ▸ hid ▸ hfeeds
    | inr hconcat =>
      obtain ⟨post', last, rfl⟩ := hconcat
      have heq' : s.progress.calls ++ [(s.progress.call invoke node input).2] =
          (pre ++ c :: post') ++ [last] := by
        simpa [Progress.call] using heq
      exact h.fed pre c post' (List.append_inj' heq' rfl).1

variable (agents edges userMsg)

/-- What a visit or a loop of visits does, started in `s`. -/
structure Advances (s : WalkState σ) (r : WalkState σ × Option RunError) : Prop where
  trail : Trail agents edges userMsg r.1
  pre : s.progress.calls <+: r.1.progress.calls
  err : ∀ x, r.2 = some x → ∃ c ∈ r.1.progress.calls, c.err = some x
  followed : r.2 = none → Followed edges s r.1

/-- A visit that is fed advances and, unless it fails, has visited its node. -/
def VisitOk (fuel : Nat)
    (visit : WalkState σ → String → String → WalkState σ × Option RunError) : Prop :=
  ∀ s id input, Trail agents edges userMsg s → id ∈ nodeIDs agents →
    Feeds agents edges userMsg s.progress.calls id input → (unvisited agents s).card < fuel →
    Advances agents edges userMsg s (visit s id input) ∧
      ((visit s id input).2 = none → (visit s id input).1.Visited id)

variable {agents edges userMsg}

theorem Advances.refl (h : Trail agents edges userMsg s) :
    Advances agents edges userMsg s (s, none) :=
  ⟨h, List.prefix_rfl, nofun, fun _ => Followed.refl h⟩

theorem Advances.trans {r₁ r₂ : WalkState σ × Option RunError}
    (h₁ : Advances agents edges userMsg s r₁) (hok : r₁.2 = none)
    (h₂ : Advances agents edges userMsg r₁.1 r₂) : Advances agents edges userMsg s r₂ :=
  ⟨h₂.trail, h₁.pre.trans h₂.pre, h₂.err,
    fun hnone => Followed.trans h₁.trail h₂.trail h₂.pre (h₁.followed hok) (h₂.followed hnone)⟩

variable {fuel : Nat} {visit : WalkState σ → String → String → WalkState σ × Option RunError}

/-- The loop over the edges of the node of an earlier call `c`. -/
theorem walkEdges_spec (hdecl : Declared agents edges)
    (hvisit : VisitOk agents edges userMsg fuel visit) (es : List PipelineEdge)
    (hes : ∀ e ∈ es, e ∈ edges ∧ e.src = c.node.id) (hs : Trail agents edges userMsg s)
    (hc : c ∈ s.progress.calls) (hfuel : (unvisited agents s).card < fuel) :
    Advances agents edges userMsg s (walkEdges visit c.output s es) ∧
      ((walkEdges visit c.output s es).2 = none → ∀ e ∈ es, e.fires c.output = true →
        (walkEdges visit c.output s es).1.Visited e.dst) := by
  induction es generalizing s with
  | nil => exact ⟨Advances.refl hs, fun _ _ h => by cases h⟩
  | cons e es ih =>
    obtain ⟨⟨hmem, hsrc⟩, htail⟩ := forall_mem_cons.mp hes
    cases hfires : e.fires c.output with
    | false =>
      -- the guard of the edge does not match: nothing happens
      have hloop : walkEdges visit c.output s (e :: es) = walkEdges visit c.output s es := by
        simp [walkEdges, hfires]
      rw [hloop]
      obtain ⟨hadv, hall⟩ := ih htail hs hc hfuel
      refine ⟨hadv, fun hnone => forall_mem_cons.mpr ⟨fun hf => ?_, hall hnone⟩⟩
      rw [hfires] at hf
      cases hf
    | true =>
      obtain ⟨hadv, hvis⟩ := hvisit s e.dst c.output hs (hdecl e hmem).2
        (.inr ⟨c, hc, e, hmem, hsrc, rfl, hfires, rfl⟩) hfuel
      cases herr : (visit s e.dst c.output).2 with
      | some x =>
        -- the loop stops at the first error
        have hloop : walkEdges visit c.output s (e :: es) = visit s e.dst c.output := by
          simp only [walkEdges, hfires, Bool.not_true, Bool.false_eq_true, if_false, herr]
          rw [← herr]
        rw [hloop]
        exact ⟨hadv, fun hnone => by rw [herr] at hnone; cases hnone⟩
      | none =>
        have hloop : walkEdges visit c.output s (e :: es) =
            walkEdges visit c.output (visit s e.dst c.output).1 es := by
          simp [walkEdges, hfires, herr]
        rw [hloop]
        obtain ⟨hadv', hall⟩ := ih htail hadv.trail (hadv.pre.subset hc)
          (lt_of_le_of_lt (hs.unvisited_le hadv.trail hadv.pre) hfuel)
        refine ⟨hadv.trans herr hadv', fun hnone =>
          forall_mem_cons.mpr ⟨fun _ => ?_, hall hnone⟩⟩
        -- `e.dst` was visited right away, and visited nodes stay visited
        exact hadv.trail.visited_mono hadv'.trail hadv'.pre (hvis herr)

variable {id : String}

private theorem walk_of_visited (hvis : s.Visited id) (invoke : Invoke σ) (pipeline : String)
    (nodes : GoMap String PipelineAgent) (outgoing : GoMap String (List PipelineEdge))
    (fuel : Nat) (input : String) :
    walk invoke pipeline nodes outgoing (fuel + 1) s id input = (s, none) := by
  exact if_pos hvis

variable {nodes : GoMap String PipelineAgent} {node : PipelineAgent} {invoke : Invoke σ}
  {input : String}

private theorem walk_of_err (hnew : ¬ s.Visited id) (hnode : nodes.lookup id = some node)
    {err : RunError} (herr : (s.progress.call invoke node input).2.err = some err)
    (pipeline : String) (outgoing : GoMap String (List PipelineEdge)) (fuel : Nat) :
    walk invoke pipeline nodes outgoing (fuel + 1) s id input =
      (⟨(s.progress.call invoke node input).1, s.visited.insert id true⟩, some err) := by
  refine (if_neg hnew).trans ?_
  simp only [hnode, herr]

private theorem walk_of_ok (hnew : ¬ s.Visited id) (hnode : nodes.lookup id = some node)
    (herr : (s.progress.call invoke node input).2.err = none) (pipeline : String)
    (outgoing : GoMap String (List PipelineEdge)) (fuel : Nat) :
    walk invoke pipeline nodes outgoing (fuel + 1) s id input =
      walkEdges (walk invoke pipeline nodes outgoing fuel)
        (s.progress.call invoke node input).2.output
        ⟨(s.progress.call invoke node input).1, s.visited.insert id true⟩
        ((outgoing.lookup id).getD []) := by
  refine (if_neg hnew).trans ?_
  simp only [hnode, herr]

/-- `walk` with fuel for all unvisited nodes. -/
theorem walk_spec (hdecl : Declared agents edges) (invoke : Invoke σ) (pipeline : String)
    (fuel : Nat) :
    VisitOk agents edges userMsg fuel
      (walk invoke pipeline (nodesByID agents) (graphMaps agents edges).outgoing fuel) := by
  induction fuel with
  | zero => exact fun _ _ _ _ _ _ hfuel => absurd hfuel (Nat.not_lt_zero _)
  | succ fuel ih =>
    intro s id input hs hid hfeeds hfuel
    by_cases hvis : s.Visited id
    · rw [walk_of_visited hvis]
      exact ⟨Advances.refl hs, fun _ => hvis⟩
    · obtain ⟨node, hnode⟩ := Option.isSome_iff_exists.mp ((isSome_nodesByID agents id).mpr hid)
      have hnid : node.id = id := (nodesByID_eq_some hnode).2
      let c := (s.progress.call invoke node input).2
      let s₁ : WalkState σ :=
        ⟨(s.progress.call invoke node input).1, s.visited.insert id true⟩
      have htrail : Trail agents edges userMsg s₁ := hs.call invoke hnode hvis hfeeds
      have hc : c ∈ s₁.progress.calls := List.mem_append_right _ List.mem_cons_self
      have hpre : s.progress.calls <+: s₁.progress.calls := List.prefix_append _ _
      have hvis₁ : s₁.Visited id := (s.visited_insert _ id id).mpr (.inl rfl)
      cases herr : c.err with
      | some x =>
        rw [walk_of_err hvis hnode herr]
        refine ⟨⟨htrail, hpre, fun y hy => ?_, fun hnone => nomatch hnone⟩,
          fun hnone => nomatch hnone⟩
        cases hy
        exact ⟨c, hc, herr⟩
      | none =>
        rw [walk_of_ok hvis hnode herr, outgoing_graphMaps]
        -- visiting `id` uses up one unvisited node
        have hlt : (unvisited agents s₁).card < (unvisited agents s).card :=
          card_filter_lt_of_imp (fun v hnot h => hnot (hs.visited_mono htrail hpre h))
            (List.mem_toFinset.mpr hid) hvis (not_not_intro hvis₁)
        obtain ⟨hadv, hall⟩ := walkEdges_spec hdecl ih (edges.filter fun e => e.src = id)
          (fun e he => by
            obtain ⟨hmem, hsrc⟩ := List.mem_filter.mp he
            exact ⟨hmem, (of_decide_eq_true hsrc).trans hnid.symm⟩)
          htrail hc (by omega)
        have hmono := fun {v} => htrail.visited_mono hadv.trail hadv.pre (v := v)
        refine ⟨⟨hadv.trail, hpre.trans hadv.pre, hadv.err, fun hnone => ?_⟩,
          fun _ => hmono hvis₁⟩
        -- the only new call up to `s₁` is `c`, and its edges have been followed
        intro c' hc' hnew
        by_cases hid' : c'.node.id = id
        · cases List.inj_on_of_nodup_map hadv.trail.nodup hc' (hadv.pre.subset hc)
            (hid'.trans hnid.symm)
          refine ⟨herr, fun e he hsrc hfires => hall hnone e ?_ hfires⟩
          exact List.mem_filter.mpr ⟨he, decide_eq_true (hsrc.trans hnid)⟩
        · refine hadv.followed hnone c' hc' fun h => ?_
          cases (s.visited_insert _ id _).mp h with
          | inl heq => exact hid' heq
          | inr hold => exact hnew hold

/-- The loop over the roots. -/
theorem walkRoots_spec (hvisit : VisitOk agents edges userMsg fuel visit)
    (nodes : List PipelineAgent) (hnodes : ∀ n ∈ nodes, n ∈ agents)
    (hs : Trail agents edges userMsg s) (hfuel : (unvisited agents s).card < fuel) :
    let r := walkRoots visit (graphMaps agents edges).indegree userMsg s nodes
    Advances agents edges userMsg s r ∧
      (r.2 = none → ∀ n ∈ nodes, Root agents edges n.id → r.1.Visited n.id) := by
  induction nodes generalizing s with
  | nil => exact ⟨Advances.refl hs, fun _ _ h => by cases h⟩
  | cons n nodes ih =>
    obtain ⟨hn, htail⟩ := forall_mem_cons.mp hnodes
    rw [walkRoots]
    split
    · rename_i hzero
      have hroot := (indegree_eq_zero_iff edges hn).mp hzero
      obtain ⟨hadv, hvis⟩ := hvisit s n.id userMsg hs (mem_map_of_mem hn)
        (.inl ⟨hroot, rfl⟩) hfuel
      dsimp only
      split
      · rename_i x hx
        exact ⟨⟨hadv.trail, hadv.pre, fun y hy => hadv.err y (hx.trans hy),
          fun hnone => (by cases hnone)⟩, fun hnone => (by cases hnone)⟩
      · rename_i hok
        obtain ⟨hadv', hall⟩ := ih htail hadv.trail
          (lt_of_le_of_lt (hs.unvisited_le hadv.trail hadv.pre) hfuel)
        refine ⟨hadv.trans hok hadv', fun hnone =>
          forall_mem_cons.mpr ⟨fun _ => ?_, hall hnone⟩⟩
        exact hadv.trail.visited_mono hadv'.trail hadv'.pre (hvis hok)
    · rename_i hpos
      obtain ⟨hadv, hall⟩ := ih htail hs hfuel
      refine ⟨hadv, fun hnone => forall_mem_cons.mpr ⟨fun hroot => ?_, hall hnone⟩⟩
      exact absurd ((indegree_eq_zero_iff edges hn).mpr hroot) hpos

/-- A run over a graph without cycles. It fails only with the error of a call, and
    otherwise it has invoked every root and followed every fired edge. -/
theorem runGraph_spec (hdecl : Declared agents edges)
    (hacyclic : NoCycle (Arc (nodeIDs agents) edges)) (invoke : Invoke σ) (ord : MapOrder)
    (pipeline : String) (state : σ) (userMsg : String) :
    let run := runGraph invoke ord pipeline agents edges ⟨state, []⟩ userMsg
    (∃ visited, Trail agents edges userMsg ⟨run.1, visited⟩) ∧
      (∀ x, run.2 = some x → ∃ c ∈ run.1.calls, c.err = some x) ∧
      (run.2 = none →
        (∀ n ∈ agents, Root agents edges n.id → n.id ∈ run.1.ids) ∧
        ∀ c ∈ run.1.calls, ∀ e ∈ edges, e.src = c.node.id → e.fires c.output = true →
          e.dst ∈ run.1.ids) := by
  have hrun : runGraph invoke ord pipeline agents edges ⟨state, []⟩ userMsg =
      let r := walkRoots (walk invoke pipeline (nodesByID agents)
        (graphMaps agents edges).outgoing (agents.length + 1))
        (graphMaps agents edges).indegree userMsg ⟨⟨state, []⟩, ∅⟩ agents
      (r.1.progress, r.2) := by
    simp only [runGraph, (cyclicNodes_eq_nil_iff ord agents edges).mpr hacyclic]
  have hfuel : (unvisited agents (⟨⟨state, []⟩, ∅⟩ : WalkState σ)).card < agents.length + 1 :=
    calc (unvisited agents (⟨⟨state, []⟩, ∅⟩ : WalkState σ)).card
      _ ≤ (nodeIDs agents).toFinset.card := Finset.card_filter_le _ _
      _ ≤ (nodeIDs agents).length := List.toFinset_card_le _
      _ = agents.length := List.length_map _
      _ < agents.length + 1 := Nat.lt_succ_self _
  have hs : Trail agents edges userMsg (⟨⟨state, []⟩, ∅⟩ : WalkState σ) := Trail.initial state
  obtain ⟨hadv, hroots⟩ := walkRoots_spec (walk_spec hdecl invoke pipeline (agents.length + 1))
    agents (fun _ h => h) hs hfuel
  rw [hrun]
  refine ⟨⟨_, hadv.trail⟩, hadv.err, fun hnone => ⟨fun n hn hroot => ?_, ?_⟩⟩
  · exact (hadv.trail.visited n.id).mp (hroots hnone n hn hroot)
  · intro c hc e he hsrc hfires
    have hnew : ¬ (⟨⟨state, []⟩, ∅⟩ : WalkState σ).Visited c.node.id := fun h => nomatch h
    exact (hadv.trail.visited e.dst).mp ((hadv.followed hnone c hc hnew).2 e he hsrc hfires)

end Walk

/-! ## Reachability along fired edges -/

section Execution

variable {σ : Type} {agents : List PipelineAgent} {edges : List PipelineEdge}

theorem arc_iff_edge (hdecl : Declared agents edges) (hacyclic : NoCycle (Edge edges))
    (a b : String) : Arc (nodeIDs agents) edges a b ↔ Edge edges a b := by
  refine ⟨fun ⟨e, he, _, hsrc, hdst⟩ => ⟨e, he, hsrc, hdst⟩, fun ⟨e, he, hsrc, hdst⟩ => ?_⟩
  -- an edge from a node to itself would be a cycle
  have hne : e.src ≠ e.dst := fun heq => hacyclic e.src (TransGen.single ⟨e, he, rfl, heq.symm⟩)
  exact ⟨e, he, (e.counted_iff _).mpr ⟨hne, (hdecl e he).1, (hdecl e he).2⟩, hsrc, hdst⟩

theorem root_iff (hdecl : Declared agents edges) (hacyclic : NoCycle (Edge edges))
    (id : String) : Root agents edges id ↔ ∀ e ∈ edges, e.dst ≠ id := by
  simp only [Root, arc_iff_edge hdecl hacyclic, Edge, not_exists, not_and]
  exact ⟨fun h e he hdst => h e.src e he rfl hdst, fun h u e he _ hdst => h e he hdst⟩

variable {out : String → String}

/-- Every invoked node is below a root along fired edges. -/
theorem Trail.reachable {userMsg : String} {s : WalkState σ} (h : Trail agents edges userMsg s)
    (hout : ∀ c ∈ s.progress.calls, c.output = out c.node.id) (pre : List NodeCall) (c : NodeCall)
    (post : List NodeCall) (heq : s.progress.calls = pre ++ c :: post) :
    ∃ r ∈ agents, Root agents edges r.id ∧
      ReflTransGen (FiredEdge edges out) r.id c.node.id := by
  -- induction on the position of the call: its predecessor is an earlier call
  induction hlen : pre.length using Nat.strongRecOn generalizing pre c post with
  | _ k ih =>
    have hmem : c ∈ s.progress.calls := heq ▸ List.mem_append_right _ List.mem_cons_self
    cases h.fed pre c post heq with
    | inl hroot => exact ⟨c.node, h.member c hmem, hroot.1, ReflTransGen.refl⟩
    | inr hpred =>
      obtain ⟨p, hp, e, he, hsrc, hdst, hfires, _⟩ := hpred
      obtain ⟨pre₁, pre₂, rfl⟩ := List.append_of_mem hp
      have heq' : s.progress.calls = pre₁ ++ p :: (pre₂ ++ c :: post) := by
        simpa using heq
      have hlt : pre₁.length < k := by
        rw [← hlen, List.length_append, List.length_cons]
        omega
      obtain ⟨r, hr, hroot, hreach⟩ := ih pre₁.length hlt pre₁ p _ heq' rfl
      have hpmem : p ∈ s.progress.calls := heq' ▸ List.mem_append_right _ List.mem_cons_self
      rw [hout p hpmem] at hfires
      exact ⟨r, hr, hroot, hreach.tail ⟨e, he, hsrc, hdst, hfires⟩⟩

/-- In an acyclic graph every node is below a root. -/
theorem exists_root (hacyclic : NoCycle (Arc (nodeIDs agents) edges)) {n : PipelineAgent}
    (hn : n ∈ agents) :
    ∃ r ∈ agents, Root agents edges r.id ∧
      ReflTransGen (Arc (nodeIDs agents) edges) r.id n.id := by
  have hwf := hacyclic.wellFounded (nodeIDs agents).finite_toSet fun u v h => h.mem_left
  obtain ⟨r, hroot, hreach⟩ := exists_root_reaching hwf n.id
  have hr : r ∈ nodeIDs agents := by
    cases ReflTransGen.cases_head hreach with
    | inl heq => exact heq ▸ mem_map_of_mem hn
    | inr hstep =>
      obtain ⟨_, harc, _⟩ := hstep
      exact harc.mem_left
  obtain ⟨a, ha, rfl⟩ := mem_map.mp hr
  exact ⟨a, ha, hroot, hreach⟩

/-- From an invoked node, a run that has followed all fired edges reaches only invoked
    nodes. -/
theorem mem_ids_of_reachable {s : Progress σ} (hout : ∀ c ∈ s.calls, c.output = out c.node.id)
    (hfollow : ∀ c ∈ s.calls, ∀ e ∈ edges, e.src = c.node.id → e.fires c.output = true →
      e.dst ∈ s.ids) {a b : String} (ha : a ∈ s.ids)
    (hreach : ReflTransGen (FiredEdge edges out) a b) : b ∈ s.ids := by
  induction hreach with
  | refl => exact ha
  | tail _ hfired ih =>
    obtain ⟨e, he, hsrc, rfl, hfires⟩ := hfired
    obtain ⟨c, hc, hid⟩ := mem_map.mp ih
    refine hfollow c hc e he (hsrc.trans hid.symm) ?_
    rw [hout c hc, hid]
    exact hfires

/-- The semantics of graph execution. On an acyclic graph with unique node ids and edges
    between declared nodes, if no call fails and `out` gives the outputs, then `runGraph`
    returns without an error; it invokes each node at most once and exactly those that
    are reachable from a node without inbound edges along fired edges; every root gets
    the user message, every other invoked node the output of an earlier one whose edge to
    it fired; and without guards every node is invoked. -/
theorem runGraph_executes (invoke : Invoke σ)
    (hid : ∀ s node input, (invoke s node input).2.1.nodeID = node.id) (ord : MapOrder)
    (pipeline : String) (state : σ) (userMsg : String) (hunique : (nodeIDs agents).Nodup)
    (hdecl : Declared agents edges) (hacyclic : NoCycle (Edge edges)) (out : String → String)
    (hout : ∀ c ∈ (runGraph invoke ord pipeline agents edges ⟨state, []⟩ userMsg).1.calls,
      c.err = none ∧ c.output = out c.node.id) :
    let run := runGraph invoke ord pipeline agents edges ⟨state, []⟩ userMsg
    run.2 = none ∧
      (run.1.calls.map NodeCall.node).Nodup ∧
      (run.1.calls.map fun c => c.result.nodeID) = run.1.calls.map (fun c => c.node.id) ∧
      (∀ n, n ∈ run.1.calls.map NodeCall.node ↔
        n ∈ agents ∧ ∃ r ∈ agents, (∀ e ∈ edges, e.dst ≠ r.id) ∧
          ReflTransGen (FiredEdge edges out) r.id n.id) ∧
      (∀ pre c post, run.1.calls = pre ++ c :: post →
        if ∀ e ∈ edges, e.dst ≠ c.node.id then c.input = userMsg
        else ∃ p ∈ pre, ∃ e ∈ edges, e.src = p.node.id ∧ e.dst = c.node.id ∧
          e.fires p.output = true ∧ c.input = p.output) ∧
      ((∀ e ∈ edges, e.whenContains = "") →
        ∀ n ∈ agents, n ∈ run.1.calls.map NodeCall.node) := by
  have hnocycle : NoCycle (Arc (nodeIDs agents) edges) :=
    hacyclic.mono fun a b hab => (arc_iff_edge hdecl hacyclic a b).mp hab
  have hnodeID : ∀ c ∈ (runGraph invoke ord pipeline agents edges ⟨state, []⟩ userMsg).1.calls,
      c.result.nodeID = c.node.id := by
    intro c hc
    obtain ⟨_, s, _, hcall⟩ := runGraph_calls invoke ord pipeline agents edges state userMsg c hc
    have hresult : (invoke s c.node c.input).2.1 = c.result := congrArg Prod.fst hcall
    rw [← hresult, hid]
  obtain ⟨⟨visited, htrail⟩, herr, hok⟩ :=
    runGraph_spec hdecl hnocycle invoke ord pipeline state userMsg
  intro run
  -- an error of the run would be the error of a call
  have hnone : run.2 = none := by
    cases hx : run.2 with
    | none => rfl
    | some x =>
      obtain ⟨c, hc, hcx⟩ := herr x hx
      rw [(hout c hc).1] at hcx
      cases hcx
  obtain ⟨hroots, hfollow⟩ := hok hnone
  have houtput : ∀ c ∈ run.1.calls, c.output = out c.node.id := fun c hc => (hout c hc).2
  -- ids stand for nodes, as they are unique
  have hmem : ∀ n ∈ agents, n.id ∈ run.1.ids → n ∈ run.1.calls.map NodeCall.node := by
    intro n hn hin
    obtain ⟨c, hc, hcid⟩ := mem_map.mp hin
    have := List.inj_on_of_nodup_map hunique (htrail.member c hc) hn hcid
    exact this ▸ mem_map_of_mem hc
  have hreached : ∀ n ∈ agents, ∀ r ∈ agents, Root agents edges r.id →
      ReflTransGen (FiredEdge edges out) r.id n.id → n ∈ run.1.calls.map NodeCall.node :=
    fun n hn r hr hroot hreach =>
      hmem n hn (mem_ids_of_reachable houtput hfollow (hroots r hr hroot) hreach)
  refine ⟨hnone, ?_, List.map_congr_left hnodeID, fun n => ⟨fun hn => ?_, ?_⟩, ?_, ?_⟩
  · -- each node at most once
    refine List.Nodup.of_map PipelineAgent.id ?_
    rw [List.map_map]
    exact htrail.nodup
  · -- only reachable nodes
    obtain ⟨c, hc, rfl⟩ := mem_map.mp hn
    obtain ⟨pre, post, heq⟩ := List.append_of_mem hc
    obtain ⟨r, hr, hroot, hreach⟩ := htrail.reachable houtput pre c post heq
    exact ⟨htrail.member c hc, r, hr, (root_iff hdecl hacyclic r.id).mp hroot, hreach⟩
  · -- all reachable nodes
    rintro ⟨hn, r, hr, hroot, hreach⟩
    exact hreached n hn r hr ((root_iff hdecl hacyclic r.id).mpr hroot) hreach
  · -- inputs: a root has no inbound edge, so it cannot have been fed by a call
    intro pre c post heq
    have hfed := htrail.fed pre c post heq
    split
    · rename_i hroot
      cases hfed with
      | inl h => exact h.2
      | inr h =>
        obtain ⟨_, _, e, he, _, hdst, _⟩ := h
        exact absurd hdst (hroot e he)
    · rename_i hinner
      cases hfed with
      | inl h => exact absurd ((root_iff hdecl hacyclic _).mp h.1) hinner
      | inr h => exact h
  · -- without guards every edge fires, and every node is below a root
    intro hplain n hn
    obtain ⟨r, hr, hroot, hreach⟩ := exists_root hnocycle hn
    have hfires : Arc (nodeIDs agents) edges ≤ FiredEdge edges out := by
      intro a b ⟨e, he, _, hsrc, hdst⟩
      exact ⟨e, he, hsrc, hdst, by simp [PipelineEdge.fires, hplain e he]⟩
    exact hreached n hn r hr hroot (ReflTransGen.mono hfires _ _ hreach)

def answerID : Invoke Unit := fun _ node _ =>
  ((), { nodeID := node.id,
         response := some ⟨"x", "", node.id, [], [], "", "", [], "", "", none⟩ }, none)

/-- A diamond with one guarded edge that does not fire. -/
def diamondEdges : List PipelineEdge :=
  [⟨"a", "bb", "no"⟩, ⟨"a", "cc", ""⟩, ⟨"bb", "ddd", ""⟩, ⟨"cc", "ddd", "c"⟩]

def diamondNodes : List PipelineAgent :=
  [⟨"ddd", "x"⟩, ⟨"cc", "x"⟩, ⟨"bb", "x"⟩, ⟨"a", "x"⟩]

theorem runGraph_executes_diamond :
    (runGraph answerID .stored "p" diamondNodes diamondEdges ⟨(), []⟩ "hi").2 = none ∧
      (⟨"ddd", "x"⟩ : PipelineAgent) ∈
        (runGraph answerID .stored "p" diamondNodes diamondEdges ⟨(), []⟩ "hi").1.calls.map
          NodeCall.node := by
  have hacyclic : NoCycle (Edge diamondEdges) := by
    -- edges lead to longer ids
    have hlt : ∀ a b, Edge diamondEdges a b → a.length < b.length := by
      intro a b ⟨e, he, hsrc, hdst⟩
      subst hsrc hdst
      revert e
      decide
    have htrans : ∀ a b, TransGen (Edge diamondEdges) a b → a.length < b.length := by
      intro a b hab
      induction hab with
      | single h => exact hlt _ _ h
      | tail _ h ih => exact ih.trans (hlt _ _ h)
    exact fun v hv => Nat.lt_irrefl _ (htrans v v hv)
  have hdecl : Declared diamondNodes diamondEdges := by
    unfold Declared
    decide
  obtain ⟨hnone, _, _, hmem, _⟩ := runGraph_executes answerID (fun _ _ _ => rfl) .stored "p" () "hi"
    (by decide) hdecl hacyclic (fun id => id) (by decide)
  refine ⟨hnone, (hmem _).mpr ⟨by decide, ⟨"a", "x"⟩, by decide, by decide, ?_⟩⟩
  have hac : FiredEdge diamondEdges (fun id => id) "a" "cc" :=
    ⟨⟨"a", "cc", ""⟩, by decide, rfl, rfl, by decide⟩
  have hcd : FiredEdge diamondEdges (fun id => id) "cc" "ddd" :=
    ⟨⟨"cc", "ddd", "c"⟩, by decide, rfl, rfl, by decide⟩
  exact (ReflTransGen.single hac).tail hcd

end Execution

end MockAgents
