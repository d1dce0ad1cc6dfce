import MockAgents.Config.PipelineValidator
import MockAgents.Spec.Peeling

/-!
# The validator's depth-first search

`detectPipelineCycle` finds a cycle exactly if there is one. While `dfs` is at a node,
the gray nodes are those that lead to it, so an edge to a gray node closes a cycle. A
node turns black when all its successors are black, so black nodes are accessible along
the reversed edges; if all nodes are black, there is no cycle.
-/

namespace MockAgents

open Relation

/-! ## The validator's maps -/

/-- The ids that the graph pass knows: it skips empty ones. -/
def namedIDs (agents : List PipelineAgent) : List String :=
  (nodeIDs agents).filter fun id => id ≠ ""

theorem namedIDs_eq {agents : List PipelineAgent} (h : ∀ a ∈ agents, a.id ≠ "") :
    namedIDs agents = nodeIDs agents := by
  refine List.filter_eq_self.mpr fun id hid => ?_
  obtain ⟨a, ha, rfl⟩ := List.mem_map.mp hid
  exact decide_eq_true (h a ha)

private theorem lookup_declareNode_foldl (agents : List PipelineAgent) (g : ForwardMaps)
    (n : String) : (agents.foldl declareNode g).forward.lookup n =
      if n ∈ namedIDs agents then some [] else g.forward.lookup n := by
  induction agents generalizing g with
  | nil => simp [namedIDs, nodeIDs]
  | cons a agents ih =>
    have hstep : (declareNode g a).forward.lookup n =
        if n = a.id ∧ a.id ≠ "" then some [] else g.forward.lookup n := by
      unfold declareNode
      split
      · rename_i hempty
        simp [hempty]
      · rename_i hname
        rw [GoMap.lookup_insert_eq]
        simp [hname]
    have hcons : n ∈ namedIDs (a :: agents) ↔
        n ∈ namedIDs agents ∨ (n = a.id ∧ a.id ≠ "") := by
      by_cases hempty : a.id = "" <;> simp [namedIDs, nodeIDs, hempty, or_comm]
    rw [List.foldl_cons, ih, hstep]
    simp only [hcons, ite_or]

private theorem forwardEdge_eq (ids : List String) (g : ForwardMaps) (e : PipelineEdge)
    (hdom : ∀ n, (g.forward.lookup n).isSome ↔ n ∈ ids) :
    (forwardEdge g e).forward =
      if e.counted ids then
        g.forward.insert e.src ((g.forward.lookup e.src).getD [] ++ [e.dst])
      else g.forward := by
  have hnone : ∀ n, (g.forward.lookup n).isNone = true ↔ n ∉ ids := by
    intro n
    rw [← hdom n, Option.isNone_iff_eq_none, Option.not_isSome_iff_eq_none]
  unfold forwardEdge
  simp only [hnone]
  split
  · rename_i hsrc
    simp [PipelineEdge.counted, hsrc]
  · split
    · rename_i hdst
      simp [PipelineEdge.counted, hdst]
    · rename_i hsrc hdst
      simp only [not_not] at hsrc hdst
      split
      · rename_i hself
        simp [PipelineEdge.counted, hself]
      · rename_i hne
        rw [if_pos ((e.counted_iff ids).mpr ⟨hne, hsrc, hdst⟩)]

private theorem forwardEdge_foldl (ids : List String) (edges : List PipelineEdge)
    (g : ForwardMaps) (hdom : ∀ n, (g.forward.lookup n).isSome ↔ n ∈ ids) (n m : String) :
    m ∈ ((edges.foldl forwardEdge g).forward.lookup n).getD [] ↔
      m ∈ (g.forward.lookup n).getD [] ∨ Arc ids edges n m := by
  induction edges generalizing g with
  | nil => simp [Arc]
  | cons e edges ih =>
    have hstep := forwardEdge_eq ids g e hdom
    have harc : Arc ids (e :: edges) n m ↔
        (e.counted ids = true ∧ e.src = n ∧ e.dst = m) ∨ Arc ids edges n m := by
      simp [Arc]
    cases hc : e.counted ids with
    | false =>
      rw [hc] at hstep
      rw [List.foldl_cons, ih _ (by rw [hstep]; exact hdom), hstep, harc]
      simp [hc]
    | true =>
      rw [hc, if_pos rfl] at hstep
      have hsrc : e.src ∈ ids := ((e.counted_iff ids).mp hc).2.1
      have hdom' : ∀ n, ((forwardEdge g e).forward.lookup n).isSome ↔ n ∈ ids := by
        intro n
        rw [hstep, GoMap.lookup_insert_eq]
        split
        · rename_i hn
          simp [hn, hsrc]
        · exact hdom n
      rw [List.foldl_cons, ih _ hdom', hstep, GoMap.lookup_insert_eq, harc]
      by_cases hn : n = e.src
      · subst hn
        simp [hc, or_assoc, eq_comm]
      · have hn' : ¬ e.src = n := fun h => hn h.symm
        simp [hn, hn']

/-- The successors of a node in the validator's graph. -/
theorem mem_forwardMaps (agents : List PipelineAgent) (edges : List PipelineEdge) (n m : String) :
    m ∈ ((forwardMaps agents edges).forward.lookup n).getD [] ↔
      Arc (namedIDs agents) edges n m := by
  have hstart := lookup_declareNode_foldl agents ⟨∅, ∅⟩
  have hdom : ∀ n, ((agents.foldl declareNode ⟨∅, ∅⟩).forward.lookup n).isSome ↔
      n ∈ namedIDs agents := by
    intro n
    rw [hstart]
    split <;> simp_all
  rw [forwardMaps, forwardEdge_foldl (namedIDs agents) edges _ hdom, hstart]
  split <;> simp

/-! ## The search -/

section Search

variable (forward : GoMap String (List String))

def Next (n m : String) : Prop := m ∈ (forward.lookup n).getD []

/-- The search has stopped at a back edge: there is a cycle, and one error was added. -/
structure Found (st st' : DfsState) : Prop where
  found : st'.cycleFound = true
  cyclic : ¬ NoCycle (Next forward)
  error : ∃ m, st'.ctx = { st.ctx with errors := st.ctx.errors ++ [cycleError st.ctx m] }

/-- The search has gone on: the same nodes are gray, no node was uncolored or lost its
    black, and every black node is accessible along reversed edges. -/
structure Cleared (st st' : DfsState) : Prop where
  notFound : st'.cycleFound = false
  ctx : st'.ctx = st.ctx
  gray : ∀ v, st'.colorOf v = .gray ↔ st.colorOf v = .gray
  black : ∀ v, st.colorOf v = .black → st'.colorOf v = .black
  acc : ∀ v, st'.colorOf v = .black → Acc (Function.swap (Next forward)) v

variable {forward} {st : DfsState}

theorem Cleared.refl (hnot : st.cycleFound = false)
    (hacc : ∀ v, st.colorOf v = .black → Acc (Function.swap (Next forward)) v) :
    Cleared forward st st :=
  ⟨hnot, rfl, fun _ => Iff.rfl, fun _ h => h, hacc⟩

variable {st₁ st₂ st₃ : DfsState}

theorem Cleared.trans (h₁ : Cleared forward st₁ st₂) (h₂ : Cleared forward st₂ st₃) :
    Cleared forward st₁ st₃ :=
  ⟨h₂.notFound, h₂.ctx.trans h₁.ctx, fun v => (h₂.gray v).trans (h₁.gray v),
    fun v hv => h₂.black v (h₁.black v hv), h₂.acc⟩

theorem Cleared.found (h₁ : Cleared forward st₁ st₂) (h₂ : Found forward st₂ st₃) :
    Found forward st₁ st₃ :=
  ⟨h₂.found, h₂.cyclic, h₁.ctx ▸ h₂.error⟩

/-- No node turns white again. -/
theorem Cleared.white {st st' : DfsState} (h : Cleared forward st st') {v : String}
    (hv : st'.colorOf v = .white) : st.colorOf v = .white := by
  cases hc : st.colorOf v with
  | white => rfl
  | gray => rw [(h.gray v).mpr hc] at hv; cases hv
  | black => rw [h.black v hc] at hv; cases hv

theorem DfsState.colorOf_insert (st : DfsState) (n v : String) (c : Color) :
    ({ st with color := st.color.insert n c } : DfsState).colorOf v =
      if v = n then c else st.colorOf v := by
  unfold DfsState.colorOf
  rw [GoMap.lookup_insert_eq]
  split <;> rfl

def whites (nodes : Finset String) (st : DfsState) : Finset String :=
  nodes.filter fun v => st.colorOf v = .white

variable {st' : DfsState}

theorem Cleared.whites_le (h : Cleared forward st st') (nodes : Finset String) :
    (whites nodes st').card ≤ (whites nodes st).card := by
  refine Finset.card_le_card fun v hv => ?_
  obtain ⟨hmem, hwhite⟩ := Finset.mem_filter.mp hv
  exact Finset.mem_filter.mpr ⟨hmem, h.white hwhite⟩

/-- A visit of a white node either finds a cycle or turns the node black, if the gray
    nodes lead to it and `fuel` covers the white nodes. -/
def VisitSpec (forward : GoMap String (List String)) (nodes : Finset String) (fuel : Nat)
    (visit : DfsState → String → DfsState) : Prop :=
  ∀ st n, st.cycleFound = false → st.colorOf n = .white → n ∈ nodes →
    (∀ v, st.colorOf v = .gray → ReflTransGen (Next forward) v n) →
    (∀ v, st.colorOf v = .black → Acc (Function.swap (Next forward)) v) →
    (whites nodes st).card ≤ fuel →
    Found forward st (visit st n) ∨
      (Cleared forward st (visit st n) ∧ (visit st n).colorOf n = .black)

variable {nodes : Finset String} {fuel : Nat} {visit : DfsState → String → DfsState}

/-- The search has found a cycle, or it has gone on and these nodes are black. -/
def Explored (forward : GoMap String (List String)) (ns : List String) (st st' : DfsState) : Prop :=
  Found forward st st' ∨ (Cleared forward st st' ∧ ∀ n ∈ ns, st'.colorOf n = .black)

theorem Explored.cons {m : String} {ms : List String} (h : Explored forward ms st₂ st₃)
    (hclear : Cleared forward st₁ st₂) (hm : st₂.colorOf m = .black) :
    Explored forward (m :: ms) st₁ st₃ := by
  rcases h with hfound | ⟨hclear', hblack⟩
  · exact .inl (hclear.found hfound)
  · exact .inr ⟨hclear.trans hclear', List.forall_mem_cons.mpr ⟨hclear'.black m hm, hblack⟩⟩

/-- The loop returns early only if a cycle was found. -/
theorem cycleFound_of_dfsLoop (st : DfsState) (ms : List String)
    (h : (dfsLoop visit st ms).2 = true) : (dfsLoop visit st ms).1.cycleFound = true := by
  fun_induction dfsLoop visit st ms <;> simp_all

/-- The loop over the successors: an edge to a gray node closes a cycle, and otherwise
    all successors are black at the end. -/
theorem dfsLoop_spec (hvisit : VisitSpec forward nodes fuel visit) (ms : List String)
    (st : DfsState) (hnot : st.cycleFound = false) (hmem : ∀ m ∈ ms, m ∈ nodes)
    (hgray : ∀ v, st.colorOf v = .gray → ∀ m ∈ ms, TransGen (Next forward) v m)
    (hacc : ∀ v, st.colorOf v = .black → Acc (Function.swap (Next forward)) v)
    (hfuel : (whites nodes st).card ≤ fuel) :
    Explored forward ms st (dfsLoop visit st ms).1 := by
  induction ms generalizing st with
  | nil => exact .inr ⟨Cleared.refl hnot hacc, nofun⟩
  | cons m ms ih =>
    obtain ⟨hm, htail⟩ := List.forall_mem_cons.mp hmem
    have hgrayTail : ∀ v, st.colorOf v = .gray → ∀ m' ∈ ms, TransGen (Next forward) v m' :=
      fun v hv m' h => hgray v hv m' (List.mem_cons_of_mem m h)
    rw [dfsLoop, hnot, if_neg Bool.false_ne_true]
    cases hcolor : st.colorOf m with
    | gray =>
      -- a back edge: `m` leads to itself
      exact .inl ⟨rfl, fun h => h m (hgray m hcolor m List.mem_cons_self), m, rfl⟩
    | black =>
      -- `m` is done with, and the loop goes on
      exact (ih st hnot htail hgrayTail hacc hfuel).cons (Cleared.refl hnot hacc) hcolor
    | white =>
      rcases hvisit st m hnot hcolor hm
        (fun v hv => (hgray v hv m List.mem_cons_self).to_reflTransGen) hacc hfuel with
        hfound | ⟨hclear, hblack⟩
      · -- the rest of the loop returns at once, or there is none
        left
        cases ms with
        | nil => exact hfound
        | cons m' ms => simpa only [dfsLoop, hfound.found, if_true] using hfound
      · exact (ih (visit st m) hclear.notFound htail
          (fun v hv => hgrayTail v ((hclear.gray v).mp hv)) hclear.acc
          (le_trans (hclear.whites_le nodes) hfuel)).cons hclear hblack

variable {n : String}

theorem card_whites_gray_lt (hn : n ∈ nodes) (hwhite : st.colorOf n = .white) :
    (whites nodes { st with color := st.color.insert n .gray }).card <
      (whites nodes st).card := by
  refine card_filter_lt_of_imp (fun v hv => ?_) hn hwhite fun hv => ?_
  · rw [DfsState.colorOf_insert] at hv
    split at hv
    · cases hv
    · exact hv
  · rw [DfsState.colorOf_insert, if_pos rfl] at hv
    cases hv

/-- A visit ends by turning its gray node black, when all successors are. -/
theorem Cleared.blacken (hwhite : st.colorOf n = .white)
    (h : Cleared forward { st with color := st.color.insert n .gray } st')
    (hnext : ∀ m, Next forward n m → st'.colorOf m = .black) :
    Cleared forward st { st' with color := st'.color.insert n .black } := by
  refine ⟨h.notFound, h.ctx, fun v => ?_, fun v hv => ?_, fun v hv => ?_⟩
  · -- `n` was gray only during the visit
    rw [DfsState.colorOf_insert]
    split
    · rename_i hvn
      rw [hvn, hwhite]
      exact ⟨fun h => (nomatch h), fun h => (nomatch h)⟩
    · rename_i hvn
      rw [h.gray v, DfsState.colorOf_insert, if_neg hvn]
  · rw [DfsState.colorOf_insert]
    split
    · rfl
    · rename_i hvn
      exact h.black v (by rw [DfsState.colorOf_insert, if_neg hvn]; exact hv)
  · rw [DfsState.colorOf_insert] at hv
    split at hv
    · rename_i hvn
      exact hvn ▸ Acc.intro n fun m hm => h.acc m (hnext m hm)
    · exact h.acc v hv

/-- `dfs` meets its specification with fuel for all white nodes. -/
theorem dfs_spec (hclosed : ∀ n m, Next forward n m → m ∈ nodes) (fuel : Nat) :
    VisitSpec forward nodes fuel (dfs forward fuel) := by
  induction fuel with
  | zero =>
    -- the node itself is white, so the fuel cannot be used up
    intro st n _ hwhite hn _ _ hfuel
    have hmem : n ∈ whites nodes st := Finset.mem_filter.mpr ⟨hn, hwhite⟩
    have := Finset.card_pos.mpr ⟨n, hmem⟩
    omega
  | succ fuel ih =>
    intro st n hnot hwhite hn hgray hacc hfuel
    let st₁ : DfsState := { st with color := st.color.insert n .gray }
    have hcolor₁ : ∀ v, st₁.colorOf v = if v = n then .gray else st.colorOf v :=
      fun v => st.colorOf_insert n v .gray
    have hlt : (whites nodes st₁).card < (whites nodes st).card :=
      card_whites_gray_lt hn hwhite
    -- the gray nodes lead to `n`, so they lead to its successors by at least one edge
    have hgray₁ : ∀ v, st₁.colorOf v = .gray →
        ∀ m ∈ (forward.lookup n).getD [], TransGen (Next forward) v m := by
      intro v hv m hm
      rw [hcolor₁] at hv
      split at hv
      · rename_i hvn
        exact hvn ▸ TransGen.single hm
      · exact TransGen.tail' (hgray v hv) hm
    have hacc₁ : ∀ v, st₁.colorOf v = .black → Acc (Function.swap (Next forward)) v := by
      intro v hv
      rw [hcolor₁] at hv
      split at hv
      · cases hv
      · exact hacc v hv
    have hloop := dfsLoop_spec ih ((forward.lookup n).getD []) st₁ hnot
      (fun m hm => hclosed n m hm) hgray₁ hacc₁ (by omega)
    have hdfs : dfs forward (fuel + 1) st n =
        let r := dfsLoop (dfs forward fuel) st₁ ((forward.lookup n).getD [])
        if r.2 then r.1 else { r.1 with color := r.1.color.insert n .black } := by
      simp [dfs, hnot, st₁]
    rw [hdfs]
    cases hloop with
    | inl hfound =>
      -- whether the loop returned or fell through, the error stays
      left
      dsimp only
      split
      · exact ⟨hfound.found, hfound.cyclic, hfound.error⟩
      · exact ⟨hfound.found, hfound.cyclic, hfound.error⟩
    | inr h =>
      obtain ⟨hclear, hblack⟩ := h
      have hret : ¬ (dfsLoop (dfs forward fuel) st₁ ((forward.lookup n).getD [])).2 = true :=
        fun hret => absurd (cycleFound_of_dfsLoop _ _ hret) (by simp [hclear.notFound])
      right
      simp only [hret, Bool.false_eq_true, if_false]
      refine ⟨hclear.blacken hwhite hblack, ?_⟩
      rw [DfsState.colorOf_insert, if_pos rfl]

/-- The outer loop, from a state without gray nodes. -/
theorem dfsAgents_spec (hvisit : VisitSpec forward nodes fuel visit) (agents : List PipelineAgent)
    (st : DfsState) (hnot : st.cycleFound = false) (hmem : ∀ n ∈ namedIDs agents, n ∈ nodes)
    (hgray : ∀ v, st.colorOf v ≠ .gray)
    (hacc : ∀ v, st.colorOf v = .black → Acc (Function.swap (Next forward)) v)
    (hfuel : (whites nodes st).card ≤ fuel) :
    Explored forward (namedIDs agents) st (dfsAgents visit st agents) := by
  induction agents generalizing st with
  | nil => exact .inr ⟨Cleared.refl hnot hacc, nofun⟩
  | cons a agents ih =>
    by_cases hempty : a.id = ""
    · -- agents without an id are skipped
      have hnamed : namedIDs (a :: agents) = namedIDs agents := by
        simp [namedIDs, nodeIDs, hempty]
      simp only [dfsAgents, hnot, Bool.false_eq_true, if_false, hempty, if_true]
      rw [hnamed] at hmem ⊢
      exact ih st hnot hmem hgray hacc hfuel
    · have hnamed : namedIDs (a :: agents) = a.id :: namedIDs agents := by
        simp [namedIDs, nodeIDs, hempty]
      rw [hnamed] at hmem ⊢
      obtain ⟨ha, htail⟩ := List.forall_mem_cons.mp hmem
      simp only [dfsAgents, hnot, Bool.false_eq_true, if_false, hempty]
      split
      · rename_i hwhite
        rcases hvisit st a.id hnot hwhite ha (fun v hv => absurd hv (hgray v)) hacc hfuel with
          hfound | ⟨hclear, hblack⟩
        · left
          cases agents with
          | nil => exact hfound
          | cons b rest => simpa only [dfsAgents, hfound.found, if_true] using hfound
        · exact (ih (visit st a.id) hclear.notFound htail
            (fun v hv => hgray v ((hclear.gray v).mp hv)) hclear.acc
            (le_trans (hclear.whites_le nodes) hfuel)).cons hclear hblack
      · rename_i hcolored
        have hblack : st.colorOf a.id = .black := by
          cases hc : st.colorOf a.id with
          | white => exact absurd hc hcolored
          | gray => exact absurd hc (hgray a.id)
          | black => rfl
        exact (ih st hnot htail hgray hacc hfuel).cons (Cleared.refl hnot hacc) hblack

end Search

/-! ## The validator and the executor -/

/-- The search over the graph of a pipeline is exact: it reports one error if there is a
    cycle, and otherwise nothing. -/
theorem detectPipelineCycle_spec (ctx : ValidationContext) (agents : List PipelineAgent)
    (edges : List PipelineEdge) :
    let st := detectPipelineCycle ctx agents (forwardMaps agents edges).forward
    (st.cycleFound = true ∧ ¬ NoCycle (Arc (namedIDs agents) edges) ∧
        ∃ m, st.ctx = { ctx with errors := ctx.errors ++ [cycleError ctx m] }) ∨
      (st.cycleFound = false ∧ NoCycle (Arc (namedIDs agents) edges) ∧ st.ctx = ctx) := by
  have hnext : Next (forwardMaps agents edges).forward = Arc (namedIDs agents) edges := by
    funext n m
    exact propext (mem_forwardMaps agents edges n m)
  have hwhite : ∀ v, (⟨ctx, ∅, false⟩ : DfsState).colorOf v = .white := fun _ => rfl
  have hdfs : VisitSpec (forwardMaps agents edges).forward (namedIDs agents).toFinset
      agents.length (dfs (forwardMaps agents edges).forward agents.length) :=
    dfs_spec (fun n m hnm => by
      rw [hnext] at hnm
      exact List.mem_toFinset.mpr hnm.mem_right) agents.length
  -- at the start every node is white, and there are at most as many as agents
  have hspec := dfsAgents_spec hdfs agents ⟨ctx, ∅, false⟩ rfl
    (fun n hn => List.mem_toFinset.mpr hn)
    (fun v hv => by rw [hwhite] at hv; exact nomatch hv)
    (fun v hv => by rw [hwhite] at hv; exact nomatch hv)
    (calc (whites (namedIDs agents).toFinset ⟨ctx, ∅, false⟩).card
        _ ≤ (namedIDs agents).toFinset.card := Finset.card_filter_le _ _
        _ ≤ (namedIDs agents).length := List.toFinset_card_le _
        _ ≤ (nodeIDs agents).length := List.length_filter_le _ _
        _ = agents.length := List.length_map _)
  cases hspec with
  | inl hfound => exact .inl ⟨hfound.found, hnext ▸ hfound.cyclic, hfound.error⟩
  | inr h =>
    obtain ⟨hclear, hblack⟩ := h
    refine .inr ⟨hclear.notFound, fun v hv => ?_, hclear.ctx⟩
    -- a node on a cycle has an edge, so it has a name, is black and so accessible
    obtain ⟨u, hvu, _⟩ := TransGen.head'_iff.mp hv
    have hacc := hclear.acc v (hblack v hvu.mem_left)
    rw [hnext] at hacc
    exact not_transGen_self_of_acc hacc (transGen_swap.mpr hv)

end MockAgents
