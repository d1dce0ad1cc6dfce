import MockAgents.Spec.PipelineValidation
import MockAgents.Spec.TenantSessions

/-!
# Sessions of pipeline nodes

A node invocation uses the session key of tenant, agent name and scoped session id, and
the scoped session id is the client's session id followed by the node's tail
`::pipeline::node`. Pipeline and agent names are free of separators, but session ids and
node ids are not: if a node id ends in the tail of another node, a client session id can
make up for the difference and the two nodes share a session.
-/

namespace MockAgents

open String (toList_append toList_inj)
open Engine (requestKey)

/-! ## Names -/

theorem mem_of_metadataNameFrom {need : Bool} {cs : List Char}
    (h : metadataNameFrom need cs = true) {c : Char} (hc : c ∈ cs) :
    isLowerAlnum c = true ∨ c = '-' := by
  induction cs generalizing need with
  | nil => cases hc
  | cons d cs ih =>
    simp only [metadataNameFrom] at h
    split at h
    · rename_i hd
      cases List.mem_cons.mp hc with
      | inl heq => exact .inl (heq ▸ hd)
      | inr htl => exact ih h htl
    · split at h
      · rename_i hd
        cases List.mem_cons.mp hc with
        | inl heq => exact .inr (heq.trans hd.1)
        | inr htl => exact ih h htl
      · cases h

theorem not_mem_of_matchesMetadataName {name : String} (h : matchesMetadataName name = true)
    {c : Char} (hc : c = '\x00' ∨ c = ':') : c ∉ name.toList := by
  intro hmem
  have hshape := mem_of_metadataNameFrom h hmem
  obtain rfl | rfl := hc
  · exact absurd hshape (by decide)
  · exact absurd hshape (by decide)

/-! ## Tails -/

/-- What `invokeNode` appends to the client's session id. -/
def scopedTail (pipelineName nodeID : String) : String := "::" ++ pipelineName ++ "::" ++ nodeID

theorem scopedSession_eq (sessionID pipelineName nodeID : String) :
    scopedSession sessionID pipelineName nodeID =
      sessionID ++ scopedTail pipelineName nodeID := by
  simp only [scopedSession, scopedTail, String.append_assoc]

private theorem toList_scopedTail (p n : String) :
    (scopedTail p n).toList = ':' :: ':' :: (p.toList ++ ':' :: ':' :: n.toList) := by
  simp [scopedTail, toList_append]

variable {p₁ p₂ n₁ n₂ : String}

theorem scopedTail_inj (hp₁ : matchesMetadataName p₁ = true) (hp₂ : matchesMetadataName p₂ = true)
    (h : scopedTail p₁ n₁ = scopedTail p₂ n₂) : p₁ = p₂ ∧ n₁ = n₂ := by
  -- the first colon after the leading ones ends the pipeline's name
  have hlist : p₁.toList ++ ':' :: (':' :: n₁.toList) = p₂.toList ++ ':' :: (':' :: n₂.toList) := by
    have h' := congrArg String.toList h
    rw [toList_scopedTail, toList_scopedTail] at h'
    exact (List.cons.inj (List.cons.inj h').2).2
  obtain ⟨hp, hn⟩ := List.append_sep_inj (not_mem_of_matchesMetadataName hp₁ (.inr rfl))
    (not_mem_of_matchesMetadataName hp₂ (.inr rfl)) hlist
  exact ⟨toList_inj.mp hp, toList_inj.mp (List.cons.inj hn).2⟩

/-- The node id, after its separator, ends in the tail of another node. -/
def EndsInTail (nodeID pipelineName otherID : String) : Prop :=
  (scopedTail pipelineName otherID).toList <:+ ':' :: ':' :: nodeID.toList

/-- A separator in a name without colons, a separator and an id is in the last two. -/
private theorem suffix_of_cut {name id y w : List Char} (hname : ':' ∉ name)
    (h : y ++ ':' :: ':' :: w = name ++ ':' :: ':' :: id) :
    ':' :: ':' :: w <:+ ':' :: ':' :: id := by
  obtain ⟨c, hc, hrest⟩ | ⟨c, hc, hrest⟩ := List.append_eq_append_iff.mp h
  · -- a cut inside the name is at its end
    have hcolon : ':' ∉ c := fun hmem => hname (hc ▸ List.mem_append_right y hmem)
    obtain ⟨_, hid⟩ := List.append_sep_inj List.not_mem_nil hcolon hrest
    exact ⟨[], congrArg (List.cons ':') hid⟩
  · exact ⟨c, hrest.symm⟩

/-- If a tail ends in another tail, then its node id does, or they are the same. -/
private theorem endsInTail_of_suffix (hp₁ : matchesMetadataName p₁ = true)
    (h : (scopedTail p₂ n₂).toList <:+ (scopedTail p₁ n₁).toList) :
    scopedTail p₁ n₁ = scopedTail p₂ n₂ ∨ EndsInTail n₁ p₂ n₂ := by
  have hcolon := not_mem_of_matchesMetadataName hp₁ (.inr rfl)
  obtain ⟨x, hx⟩ := h
  -- what `x` cuts off: nothing, one colon, or more
  match x with
  | [] => exact .inl (toList_inj.mp hx.symm)
  | [_] =>
    rw [toList_scopedTail, toList_scopedTail] at hx
    have hcut : [] ++ ':' :: (p₂.toList ++ ':' :: ':' :: n₂.toList) =
        p₁.toList ++ ':' :: ':' :: n₁.toList := (List.cons.inj (List.cons.inj hx).2).2
    have hempty : p₁ = "" :=
      toList_inj.mp (List.append_sep_inj List.not_mem_nil hcolon hcut).1.symm
    rw [hempty] at hp₁
    exact absurd hp₁ (by decide)
  | _ :: _ :: y =>
    rw [toList_scopedTail, toList_scopedTail] at hx
    right
    rw [EndsInTail, toList_scopedTail]
    exact suffix_of_cut hcolon (List.cons.inj (List.cons.inj hx).2).2

/-- Scoped session ids of different sessions or nodes are equal only if a node id ends in
    the other node's tail. -/
theorem endsInTail_of_scopedSession_eq {s₁ s₂ : String} (hp₁ : matchesMetadataName p₁ = true)
    (hp₂ : matchesMetadataName p₂ = true) (hne : (s₁, p₁, n₁) ≠ (s₂, p₂, n₂))
    (h : scopedSession s₁ p₁ n₁ = scopedSession s₂ p₂ n₂) :
    EndsInTail n₁ p₂ n₂ ∨ EndsInTail n₂ p₁ n₁ := by
  rw [scopedSession_eq, scopedSession_eq] at h
  have hlist : s₁.toList ++ (scopedTail p₁ n₁).toList = s₂.toList ++ (scopedTail p₂ n₂).toList := by
    simpa only [toList_append] using congrArg String.toList h
  -- equal tails would make the sessions equal as well
  have htails : scopedTail p₁ n₁ ≠ scopedTail p₂ n₂ := by
    intro htail
    obtain ⟨rfl, rfl⟩ := scopedTail_inj hp₁ hp₂ htail
    rw [toList_inj.mp (List.append_cancel_right hlist)] at hne
    exact hne rfl
  -- of two endings of one text, one is an ending of the other
  cases List.suffix_or_suffix_of_suffix ⟨s₁.toList, rfl⟩ ⟨s₂.toList, hlist.symm⟩ with
  | inl hsuffix =>
    cases endsInTail_of_suffix hp₂ hsuffix with
    | inl heq => exact absurd heq.symm htails
    | inr hends => exact .inr hends
  | inr hsuffix =>
    cases endsInTail_of_suffix hp₁ hsuffix with
    | inl heq => exact absurd heq htails
    | inr hends => exact .inl hends

/-- If a node id ends in the other node's tail, a session id makes up for the rest. -/
theorem EndsInTail.exists_session (h : EndsInTail n₁ p₂ n₂) (p₁ : String) :
    n₁ ≠ n₂ ∧ ∃ s, scopedSession "" p₁ n₁ = scopedSession s p₂ n₂ := by
  have hlen := h.length_le
  rw [toList_scopedTail] at hlen
  simp only [List.length_cons, List.length_append] at hlen
  obtain ⟨x, hx⟩ := h
  refine ⟨fun heq => ?_, String.ofList (':' :: ':' :: p₁.toList ++ x), ?_⟩
  · rw [heq] at hlen
    omega
  · rw [scopedSession_eq, scopedSession_eq]
    apply toList_inj.mp
    have hrest : String.toList (String.ofList (':' :: ':' :: p₁.toList ++ x)) =
        ':' :: ':' :: p₁.toList ++ x := String.toList_ofList
    rw [toList_append, toList_append, toList_scopedTail p₁, hrest,
      List.append_assoc, hx]
    simp

/-! ## Keys -/

/-- With one tenant and names free of NUL, the key determines agent name and session. -/
theorem scopedSessionKey_inj {tenantID name₁ name₂ sid₁ sid₂ : String}
    (h₁ : matchesMetadataName name₁ = true) (h₂ : matchesMetadataName name₂ = true) :
    scopedSessionKey tenantID name₁ sid₁ = scopedSessionKey tenantID name₂ sid₂ ↔
      name₁ = name₂ ∧ sid₁ = sid₂ := by
  refine ⟨fun h => ?_, fun ⟨hname, hsid⟩ => by rw [hname, hsid]⟩
  have hlist : name₁.toList ++ '\x00' :: sid₁.toList = name₂.toList ++ '\x00' :: sid₂.toList := by
    have h' := congrArg String.toList h
    simpa [scopedSessionKey, toList_append] using h'
  obtain ⟨hname, hsid⟩ := List.append_sep_inj (not_mem_of_matchesMetadataName h₁ (.inl rfl))
    (not_mem_of_matchesMetadataName h₂ (.inl rfl)) hlist
  exact ⟨toList_inj.mp hname, toList_inj.mp hsid⟩

/-- Session separation, for nodes `n₁` and `n₂` of accepted pipelines that run for one
    tenant on the agents `d₁` and `d₂`, and for direct requests to `d₁`. Invocations that
    differ in client session, pipeline or node have different keys, and a direct request
    with a session id of its own has another key than `n₂`, exactly if the agents have
    different names or neither node id ends in the tail of the other node. -/
theorem nodeKeys_distinct_iff (defs : Definitions) (tenantID : String)
    {ord₁ ord₂ : MapOrder} {file₁ file₂ : String} {lineColOf₁ lineColOf₂ : String → Int × Int}
    {quote₁ quote₂ : String → String} {p₁ p₂ : PipelineDefinition}
    (hp₁ : validatePipeline ord₁ file₁ lineColOf₁ quote₁ p₁ = none)
    (hp₂ : validatePipeline ord₂ file₂ lineColOf₂ quote₂ p₂ = none)
    (n₁ n₂ : PipelineAgent) (d₁ d₂ : DefPtr)
    (hd₁ : matchesMetadataName (defs d₁).metadata.name = true)
    (hd₂ : matchesMetadataName (defs d₂).metadata.name = true) :
    ((∀ s₁ s₂ i₁ i₂, (s₁, p₁.metadata.name, n₁.id) ≠ (s₂, p₂.metadata.name, n₂.id) →
        requestKey defs tenantID d₁ (nodeRequest p₁.metadata.name s₁ n₁ i₁) ≠
          requestKey defs tenantID d₂ (nodeRequest p₂.metadata.name s₂ n₂ i₂)) ∧
      (∀ req : InboundRequest,
        (∀ s, req.sessionID ≠ scopedSession s p₂.metadata.name n₂.id) →
        ∀ s i, requestKey defs tenantID d₁ req ≠
          requestKey defs tenantID d₂ (nodeRequest p₂.metadata.name s n₂ i))) ↔
      ((defs d₁).metadata.name = (defs d₂).metadata.name →
        ¬ EndsInTail n₁.id p₂.metadata.name n₂.id ∧
          ¬ EndsInTail n₂.id p₁.metadata.name n₁.id) := by
  have hname₁ := (wellFormed_of_accepted hp₁).name
  have hname₂ := (wellFormed_of_accepted hp₂).name
  constructor
  · -- if an id ends in the other tail, choose the sessions such that the keys agree
    rintro ⟨hnodes, _⟩ hagents
    have hkey : ∀ {s₁ s₂}, scopedSession s₁ p₁.metadata.name n₁.id =
        scopedSession s₂ p₂.metadata.name n₂.id → n₁.id = n₂.id := by
      intro s₁ s₂ hsession
      by_contra hne
      refine hnodes s₁ s₂ "" "" (fun htriple => hne ?_) ?_
      · exact (Prod.mk.inj (Prod.mk.inj htriple).2).2
      · exact (scopedSessionKey_inj hd₁ hd₂).mpr ⟨hagents, hsession⟩
    refine ⟨fun hends => ?_, fun hends => ?_⟩
    · obtain ⟨hne, _, hsession⟩ := hends.exists_session p₁.metadata.name
      exact hne (hkey hsession)
    · obtain ⟨hne, _, hsession⟩ := hends.exists_session p₂.metadata.name
      exact hne (hkey hsession.symm).symm
  · -- equal keys mean equal agent names and equal scoped sessions
    intro hcond
    refine ⟨fun s₁ s₂ i₁ i₂ hne hkey => ?_, fun req hdirect s i hkey => ?_⟩
    · obtain ⟨hagents, hsession⟩ := (scopedSessionKey_inj hd₁ hd₂).mp hkey
      cases endsInTail_of_scopedSession_eq hname₁ hname₂ hne hsession with
      | inl hends => exact (hcond hagents).1 hends
      | inr hends => exact (hcond hagents).2 hends
    · exact hdirect s ((scopedSessionKey_inj hd₁ hd₂).mp hkey).2

/-- Two nodes on one agent. -/
def pairPipeline : PipelineDefinition where
  metadata := { name := "p" }
  spec := {
    topology := topologySequential
    agents := [⟨"n", "bot"⟩, ⟨"m", "bot"⟩] }

/-- The agent of the nodes below. -/
def nodeDefs : Definitions := fun _ => { metadata := { name := "bot" } }

theorem nodeKeys_distinct_pair :
    validatePipeline .stored "p.yaml" (fun _ => (0, 0)) (fun s => s) pairPipeline = none ∧
      requestKey nodeDefs "" 0 (nodeRequest "p" "s" ⟨"n", "bot"⟩ "hi") ≠
        requestKey nodeDefs "" 0 (nodeRequest "p" "s" ⟨"m", "bot"⟩ "hi") := by
  have haccepted : validatePipeline .stored "p.yaml" (fun _ => (0, 0)) (fun s => s)
      pairPipeline = none := by decide
  have hiff := nodeKeys_distinct_iff nodeDefs "" haccepted haccepted ⟨"n", "bot"⟩ ⟨"m", "bot"⟩
    0 0 (by decide) (by decide)
  have hseparate := (hiff.mpr fun _ => by unfold EndsInTail; decide).1
  exact ⟨haccepted, hseparate "s" "s" "hi" "hi" (by decide)⟩

/-! ## A collision -/

/-- Two nodes on one agent; the id of the second ends in the tail of the first. -/
def nestedPipeline : PipelineDefinition where
  metadata := { name := "p" }
  spec := {
    topology := topologySequential
    agents := [⟨"n", "bot"⟩, ⟨"p::n", "bot"⟩] }

/-- An engine with the nodes' agent. -/
def nestedEngine : Engine plainHost :=
  { Engine.start plainHost 60 with
    registry := AgentRegistry.newAgentRegistry.register nodeDefs .stored (some 0) }

def nestedRun (engine : Engine plainHost) (sessionID : String) : Engine plainHost :=
  (executePipeline nodeDefs (fun _ => plainEnv) .stored "" engine (some nestedPipeline) "hi"
    sessionID).state.engine

/-- The node `p::n` in session `s` and the node `n` in session `s::p` share a key, and
    after one run in each session the second node goes on with the first one's turns. -/
theorem nestedNodes_shareKey :
    validatePipeline .stored "p.yaml" (fun _ => (0, 0)) (fun s => s) nestedPipeline = none ∧
      ("s", "p", "p::n") ≠ ("s::p", "p", "n") ∧
      requestKey nodeDefs "" 0 (nodeRequest "p" "s" ⟨"p::n", "bot"⟩ "hi") =
        requestKey nodeDefs "" 0 (nodeRequest "p" "s::p" ⟨"n", "bot"⟩ "hi") ∧
      ((nestedRun (nestedRun nestedEngine "s") "s::p").states.view
        (requestKey nodeDefs "" 0 (nodeRequest "p" "s::p" ⟨"n", "bot"⟩ "hi"))).map
          Session.turnCount = some 2 := by
  exact ⟨by decide, by decide, by decide, by decide⟩

end MockAgents

