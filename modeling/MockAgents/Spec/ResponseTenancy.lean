import MockAgents.Spec.ChaosIsolation
import MockAgents.Spec.ResponseChains

/-!
# Tenants of the response store

The store of the Responses API is one table for all tenants: neither the lookup of a
`previous_response_id` nor the eviction of old responses asks whose response it is. A run
keeps the tenants apart as long as no request continues a stored response of another tenant
and no request continues a response of its own that was already dropped.

The server keeps a log of the responses that it handed out, with the tenant of each. The
log is not part of the code: it says to whom an id was issued.
-/

namespace MockAgents

/-! ## What one tenant sees of an engine -/

namespace Engine

variable {host : Host} (defs : Definitions)

open ChaosInjector (SameEntry)

/-- The engines have the same registry, the same sessions of tenant `t`, and the same chaos
    counters of the kinds and names in `K`. -/
structure AlikeFor (t : String) (K : FaultKind → String → Prop) (e e' : Engine host) : Prop where
  registry : e.registry = e'.registry
  sessions : SessionsAlike (· = t) e.states e'.states
  chaos : ∀ kind name, K kind name → SameEntry kind name e.chaos e'.chaos

variable {t : String} {K : FaultKind → String → Prop} {e e' : Engine host}

theorem AlikeFor.refl (h : e.states.Separate) : AlikeFor t K e e :=
  ⟨rfl, .refl h, fun kind name _ => SameEntry.refl kind name e.chaos⟩

theorem AlikeFor.before (h : AlikeFor t K e e') (agent : AgentDefinition)
    (draws : ChaosDraws)
    (hK : ∀ kind, agent.counts kind = true → K kind agent.metadata.name) :
    (e.chaos.before agent draws).2 = (e'.chaos.before agent draws).2 ∧
      AlikeFor t K { e with chaos := (e.chaos.before agent draws).1 }
        { e' with chaos := (e'.chaos.before agent draws).1 } := by
  obtain ⟨hdecision, hagree⟩ := ChaosInjector.before_sameResult agent draws
    (K := fun kind => K kind agent.metadata.name) hK fun kind hkind => h.chaos kind _ hkind
  refine ⟨hdecision, h.registry, h.sessions, fun kind name hkind => ?_⟩
  by_cases hname : name = agent.metadata.name
  · subst hname
    exact hagree kind hkind
  · -- entries of other names are left alone on both sides
    have hleft := ChaosInjector.before_sameEntry e.chaos agent draws kind name (.inl hname)
    have hright := ChaosInjector.before_sameEntry e'.chaos agent draws kind name (.inl hname)
    exact hleft.trans ((h.chaos kind name hkind).trans hright.symm)

/-- A request of tenant `t` has the same outcome on both engines. -/
theorem AlikeFor.request (h : AlikeFor t K e e') (ht : NulFree t) (req : InboundRequest)
    (env : RequestEnv host)
    (hK : ∀ p, resolveAgentForTenant defs env.ord e.registry req t = .ok p →
      ∀ kind, (defs p).counts kind = true → K kind (defs p).metadata.name) :
    (e.processRequestContext defs t req env).2 = (e'.processRequestContext defs t req env).2 ∧
      AlikeFor t K (e.processRequestContext defs t req env).1
        (e'.processRequestContext defs t req env).1 := by
  have hsame : resolveAgentForTenant defs env.ord e'.registry req t =
      resolveAgentForTenant defs env.ord e.registry req t := by rw [h.registry]
  unfold processRequestContext
  rw [hsame]
  cases hres : resolveAgentForTenant defs env.ord e.registry req t with
  | error err => exact ⟨rfl, h⟩
  | ok p =>
    cases env.ctxErr with
    | some msg => exact ⟨rfl, h⟩
    | none =>
      obtain ⟨hdecision, hnext⟩ := h.before (defs p) env.draws (hK p hres)
      simp only [← hdecision]
      split
      · exact ⟨rfl, hnext⟩
      · split
        · exact ⟨rfl, hnext⟩
        · obtain ⟨hout, hs⟩ := hnext.sessions.serveTurn p (defs p) req env
            (latestUserMessage req.messages) (latestUserImageCount req.messages) rfl ht
          exact ⟨hout, h.registry, hs, hnext.chaos⟩

/-- A request of another tenant, to an agent whose counters are not in `K`, changes nothing
    that tenant `t` sees. -/
theorem AlikeFor.request_left (h : AlikeFor t K e e') {t' : String} (hne : t' ≠ t)
    (ht' : NulFree t') (req : InboundRequest) (env : RequestEnv host)
    (hK : ∀ p, resolveAgentForTenant defs env.ord e.registry req t' = .ok p →
      ∀ kind, (defs p).counts kind = true → ¬ K kind (defs p).metadata.name) :
    AlikeFor t K (e.processRequestContext defs t' req env).1 e' := by
  unfold processRequestContext
  cases hres : resolveAgentForTenant defs env.ord e.registry req t' with
  | error err => exact h
  | ok p =>
    cases env.ctxErr with
    | some msg => exact h
    | none =>
      have hnext : AlikeFor t K { e with chaos := (e.chaos.before (defs p) env.draws).1 } e' := by
        refine ⟨h.registry, h.sessions, fun kind name hkind => ?_⟩
        have hframe : name ≠ (defs p).metadata.name ∨ (defs p).counts kind = false := by
          by_cases hname : name = (defs p).metadata.name
          · right
            rw [← Bool.not_eq_true]
            exact fun hcounts => hK p hres kind hcounts (hname ▸ hkind)
          · exact .inl hname
        exact (ChaosInjector.before_sameEntry e.chaos (defs p) env.draws kind name hframe).trans
          (h.chaos kind name hkind)
      simp only
      split
      · exact hnext
      · split
        · exact hnext
        · exact ⟨h.registry, hnext.sessions.serveTurn_left p (defs p) req env _ _ hne ht',
            hnext.chaos⟩

end Engine

/-! ## The server -/

/-- A response that was handed out, and the tenant who got it. -/
structure Issued where
  id : String
  tenantID : String
  deriving DecidableEq

/-- The handler with the log of the responses handed out, newest first. -/
structure ResponsesServer (host : Host) where
  handler : ResponsesHandler host
  issued : List Issued

def ResponsesResult.stored (r : ResponsesResult) : Bool := (r.outcome.bind (·.resp)).isSome

namespace ResponsesServer

variable {host : Host} (lib : AdapterLib) (defs : Definitions)

/-- A server that has handed out nothing yet. -/
def start (e : Engine host) : ResponsesServer host := ⟨newResponsesHandler e, []⟩

/-- A call, with its entry in the log. -/
def serve (s : ResponsesServer host) (call : ResponsesCall host) :
    ResponsesServer host × ResponsesResult :=
  let served := s.handler.handleResponses lib defs call
  ({ handler := served.1
     issued := if served.2.stored then ⟨call.responseID, call.tenantID⟩ :: s.issued
       else s.issued },
    served.2)

def ids (s : ResponsesServer host) : List String := s.issued.map (·.id)

def previous (call : ResponsesCall host) : Option String :=
  match call.body with
  | .error _ => none
  | .ok req => nonEmpty req.previousResponseID

variable {req : ResponsesRequest}

theorem previous_of_body {call : ResponsesCall host} (h : call.body = .ok req) :
    previous call = nonEmpty req.previousResponseID := by
  simp only [previous, h]

/-- The call draws a new id. If it continues a response, then that is one of its own tenant
    that is still stored, or one of another tenant that is not. -/
structure Permitted (s : ResponsesServer host) (call : ResponsesCall host) : Prop where
  fresh : call.responseID ∉ s.ids
  continues : ∀ i ∈ s.issued, previous call = some i.id →
    (i.tenantID = call.tenantID ↔ i.id ∈ s.ids.take maxStoredResponses)

instance (s : ResponsesServer host) (call : ResponsesCall host) : Decidable (Permitted s call) :=
  decidable_of_iff (call.responseID ∉ s.ids ∧ ∀ i ∈ s.issued, previous call = some i.id →
      (i.tenantID = call.tenantID ↔ i.id ∈ s.ids.take maxStoredResponses))
    ⟨fun h => ⟨h.1, h.2⟩, fun h => ⟨h.1, h.2⟩⟩

def resolved (r : AgentRegistry) (call : ResponsesCall host) : Option DefPtr :=
  match call.body with
  | .error _ => none
  | .ok req =>
    (Engine.resolveAgentForTenant defs call.env.ord r { model := req.model }
      call.tenantID).toOption

/-- Calls of different tenants never count faults in the same chaos counter. -/
def NoSharedFaults (r : AgentRegistry) (calls : List (ResponsesCall host)) : Prop :=
  ∀ c₁ ∈ calls, ∀ c₂ ∈ calls, c₁.tenantID ≠ c₂.tenantID →
    ∀ p₁ ∈ resolved defs r c₁, ∀ p₂ ∈ resolved defs r c₂,
      (defs p₁).metadata.name = (defs p₂).metadata.name →
      ∀ kind, ¬((defs p₁).counts kind = true ∧ (defs p₂).counts kind = true)

/-- A call that is well formed but continues a response issued to another tenant gets the
    not-found error. -/
def ForeignNotFound (s : ResponsesServer host) (call : ResponsesCall host) : Prop :=
  ∀ req id i, call.body = .ok req → req.model ≠ "" → (parseResponsesInput req.input).isOk →
    nonEmpty req.previousResponseID = some id → i ∈ s.issued → i.id = id →
    i.tenantID ≠ call.tenantID → (s.serve lib defs call).2.answer = previousNotFound id

/-! ## Two runs -/

/-- A state of the full run and a state of the run of tenant `t` alone. -/
structure AlikeFor (r : AgentRegistry) (t : String) (K : FaultKind → String → Prop)
    (s s' : ResponsesServer host) : Prop where
  registry : s.handler.engine.registry = r
  engine : Engine.AlikeFor t K s.handler.engine s'.handler.engine
  holds : ResponseStore.Holds s.ids s.handler.store
  holds' : ResponseStore.Holds s'.ids s'.handler.store
  issued : s'.issued = s.issued.filter (·.tenantID == t)
  stored : ∀ i ∈ s.issued, i.tenantID = t → ∀ msgs, s.handler.store.get i.id = some msgs →
    s'.handler.store.get i.id = some msgs

variable {r : AgentRegistry} {t : String} {K : FaultKind → String → Prop}
  {s s' : ResponsesServer host} {call : ResponsesCall host}

variable {id : String}

theorem assembleMessages_congr {store store' : ResponseStore}
    (h : ∀ id, nonEmpty req.previousResponseID = some id → store.get id = store'.get id) :
    assembleMessages store req = assembleMessages store' req := by
  have hprior : priorMessages store req = priorMessages store' req := by
    unfold priorMessages
    cases hid : nonEmpty req.previousResponseID with
    | none => rfl
    | some id => simp [h id hid]
  simp only [assembleMessages, hprior]

/-- The newest `n` entries that satisfy `p` include those among the newest `n`. -/
theorem mem_take_filter {α : Type} {l : List α} {p : α → Bool} {n : Nat} {a : α}
    (ha : a ∈ l.take n) (hp : p a = true) : a ∈ (l.filter p).take n := by
  have hsplit : l.filter p = (l.take n).filter p ++ (l.drop n).filter p := by
    rw [← List.filter_append, List.take_append_drop]
  have hlen : ((l.take n).filter p).length ≤ n :=
    (List.length_filter_le ..).trans (by simp)
  rw [hsplit, List.take_append, List.take_of_length_le hlen]
  exact List.mem_append_left _ (List.mem_filter.mpr ⟨ha, hp⟩)

section

variable (h : AlikeFor r t K s s')
include h

/-- The stored conversation that a permitted call of tenant `t` continues is the same in
    both runs. -/
theorem AlikeFor.get_eq (hp : Permitted s call) (ht : call.tenantID = t)
    (hid : previous call = some id) : s.handler.store.get id = s'.handler.store.get id := by
  have hmem' : (s'.handler.store.get id).isSome → ∃ i ∈ s.issued, i.id = id ∧ i.tenantID = t := by
    intro hsome
    have hin := List.mem_of_mem_take ((h.holds'.isSome_get id).mp hsome)
    obtain ⟨i, hi, rfl⟩ := List.mem_map.mp hin
    rw [h.issued, List.mem_filter] at hi
    exact ⟨i, hi.1, rfl, by simpa using hi.2⟩
  by_cases hissued : id ∈ s.ids
  · obtain ⟨i, hi, rfl⟩ := List.mem_map.mp hissued
    have hiff := hp.continues i hi hid
    by_cases howner : i.tenantID = t
    · -- an own response is still stored, and so it is in the other run
      have hsome := (h.holds.isSome_get i.id).mpr (hiff.mp (howner.trans ht.symm))
      obtain ⟨msgs, hmsgs⟩ := Option.isSome_iff_exists.mp hsome
      rw [hmsgs, h.stored i hi howner msgs hmsgs]
    · -- another tenant's response is gone, and was never in the other run
      have hgone : i.id ∉ s.ids.take maxStoredResponses :=
        fun hin => howner ((hiff.mpr hin).trans ht)
      rw [h.holds.get_eq_none hgone]
      symm
      rw [← Option.not_isSome_iff_eq_none]
      intro hsome
      obtain ⟨j, hj, hjid, hjt⟩ := hmem' hsome
      exact howner (List.inj_on_of_nodup_map h.holds.nodup hj hi hjid ▸ hjt)
  · -- an id that was never issued is in neither store
    rw [h.holds.get_eq_none fun hin => hissued (List.mem_of_mem_take hin)]
    symm
    rw [← Option.not_isSome_iff_eq_none]
    intro hsome
    obtain ⟨i, hi, rfl, _⟩ := hmem' hsome
    exact hissued (List.mem_map_of_mem hi)

/-- Both runs store a response of tenant `t`. -/
theorem AlikeFor.put (hid : id ∉ s.ids) (msgs : List RequestMessage) :
    AlikeFor r t K
      ⟨{ s.handler with store := s.handler.store.put id msgs }, ⟨id, t⟩ :: s.issued⟩
      ⟨{ s'.handler with store := s'.handler.store.put id msgs }, ⟨id, t⟩ :: s'.issued⟩ := by
  have hid' : id ∉ s'.ids := by
    intro hmem
    obtain ⟨i, hi, rfl⟩ := List.mem_map.mp hmem
    rw [h.issued, List.mem_filter] at hi
    exact hid (List.mem_map_of_mem hi.1)
  have hholds := h.holds.put hid msgs
  have hholds' := h.holds'.put hid' msgs
  have hnew : s.handler.store.get id = none :=
    h.holds.get_eq_none fun hin => hid (List.mem_of_mem_take hin)
  have hnew' : s'.handler.store.get id = none :=
    h.holds'.get_eq_none fun hin => hid' (List.mem_of_mem_take hin)
  have hissued : (⟨id, t⟩ :: s'.issued : List Issued) =
      (⟨id, t⟩ :: s.issued).filter (·.tenantID == t) := by
    rw [List.filter_cons_of_pos (by simp), h.issued]
  refine ⟨h.registry, h.engine, hholds, hholds', hissued, ?_⟩
  intro i hi howner m hm
  cases List.mem_cons.mp hi with
  | inl heq =>
    subst heq
    simp only [ResponseStore.get_put hnew, ResponseStore.get_put hnew', if_pos] at hm ⊢
    exact hm
  | inr hold =>
    have hne : i.id ≠ id := fun heq => hid (heq ▸ List.mem_map_of_mem hold)
    have hm' := h.stored i hold howner m (ResponseStore.get_of_get_put hnew hne hm)
    -- the run of tenant `t` alone drops a response no earlier
    have hin : i.id ∈ (id :: s.ids).take maxStoredResponses :=
      (hholds.isSome_get i.id).mp (by rw [hm]; rfl)
    have hlog : id :: s.ids = (⟨id, t⟩ :: s.issued : List Issued).map (·.id) := rfl
    rw [hlog, ← List.map_take] at hin
    obtain ⟨j, hj, hji⟩ := List.mem_map.mp hin
    obtain rfl : j = i :=
      List.inj_on_of_nodup_map (hlog ▸ hholds.nodup) (List.mem_of_mem_take hj) hi hji
    have hj' := mem_take_filter hj (p := (·.tenantID == t)) (by simpa using howner)
    rw [← hissued] at hj'
    have hin' : j.id ∈ (id :: s'.ids).take maxStoredResponses := by
      rw [show id :: s'.ids = (⟨id, t⟩ :: s'.issued : List Issued).map (·.id) from rfl,
        ← List.map_take]
      exact List.mem_map_of_mem hj'
    rw [ResponseStore.get_put_of_isSome hnew' hne ((hholds'.isSome_get j.id).mpr hin'), hm']

/-- The full run stores a response of another tenant. -/
theorem AlikeFor.put_left {t' : String} (hid : id ∉ s.ids) (hne : t' ≠ t)
    (msgs : List RequestMessage) :
    AlikeFor r t K
      ⟨{ s.handler with store := s.handler.store.put id msgs }, ⟨id, t'⟩ :: s.issued⟩ s' := by
  have hnew : s.handler.store.get id = none :=
    h.holds.get_eq_none fun hin => hid (List.mem_of_mem_take hin)
  refine ⟨h.registry, h.engine, h.holds.put hid msgs, h.holds', ?_, ?_⟩
  · rw [List.filter_cons_of_neg (by simpa using hne), h.issued]
  · intro i hi howner m hm
    cases List.mem_cons.mp hi with
    | inl heq =>
      subst heq
      exact absurd howner hne
    | inr hold =>
      have hne : i.id ≠ id := fun heq => hid (heq ▸ List.mem_map_of_mem hold)
      exact h.stored i hold howner m (ResponseStore.get_of_get_put hnew hne hm)

/-- Both runs change their engines. -/
theorem AlikeFor.with_engine {e e' : Engine host} (hreg : e.registry = r)
    (he : Engine.AlikeFor t K e e') :
    AlikeFor r t K ⟨{ s.handler with engine := e }, s.issued⟩
      ⟨{ s'.handler with engine := e' }, s'.issued⟩ :=
  ⟨hreg, he, h.holds, h.holds', h.issued, h.stored⟩

theorem AlikeFor.mem_resolved {messages : List RequestMessage} (hbody : call.body = .ok req)
    {p : DefPtr}
    (hres : Engine.resolveAgentForTenant defs call.env.ord s.handler.engine.registry
      (ResponsesHandler.inbound call req messages) call.tenantID = .ok p) :
    p ∈ resolved defs r call := by
  rw [h.registry] at hres
  simp only [resolved, hbody]
  exact congrArg Except.toOption hres

theorem AlikeFor.registry_process (call : ResponsesCall host) (req : ResponsesRequest)
    (messages : List RequestMessage) : (s.handler.process defs call req messages).1.registry = r :=
  (Engine.processRequestContext_registry ..).trans h.registry

/-- A call of tenant `t`, in both runs. -/
theorem AlikeFor.serve (hp : Permitted s call) (ht : call.tenantID = t) (hnul : NulFree t)
    (hK : ∀ p ∈ resolved defs r call, ∀ kind, (defs p).counts kind = true →
      K kind (defs p).metadata.name) :
    (s.serve lib defs call).2 = (s'.serve lib defs call).2 ∧
      AlikeFor r t K (s.serve lib defs call).1 (s'.serve lib defs call).1 := by
  subst ht
  unfold ResponsesServer.serve
  cases hbody : call.body with
  | error err =>
    rw [ResponsesHandler.handleResponses_bodyError lib defs hbody,
      ResponsesHandler.handleResponses_bodyError lib defs hbody]
    exact ⟨rfl, h⟩
  | ok req =>
    have hsame : assembleMessages s'.handler.store req = assembleMessages s.handler.store req :=
      (assembleMessages_congr fun id hid => h.get_eq hp rfl
        ((previous_of_body hbody).trans hid)).symm
    cases hmessages : assembleMessages s.handler.store req with
    | error answer =>
      rw [ResponsesHandler.handleResponses_rejected lib defs hbody hmessages,
        ResponsesHandler.handleResponses_rejected lib defs hbody (hsame.trans hmessages)]
      exact ⟨rfl, h⟩
    | ok messages =>
      have hprocess : (s.handler.process defs call req messages).2 =
            (s'.handler.process defs call req messages).2 ∧
          Engine.AlikeFor call.tenantID K (s.handler.process defs call req messages).1
            (s'.handler.process defs call req messages).1 :=
        h.engine.request defs hnul (ResponsesHandler.inbound call req messages) call.env
          fun p hres => hK p (h.mem_resolved defs hbody hres)
      obtain ⟨hout, he⟩ := hprocess
      have hnext := h.with_engine (h.registry_process defs call req messages) he
      cases hresp : (s.handler.process defs call req messages).2.resp with
      | none =>
        rw [ResponsesHandler.handleResponses_failed lib defs hbody hmessages hresp,
          ResponsesHandler.handleResponses_failed lib defs hbody (hsame.trans hmessages)
            (by rw [← hout, hresp]), ← hout]
        exact ⟨rfl, by simpa [ResponsesResult.stored, hresp] using hnext⟩
      | some resp =>
        rw [ResponsesHandler.handleResponses_served lib defs hbody hmessages hresp,
          ResponsesHandler.handleResponses_served lib defs hbody (hsame.trans hmessages)
            (by rw [← hout, hresp]), ← hout]
        refine ⟨?_, by simpa [ResponsesResult.stored, hresp] using hnext.put hp.fresh _⟩
        -- the answer depends on the engine through its registry only
        simp only [ResponsesHandler.writeResponse, ResponsesHandler.streamConfigFor,
          he.registry]

theorem AlikeFor.serve_left (hp : Permitted s call) (ht : call.tenantID ≠ t)
    (hnul : NulFree call.tenantID)
    (hK : ∀ p ∈ resolved defs r call, ∀ kind, (defs p).counts kind = true →
      ¬ K kind (defs p).metadata.name) :
    AlikeFor r t K (s.serve lib defs call).1 s' := by
  have hend := s.handler.handled lib defs call
  unfold ResponsesServer.serve
  generalize s.handler.handleResponses lib defs call = out at hend ⊢
  have hengine : ∀ req messages, call.body = .ok req →
      AlikeFor r t K ⟨{ s.handler with engine := (s.handler.process defs call req messages).1 },
        s.issued⟩ s' := by
    intro req messages hbody
    exact h.with_engine (h.registry_process defs call req messages)
      (h.engine.request_left defs ht hnul _ call.env fun p hres =>
        hK p (h.mem_resolved defs hbody hres))
  cases hend with
  | rejected hanswer => exact h
  | failed hbody hmessages hresp hanswer =>
    simpa [ResponsesResult.stored, hresp] using hengine _ _ hbody
  | served hbody hmessages hresp =>
    simpa [ResponsesResult.stored, hresp] using (hengine _ _ hbody).put_left hp.fresh ht _

end

/-! ## Runs -/

/-- The chaos counters in which calls of tenant `t` count. -/
def CountedBy (r : AgentRegistry) (calls : List (ResponsesCall host)) (t : String)
    (kind : FaultKind) (name : String) : Prop :=
  ∃ c ∈ calls, c.tenantID = t ∧ ∃ p ∈ resolved defs r c,
    (defs p).metadata.name = name ∧ (defs p).counts kind = true

theorem alikeFor_start {e : Engine host} (h : e.states.Separate) :
    AlikeFor e.registry t K (start e) (start e) where
  registry := rfl
  engine := .refl h
  holds := ResponseStore.holds_newResponseStore
  holds' := ResponseStore.holds_newResponseStore
  issued := rfl
  stored := nofun

theorem holds_serve (hp : Permitted s call)
    (h : ResponseStore.Holds s.ids s.handler.store) :
    ResponseStore.Holds (s.serve lib defs call).1.ids (s.serve lib defs call).1.handler.store := by
  have hend := s.handler.handled lib defs call
  unfold serve
  generalize s.handler.handleResponses lib defs call = out at hend ⊢
  cases hend with
  | rejected hanswer => exact h
  | failed hbody hmessages hresp hanswer =>
    simpa [ResponsesResult.stored, hresp, ids] using h
  | served hbody hmessages hresp =>
    simpa [ResponsesResult.stored, hresp, ids] using h.put hp.fresh _

theorem foreignNotFound (hp : Permitted s call)
    (h : ResponseStore.Holds s.ids s.handler.store) : ForeignNotFound lib defs s call := by
  intro req id i hbody hmodel hinput hprev hi hid howner
  have hnone : s.handler.store.get id = none := by
    refine h.get_eq_none fun hin => howner ?_
    have hnames : previous call = some i.id := by rw [previous_of_body hbody, hprev, hid]
    exact (hp.continues i hi hnames).mpr (hid ▸ hin)
  have hmessages : assembleMessages s.handler.store req = .error (previousNotFound id) := by
    unfold assembleMessages
    rw [if_neg hmodel]
    cases hparse : parseResponsesInput req.input with
    | error text =>
      rw [hparse] at hinput
      exact nomatch hinput
    | ok input => simp only [priorMessages, hprev, hnone]
  simp only [serve, ResponsesHandler.handleResponses_rejected lib defs hbody hmessages]

/-- In a run of permitted calls the tenants are kept apart. A call that continues a
    response issued to another tenant gets the not-found error, and every tenant gets the
    results that it would get alone. -/
theorem tenant_isolated (e : Engine host) (hsep : e.states.Separate)
    (calls : List (ResponsesCall host)) (hnul : ∀ c ∈ calls, NulFree c.tenantID)
    (hfaults : NoSharedFaults defs e.registry calls)
    (hpermitted : EveryStep (serve lib defs) Permitted (start e) calls) :
    EveryStep (serve lib defs) (ForeignNotFound lib defs) (start e) calls ∧
      ∀ t, (trace (serve lib defs) (start e) calls).filter (fun x => x.1.tenantID == t) =
        trace (serve lib defs) (start e) (calls.filter (·.tenantID == t)) := by
  constructor
  · exact hpermitted.imp (fun s => ResponseStore.Holds s.ids s.handler.store)
      (fun s call hp h => ⟨foreignNotFound lib defs hp h, holds_serve lib defs hp h⟩)
      ResponseStore.holds_newResponseStore
  · intro t
    apply trace_filter_eq_of_everyStep (serve lib defs) (·.tenantID == t)
      (AlikeFor e.registry t (CountedBy defs e.registry calls t)) Permitted calls _ _
      hpermitted (alikeFor_start hsep)
    · -- a call of tenant `t` counts faults in its own counters only
      intro s s' call hcall hp hkeep h
      have ht : call.tenantID = t := by simpa using hkeep
      exact h.serve lib defs hp ht (ht ▸ hnul call hcall) fun p hp' kind hcounts =>
        ⟨call, hcall, ht, p, hp', rfl, hcounts⟩
    · -- a call of another tenant never counts in one of them
      intro s s' call hcall hp hpurge h
      have ht : call.tenantID ≠ t := by simpa using hpurge
      refine h.serve_left lib defs hp ht (hnul call hcall) fun p hp' kind hcounts => ?_
      rintro ⟨c, hc, hct, q, hq, hname, hq'⟩
      exact hfaults c hc call hcall (fun heq => ht (heq ▸ hct)) q hq p hp' hname kind
        ⟨hq', hcounts⟩

/-! ## Two tenants -/

open ResponsesHandler (tutorDefs tutorServer plainLib ask)

/-- Two tenants ask the same agent, each in a conversation of its own. -/
def ownConversations : List (ResponsesCall plainHost) :=
  [{ ask none "What is a group?" "a1" "b1" with tenantID := "acme" },
    { ask none "What is a field?" "a2" "b2" with tenantID := "globex" },
    { ask (some "resp_b1") "And a ring?" "a3" "b3" with tenantID := "acme" },
    { ask (some "resp_b2") "Is it finite?" "a4" "b4" with tenantID := "globex" }]

/-- The agent has no chaos section, so nothing is counted. -/
theorem noSharedFaults_tutor (calls : List (ResponsesCall plainHost)) :
    NoSharedFaults tutorDefs tutorServer.engine.registry calls := by
  intro c₁ _ c₂ _ _ p₁ _ p₂ _ _ kind hcounts
  exact nomatch hcounts.1

theorem ownConversations_isolated :
    EveryStep (serve plainLib tutorDefs) (ForeignNotFound plainLib tutorDefs)
        (start tutorServer.engine) ownConversations ∧
      ∀ t, (trace (serve plainLib tutorDefs) (start tutorServer.engine)
          ownConversations).filter (fun x => x.1.tenantID == t) =
        trace (serve plainLib tutorDefs) (start tutorServer.engine)
          (ownConversations.filter (·.tenantID == t)) :=
  tenant_isolated plainLib tutorDefs tutorServer.engine
    (MemoryStore.separate_newMemoryStore 60) ownConversations (by decide)
    (noSharedFaults_tutor ownConversations) (by decide)

def privateQuestion : ResponsesCall plainHost :=
  { ask none "My account number is 4711." "a1" "b1" with tenantID := "acme" }

/-- Another tenant continues its response, with a tool result as the only input. -/
def borrow : ResponsesCall plainHost where
  tenantID := "globex"
  body := .ok {
    model := "gpt-4o"
    input := .items [{ type := "function_call_output", output := "ok" }]
    previousResponseID := some "resp_b1" }
  env := plainEnv
  newSession := "a2"
  newResponse := "b2"

/-- The other tenant is answered from the stored conversation instead of the not-found
    error that it gets alone. -/
theorem borrowed_answered :
    let s := (serve plainLib tutorDefs (start tutorServer.engine) privateQuestion).1
    s.issued = [⟨"resp_b1", "acme"⟩] ∧
      ((s.serve plainLib tutorDefs borrow).2.outcome.bind (·.input)).map (·.ctx.message) =
        some "My account number is 4711." ∧
      ¬ ForeignNotFound plainLib tutorDefs s borrow ∧
      (trace (serve plainLib tutorDefs) (start tutorServer.engine)
          [privateQuestion, borrow]).filter (fun x => x.1.tenantID == "globex") ≠
        trace (serve plainLib tutorDefs) (start tutorServer.engine) [borrow] := by
  intro s
  have hissued : s.issued = [⟨"resp_b1", "acme"⟩] := by decide
  have hok : (s.serve plainLib tutorDefs borrow).2.answer.isOk = true := by decide
  refine ⟨hissued, by decide, ?_, ?_⟩
  · intro hnotFound
    have hanswer := hnotFound _ "resp_b1" ⟨"resp_b1", "acme"⟩ rfl (by decide) rfl (by decide)
      (by simp [hissued]) rfl (by decide)
    rw [hanswer] at hok
    exact absurd hok (by decide)
  · intro heq
    have hanswers := congrArg (·.map fun x => x.2.answer.isOk) heq
    exact absurd hanswers (by decide)

end ResponsesServer

end MockAgents
