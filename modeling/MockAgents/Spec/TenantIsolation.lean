import MockAgents.Spec.TenantSessions
import MockAgents.Spec.Visibility

/-!
# Tenant noninterference of the engine

Deleting from a run everything that a tenant does, its requests and the registrations
and removals of its agents, does not change the outcome of any other request. The two
runs are related by `Alike`: outside the tenant's own agents and session keys, their
registries and stores hold the same.
-/

namespace MockAgents

open AgentRegistry (registerLocked_owned registerWithSource_eq removeForTenant_owned)

namespace Engine

variable {host : Host} (defs : Definitions)

/-! ## The relation between the two runs -/

/-- Outside the agents and session keys of tenant `b`, the two engines hold the same. -/
structure Alike (b : String) (e e' : Engine host) : Prop where
  indexed : e.registry.Indexed defs
  indexed' : e'.registry.Indexed defs
  owned : ∀ o n, o ≠ b →
    e.registry.getOwnedForTenant n o = e'.registry.getOwnedForTenant n o
  calm : ∀ o n p, e.registry.getOwnedForTenant n o = some p →
    (defs p).spec.behavior.chaos = none
  separate : e.states.Separate
  separate' : e'.states.Separate
  ttl : e.states.ttl = e'.states.ttl
  sessions : ∀ t name sid, t ≠ b → NulFree t →
    e.states.view (scopedSessionKey t name sid) = e'.states.view (scopedSessionKey t name sid)

variable {b : String} {e e' : Engine host}

theorem Alike.sessionsAlike (h : Alike defs b e e') : SessionsAlike (· ≠ b) e.states e'.states :=
  ⟨h.separate, h.separate', h.ttl, h.sessions⟩

theorem Alike.with_sessions {f f' : Engine host} (h : Alike defs b e e')
    (hreg : f.registry = e.registry) (hreg' : f'.registry = e'.registry)
    (hs : SessionsAlike (· ≠ b) f.states f'.states) : Alike defs b f f' where
  indexed := hreg ▸ h.indexed
  indexed' := hreg' ▸ h.indexed'
  owned := hreg ▸ hreg' ▸ h.owned
  calm := hreg ▸ h.calm
  separate := hs.separate
  separate' := hs.separate'
  ttl := hs.ttl
  sessions := hs.view

variable {t : String}

section

variable (p : DefPtr) (agent : AgentDefinition) (req : InboundRequest) (env : RequestEnv host)
  (userMsg : String) (imageCount : Int)

theorem Alike.serveTurn (h : Alike defs b e e') (htb : t ≠ b) (ht : NulFree t) :
    (e.serveTurn p agent t req env userMsg imageCount).2 =
        (e'.serveTurn p agent t req env userMsg imageCount).2 ∧
      Alike defs b (e.serveTurn p agent t req env userMsg imageCount).1
        (e'.serveTurn p agent t req env userMsg imageCount).1 := by
  obtain ⟨hout, hs⟩ := (h.sessionsAlike defs).serveTurn p agent req env userMsg imageCount htb ht
  exact ⟨hout, h.with_sessions defs rfl rfl hs⟩

/-- A turn of tenant `b` itself is invisible to the others. -/
theorem Alike.serveTurn_left (h : Alike defs b e e') (hb : NulFree b) :
    Alike defs b (e.serveTurn p agent b req env userMsg imageCount).1 e' :=
  h.with_sessions defs rfl rfl
    ((h.sessionsAlike defs).serveTurn_left p agent req env _ _ (fun hne => hne rfl) hb)

end

/-! ## Resolution -/

theorem Alike.seenAlike (h : Alike defs b e e') (hb : b ≠ "") (htb : t ≠ b) :
    AgentRegistry.SeenAlike t e.registry e'.registry :=
  ⟨fun n => h.owned t n htb, fun n => h.owned "" n hb.symm⟩

variable {r : AgentRegistry} {r' : AgentRegistry}

theorem resolveAgentForTenant_congr (hr : r.Indexed defs) (hr' : r'.Indexed defs)
    (h : AgentRegistry.SeenAlike t r r') (ord : MapOrder) (req : InboundRequest) :
    resolveAgentForTenant defs ord r req t = resolveAgentForTenant defs ord r' req t := by
  have hname : resolveByName r req t = resolveByName r' req t := by
    simp only [resolveByName, h.getForTenant]
  -- by model: the index answers as the scan of what `t` sees
  have hmodel : resolveByModel r req t = resolveByModel r' req t := by
    unfold resolveByModel
    split
    · rename_i hm
      exact h.getByModelForTenant defs hr hr' hm
    · rfl
  -- the sole agent is only taken for anonymous callers
  have hdefault : resolveDefault defs ord r t = resolveDefault defs ord r' t := by
    unfold resolveDefault
    split
    · rename_i ht
      subst ht
      rw [h.listForTenant defs hr.keyed]
    · rfl
  simp only [resolveAgentForTenant, hname, hmodel, hdefault, h.listNamesForTenant]

variable {ord : MapOrder} {req : InboundRequest} {p : DefPtr}

/-- A resolved agent is a registered one. -/
theorem resolveAgentForTenant_registered (hr : r.Indexed defs)
    (h : resolveAgentForTenant defs ord r req t = .ok p) :
    ∃ o n, r.getOwnedForTenant n o = some p := by
  -- an agent found by name is owned by the tenant or global
  have hget : ∀ n, r.getForTenant n t = some p → ∃ o n, r.getOwnedForTenant n o = some p := by
    intro n hn
    rw [AgentRegistry.getForTenant_eq] at hn
    obtain hn | ⟨_, hn⟩ := Option.or_eq_some_iff.mp hn
    · exact ⟨t, n, hn⟩
    · exact ⟨"", n, hn⟩
  have hslot : ∀ m o, m ≠ "" → r.byModelTenant.get₂ m o = some p →
      ∃ o n, r.getOwnedForTenant n o = some p := by
    intro m o hm hp
    obtain ⟨n, hn⟩ := ((hr.bucket m hm).slot o p).mp hp |>.declares
    exact ⟨o, n, hn.1⟩
  simp only [resolveAgentForTenant] at h
  split at h
  · -- found by name
    rename_i q hname
    obtain rfl := Except.ok.inj h
    simp only [resolveByName] at hname
    split at hname
    · exact hget _ hname
    · cases hname
  · split at h
    · -- found by model
      rename_i q hmodel
      obtain rfl := Except.ok.inj h
      simp only [resolveByModel] at hmodel
      split at hmodel
      · rename_i hm
        rw [AgentRegistry.getByModelForTenant_eq_get₂] at hmodel
        obtain hq | ⟨_, hq⟩ := Option.or_eq_some_iff.mp hmodel
        · exact hslot _ _ hm hq
        · exact hslot _ _ hm hq
      · cases hmodel
    · split at h
      · -- the sole agent
        rename_i q hdefault
        obtain rfl := Except.ok.inj h
        simp only [resolveDefault] at hdefault
        split at hdefault
        · rename_i ht
          subst ht
          split at hdefault
          · rename_i q' hlist
            obtain rfl := Option.some.inj hdefault
            have hmem : q' ∈ r.listForTenant defs ord "" := by
              rw [hlist]
              exact List.mem_singleton_self q'
            obtain ⟨n, hn⟩ := (AgentRegistry.mem_listForTenant defs ord r "" q').mp hmem
            exact hget n hn
          · cases hdefault
        · cases hdefault
      · cases h

/-! ## Requests -/

theorem before_calm (c : ChaosInjector) {agent : AgentDefinition} (draws : ChaosDraws)
    (h : agent.spec.behavior.chaos = none) : c.before agent draws = (c, none) := by
  have hcfg : chaosFor agent = none := by simp only [chaosFor, h]
  simp only [ChaosInjector.before, hcfg]

theorem processRequestContext_calm (e : Engine host) (t : String)
    (req : InboundRequest) (env : RequestEnv host)
    (hcalm : ∀ p, resolveAgentForTenant defs env.ord e.registry req t = .ok p →
      (defs p).spec.behavior.chaos = none) :
    e.processRequestContext defs t req env =
      match resolveAgentForTenant defs env.ord e.registry req t with
      | .error err => (e, { err := some err })
      | .ok p =>
        match env.ctxErr with
        | some msg => (e, { agent := some p, err := some (.context msg) })
        | none =>
          if latestUserMessage req.messages = "" ∧ latestUserImageCount req.messages = 0 then
            (e, { agent := some p, err := some .emptyMessage })
          else e.serveTurn p (defs p) t req env (latestUserMessage req.messages)
            (latestUserImageCount req.messages) := by
  unfold processRequestContext
  cases hres : resolveAgentForTenant defs env.ord e.registry req t with
  | error err => rfl
  | ok p =>
    cases env.ctxErr with
    | some msg => rfl
    | none =>
      have hbefore := before_calm e.chaos env.draws (hcalm p hres)
      simp [hbefore]

section

variable (h : Alike defs b e e')
include h

theorem Alike.resolved_calm (hres : resolveAgentForTenant defs ord e.registry req t = .ok p) :
    (defs p).spec.behavior.chaos = none := by
  obtain ⟨o, n, hp⟩ := resolveAgentForTenant_registered defs h.indexed hres
  exact h.calm o n p hp

theorem Alike.request (hb : b ≠ "") (htb : t ≠ b) (ht : NulFree t) (req : InboundRequest)
    (env : RequestEnv host) :
    (e.processRequestContext defs t req env).2 = (e'.processRequestContext defs t req env).2 ∧
      Alike defs b (e.processRequestContext defs t req env).1
        (e'.processRequestContext defs t req env).1 := by
  -- both engines resolve the request to the same agent, and chaos leaves it alone
  have hcongr := resolveAgentForTenant_congr defs h.indexed h.indexed'
    (h.seenAlike defs hb htb) env.ord req
  rw [processRequestContext_calm defs e t req env fun p hres => h.resolved_calm defs hres,
    processRequestContext_calm defs e' t req env fun p hres =>
      h.resolved_calm defs (hcongr.trans hres), hcongr]
  cases resolveAgentForTenant defs env.ord e'.registry req t with
  | error err => exact ⟨rfl, h⟩
  | ok p =>
    cases env.ctxErr with
    | some msg => exact ⟨rfl, h⟩
    | none =>
      simp only
      split
      · exact ⟨rfl, h⟩
      · exact h.serveTurn defs p (defs p) req env _ _ htb ht

theorem Alike.request_left (hb : NulFree b) (req : InboundRequest) (env : RequestEnv host) :
    Alike defs b (e.processRequestContext defs b req env).1 e' := by
  rw [processRequestContext_calm defs e b req env fun p hres => h.resolved_calm defs hres]
  cases resolveAgentForTenant defs env.ord e.registry req b with
  | error err => exact h
  | ok p =>
    cases env.ctxErr with
    | some msg => exact h
    | none =>
      simp only
      split
      · exact h
      · exact h.serveTurn_left defs p (defs p) req env _ _ hb

/-! ## Registrations and removals -/

/-- Both engines change their registries. -/
theorem Alike.write (hr : r.Indexed defs) (hr' : r'.Indexed defs)
    (howned : ∀ o n, o ≠ b → r.getOwnedForTenant n o = r'.getOwnedForTenant n o)
    (hcalm : ∀ o n p, r.getOwnedForTenant n o = some p → (defs p).spec.behavior.chaos = none) :
    Alike defs b { e with registry := r } { e' with registry := r' } :=
  { h with indexed := hr, indexed' := hr', owned := howned, calm := hcalm }

theorem Alike.register (p : Option DefPtr) (ord : MapOrder)
    (hp : ∀ q, p = some q → (defs q).spec.behavior.chaos = none) :
    Alike defs b { e with registry := e.registry.register defs ord p }
      { e' with registry := e'.registry.register defs ord p } := by
  cases p with
  | none => exact h
  | some p =>
    refine h.write defs (h.indexed.registerLocked defs ord p)
      (h.indexed'.registerLocked defs ord p) ?_ ?_
    · intro o n ho
      simp only [AgentRegistry.register, registerLocked_owned, h.owned o n ho]
    · intro o n q hq
      simp only [AgentRegistry.register, registerLocked_owned] at hq
      split at hq
      · exact hp q hq
      · exact h.calm o n q hq

theorem Alike.register_left (p : DefPtr) (ord : MapOrder) (howner : defs.owner p = b)
    (hp : (defs p).spec.behavior.chaos = none) :
    Alike defs b { e with registry := e.registry.registerLocked defs ord p } e' := by
  refine h.write defs (h.indexed.registerLocked defs ord p) h.indexed' ?_ ?_
  · intro o n ho
    have hne : ¬(o = defs.owner p ∧ n = defs.name p) := fun heq => ho (heq.1.trans howner)
    rw [registerLocked_owned, if_neg hne, h.owned o n ho]
  · intro o n q hq
    rw [registerLocked_owned] at hq
    split at hq
    · exact Option.some.inj hq ▸ hp
    · exact h.calm o n q hq

theorem Alike.with_sources (sources sources' : GoMap String (GoMap String String)) :
    Alike defs b { e with registry := { e.registry with sources := sources } }
      { e' with registry := { e'.registry with sources := sources' } } :=
  h.write defs (h.indexed.with_sources defs sources) (h.indexed'.with_sources defs sources')
    h.owned h.calm

/-- Removing an agent in both engines. -/
theorem Alike.removeForTenant (name t : String) (ord : MapOrder) :
    Alike defs b { e with registry := (e.registry.removeForTenant defs ord name t).1 }
      { e' with registry := (e'.registry.removeForTenant defs ord name t).1 } := by
  refine h.write defs (h.indexed.removeForTenant defs ord name t)
    (h.indexed'.removeForTenant defs ord name t) ?_ ?_
  · intro o n ho
    simp only [removeForTenant_owned, h.owned o n ho]
  · intro o n q hq
    rw [removeForTenant_owned] at hq
    split at hq
    · cases hq
    · exact h.calm o n q hq

theorem Alike.removeForTenant_left (name : String) (ord : MapOrder) :
    Alike defs b { e with registry := (e.registry.removeForTenant defs ord name b).1 } e' := by
  refine h.write defs (h.indexed.removeForTenant defs ord name b) h.indexed' ?_ ?_
  · intro o n ho
    rw [removeForTenant_owned, if_neg fun heq => ho heq.1, h.owned o n ho]
  · intro o n q hq
    rw [removeForTenant_owned] at hq
    split at hq
    · cases hq
    · exact h.calm o n q hq

end

/-! ## Runs -/

namespace Op

/-- The agent that an operation registers. -/
def registers : Op host → Option DefPtr
  | .register p _ | .registerWithSource p _ _ => p
  | _ => none

def requester : Op host → Option String
  | .request t _ _ => some t
  | _ => none

/-- A request of tenant `b`, or a registration or removal of an agent owned by it. -/
def isOf (b : String) : Op host → Bool
  | .register p _ | .registerWithSource p _ _ => p.any (defs.owner · == b)
  | .removeForTenant _ t _ => t == b
  | .request t _ _ => t == b

end Op

variable {op : Op host}

/-- An operation that stays in both runs. -/
theorem Alike.step (h : Alike defs b e e') (hb : b ≠ "") (hop : op.isOf defs b = false)
    (hcalm : ∀ p, op.registers = some p → (defs p).spec.behavior.chaos = none)
    (hnul : ∀ t, op.requester = some t → NulFree t) :
    (e.step defs op).2 = (e'.step defs op).2 ∧
      Alike defs b (e.step defs op).1 (e'.step defs op).1 := by
  cases op with
  | register p ord => exact ⟨rfl, h.register defs p ord hcalm⟩
  | registerWithSource p sourcePath ord =>
    obtain ⟨sources, hr⟩ :=
      registerWithSource_eq defs ord e.registry sourcePath p
    obtain ⟨sources', hr'⟩ :=
      registerWithSource_eq defs ord e'.registry sourcePath p
    refine ⟨rfl, ?_⟩
    simp only [Engine.step, hr, hr']
    exact (h.register defs p ord hcalm).with_sources defs sources sources'
  | removeForTenant name t ord => exact ⟨rfl, h.removeForTenant defs name t ord⟩
  | request t req env =>
    have htb : t ≠ b := by simpa [Op.isOf] using hop
    obtain ⟨hout, hnext⟩ := h.request defs hb htb (hnul t rfl) req env
    exact ⟨congrArg some hout, hnext⟩

theorem Alike.step_left (h : Alike defs b e e') (hop : op.isOf defs b = true)
    (hcalm : ∀ p, op.registers = some p → (defs p).spec.behavior.chaos = none)
    (hnul : ∀ t, op.requester = some t → NulFree t) : Alike defs b (e.step defs op).1 e' := by
  cases op with
  | register p ord =>
    cases p with
    | none => cases hop
    | some q =>
      have howner : defs.owner q = b := by simpa [Op.isOf] using hop
      exact h.register_left defs q ord howner (hcalm q rfl)
  | registerWithSource p sourcePath ord =>
    cases p with
    | none => cases hop
    | some q =>
      have howner : defs.owner q = b := by simpa [Op.isOf] using hop
      obtain ⟨sources, hr⟩ :=
        registerWithSource_eq defs ord e.registry sourcePath (some q)
      simp only [Engine.step, hr]
      exact (h.register_left defs q ord howner (hcalm q rfl)).with_sources defs sources
        e'.registry.sources
  | removeForTenant name t ord =>
    obtain rfl : t = b := by simpa [Op.isOf] using hop
    exact h.removeForTenant_left defs name ord
  | request t req env =>
    obtain rfl : t = b := by simpa [Op.isOf] using hop
    exact h.request_left defs (hnul t rfl) req env

theorem alike_start (b : String) (ttl : Int) : Alike defs b (start host ttl) (start host ttl) where
  indexed := AgentRegistry.indexed_newAgentRegistry defs
  indexed' := AgentRegistry.indexed_newAgentRegistry defs
  owned := fun _ _ _ => rfl
  calm := fun _ _ _ h => nomatch h
  separate := MemoryStore.separate_newMemoryStore ttl
  separate' := MemoryStore.separate_newMemoryStore ttl
  ttl := rfl
  sessions := fun _ _ _ _ _ => rfl

/-- Tenant noninterference. Take any run in which no registered agent has a chaos section
    and no request's tenant id contains NUL, and delete every operation of tenant `b`.
    Every remaining request has the same outcome: the resolved agent, what the generator
    was given, the response and the error with its list of available names. -/
theorem tenant_noninterference (ttl : Int) (b : String) (hb : b ≠ "") (ops : List (Op host))
    (hcalm : ∀ op ∈ ops, ∀ p, op.registers = some p → (defs p).spec.behavior.chaos = none)
    (hnul : ∀ op ∈ ops, ∀ t, op.requester = some t → NulFree t) :
    (trace (step defs) (start host ttl) ops).filter (fun e => !e.1.isOf defs b) =
      trace (step defs) (start host ttl) (ops.filter fun op => !op.isOf defs b) := by
  apply trace_filter_eq (step defs) (fun op => !op.isOf defs b) (Alike defs b)
  · -- an operation of another tenant happens in both runs
    intro e e' op hop hkeep h
    exact h.step defs hb (by simpa using hkeep) (hcalm op hop) (hnul op hop)
  · -- an operation of tenant `b` happens in the first run only
    intro e e' op hop hpurge h
    exact h.step_left defs (by simpa using hpurge) (hcalm op hop) (hnul op hop)
  · exact alike_start defs b ttl

/-- A global agent and tenant `b`'s agent of the same name. -/
def shadowDefs : Definitions := fun p =>
  if p = 0 then { metadata := { name := "bot" } }
  else { metadata := { name := "bot", tenantID := "b" } }

/-- Tenants `b` and `a` use the same session id with the agent `bot`. -/
def shadowRun : List (Op plainHost) :=
  [.register (some 0) .stored, .register (some 1) .stored,
    .request "b" { agentName := "bot", sessionID := "s", messages := [⟨"user", "hi", 0⟩] }
      { entropy := (), toolEntropy := () },
    .request "a" { agentName := "bot", sessionID := "s", messages := [⟨"user", "hi", 0⟩] }
      { entropy := (), toolEntropy := () }]

theorem tenant_noninterference_shadowRun :
    (trace (step shadowDefs) (start plainHost 60) shadowRun).filter
        (fun e => !e.1.isOf shadowDefs "b") =
      trace (step shadowDefs) (start plainHost 60)
        (shadowRun.filter fun op => !op.isOf shadowDefs "b") := by
  apply tenant_noninterference shadowDefs 60 "b" (by decide) shadowRun
  · intro op _ p _
    unfold shadowDefs
    split <;> rfl
  · intro op hop t ht
    simp only [shadowRun, List.mem_cons, List.not_mem_nil, or_false] at hop
    obtain rfl | rfl | rfl | rfl := hop
    · cases ht
    · cases ht
    · cases ht
      decide
    · cases ht
      decide

end Engine

end MockAgents
