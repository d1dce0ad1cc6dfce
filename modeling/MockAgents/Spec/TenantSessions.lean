import MockAgents.Engine.Engine
import MockAgents.Spec.ScenarioChoice
import MockAgents.Spec.StoreView

/-!
# The sessions of some tenants

A turn reads and writes the session under one key, and the key tells the tenant. So if two
stores hold the same sessions for the tenants of a group, then a turn of such a tenant comes
out the same on both, and a turn of any other tenant does not disturb them.
-/

namespace MockAgents

open MemoryStore (getOrCreate_heap view_turn)

/-! ## Session keys of different tenants -/

/-- The first NUL of a key ends the tenant, so tenants never share a key. -/
theorem scopedSessionKey_tenant {t t' : String} (ht : NulFree t) (ht' : NulFree t')
    {name name' sid sid' : String}
    (h : scopedSessionKey t name sid = scopedSessionKey t' name' sid') : t = t' := by
  have hsep : ∀ t name sid : String, scopedSessionKey t name sid =
      t ++ String.singleton '\x00' ++ (name ++ "\x00" ++ sid) := by
    intro t name sid
    show t ++ "\x00" ++ name ++ "\x00" ++ sid = t ++ "\x00" ++ (name ++ "\x00" ++ sid)
    simp [String.append_assoc]
  rw [hsep, hsep] at h
  exact (String.append_sep_inj ht ht' h).1

namespace Engine

variable {host : Host}

/-! ## A turn does not see the caches -/

/-- The callback's results do not depend on the engine's caches. -/
theorem buildTurn_congr (e e' : Engine host) (agent : AgentDefinition)
    (req : InboundRequest) (env : RequestEnv host) (userMsg : String) (imageCount : Int)
    (turnCount : Nat) (vars : Fields) :
    let b := buildTurn e agent req env userMsg imageCount turnCount vars
    let b' := buildTurn e' agent req env userMsg imageCount turnCount vars
    b.outcome = b'.outcome ∧ b.vars = b'.vars ∧ b.captured.input = b'.captured.input ∧
      b.captured.resp = b'.captured.resp := by
  simp only [buildTurn,
    ScenarioMatcher.matchWithCaptures_snd e.matcher e'.matcher]
  simp only [ResponseGenerator.generate_snd e.generator e'.generator]
  split <;> exact ⟨rfl, rfl, rfl, rfl⟩

/-- `ApplyTurn` depends on its callback only through the reply and the variables. -/
theorem applyTurn_congr {ε α : Type} (s : Session) (content : String)
    (userAt replyAt : Int) {build build' : Nat → Fields → Built ε α}
    (h : ∀ n vars, (build n vars).outcome = (build' n vars).outcome ∧
      (build n vars).vars = (build' n vars).vars) :
    (s.applyTurn content userAt replyAt build).1 =
        (s.applyTurn content userAt replyAt build').1 ∧
      (s.applyTurn content userAt replyAt build).2.1 =
        (s.applyTurn content userAt replyAt build').2.1 := by
  obtain ⟨hout, hvars⟩ := h (s.appendUserMessage content userAt).turnCount
    (s.appendUserMessage content userAt).vars
  simp only [Session.applyTurn, hout, hvars]
  split <;> exact ⟨rfl, rfl⟩

theorem applyTurn_captured {ε α : Type} (s : Session) (content : String)
    (userAt replyAt : Int) (build : Nat → Fields → Built ε α) :
    (s.applyTurn content userAt replyAt build).2.2 =
      (build (s.appendUserMessage content userAt).turnCount
        (s.appendUserMessage content userAt).vars).captured := by
  simp only [Session.applyTurn]
  split <;> rfl

variable {e e' : Engine host} (p : DefPtr) (agent : AgentDefinition) (t : String)
  (req : InboundRequest) (env : RequestEnv host) (userMsg : String) (imageCount : Int)

theorem serveTurn_separate (h : e.states.Separate) :
    (e.serveTurn p agent t req env userMsg imageCount).1.states.Separate := by
  simp only [serveTurn]
  exact h.turn _ _ _ _ _

private theorem serveTurn_ttl :
    (e.serveTurn p agent t req env userMsg imageCount).1.states.ttl = e.states.ttl := by
  exact MemoryStore.getOrCreate_ttl _ _ _ _ _

@[simp] theorem serveTurn_agent :
    (e.serveTurn p agent t req env userMsg imageCount).2.agent = some p := by
  simp only [serveTurn]
  split <;> rfl

theorem serveTurn_turnNumber (h : e.states.Separate) :
    (e.serveTurn p agent t req env userMsg imageCount).2.input.map (·.ctx.turnNumber) =
      some ((e.states.current (scopedSessionKey t agent.metadata.name req.sessionID)
        agent.metadata.name env.checkAt env.createAt).turnCount + 1 : Nat) := by
  have hnumber : ∀ n vars,
      (buildTurn e agent req env userMsg imageCount n vars).captured.input.ctx.turnNumber = n := by
    intro n vars
    simp only [buildTurn]
    split <;> rfl
  simp only [serveTurn, getOrCreate_heap h, applyTurn_captured]
  split <;> simp only [Option.map_some, hnumber] <;> rfl

/-! ## The session of a request -/

def requestKey (defs : Definitions) (tenantID : String) (agent : DefPtr)
    (req : InboundRequest) : String :=
  scopedSessionKey tenantID (defs agent).metadata.name req.sessionID

/-- A request leaves the sessions under all other keys as they are. -/
theorem processRequestContext_view (defs : Definitions) (hsep : e.states.Separate)
    {tenantID : String} {req : InboundRequest} {env : RequestEnv host} {agent : DefPtr}
    (h : resolveAgentForTenant defs env.ord e.registry req tenantID = .ok agent) {key : String}
    (hkey : key ≠ requestKey defs tenantID agent req) :
    (e.processRequestContext defs tenantID req env).1.states.view key = e.states.view key := by
  simp only [processRequestContext, h]
  split
  · rfl
  · split
    · rfl
    · split
      · rfl
      · simp only [serveTurn]
        rw [view_turn hsep]
        exact if_neg hkey

/-! ## Stores that agree on some tenants -/

/-- The two stores hold the same sessions for the tenants in `T`. -/
structure SessionsAlike (T : String → Prop) (st st' : MemoryStore) : Prop where
  separate : st.Separate
  separate' : st'.Separate
  ttl : st.ttl = st'.ttl
  view : ∀ t name sid, T t → NulFree t →
    st.view (scopedSessionKey t name sid) = st'.view (scopedSessionKey t name sid)

variable {T : String → Prop}

theorem SessionsAlike.refl {st : MemoryStore} (h : st.Separate) : SessionsAlike T st st :=
  ⟨h, h, rfl, fun _ _ _ _ _ => rfl⟩

variable {t} in
/-- A turn of a tenant in `T`, on both stores. -/
theorem SessionsAlike.serveTurn (h : SessionsAlike T e.states e'.states) (hT : T t)
    (ht : NulFree t) :
    (e.serveTurn p agent t req env userMsg imageCount).2 =
        (e'.serveTurn p agent t req env userMsg imageCount).2 ∧
      SessionsAlike T (e.serveTurn p agent t req env userMsg imageCount).1.states
        (e'.serveTurn p agent t req env userMsg imageCount).1.states := by
  -- the session is the same in both stores, found or freshly created
  have hcur := MemoryStore.current_congr (h.view t agent.metadata.name req.sessionID hT ht)
    h.ttl agent.metadata.name env.checkAt env.createAt
  have hheap := getOrCreate_heap h.separate
    (scopedSessionKey t agent.metadata.name req.sessionID) agent.metadata.name
    env.checkAt env.createAt
  have hheap' := getOrCreate_heap h.separate'
    (scopedSessionKey t agent.metadata.name req.sessionID) agent.metadata.name
    env.checkAt env.createAt
  -- both turns start from the same session and differ only in the caches
  have hbuild := buildTurn_congr e e' agent req env userMsg imageCount
  have hturn := applyTurn_congr
    (e'.states.current (scopedSessionKey t agent.metadata.name req.sessionID)
      agent.metadata.name env.checkAt env.createAt)
    userMsg env.userAt env.replyAt fun n vars => ⟨(hbuild n vars).1, (hbuild n vars).2.1⟩
  constructor
  · simp only [Engine.serveTurn, hheap, hheap', hcur, hturn.2, applyTurn_captured,
      (hbuild _ _).2.2.1, (hbuild _ _).2.2.2]
  · refine ⟨serveTurn_separate (h := h.separate) .., serveTurn_separate (h := h.separate') ..,
      ?_, fun t' name sid hT' ht' => ?_⟩
    · rw [serveTurn_ttl, serveTurn_ttl, h.ttl]
    · simp only [Engine.serveTurn]
      rw [view_turn h.separate, view_turn h.separate', hheap, hheap',
        hcur, hturn.1, h.view t' name sid hT' ht']

variable {t} in
theorem SessionsAlike.serveTurn_left {st' : MemoryStore} (h : SessionsAlike T e.states st')
    (hT : ¬ T t) (ht : NulFree t) :
    SessionsAlike T (e.serveTurn p agent t req env userMsg imageCount).1.states st' := by
  refine ⟨serveTurn_separate (h := h.separate) .., h.separate', (serveTurn_ttl ..).trans h.ttl, ?_⟩
  intro t' name sid hT' ht'
  -- tenant ids without NUL can be read off the key, so `t` writes another key
  have hkey : scopedSessionKey t' name sid ≠
      scopedSessionKey t agent.metadata.name req.sessionID := by
    intro heq
    rw [scopedSessionKey_tenant ht' ht heq] at hT'
    exact hT hT'
  simp only [Engine.serveTurn]
  rw [view_turn h.separate, if_neg hkey, h.view t' name sid hT' ht']

end Engine

end MockAgents
