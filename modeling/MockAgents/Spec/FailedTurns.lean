import MockAgents.Spec.RequestOutcome

/-!
# Requests that fail

A request that fails before its turn leaves every conversation as it was. A turn whose response
cannot be generated leaves its user message behind, and the message counts as a turn: the same
message, sent again, is matched with the next turn number.
-/

namespace MockAgents

/-- What the next turn of a session depends on. -/
def Session.conversation (s : Session) : List Message × Nat × Fields :=
  (s.messages, s.turnCount, s.vars)

/-- The conversation that a request with this session key continues. -/
def MemoryStore.conversation (st : MemoryStore) (key : String) (now : Int) :
    List Message × Nat × Fields :=
  match st.sessions.lookup key with
  | some p => if (st.heap p).isExpired now then ([], 0, []) else (st.heap p).conversation
  | none => ([], 0, [])

/-- `GetOrCreate` stores the session it returns, and its conversation is the one to continue. -/
theorem MemoryStore.getOrCreate_conversation (st : MemoryStore) (key agentName : String)
    (checkAt createAt : Int) :
    let got := st.getOrCreate key agentName checkAt createAt
    got.1.sessions.lookup key = some got.2 ∧
      (got.1.heap got.2).conversation = st.conversation key checkAt := by
  simp only [getOrCreate, conversation]
  cases hlookup : st.sessions.lookup key with
  | none => simp [create, Session.newSession, Session.conversation]
  | some p =>
    simp only
    split
    · simp [create, Session.newSession, Session.conversation]
    · exact ⟨hlookup, rfl⟩

theorem MemoryStore.conversation_update {st : MemoryStore} {key : String} {p : SessionPtr}
    (hstored : st.sessions.lookup key = some p) (f : Session → Session) {now : Int}
    (hlive : (f (st.heap p)).isExpired now = false) :
    (st.update p f).conversation key now = (f (st.heap p)).conversation := by
  simp [conversation, update, hstored, hlive]

section

variable {ε α : Type} {s : Session} {build : Nat → Fields → Built ε α}

/-- A callback that fails leaves the user message and the new turn number behind. -/
theorem Session.applyTurn_of_error {err : ε}
    (h : (build (s.turnCount + 1) s.vars).outcome = .error err) (content : String)
    (userAt replyAt : Int) :
    (s.applyTurn content userAt replyAt build).2.1 = .error err ∧
      (s.applyTurn content userAt replyAt build).1.turnCount = s.turnCount + 1 ∧
      (s.applyTurn content userAt replyAt build).1.lastAccess = userAt := by
  simp only [applyTurn, show (build (s.appendUserMessage content userAt).turnCount
    (s.appendUserMessage content userAt).vars).outcome = _ from h]
  exact ⟨trivial, rfl, rfl⟩

theorem Session.applyTurn_of_ok {reply : Reply}
    (h : (build (s.turnCount + 1) s.vars).outcome = .ok reply) (content : String)
    (userAt replyAt : Int) : (s.applyTurn content userAt replyAt build).2.1 = .ok () := by
  simp only [applyTurn, show (build (s.appendUserMessage content userAt).turnCount
    (s.appendUserMessage content userAt).vars).outcome = _ from h]

end

namespace Engine

variable {host : Host} (defs : Definitions) (e : Engine host) (tenantID : String)
  (req : InboundRequest) (env : RequestEnv host)

/-- No conversation is changed by the request. -/
def KeepsConversations : Prop :=
  ∀ key, (e.processRequestContext defs tenantID req env).1.states.conversation key env.checkAt =
    e.states.conversation key env.checkAt

/-- The callback of the request's turn with the agent at `p`: the turn number and the variables
    are those of the conversation that it continues. -/
def turn (p : DefPtr) : Built EngineError (TurnEffects host) :=
  let conv := e.states.conversation
    (scopedSessionKey tenantID (defs p).metadata.name req.sessionID) env.checkAt
  e.buildTurn (defs p) req env (latestUserMessage req.messages)
    (latestUserImageCount req.messages) (conv.2.1 + 1) conv.2.2

/-- What the generator makes of the scenario that the turn selects. -/
def generated (p : DefPtr) : Except GenerateError Response :=
  let input := (e.turn defs tenantID req env p).captured.input
  (e.generator.generate (defs p) input.scenario input.ctx env.entropy).2

variable {defs e tenantID req env} {p : DefPtr} {cause : GenerateError} {resp : Response}

theorem buildTurn_chaos (chaos : ChaosInjector) :
    ({ e with chaos := chaos }).buildTurn = e.buildTurn := rfl

theorem turn_of_error (h : e.generated defs tenantID req env p = .error cause) :
    (e.turn defs tenantID req env p).outcome =
      .error (.generating (defs p).metadata.name cause) := by
  simp only [generated, turn, buildTurn] at h ⊢
  split at h <;> simp_all

theorem turn_of_ok (h : e.generated defs tenantID req env p = .ok resp) :
    ∃ reply, (e.turn defs tenantID req env p).outcome = .ok reply := by
  simp only [generated, turn, buildTurn] at h ⊢
  split at h <;> simp_all

/-- A turn whose scenario is rendered returns no error. -/
theorem serveTurn_of_ok (h : e.generated defs tenantID req env p = .ok resp)
    (chaos : ChaosInjector) :
    (({ e with chaos := chaos }).serveTurn p (defs p) tenantID req env
      (latestUserMessage req.messages) (latestUserImageCount req.messages)).2.err = none := by
  obtain ⟨-, hbefore⟩ := e.states.getOrCreate_conversation
    (scopedSessionKey tenantID (defs p).metadata.name req.sessionID) (defs p).metadata.name
    env.checkAt env.createAt
  obtain ⟨reply, hbuild⟩ := turn_of_ok h
  rw [turn, ← hbefore] at hbuild
  have hturn := Session.applyTurn_of_ok hbuild (latestUserMessage req.messages) env.userAt
    env.replyAt
  simp only [serveTurn, buildTurn_chaos, hturn]

/-- A turn whose scenario cannot be rendered returns this error. -/
theorem serveTurn_of_error (h : e.generated defs tenantID req env p = .error cause)
    (chaos : ChaosInjector) :
    (({ e with chaos := chaos }).serveTurn p (defs p) tenantID req env
      (latestUserMessage req.messages) (latestUserImageCount req.messages)).2.err =
        some (.generating (defs p).metadata.name cause) := by
  obtain ⟨-, hbefore⟩ := e.states.getOrCreate_conversation
    (scopedSessionKey tenantID (defs p).metadata.name req.sessionID) (defs p).metadata.name
    env.checkAt env.createAt
  have hbuild := turn_of_error h
  rw [turn, ← hbefore] at hbuild
  have hturn := (Session.applyTurn_of_error hbuild (latestUserMessage req.messages) env.userAt
    env.replyAt).1
  simp only [serveTurn, buildTurn_chaos, hturn]

/-- Such a turn adds to the turn count. -/
theorem serveTurn_conversation (hclock : env.checkAt ≤ env.userAt)
    (h : e.generated defs tenantID req env p = .error cause) (chaos : ChaosInjector) :
    ∃ key, (({ e with chaos := chaos }).serveTurn p (defs p) tenantID req env
        (latestUserMessage req.messages) (latestUserImageCount req.messages)).1.states.conversation
          key env.checkAt ≠ e.states.conversation key env.checkAt := by
  obtain ⟨hstored, hbefore⟩ := e.states.getOrCreate_conversation
    (scopedSessionKey tenantID (defs p).metadata.name req.sessionID) (defs p).metadata.name
    env.checkAt env.createAt
  have hbuild := turn_of_error h
  rw [turn, ← hbefore] at hbuild
  obtain ⟨-, hcount, haccess⟩ := Session.applyTurn_of_error hbuild
    (latestUserMessage req.messages) env.userAt env.replyAt
  -- the session was accessed after the expiry check
  have hlive : ∀ s : Session, s.lastAccess = env.userAt → s.isExpired env.checkAt = false := by
    intro s hs
    simp only [Session.isExpired, hs]
    split
    · rfl
    · exact decide_eq_false (by omega)
  refine ⟨scopedSessionKey tenantID (defs p).metadata.name req.sessionID, fun hkept => ?_⟩
  simp only [serveTurn, buildTurn_chaos] at hkept
  rw [MemoryStore.conversation_update hstored _ (hlive _ haccess), ← hbefore] at hkept
  have hsame := congrArg (·.2.1) hkept
  simp only [Session.conversation, hcount] at hsame
  omega

/-- No request changes a conversation and returns an error, exactly if the scenario of its turn
    is rendered in case it gets to one. -/
theorem keepsConversations_iff (hclock : env.checkAt ≤ env.userAt) :
    ((e.processRequestContext defs tenantID req env).2.err.isSome →
        e.KeepsConversations defs tenantID req env) ↔
      ∀ p, e.ReachesTurn defs tenantID req env p →
        ∃ resp, e.generated defs tenantID req env p = .ok resp := by
  constructor
  · intro h p hreach
    cases hgen : e.generated defs tenantID req env p with
    | ok resp => exact ⟨resp, rfl⟩
    | error cause =>
      rw [KeepsConversations, hreach.processRequestContext] at h
      obtain ⟨key, hkey⟩ := serveTurn_conversation hclock hgen _
      exact absurd (h (by rw [serveTurn_of_error hgen]; rfl) key) hkey
  · intro h herr
    obtain ⟨_, _, _, hstates, _⟩ | ⟨p, hreach⟩ := processRequestContext_cases defs
    · exact fun key => by rw [hstates]
    · obtain ⟨resp, hgen⟩ := h p hreach
      rw [hreach.processRequestContext, serveTurn_of_ok hgen] at herr
      cases herr

/-- An agent whose only scenario has a template that does not parse. -/
def templateDefs : Definitions := fun _ =>
  { metadata := { name := "bot" }
    spec := { behavior := { scenarios :=
      [{ name := "empty", response := { content := "\x7b\x7b" } }] } } }

/-- An agent that has answered one message. -/
def answeredOnce : Engine plainHost :=
  let e : Engine plainHost := { Engine.start plainHost 60 with
    registry := AgentRegistry.newAgentRegistry.register soleDefs .stored (some 0) }
  (e.processRequestContext soleDefs "" { messages := [{ role := "user", content := "hi" }] }
    plainEnv).1

/-- An empty message in a conversation of one turn. -/
theorem emptyMessage_keepsConversations :
    (answeredOnce.states.conversation (scopedSessionKey "" "bot" "") 0).2.1 = 1 ∧
      (answeredOnce.processRequestContext soleDefs "" {} plainEnv).2.err = some .emptyMessage ∧
      answeredOnce.KeepsConversations soleDefs "" {} plainEnv := by
  refine ⟨by decide, by decide, (keepsConversations_iff le_rfl).mpr (fun p hreach => ?_) ?_⟩
  · exact absurd ⟨rfl, rfl⟩ hreach.message
  · decide

/-- The message that could not be answered counts as the first turn. -/
theorem failedTemplate_changes :
    let e : Engine plainHost := { Engine.start plainHost 60 with
      registry := AgentRegistry.newAgentRegistry.register templateDefs .stored (some 0) }
    let req : InboundRequest := { messages := [{ role := "user", content := "hi" }] }
    (e.processRequestContext templateDefs "" req plainEnv).2.err.isSome ∧
      ¬ e.KeepsConversations templateDefs "" req plainEnv := by
  refine ⟨by decide, fun hkept => ?_⟩
  have hcount := congrArg (·.2.1) (hkept (scopedSessionKey "" "bot" ""))
  exact absurd hcount (by decide)

end Engine

end MockAgents
