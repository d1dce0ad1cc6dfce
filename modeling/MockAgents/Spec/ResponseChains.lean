import MockAgents.Spec.Responses

/-!
# Chains of responses

A client of the Responses API continues a conversation by naming the previous response.
Without a session header the handler uses the id of the previous response as the session
key. Every response has an id of its own, so every request of a chain starts a session of
its own, and the turn number never gets beyond 1.
-/

namespace MockAgents

/-- The turn number with which the engine processed a call. -/
def ResponsesResult.turnNumber (r : ResponsesResult) : Option Int :=
  (r.outcome.bind (·.input)).map (·.ctx.turnNumber)

namespace ResponsesHandler

variable {host : Host} (lib : AdapterLib) (defs : Definitions)

/-- Calls of one tenant without a session header, each of which continues the one before
    it. The first continues `prev`. -/
def Chained (tenantID : String) : (prev : Option String) → List (ResponsesCall host) → Prop
  | _, [] => True
  | prev, call :: calls =>
    (call.tenantID = tenantID ∧ call.sessionHeader = "" ∧
      ∃ req, call.body = .ok req ∧ nonEmpty req.previousResponseID = prev) ∧
    Chained tenantID (some call.responseID) calls

def AnsweredBy (agent : DefPtr) (r : ResponsesResult) : Prop :=
  r.answer.isOk = true ∧ r.outcome.bind (·.agent) = some agent

instance (agent : DefPtr) (r : ResponsesResult) : Decidable (AnsweredBy agent r) :=
  inferInstanceAs (Decidable (_ ∧ _))

/-- No session of the tenant with the agent uses the identifiers that are drawn for the
    calls, and no two calls draw the same one. -/
structure FreshIDs (st : MemoryStore) (tenantID agentName : String)
    (calls : List (ResponsesCall host)) : Prop where
  distinct : (calls.map (·.newResponse)).Nodup
  session : ∀ call ∈ calls,
    st.view (scopedSessionKey tenantID agentName ("sess-" ++ call.newSession)) = none
  thread : ∀ call ∈ calls,
    st.view (scopedSessionKey tenantID agentName ("resp-thread-" ++ call.responseID)) = none

/-! ## One call -/

/-- A new session starts with no turns. -/
private theorem current_turnCount {st : MemoryStore} {key : String} (h : st.view key = none)
    (agentName : String) (checkAt createAt : Int) :
    (st.current key agentName checkAt createAt).turnCount = 0 := by
  rw [MemoryStore.current, h]
  rfl

variable {h : ResponsesHandler host} {call : ResponsesCall host} {agent : DefPtr}

/-- A call that is answered in a session of its own has turn number 1, and touches no other
    session. -/
private theorem answered_turnNumber (hsep : h.engine.states.Separate) {req : ResponsesRequest}
    (hbody : call.body = .ok req) (hok : AnsweredBy agent (h.handleResponses lib defs call).2)
    (hnew : h.engine.states.view (scopedSessionKey call.tenantID (defs agent).metadata.name
      (responsesSessionID call.sessionHeader call.newSession req.previousResponseID)) = none) :
    (h.handleResponses lib defs call).2.turnNumber = some 1 ∧
      (h.handleResponses lib defs call).1.engine.states.Separate ∧
      ∀ key, key ≠ scopedSessionKey call.tenantID (defs agent).metadata.name
          (responsesSessionID call.sessionHeader call.newSession req.previousResponseID) →
        (h.handleResponses lib defs call).1.engine.states.view key =
          h.engine.states.view key := by
  have hend := h.handled lib defs call
  generalize h.handleResponses lib defs call = out at hok hend ⊢
  cases hend with
  | rejected hanswer | failed _ _ _ hanswer => exact absurd (hok.1.symm.trans hanswer) (by decide)
  | @served req' messages resp hbody' hmessages hresp =>
    obtain rfl : req' = req := Except.ok.inj (hbody'.symm.trans hbody)
    obtain ⟨p, chaos, hres, hproc⟩ := Engine.processRequestContext_of_resp defs hresp
    have hagent := hok.2
    simp only [Option.bind_some, process, hproc, Engine.serveTurn_agent, Option.some.injEq]
      at hagent
    subst hagent
    refine ⟨?_, ?_, ?_⟩
    · simp only [ResponsesResult.turnNumber, Option.bind_some, process, hproc]
      rw [Engine.serveTurn_turnNumber (e := { h.engine with chaos := chaos }) (h := hsep)]
      simp only [inbound]
      rw [current_turnCount hnew]
      rfl
    · simp only [process, hproc]
      exact Engine.serveTurn_separate (e := { h.engine with chaos := chaos }) (h := hsep) ..
    · intro key hkey
      exact Engine.processRequestContext_view defs hsep hres hkey

/-! ## Chains -/

theorem responsesSessionID_nonEmpty (header newID : String) (prev : Option String) :
    responsesSessionID header newID (nonEmpty prev) = responsesSessionID header newID prev := by
  simp [responsesSessionID, nonEmpty]

variable {prev : Option String}

/-- The session that the next call of a chain will use is not the one used now. -/
private theorem thread_ne_session (hprev : prev ≠ some call.responseID) (newID : String) :
    "resp-thread-" ++ call.responseID ≠ responsesSessionID "" newID prev := by
  unfold responsesSessionID
  simp only [ne_eq, not_true_eq_false, if_false]
  split
  · rename_i id hid
    intro heq
    rw [String.append_right_inj] at heq
    have hsome := (Option.filter_eq_some_iff.mp hid).1
    exact hprev (hsome.trans (congrArg some heq.symm))
  · intro heq
    have hlist := congrArg String.toList heq
    simp [String.toList_append] at hlist

private theorem scopedSessionKey_session {t name sid sid' : String} (h : sid ≠ sid') :
    scopedSessionKey t name sid ≠ scopedSessionKey t name sid' := by
  intro heq
  rw [scopedSessionKey, scopedSessionKey, String.append_right_inj] at heq
  exact h heq

/-- Every request of a chain has turn number 1: its session is new, and stays unused by the
    rest of the chain. -/
theorem chain_turnNumbers {tenantID : String} {calls : List (ResponsesCall host)}
    (hchain : Chained tenantID prev calls) (hsep : h.engine.states.Separate)
    (hok : ∀ e ∈ trace (handleResponses lib defs) h calls, AnsweredBy agent e.2)
    (hhead : ∀ call ∈ calls.head?, h.engine.states.view (scopedSessionKey tenantID
      (defs agent).metadata.name (responsesSessionID "" call.newSession prev)) = none)
    (hprev : ∀ call ∈ calls, prev ≠ some call.responseID)
    (hdistinct : (calls.map (·.newResponse)).Nodup)
    (hthread : ∀ call ∈ calls, h.engine.states.view (scopedSessionKey tenantID
      (defs agent).metadata.name ("resp-thread-" ++ call.responseID)) = none) :
    (trace (handleResponses lib defs) h calls).map (·.2.turnNumber) =
      List.replicate calls.length (some 1) := by
  induction calls generalizing prev h with
  | nil => rfl
  | cons call calls ih =>
    obtain ⟨⟨htenant, hheader, req, hbody, hreq⟩, hrest⟩ := hchain
    have hsid : responsesSessionID call.sessionHeader call.newSession req.previousResponseID =
        responsesSessionID "" call.newSession prev := by
      rw [hheader, ← hreq, responsesSessionID_nonEmpty]
    have hnew := hhead call rfl
    rw [List.map_cons, List.nodup_cons] at hdistinct
    obtain ⟨hturn, hsep', hview⟩ := answered_turnNumber lib defs hsep hbody
      (hok _ List.mem_cons_self) (by rw [hsid, htenant]; exact hnew)
    rw [hsid, htenant] at hview
    -- the sessions of the calls to come are still unused
    have hunused : ∀ c ∈ call :: calls,
        (h.handleResponses lib defs call).1.engine.states.view (scopedSessionKey tenantID
          (defs agent).metadata.name ("resp-thread-" ++ c.responseID)) = none := by
      intro c hc
      rw [hview _ (scopedSessionKey_session (thread_ne_session (hprev c hc) _))]
      exact hthread c hc
    rw [trace, List.map_cons, hturn, List.length_cons]
    congr 1
    apply ih hrest hsep' (fun e he => hok e (List.mem_cons_of_mem _ he)) _ _ hdistinct.2
      (fun c hc => hunused c (List.mem_cons_of_mem _ hc))
    · intro c _
      exact hunused call List.mem_cons_self
    · intro c hc heq
      have hid := Option.some.inj heq
      rw [ResponsesCall.responseID, ResponsesCall.responseID, String.append_right_inj] at hid
      exact hdistinct.1 (hid ▸ List.mem_map_of_mem hc)

/-- The `k`-th of the results, counted from 1, has turn number `k`. -/
def NumberedFromOne (results : List ResponsesResult) : Prop :=
  ∀ k (hk : k < results.length), (results.get ⟨k, hk⟩).turnNumber = some (k + 1 : Int)

/-- A chain of calls that are all answered by one agent is numbered like the turns of a
    session exactly if it has at most one call. -/
theorem chain_numbered_iff (tenantID : String) (agent : DefPtr)
    (calls : List (ResponsesCall host)) (h : ResponsesHandler host)
    (hsep : h.engine.states.Separate) (hchain : Chained tenantID none calls)
    (hfresh : FreshIDs h.engine.states tenantID (defs agent).metadata.name calls)
    (hok : ∀ e ∈ trace (handleResponses lib defs) h calls, AnsweredBy agent e.2) :
    NumberedFromOne ((trace (handleResponses lib defs) h calls).map (·.2)) ↔
      calls.length ≤ 1 := by
  have hturns := chain_turnNumbers lib defs hchain hsep hok
    (fun call hcall => by
      have hmem : call ∈ calls := List.mem_of_mem_head? hcall
      exact hfresh.session call hmem)
    (fun _ _ => nofun) hfresh.distinct hfresh.thread
  have hlen : (trace (handleResponses lib defs) h calls).length = calls.length := by
    have := congrArg List.length hturns
    simpa using this
  generalize trace (handleResponses lib defs) h calls = results at hturns hlen ⊢
  have hone : ∀ k (hk : k < results.length), (results.get ⟨k, hk⟩).2.turnNumber = some 1 := by
    intro k hk
    have hget := congrArg (·[k]?) hturns
    simpa [hlen ▸ hk, hk] using hget
  constructor
  · intro hnum
    by_contra hlong
    -- the second call would have to have turn number 2
    have hk : 1 < results.length := by omega
    have h2 := hnum 1 (by rwa [List.length_map])
    rw [List.get_eq_getElem, List.getElem_map] at h2
    have h1 := hone 1 hk
    rw [List.get_eq_getElem, h2] at h1
    exact absurd h1 (by decide)
  · intro hshort k hk
    rw [List.length_map] at hk
    obtain rfl : k = 0 := by omega
    rw [List.get_eq_getElem, List.getElem_map]
    exact hone 0 (by omega)

/-! ## A chain of two -/

/-- An agent with a scenario for the second turn. -/
def tutorDefs : Definitions := fun _ =>
  { metadata := { name := "tutor" }
    spec := {
      model := "gpt-4o"
      behavior := {
        scenarios := [
          { name := "follow-up", rule := some { turnNumber := some 2 }
            response := { content := "Shall we go on?" } }] } } }

def tutorServer : ResponsesHandler plainHost :=
  newResponsesHandler (.newEngine
    (AgentRegistry.newAgentRegistry.register tutorDefs .stored (some 0))
    (.newMemoryStore 60))

def plainLib : AdapterLib where
  quote := fun s => "\"" ++ s ++ "\""
  marshal := fun _ => []
  streaming := fun _ => none

/-- A question to the tutor, with the identifiers drawn for it. -/
def ask (prev : Option String) (text newSession newResponse : String) :
    ResponsesCall plainHost where
  body := .ok { model := "gpt-4o", input := .text text, previousResponseID := prev }
  env := plainEnv
  newSession := newSession
  newResponse := newResponse

/-- Two questions, the second one in the conversation of the first. -/
def twoQuestions : List (ResponsesCall plainHost) :=
  [ask none "What is a group?" "a1" "b1", ask (some "resp_b1") "And a ring?" "a2" "b2"]

private theorem chained_twoQuestions : Chained "" none twoQuestions :=
  ⟨⟨rfl, rfl, _, rfl, rfl⟩, ⟨rfl, rfl, _, rfl, by decide⟩, trivial⟩

private theorem separate_tutorServer : tutorServer.engine.states.Separate :=
  MemoryStore.separate_newMemoryStore 60

private theorem freshIDs_tutorServer {calls : List (ResponsesCall plainHost)}
    (h : (calls.map (·.newResponse)).Nodup) :
    FreshIDs tutorServer.engine.states "" "tutor" calls :=
  ⟨h, fun _ _ => rfl, fun _ _ => rfl⟩

private theorem answered_twoQuestions :
    ∀ e ∈ trace (handleResponses plainLib tutorDefs) tutorServer twoQuestions,
      AnsweredBy 0 e.2 := by
  decide

/-- A single question is numbered. -/
theorem oneQuestion_numbered :
    NumberedFromOne ((trace (handleResponses plainLib tutorDefs) tutorServer
      (twoQuestions.take 1)).map (·.2)) :=
  (chain_numbered_iff plainLib tutorDefs "" 0 (twoQuestions.take 1) tutorServer
    separate_tutorServer ⟨chained_twoQuestions.1, trivial⟩ (freshIDs_tutorServer (by decide))
    (by decide)).mpr (by decide)

/-- The second of two questions in one conversation is processed as a first turn, so the
    scenario for the second turn does not match. -/
theorem twoQuestions_not_numbered :
    Chained "" none twoQuestions ∧
      FreshIDs tutorServer.engine.states "" (tutorDefs 0).metadata.name twoQuestions ∧
      (∀ e ∈ trace (handleResponses plainLib tutorDefs) tutorServer twoQuestions,
        AnsweredBy 0 e.2) ∧
      (trace (handleResponses plainLib tutorDefs) tutorServer twoQuestions).map
        (·.2.turnNumber) = [some 1, some 1] ∧
      ¬ NumberedFromOne ((trace (handleResponses plainLib tutorDefs) tutorServer
        twoQuestions).map (·.2)) := by
  have hturns : (trace (handleResponses plainLib tutorDefs) tutorServer twoQuestions).map
      (·.2.turnNumber) = [some 1, some 1] := by decide
  refine ⟨chained_twoQuestions, freshIDs_tutorServer (by decide), answered_twoQuestions,
    hturns, fun hnum => ?_⟩
  have hsecond := hnum 1 (by decide)
  have hone := congrArg (·[1]?) hturns
  simp only [List.getElem?_map] at hone
  rw [List.get_eq_getElem, List.getElem_map] at hsecond
  rw [List.getElem?_eq_getElem (by decide), Option.map_some, hsecond] at hone
  exact absurd hone (by decide)

end ResponsesHandler

end MockAgents
