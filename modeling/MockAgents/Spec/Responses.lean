import MockAgents.Adapter.Responses
import MockAgents.Spec.RequestOutcome
import MockAgents.Spec.TenantSessions

/-!
# The response store and the Responses handler

The store is the newest part of the log of all responses handed out, and a call of the
handler comes to one of three ends: it is rejected before the engine sees it, the engine
fails, or its response is stored and answered.
-/

namespace MockAgents

namespace ResponseStore

/-! ## Eviction -/

/-- Those in front are evicted, as many as there are too many. -/
theorem evict_eq (m : GoMap String (List RequestMessage)) (order : List String) (id : String) :
    (evict m order).order = order.drop (order.length - maxStoredResponses) ∧
      (evict m order).m.lookup id =
        if id ∈ order.take (order.length - maxStoredResponses) then none else m.lookup id := by
  induction order generalizing m with
  | nil => exact ⟨rfl, rfl⟩
  | cons oldest order ih =>
    rw [evict]
    split
    · have hlen : (oldest :: order).length - maxStoredResponses =
          order.length - maxStoredResponses + 1 := by
        rw [List.length_cons]
        omega
      rw [(ih _).1, (ih _).2, hlen, List.drop_succ_cons, List.take_succ_cons,
        GoMap.lookup_erase_eq]
      by_cases hid : id = oldest <;> simp [hid]
    · rename_i hroom
      have hlen : (oldest :: order).length - maxStoredResponses = 0 := by
        rw [List.length_cons]
        omega
      rw [hlen, List.drop_zero, List.take_zero]
      exact ⟨rfl, rfl⟩

/-! ## The store against the log -/

/-- The store holds the newest responses of the log, which has the newest first. -/
structure Holds (log : List String) (s : ResponseStore) : Prop where
  nodup : log.Nodup
  order : s.order = (log.take maxStoredResponses).reverse
  isSome_get : ∀ id, (s.get id).isSome ↔ id ∈ log.take maxStoredResponses

theorem holds_newResponseStore : Holds [] newResponseStore where
  nodup := List.nodup_nil
  order := rfl
  isSome_get _ := by simp [newResponseStore, get]

variable {s : ResponseStore} {id : String}

theorem Holds.get_eq_none {log : List String} (h : Holds log s)
    (hid : id ∉ log.take maxStoredResponses) : s.get id = none := by
  rw [← Option.not_isSome_iff_eq_none, h.isSome_get]
  exact hid

section

variable (hnew : s.get id = none)
include hnew

/-- A new response: the others are kept or dropped, never changed. -/
theorem get_put (msgs : List RequestMessage) (id' : String) :
    (s.put id msgs).get id' =
      if id' = id then some msgs
      else if id' ∈ (s.order ++ [id]).take (s.order.length + 1 - maxStoredResponses) then none
      else s.get id' := by
  have hfresh : (s.m.lookup id).isSome = false := by
    rw [show s.m.lookup id = none from hnew]
    rfl
  simp [put, get, hfresh, GoMap.lookup_insert_eq, (evict_eq _ _ _).2]

theorem get_of_get_put {msgs prior : List RequestMessage} {id' : String} (hne : id' ≠ id)
    (h : (s.put id msgs).get id' = some prior) : s.get id' = some prior := by
  rw [get_put hnew, if_neg hne] at h
  split at h
  · cases h
  · exact h

theorem get_put_of_isSome {msgs : List RequestMessage} {id' : String} (hne : id' ≠ id)
    (h : ((s.put id msgs).get id').isSome) : (s.put id msgs).get id' = s.get id' := by
  obtain ⟨prior, hprior⟩ := Option.isSome_iff_exists.mp h
  rw [hprior, get_of_get_put hnew hne hprior]

private theorem put_order (msgs : List RequestMessage) :
    (s.put id msgs).order =
      (s.order ++ [id]).drop (s.order.length + 1 - maxStoredResponses) := by
  have hfresh : (s.m.lookup id).isSome = false := by
    rw [show s.m.lookup id = none from hnew]
    rfl
  simp [put, hfresh, (evict_eq _ _ "").1]

end

private theorem drop_reverse_take {α : Type} (log : List α) (a : α) {n : Nat} (hn : 0 < n) :
    ((log.take n).reverse ++ [a]).drop ((log.take n).reverse.length + 1 - n) =
      ((a :: log).take n).reverse := by
  obtain ⟨k, rfl⟩ := Nat.exists_eq_succ_of_ne_zero hn.ne'
  rw [List.take_succ_cons, List.reverse_cons, List.length_reverse, List.length_take]
  by_cases hroom : log.length ≤ k
  · have hlen : min k.succ log.length + 1 - k.succ = 0 := by omega
    rw [hlen, List.drop_zero, List.take_of_length_le hroom, List.take_of_length_le (by omega)]
  · have hlen : min k.succ log.length + 1 - k.succ = 1 := by omega
    have hlog : (log.take k.succ).length - 1 = k := by
      rw [List.length_take]
      omega
    rw [hlen, List.drop_append_of_le_length (by simp; omega), List.drop_reverse, hlog,
      List.take_take, Nat.min_eq_left (by omega)]

/-- Storing a response under a new id makes it the newest of the log. -/
theorem Holds.put {log : List String} (h : Holds log s) (hid : id ∉ log)
    (msgs : List RequestMessage) : Holds (id :: log) (s.put id msgs) := by
  have hnew : s.get id = none := h.get_eq_none fun hmem => hid (List.mem_of_mem_take hmem)
  have hkept : (s.order ++ [id]).drop (s.order.length + 1 - maxStoredResponses) =
      ((id :: log).take maxStoredResponses).reverse := by
    rw [h.order]
    exact drop_reverse_take log id (by decide)
  refine ⟨List.nodup_cons.mpr ⟨hid, h.nodup⟩, (put_order hnew msgs).trans hkept, ?_⟩
  intro id'
  have hcut := List.take_append_drop (s.order.length + 1 - maxStoredResponses) (s.order ++ [id])
  have hnodup : (s.order ++ [id]).Nodup := by
    rw [h.order, List.nodup_append_comm, List.singleton_append, List.nodup_cons,
      List.mem_reverse, List.nodup_reverse]
    exact ⟨fun hmem => hid (List.mem_of_mem_take hmem), h.nodup.sublist (List.take_sublist ..)⟩
  have hmem : id' ∈ (id :: log).take maxStoredResponses ↔
      id' ∈ (s.order ++ [id]).drop (s.order.length + 1 - maxStoredResponses) := by
    rw [hkept, List.mem_reverse]
  have hold : (s.get id').isSome ↔ id' ∈ s.order := by
    rw [h.isSome_get, h.order, List.mem_reverse]
  rw [get_put hnew, hmem]
  generalize s.order.length + 1 - maxStoredResponses = k at *
  -- an id of the old order is either dropped or kept
  rw [← hcut, List.nodup_append] at hnodup
  have hsplit : id' ∈ s.order ++ [id] ↔
      id' ∈ (s.order ++ [id]).take k ∨ id' ∈ (s.order ++ [id]).drop k := by
    rw [← List.mem_append, hcut]
  by_cases hself : id' = id
  · subst hself
    simp only [if_pos, Option.isSome_some, true_iff]
    rw [hkept]
    exact List.mem_reverse.mpr (by simp [maxStoredResponses])
  · rw [if_neg hself]
    split
    · rename_i hdropped
      simp only [Option.isSome_none, Bool.false_eq_true, false_iff]
      exact fun hkeep => hnodup.2.2 id' hdropped id' hkeep rfl
    · rename_i hdropped
      rw [hold]
      simpa [hself, hdropped] using hsplit

end ResponseStore

/-! ## The handler -/

namespace ResponsesHandler

variable {host : Host} (lib : AdapterLib) (defs : Definitions)

/-- What the engine returns for a call with these messages. -/
def process (h : ResponsesHandler host) (call : ResponsesCall host) (req : ResponsesRequest)
    (messages : List RequestMessage) : Engine host × Outcome :=
  h.engine.processRequestContext defs call.tenantID (inbound call req messages) call.env

/-- The ends of a call. -/
inductive Handled (h : ResponsesHandler host) (call : ResponsesCall host) :
    ResponsesHandler host × ResponsesResult → Prop
  | rejected {answer : HttpAnswer ResponsesObject} (hanswer : answer.isOk = false) :
    Handled h call (h, { answer := answer })
  | failed {req : ResponsesRequest} {messages : List RequestMessage}
    {answer : HttpAnswer ResponsesObject} (hbody : call.body = .ok req)
    (hmessages : assembleMessages h.store req = .ok messages)
    (hresp : (h.process defs call req messages).2.resp = none) (hanswer : answer.isOk = false) :
    Handled h call ({ h with engine := (h.process defs call req messages).1 },
      { answer := answer, outcome := some (h.process defs call req messages).2 })
  | served {req : ResponsesRequest} {messages : List RequestMessage} {resp : Response}
    (hbody : call.body = .ok req) (hmessages : assembleMessages h.store req = .ok messages)
    (hresp : (h.process defs call req messages).2.resp = some resp) :
    Handled h call
      (⟨(h.process defs call req messages).1,
          h.store.put call.responseID (storedMessages messages resp)⟩,
        { answer := ({ h with engine := (h.process defs call req messages).1 }).writeResponse
            lib defs call req messages resp
          outcome := some (h.process defs call req messages).2 })

theorem isOk_of_assembleMessages {store : ResponseStore} {req : ResponsesRequest}
    {answer : HttpAnswer ResponsesObject} (h : assembleMessages store req = .error answer) :
    answer.isOk = false := by
  unfold assembleMessages at h
  split at h
  · obtain rfl := Except.error.inj h
    rfl
  · split at h
    · obtain rfl := Except.error.inj h
      rfl
    · split at h
      · -- the previous response is not there
        rename_i hprior
        obtain rfl := Except.error.inj h
        unfold priorMessages at hprior
        split at hprior
        · split at hprior
          · obtain rfl := Except.error.inj hprior
            rfl
          · cases hprior
        · cases hprior
      · simp only at h
        split at h
        · obtain rfl := Except.error.inj h
          rfl
        · cases h

/-- The answer to a call that the engine failed. -/
def failure (call : ResponsesCall host) (outcome : Outcome) : HttpAnswer ResponsesObject :=
  (outcome.err.map (writeEngineError lib.quote call.writer)).getD (.unwritten [])

theorem failure_isOk (call : ResponsesCall host) (outcome : Outcome) :
    (failure lib call outcome).isOk = false := by
  unfold failure
  cases outcome.err with
  | none => rfl
  | some err => exact writeEngineError_isOk lib.quote call.writer err

section

variable {h : ResponsesHandler host} {call : ResponsesCall host} {req : ResponsesRequest}
  {messages : List RequestMessage}

theorem handleResponses_bodyError {err : BodyError} (hbody : call.body = .error err) :
    h.handleResponses lib defs call = (h, { answer := writeBodyError err }) := by
  simp only [handleResponses, hbody]

section

variable (hbody : call.body = .ok req)
include hbody

theorem handleResponses_rejected {answer : HttpAnswer ResponsesObject}
    (hmessages : assembleMessages h.store req = .error answer) :
    h.handleResponses lib defs call = (h, { answer := answer }) := by
  simp only [handleResponses, hbody, hmessages]

theorem handleResponses_failed (hmessages : assembleMessages h.store req = .ok messages)
    (hresp : (h.process defs call req messages).2.resp = none) :
    h.handleResponses lib defs call =
      ({ h with engine := (h.process defs call req messages).1 },
        { answer := failure lib call (h.process defs call req messages).2
          outcome := some (h.process defs call req messages).2 }) := by
  rw [process] at hresp
  simp only [handleResponses, hbody, hmessages, hresp, failure, process]

theorem handleResponses_served {resp : Response}
    (hmessages : assembleMessages h.store req = .ok messages)
    (hresp : (h.process defs call req messages).2.resp = some resp) :
    h.handleResponses lib defs call =
      (⟨(h.process defs call req messages).1,
          h.store.put call.responseID (storedMessages messages resp)⟩,
        { answer := ({ h with engine := (h.process defs call req messages).1 }).writeResponse
            lib defs call req messages resp
          outcome := some (h.process defs call req messages).2 }) := by
  rw [process] at hresp
  simp only [handleResponses, hbody, hmessages, hresp, process]

end

end

/-- The three ends of a call. -/
theorem handled (h : ResponsesHandler host) (call : ResponsesCall host) :
    Handled lib defs h call (h.handleResponses lib defs call) := by
  cases hbody : call.body with
  | error err =>
    rw [handleResponses_bodyError lib defs hbody]
    refine .rejected ?_
    cases err <;> rfl
  | ok req =>
    cases hmessages : assembleMessages h.store req with
    | error answer =>
      rw [handleResponses_rejected lib defs hbody hmessages]
      exact .rejected (isOk_of_assembleMessages hmessages)
    | ok messages =>
      cases hresp : (h.process defs call req messages).2.resp with
      | none =>
        rw [handleResponses_failed lib defs hbody hmessages hresp]
        exact .failed hbody hmessages hresp (failure_isOk lib call _)
      | some resp =>
        rw [handleResponses_served lib defs hbody hmessages hresp]
        exact .served hbody hmessages hresp

end ResponsesHandler

end MockAgents
