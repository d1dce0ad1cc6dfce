import Mathlib.Data.List.Induction
import MockAgents.State.Turns

/-!
# Turn numbering under any interleaving

Every interleaving of `ApplyTurn` calls leaves the session in the state of running the
finished calls one after the other, in the order in which they held the lock, followed
by the part of the turn that the lock holder has done so far. Turn numbers and the
shape of the history are then facts about sequential runs.
-/

namespace MockAgents

/-! ## Turns in sequence -/

namespace Turn

variable {ι : Type}

/-- What the turn's `build` callback returned. -/
def outcome (t : Turn ι) : Except Unit Reply :=
  match t.reply with
  | none => .error ()
  | some (reply, _) => .ok reply

/-- When the reply was appended. -/
def replyAt (t : Turn ι) : Int := (t.reply.map Prod.snd).getD 0

/-- The turn as one call of `ApplyTurn` that nothing interrupts. -/
def apply (s : Session) (t : Turn ι) : Session :=
  (s.applyTurn t.content t.userAt t.replyAt fun _ _ => ⟨t.outcome, t.vars, ()⟩).1

/-- Run turns one after the other. -/
def replay (s : Session) (turns : List (Turn ι)) : Session := turns.foldl apply s

def messages (t : Turn ι) : List Message :=
  { role := .user, content := t.content, timestamp := t.userAt } ::
    match t.reply with
    | none => []
    | some (reply, replyAt) =>
      [{ role := .assistant, content := reply.content, toolCalls := reply.toolCalls,
         timestamp := replyAt }]

variable (s : Session) (turns : List (Turn ι)) (t : Turn ι)

theorem replay_snoc : replay s (turns ++ [t]) = apply (replay s turns) t := by
  simp [replay]

@[simp] theorem apply_turnCount : (apply s t).turnCount = s.turnCount + 1 := by
  unfold apply Session.applyTurn
  cases h : t.outcome <;> rfl

@[simp] theorem apply_messages : (apply s t).messages = s.messages ++ t.messages := by
  unfold apply Session.applyTurn outcome messages replyAt
  cases h : t.reply with
  | none => rfl
  | some r => simp [Session.appendUserMessage, Session.appendAssistantMessage]

/-- Every turn, failed ones included, advances the turn count by one. -/
theorem replay_turnCount : (replay s turns).turnCount = s.turnCount + turns.length := by
  induction turns using List.reverseRecOn with
  | nil => rfl
  | append_singleton turns t ih =>
    rw [replay_snoc, apply_turnCount, ih, List.length_append, List.length_singleton]
    omega

theorem replay_messages : (replay s turns).messages = s.messages ++ turns.flatMap messages := by
  induction turns using List.reverseRecOn with
  | nil => simp [replay]
  | append_singleton turns t ih =>
    rw [replay_snoc, apply_messages, ih, List.flatMap_append, List.flatMap_singleton,
      List.append_assoc]

/-- A turn holds exactly one user message. -/
theorem countP_messages : t.messages.countP (·.role == .user) = 1 := by
  unfold messages
  cases h : t.reply <;> rfl

theorem countP_flatMap_messages :
    (turns.flatMap messages).countP (·.role == .user) = turns.length := by
  induction turns with
  | nil => rfl
  | cons t turns ih =>
    rw [List.flatMap_cons, List.countP_append, ih, countP_messages, List.length_cons]
    omega

end Turn

/-! ## The part of a turn done so far -/

namespace TurnPc

/-- The caller holds the session lock. -/
def critical : TurnPc → Bool
  | .idle | .waiting _ => false
  | _ => true

/-- The session of the lock holder, from the session when it took the lock. -/
def progress (base : Session) : TurnPc → Session
  | .idle | .waiting _ | .entered _ => base
  | .appended content userAt => base.appendUserMessage content userAt
  | .built content userAt _ vars _ =>
    { base.appendUserMessage content userAt with vars := vars }
  | .replied content userAt _ vars reply replyAt =>
    { base.appendUserMessage content userAt with vars := vars }.appendAssistantMessage
      reply.content reply.toolCalls replyAt

def messages : TurnPc → List Message
  | .idle | .waiting _ | .entered _ => []
  | .appended content userAt | .built content userAt _ _ _ =>
    [{ role := .user, content := content, timestamp := userAt }]
  | .replied content userAt _ _ reply replyAt =>
    [{ role := .user, content := content, timestamp := userAt },
      { role := .assistant, content := reply.content, toolCalls := reply.toolCalls,
        timestamp := replyAt }]

/-- The turn number that the lock holder's callback was given, once it has run. -/
def number : TurnPc → Option Nat
  | .built _ _ number _ _ | .replied _ _ number _ _ _ => some number
  | _ => none

theorem progress_messages (base : Session) (pc : TurnPc) :
    (pc.progress base).messages = base.messages ++ pc.messages := by
  cases pc <;>
    simp [progress, messages, Session.appendUserMessage, Session.appendAssistantMessage]

theorem progress_turnCount (base : Session) (pc : TurnPc) :
    (pc.progress base).turnCount =
      base.turnCount + pc.messages.countP (·.role == .user) := by
  cases pc <;> rfl

end TurnPc

/-! ## Interleavings -/

namespace TurnSystem

variable {ι : Type}

/-- The lock holder's position; `idle` if the lock is free. -/
def holder (s : TurnSystem ι) : TurnPc :=
  match s.mu with
  | none => .idle
  | some i => s.pc i

/-- The session is the sequential run of the finished turns, in lock order, followed by
    the part of a turn that the lock holder has done. -/
structure Linear (s₀ : Session) (s : TurnSystem ι) : Prop where
  lock : ∀ i, (s.pc i).critical = true ↔ s.mu = some i
  session : s.session = s.holder.progress (Turn.replay s₀ s.turns)
  turnNumbers : s.turns.map Turn.number = List.range' (s₀.turnCount + 1) s.turns.length
  holderNumber : ∀ n, s.holder.number = some n → n = s₀.turnCount + s.turns.length + 1
  numbers : s.numbers = s.turns.map Turn.number ++ s.holder.number.toList

theorem linear_initial (s₀ : Session) : Linear s₀ (initial s₀ : TurnSystem ι) where
  lock := by simp [initial, TurnPc.critical]
  session := rfl
  turnNumbers := rfl
  holderNumber := by simp [initial, holder, TurnPc.number]
  numbers := rfl

variable {s₀ : Session} {s s' : TurnSystem ι} {i : ι}

/-- The holder of the lock is the one caller in the critical section. -/
private theorem Linear.holder_eq (h : Linear s₀ s) (hi : (s.pc i).critical = true) :
    s.mu = some i ∧ s.holder = s.pc i := by
  have hmu : s.mu = some i := (h.lock i).mp hi
  exact ⟨hmu, by simp only [holder, hmu]⟩

section Steps

variable [DecidableEq ι]

section

variable (h : Linear s₀ s)
include h

private theorem Linear.wait (content : String) (hi : s.pc i = .idle) :
    Linear s₀ (s.setPc i (.waiting content)) := by
  -- the caller was idle, so it does not hold the lock
  have hne : s.mu ≠ some i := by
    intro hmu
    have := (h.lock i).mpr hmu
    simp [hi, TurnPc.critical] at this
  have hholder : (s.setPc i (.waiting content)).holder = s.holder := by
    unfold holder setPc
    cases hmu : s.mu with
    | none => rfl
    | some j =>
      have hji : j ≠ i := fun hji => hne (hji ▸ hmu)
      simp only [Function.update_of_ne hji]
  constructor
  · intro j
    by_cases hj : j = i
    · subst hj
      simpa [setPc, TurnPc.critical] using hne
    · simpa [setPc, Function.update_of_ne hj] using h.lock j
  · rw [hholder]; exact h.session
  · exact h.turnNumbers
  · rw [hholder]; exact h.holderNumber
  · rw [hholder]; exact h.numbers

/-- Taking the free lock. -/
private theorem Linear.enter (content : String) (hmu : s.mu = none) :
    Linear s₀ { s.setPc i (.entered content) with mu := some i } := by
  have hholder : s.holder = .idle := by simp only [holder, hmu]
  have hholder' : ({ s.setPc i (.entered content) with mu := some i } :
      TurnSystem ι).holder = .entered content := by simp [holder, setPc]
  constructor
  · intro j
    by_cases hj : j = i
    · subst hj
      simp [setPc, TurnPc.critical]
    · -- the lock was free, so nobody else is in the critical section
      have hfree : (s.pc j).critical = false := by
        simpa [hmu] using h.lock j
      simp [setPc, Function.update_of_ne hj, hfree, Ne.symm hj]
  · rw [hholder']
    simpa [hholder, TurnPc.progress, setPc] using h.session
  · exact h.turnNumbers
  · simp [hholder', TurnPc.number]
  · rw [hholder']
    simpa [hholder, TurnPc.number, setPc] using h.numbers

/-- A step of the lock holder inside the critical section. -/
private theorem Linear.advance (hi : (s.pc i).critical = true) {pc : TurnPc} {session : Session}
    {numbers : List Nat} (hpc : pc.critical = true)
    (hsession : session = pc.progress (Turn.replay s₀ s.turns))
    (hnumber : ∀ n, pc.number = some n → n = s₀.turnCount + s.turns.length + 1)
    (hnumbers : numbers = s.turns.map Turn.number ++ pc.number.toList) :
    Linear s₀ { s.setPc i pc with session := session, numbers := numbers } := by
  obtain ⟨hmu, _⟩ := h.holder_eq hi
  have hholder : ({ s.setPc i pc with session := session, numbers := numbers } :
      TurnSystem ι).holder = pc := by simp [holder, setPc, hmu]
  constructor
  · intro j
    by_cases hj : j = i
    · subst hj
      simp [setPc, hpc, hmu]
    · simpa [setPc, Function.update_of_ne hj] using h.lock j
  · rw [hholder]; exact hsession
  · exact h.turnNumbers
  · rw [hholder]; exact hnumber
  · rw [hholder]; exact hnumbers

private theorem Linear.finish {turn : Turn ι} (hi : (s.pc turn.caller).critical = true)
    (hnumber : (s.pc turn.caller).number = some turn.number)
    (hdone : (s.pc turn.caller).progress (Turn.replay s₀ s.turns) =
      turn.apply (Turn.replay s₀ s.turns)) :
    Linear s₀ (s.finish turn) := by
  obtain ⟨hmu, hholder⟩ := h.holder_eq hi
  -- the turn has the next number, as its callback was given it under the lock
  have hn : turn.number = s₀.turnCount + s.turns.length + 1 :=
    h.holderNumber turn.number (by rw [hholder, hnumber])
  have hmap : (s.turns ++ [turn]).map Turn.number =
      List.range' (s₀.turnCount + 1) (s.turns ++ [turn]).length := by
    rw [List.map_append, h.turnNumbers, List.length_append, List.length_singleton,
      List.range'_concat]
    simp [hn]
    omega
  constructor
  · intro j
    by_cases hj : j = turn.caller
    · subst hj
      simp [TurnSystem.finish, setPc, TurnPc.critical]
    · -- `turn.caller` held the lock, so nobody else does
      have hfree : (s.pc j).critical = false := by
        have := h.lock j
        simpa [hmu, Ne.symm hj] using this
      simp [TurnSystem.finish, setPc, Function.update_of_ne hj, hfree]
  · show s.session = Turn.replay s₀ (s.turns ++ [turn])
    rw [Turn.replay_snoc, ← hdone, ← hholder]
    exact h.session
  · exact hmap
  · simp [TurnSystem.finish, holder, TurnPc.number]
  · show s.numbers = (s.turns ++ [turn]).map Turn.number ++ []
    rw [h.numbers, hholder, hnumber, List.map_append, List.append_nil]
    rfl

theorem Linear.step {e : TurnEvent ι} (hstep : s.step e = some s') : Linear s₀ s' := by
  revert hstep
  fun_cases TurnSystem.step s e <;> intro hstep <;> cases hstep
  · exact h.wait _ ‹_›
  · exact h.enter _ ‹_›
  · rename_i i _ content hpc
    have hi : (s.pc i).critical = true := by rw [hpc]; rfl
    have hholder : s.holder = .entered content := by rw [(h.holder_eq hi).2, hpc]
    refine h.advance hi rfl ?_ (fun n hn => nomatch hn) ?_
    · rw [h.session, hholder]; rfl
    · have := h.numbers
      rwa [hholder] at this
  · rename_i i _ _ content userAt hpc _
    have hi : (s.pc i).critical = true := by rw [hpc]; rfl
    have hholder : s.holder = .appended content userAt := by rw [(h.holder_eq hi).2, hpc]
    -- the callback gets the count after its own user message
    have hcount : s.session.turnCount = s₀.turnCount + s.turns.length + 1 := by
      rw [h.session, hholder, TurnPc.progress_turnCount, Turn.replay_turnCount]; rfl
    refine h.advance hi rfl ?_ (fun n hn => ?_) ?_
    · rw [h.session, hholder]; rfl
    · exact (Option.some.inj hn).symm.trans hcount
    · rw [h.numbers, hholder]; simp [TurnPc.number]
  · rename_i i _ content userAt number vars reply hpc
    have hi : (s.pc i).critical = true := by rw [hpc]; rfl
    have hholder : s.holder = .built content userAt number vars (some reply) := by
      rw [(h.holder_eq hi).2, hpc]
    refine h.advance hi rfl ?_ (fun n hn => h.holderNumber n (by rw [hholder]; exact hn)) ?_
    · rw [h.session, hholder]; rfl
    · have := h.numbers
      rwa [hholder] at this
  all_goals
    rename_i hpc
    exact h.finish (by rw [hpc]; rfl) (by rw [hpc]; rfl) (by rw [hpc]; rfl)

end

theorem Linear.run {events : List (TurnEvent ι)}
    (hrun : (initial s₀ : TurnSystem ι).run events = some s) : Linear s₀ s :=
  runOption_inv TurnSystem.step (Linear s₀) (fun _ _ _ hstep h => h.step hstep) hrun
    (linear_initial s₀)

/-- Turn numbering on a new session, after any interleaving of calls: the turn count is
    the number of user messages; the callbacks were given 1, 2, … in order; the history
    is the concatenation of the finished turns, each a user message followed by the
    reply of its own callback if that succeeded, and the messages that the lock holder
    has appended so far. -/
theorem turns_numbered (id agentName : String) (ttl now : Int)
    (events : List (TurnEvent ι)) (s : TurnSystem ι)
    (hrun : (initial (Session.newSession id agentName ttl now)).run events = some s) :
    s.session.turnCount = s.session.messages.countP (·.role == .user) ∧
      s.numbers = List.range' 1 s.numbers.length ∧
      s.turns.map Turn.number = List.range' 1 s.turns.length ∧
      s.session.messages = s.turns.flatMap Turn.messages ++ s.holder.messages := by
  have h := Linear.run hrun
  have hmessages : s.session.messages =
      s.turns.flatMap Turn.messages ++ s.holder.messages := by
    rw [h.session, TurnPc.progress_messages, Turn.replay_messages]
    rfl
  have hcount : s.session.turnCount = s.session.messages.countP (·.role == .user) := by
    rw [hmessages, List.countP_append, Turn.countP_flatMap_messages]
    rw [h.session, TurnPc.progress_turnCount, Turn.replay_turnCount]
    simp [Session.newSession]
  have hnumbers : s.numbers = List.range' 1 s.numbers.length := by
    have hturns := h.turnNumbers
    have hlast := h.holderNumber
    rw [h.numbers, hturns]
    cases hn : s.holder.number with
    | none => simp [Session.newSession]
    | some n =>
      rw [hlast n hn]
      simp [Session.newSession, List.range'_concat, Nat.add_comm]
  exact ⟨hcount, hnumbers, h.turnNumbers, hmessages⟩

/-- Two callers, the second waiting while the first holds the lock; the first turn
    fails. -/
def twoCallers : List (TurnEvent Bool) :=
  [.call true "hello", .lock true, .call false "hi", .appendUser true 1,
    .build true [] none, .unlock true, .lock false, .appendUser false 2,
    .build false [] (some { content := "hey" }), .appendAssistant false 3]

theorem turns_numbered_twoCallers :
    ∃ s, (initial (Session.newSession "k" "bot" 60 0)).run twoCallers = some s ∧
      s.numbers = List.range' 1 s.numbers.length ∧ s.numbers.length = 2 := by
  refine ⟨_, rfl, ?_, rfl⟩
  exact (turns_numbered "k" "bot" 60 0 twoCallers _ rfl).2.1

/-- `ApplyTurn` is linearizable: while no one is inside, the session is the one that the
    finished calls give one after the other, each as one call. -/
theorem applyTurn_linearizable (s₀ : Session) (events : List (TurnEvent ι)) (s : TurnSystem ι)
    (hrun : (initial s₀).run events = some s) (hfree : s.mu = none) :
    s.session = Turn.replay s₀ s.turns := by
  have hsession := (Linear.run hrun).session
  rwa [holder, hfree] at hsession

theorem applyTurn_linearizable_twoCallers :
    ∃ s, (initial (Session.newSession "k" "bot" 60 0)).run (twoCallers ++ [.unlock false]) =
      some s ∧ s.session = Turn.replay (Session.newSession "k" "bot" 60 0) s.turns :=
  ⟨_, rfl, applyTurn_linearizable _ (twoCallers ++ [.unlock false]) _ rfl rfl⟩

end Steps

end TurnSystem

end MockAgents
