import MockAgents.Spec.OutboxConservation

/-!
# The order of outgoing messages

With one subscriber that stays attached, messages arrive in the order they were enqueued as
long as every message finds room in the subscriber's channel. A message that does not goes to
the buffer, which only the next `Subscribe` reads: the messages after it overtake it, and it
stays behind when the subscriber has read all there is.
-/

namespace MockAgents

namespace Outbox

variable {μ : Type}

/-- The attached subscriber's channel is not full. -/
def hasRoom (o : Outbox μ) : Bool := o.attached.all fun sub => sub.ch.buf.length < sub.ch.cap

/-- What the attached subscriber received is what was enqueued first, and when it has read its
    channel, nothing waits in the buffer. -/
def Ordered (o : Outbox μ) : Prop := ∀ sub, o.attached = some sub →
  sub.received <+: o.enqueued ∧ (sub.ch.buf = [] → o.outbound = [])

/-- An outbox before its subscriber comes, or with its only subscriber, for which every message
    had room. -/
inductive Flowing : Outbox μ → Prop where
  | waiting (msgs : List (OutboundMessage μ)) : Flowing { outbound := msgs, enqueued := msgs }
  | attached (received : List (OutboundMessage μ)) (ch : Chan (OutboundMessage μ))
      (hopen : ch.closed = false) :
      Flowing { sub := some 0, subscribers := [⟨ch, received, false⟩],
                enqueued := received ++ ch.buf }

variable {o : Outbox μ}

theorem Flowing.ordered (h : o.Flowing) : o.Ordered := by
  cases h with
  | waiting msgs => exact fun sub hsub => nomatch (show none = some sub from hsub)
  | attached received ch hopen =>
    intro sub hsub
    cases hsub
    exact ⟨List.prefix_append _ _, fun _ => rfl⟩

theorem Flowing.enqueue (h : o.Flowing) (hroom : o.hasRoom) (msg : OutboundMessage μ) :
    (o.enqueue msg).Flowing := by
  cases h with
  | waiting msgs => exact .waiting (msgs ++ [msg])
  | attached received ch hopen =>
    have hlt : ch.buf.length < ch.cap := by simpa [hasRoom, Outbox.attached] using hroom
    have hnext := Flowing.attached received
      { ch with buf := ch.buf ++ [msg], le_cap := by rw [List.length_append]; exact hlt } hopen
    -- the send succeeds, so the message does not go to the buffer
    simpa [Outbox.enqueue, Chan.trySend, hopen, hlt, setSubscriber] using hnext

theorem replay_of_fits {ch : Chan (OutboundMessage μ)} {msgs : List (OutboundMessage μ)}
    (hopen : ch.closed = false) (hfits : ch.buf.length + msgs.length ≤ ch.cap) :
    (replay ch msgs).2 = [] := by
  induction msgs generalizing ch with
  | nil => rfl
  | cons msg msgs ih =>
    rw [List.length_cons] at hfits
    cases hsend : ch.trySend msg with
    | sent ch' =>
      obtain ⟨_, _, hbuf, hcap, hopen'⟩ := Chan.sent_of_trySend hsend
      simp only [replay, hsend]
      apply ih hopen'
      rw [hbuf, List.length_append, List.length_singleton]
      omega
    | full =>
      have hfull := (Chan.full_of_trySend hsend).2
      omega
    | panic => exact absurd (Chan.closed_of_trySend hsend) (by simp [hopen])

theorem Flowing.subscribe (h : o.Flowing) (hfirst : o.subscribers = []) {buffer : Int}
    (hfits : o.outbound.length ≤ if buffer ≤ 0 then 16 else buffer.toNat) :
    (o.subscribe buffer).Flowing := by
  cases h with
  | waiting msgs =>
    generalize hch : Chan.make (OutboundMessage μ) (if buffer ≤ 0 then 16 else buffer.toNat) = ch
    have hrest : (replay ch msgs).2 = [] := by
      subst hch
      exact replay_of_fits rfl (by simpa [Chan.make] using hfits)
    obtain ⟨hmsgs, hclosed⟩ := replay_spec ch msgs
    rw [hrest, List.append_nil, ← hch, Chan.buf_make, hch] at hmsgs
    have hnext := Flowing.attached [] (replay ch msgs).1 (hclosed.trans (by rw [← hch]; rfl))
    rw [hmsgs] at hnext
    simpa [Outbox.subscribe, steal, hch, hrest] using hnext
  | attached received ch hopen => cases hfirst

theorem Flowing.receive {o' : Outbox μ} (h : o.Flowing) {k : Nat} {sub : OutboxSubscriber μ}
    (hsub : o.subscribers[k]? = some sub) (hrecv : o.receive k sub = some o') : o'.Flowing := by
  revert hrecv
  fun_cases Outbox.receive o k sub <;> intro hrecv <;> cases hrecv
  · rename_i msg ch hvalue
    obtain ⟨hbuf, _, hclosed⟩ := Chan.value_of_receive hvalue
    cases h with
    | waiting msgs => cases hsub
    | attached received old hopen =>
      obtain ⟨rfl, rfl⟩ : k = 0 ∧ ⟨old, received, false⟩ = sub := by
        simpa [List.getElem?_singleton] using hsub
      have hnext := Flowing.attached (received ++ [msg]) ch (hclosed.trans hopen)
      rw [List.append_assoc, List.singleton_append, ← show old.buf = msg :: ch.buf from hbuf]
        at hnext
      exact hnext
  · exact h

end Outbox

namespace Bidirectional

variable {μ ρ : Type}

/-- One subscriber that stays: no `Subscribe` after the first one, and no cancel. -/
def oneSubscriber (s : Bidirectional μ ρ) : BidiEvent μ ρ → Bool
  | .subscribe _ => s.outbox.subscribers.isEmpty
  | .cancel _ => false
  | _ => true

/-- The condition on a step: a message that is enqueued finds room in the subscriber's channel,
    and so do those that wait for a `Subscribe`. -/
def findsRoom (s : Bidirectional μ ρ) : BidiEvent μ ρ → Bool
  | .subscribe buffer => s.outbox.outbound.length ≤ if buffer ≤ 0 then 16 else buffer.toNat
  | ev => (s.enqueues ev).isNone || s.outbox.hasRoom

theorem flowing_of_step {s s' : Bidirectional μ ρ} {ev : BidiEvent μ ρ} (h : s.outbox.Flowing)
    (hone : s.oneSubscriber ev) (hroom : s.findsRoom ev) (hstep : s.step ev = some s') :
    s'.outbox.Flowing := by
  have hout := outboxStep_of_step hstep
  generalize s'.outbox = o at hout ⊢
  cases hout with
  | keep => exact h
  | enqueue henq =>
    have hroom' : s.outbox.hasRoom := by
      cases ev <;> first | simpa [findsRoom, henq] using hroom | cases henq
    exact h.enqueue hroom' _
  | subscribe buffer =>
    exact h.subscribe (List.isEmpty_iff.mp hone) (of_decide_eq_true hroom)
  | receive hsub hrecv => exact h.receive hsub hrecv
  | cancel => cases hone

/-- In every run with one subscriber that stays, in which every message finds room in its
    channel, the messages arrive in order and none stays behind. -/
theorem ordered_of_findsRoom (events : List (BidiEvent μ ρ))
    (hsteps : AllSteps step (fun s ev => s.oneSubscriber ev ∧ s.findsRoom ev)
      ({} : Bidirectional μ ρ) events)
    {s : Bidirectional μ ρ} (hrun : run {} events = some s) : s.outbox.Ordered := by
  have hflowing : s.outbox.Flowing := runOption_inv_of_allSteps step
    (fun s ev => s.oneSubscriber ev ∧ s.findsRoom ev) (·.outbox.Flowing)
    (fun s ev s' hcond hstep h => flowing_of_step h hcond.1 hcond.2 hstep)
    hsteps hrun (.waiting [])
  exact hflowing.ordered

/-- Two messages wait for the subscriber, which reads them and a third one. -/
def keptUp : List (BidiEvent Nat Nat) :=
  [.notify 1, .notify 2, .subscribe 2, .receive 0, .notify 3, .receive 0, .receive 0]

theorem keptUp_ordered : ∃ s : Bidirectional Nat Nat, run {} keptUp = some s ∧
    s.outbox.Ordered ∧
      s.outbox.received = [.notification 1, .notification 2, .notification 3] := by
  obtain ⟨s, hs, hreceived⟩ : ∃ s, run {} keptUp = some s ∧
      s.outbox.received = [.notification 1, .notification 2, .notification 3] := by decide
  exact ⟨s, hs, ordered_of_findsRoom keptUp (by decide) hs, hreceived⟩

/-- The second message finds the channel full, and the third one has room again. -/
def overtaken : List (BidiEvent Nat Nat) :=
  [.subscribe 1, .notify 1, .notify 2, .receive 0, .notify 3, .receive 0]

/-- The subscriber has read all there is: the first and the third message. -/
theorem overtaken_not_ordered : ∃ s : Bidirectional Nat Nat, run {} overtaken = some s ∧
    AllSteps step (fun s ev => s.oneSubscriber ev) ({} : Bidirectional Nat Nat) overtaken ∧
    s.outbox.received = [.notification 1, .notification 3] ∧ s.outbox.unread = [] ∧
      s.outbox.outbound = [.notification 2] ∧ ¬ s.outbox.Ordered := by
  obtain ⟨s, hs, hattached, hreceived, hunread, houtbound⟩ : ∃ s, run {} overtaken = some s ∧
      s.outbox.attached.map (·.ch.buf) = some [] ∧
      s.outbox.received = [.notification 1, .notification 3] ∧ s.outbox.unread = [] ∧
      s.outbox.outbound = [.notification 2] := by decide
  refine ⟨s, hs, by decide, hreceived, hunread, houtbound, fun hordered => ?_⟩
  obtain ⟨sub, hsub, hbuf⟩ := Option.map_eq_some_iff.mp hattached
  have hempty := (hordered sub hsub).2 hbuf
  rw [houtbound] at hempty
  cases hempty

end Bidirectional

end MockAgents
