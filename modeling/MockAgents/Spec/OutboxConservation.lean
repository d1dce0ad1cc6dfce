import MockAgents.Mcp.Bidirectional

/-!
# Where an outgoing message is

Every message that was enqueued has been received by one subscriber, or waits in the channel
of the attached subscriber, or waits in the buffer. A `Subscribe` that takes over from an
attached subscriber closes that one's channel and leaves the messages in it behind: they are
in none of these places any more, and if the subscriber cancels before it has read them, they
are lost. In every run in which a stream is taken over only after its channel was read, the
messages are kept.
-/

namespace MockAgents

open List (append_assoc getElem?_set_cases)

namespace Outbox

open scoped List

variable {μ : Type}

/-- What the attached subscriber has not read. -/
def unread (o : Outbox μ) : List (OutboundMessage μ) :=
  match o.attached with
  | none => []
  | some sub => sub.ch.buf

/-- What has been received, by any subscriber. -/
def received (o : Outbox μ) : List (OutboundMessage μ) := o.subscribers.flatMap (·.received)

/-- Every message that was enqueued is in exactly one place. -/
def Conserved (o : Outbox μ) : Prop := o.enqueued ~ o.received ++ (o.unread ++ o.outbound)

/-- The attached subscriber's channel is open, and no other channel holds a message. -/
structure Sound (o : Outbox μ) : Prop where
  attached_open : ∀ k, o.sub = some k → ∃ sub, o.subscribers[k]? = some sub ∧ sub.ch.closed = false
  detached_empty : ∀ (k : Nat) (sub : OutboxSubscriber μ), o.subscribers[k]? = some sub →
    o.sub ≠ some k → sub.ch.buf = []
  not_panicked : o.panicked = false
  conserved : o.Conserved

/-! ## Parts of the outbox -/

variable {o : Outbox μ}

theorem unread_of_none (h : o.sub = none) : o.unread = [] := by
  rw [unread, attached, h]
  rfl

variable {k : Nat}

theorem unread_of_some {sub : OutboxSubscriber μ} (h : o.sub = some k)
    (hsub : o.subscribers[k]? = some sub) : o.unread = sub.ch.buf := by
  have hattached : o.attached = some sub := by
    rw [attached, h]
    exact hsub
  rw [unread, hattached]

variable {old : OutboxSubscriber μ}

theorem getElem?_setSubscriber (h : o.subscribers[k]? = some old) (sub : OutboxSubscriber μ) :
    (o.setSubscriber k sub).subscribers[k]? = some sub :=
  List.getElem?_set_self (List.getElem?_eq_some_iff.mp h).1

theorem received_setSubscriber (h : o.subscribers[k]? = some old) (sub : OutboxSubscriber μ)
    (hreceived : sub.received = old.received) : (o.setSubscriber k sub).received = o.received :=
  List.flatMap_set_of_eq _ h hreceived

/-- The attached subscriber sends on what it has, after new messages were put behind it. -/
theorem Sound.setAttached (h : o.Sound) (hk : o.sub = some k) (hold : o.subscribers[k]? = some old)
    (sub : OutboxSubscriber μ) (new : List (OutboundMessage μ))
    (hclosed : sub.ch.closed = old.ch.closed)
    (hmoved : sub.received ++ sub.ch.buf = old.received ++ old.ch.buf ++ new) :
    Sound ({ o with enqueued := o.enqueued ++ new }.setSubscriber k sub) := by
  have hnew := getElem?_setSubscriber hold sub
  refine ⟨?_, ?_, h.not_panicked, ?_⟩
  · intro j hj
    cases hk.symm.trans hj
    obtain ⟨sub', hsub', hopen⟩ := h.attached_open k hk
    cases hold.symm.trans hsub'
    exact ⟨sub, hnew, hclosed.trans hopen⟩
  · intro j sub' hsub' hj
    rcases getElem?_set_cases hsub' with ⟨rfl, rfl⟩ | ⟨_, hold⟩
    · exact absurd hk hj
    · exact h.detached_empty j sub' hold hj
  · classical
    -- count a message: what the other subscribers have received is the same
    obtain ⟨rest, hperm, hperm'⟩ := List.exists_perm_set hold
    have hunread := unread_of_some (o := o.setSubscriber k sub) hk hnew
    refine List.perm_iff_count.mpr fun msg => ?_
    have hconserved := h.conserved.count_eq msg
    have hreceived := (hperm.flatMap_right (·.received)).count_eq msg
    have hreceived' := ((hperm' sub).flatMap_right (·.received)).count_eq msg
    have hcount := congrArg (List.count msg) hmoved
    show List.count msg (o.enqueued ++ new) = List.count msg
      ((o.setSubscriber k sub).received ++ ((o.setSubscriber k sub).unread ++ o.outbound))
    rw [hunread]
    simp only [received, setSubscriber, unread_of_some hk hold, List.count_append,
      List.flatMap_cons] at *
    omega

/-! ## `enqueue` -/

theorem Sound.enqueue (h : o.Sound) (msg : OutboundMessage μ) : (o.enqueue msg).Sound := by
  have hconserved := h.conserved
  -- the message goes to the end of the buffer
  have hbuffer : Outbox.Sound ({ o with enqueued := o.enqueued ++ [msg] }.buffer msg) := by
    refine ⟨h.attached_open, h.detached_empty, h.not_panicked, ?_⟩
    show o.enqueued ++ [msg] ~ o.received ++ (o.unread ++ (o.outbound ++ [msg]))
    rw [← append_assoc o.unread, ← append_assoc]
    exact hconserved.append_right [msg]
  simp only [Outbox.enqueue]
  split
  · exact hbuffer
  · rename_i k hk
    split
    · exact hbuffer
    · rename_i sub hsub
      obtain ⟨sub', hsub', hopen⟩ := h.attached_open k hk
      cases hsub.symm.trans hsub'
      split
      · rename_i ch hsend
        obtain ⟨_, _, hbuf, _, hopen'⟩ := Chan.sent_of_trySend hsend
        exact h.setAttached hk hsub _ [msg] (hopen'.trans hopen.symm) (by simp [hbuf])
      · exact hbuffer
      · rename_i hpanic
        exact absurd (Chan.closed_of_trySend hpanic) (by simp [hopen])

/-! ## `Subscribe` -/

theorem replay_spec (ch : Chan (OutboundMessage μ)) (msgs : List (OutboundMessage μ)) :
    (replay ch msgs).1.buf ++ (replay ch msgs).2 = ch.buf ++ msgs ∧
      (replay ch msgs).1.closed = ch.closed := by
  induction msgs generalizing ch with
  | nil => exact ⟨rfl, rfl⟩
  | cons msg msgs ih =>
    rw [replay]
    split
    · rename_i ch' hsend
      obtain ⟨hopen, _, hbuf, _, hopen'⟩ := Chan.sent_of_trySend hsend
      obtain ⟨hmsgs, hclosed⟩ := ih ch'
      refine ⟨?_, hclosed.trans (hopen'.trans hopen.symm)⟩
      rw [hmsgs, hbuf, append_assoc]
      rfl
    · exact ⟨rfl, rfl⟩

/-- What `steal` leaves alone. -/
structure Stolen (o o' : Outbox μ) : Prop where
  received : o'.received = o.received
  rest : (o'.outbound, o'.enqueued, o'.panicked) = (o.outbound, o.enqueued, false)
  length : o'.subscribers.length = o.subscribers.length
  /-- Only the attached subscriber's channel may hold messages. -/
  empty : ∀ (k : Nat) (sub : OutboxSubscriber μ), o'.subscribers[k]? = some sub →
    sub.ch.buf = [] ∨ (o.sub = some k ∧ sub.ch.buf = o.unread)

theorem Sound.steal (h : o.Sound) : Stolen o o.steal := by
  cases hsub : o.sub with
  | none =>
    have hsame : o.steal = o := by rw [Outbox.steal, hsub]
    rw [hsame]
    refine ⟨rfl, by rw [h.not_panicked], rfl, ?_⟩
    exact fun k sub hk => .inl (h.detached_empty k sub hk (by simp [hsub]))
  | some k =>
    obtain ⟨sub, hk, hopen⟩ := h.attached_open k hsub
    simp only [Outbox.steal, hsub, hk]
    split
    · rename_i ch hclose
      have hbuf := (Chan.eq_of_close hclose).2.1
      refine ⟨received_setSubscriber hk _ rfl, ?_, by rw [setSubscriber, List.length_set], ?_⟩
      · rw [setSubscriber, h.not_panicked]
      · intro j sub' hsub'
        rcases getElem?_set_cases hsub' with ⟨rfl, rfl⟩ | ⟨hne, hold⟩
        · exact .inr ⟨hsub, hbuf.trans (unread_of_some hsub hk).symm⟩
        · exact .inl (h.detached_empty j sub' hold (by simp [hsub, Ne.symm hne]))
    · rename_i hpanic
      exact absurd (Chan.closed_of_close hpanic) (by simp [hopen])

/-- After a `Subscribe`, what the previous subscriber had not read is nowhere. -/
theorem Sound.subscribe_places (h : o.Sound) (buffer : Int) :
    (o.subscribe buffer).received = o.received ∧
      (o.subscribe buffer).unread ++ (o.subscribe buffer).outbound = o.outbound := by
  have hstolen := h.steal
  have hrest := hstolen.rest
  simp only [Prod.mk.injEq] at hrest
  have hreplay := replay_spec
    (Chan.make (OutboundMessage μ) (if buffer ≤ 0 then 16 else buffer.toNat)) o.steal.outbound
  constructor
  · show (o.steal.subscribers ++ [_]).flatMap _ = _
    rw [List.flatMap_append, ← hstolen.received]
    exact List.append_nil _
  · have hunread : (o.subscribe buffer).unread = (replay
        (Chan.make (OutboundMessage μ) (if buffer ≤ 0 then 16 else buffer.toNat))
        o.steal.outbound).1.buf := by
      exact unread_of_some (o := o.subscribe buffer) rfl List.getElem?_concat_length
    rw [hunread]
    exact hreplay.1.trans hrest.1

theorem Sound.subscribe (h : o.Sound) (hunread : o.unread = []) (buffer : Int) :
    (o.subscribe buffer).Sound := by
  have hstolen := h.steal
  have hrest := hstolen.rest
  simp only [Prod.mk.injEq] at hrest
  obtain ⟨hreceived, hplaces⟩ := h.subscribe_places buffer
  refine ⟨?_, ?_, hrest.2.2, ?_⟩
  · intro k hk
    cases hk
    exact ⟨_, List.getElem?_concat_length, (replay_spec _ _).2⟩
  · intro k sub hsub hk
    rcases List.getElem?_snoc_cases hsub with ⟨rfl, _⟩ | hold
    · exact absurd rfl hk
    · rcases hstolen.empty k sub hold with hempty | ⟨_, hempty⟩
      · exact hempty
      · exact hempty.trans hunread
  · have hconserved := h.conserved
    have henqueued : (o.subscribe buffer).enqueued = o.enqueued := hrest.2.1
    rw [Conserved, hunread] at hconserved
    rw [Conserved, hreceived, hplaces, henqueued]
    exact hconserved

/-! ## `cancel` and receives -/

theorem Sound.cancel (h : o.Sound) {sub : OutboxSubscriber μ}
    (hsub : o.subscribers[k]? = some sub) : (o.cancel k sub).Sound := by
  rw [Outbox.cancel]
  split
  · -- the attached subscriber: what it has not read goes back to the queue
    rename_i hk
    obtain ⟨sub', hsub', hopen⟩ := h.attached_open k hk
    cases hsub.symm.trans hsub'
    split
    · rename_i ch hclose
      have hbuf := (Chan.eq_of_close hclose).2.1
      refine ⟨fun j (hj : none = some j) => (by cases hj), ?_, h.not_panicked, ?_⟩
      · intro j sub' hsub' _
        rcases getElem?_set_cases hsub' with ⟨_, rfl⟩ | ⟨hne, hold⟩
        · rfl
        · exact h.detached_empty j sub' hold (by rw [hk]; simpa using Ne.symm hne)
      · have hconserved := h.conserved
        rw [Conserved, unread_of_some hk hsub] at hconserved
        let o' : Outbox μ := { o with outbound := ch.buf ++ o.outbound, sub := none }
        have hreceived := received_setSubscriber (o := o') hsub
          { sub with ch := { ch with buf := [], le_cap := Nat.zero_le _ }, cancelled := true } rfl
        rw [Conserved, hreceived]
        show o.enqueued ~ o.received ++ ([] ++ (ch.buf ++ o.outbound))
        rw [hbuf]
        exact hconserved
    · rename_i hpanic
      exact absurd (Chan.closed_of_close hpanic) (by simp [hopen])
  · rename_i hk
    -- one that is not attached has nothing unread
    have hother : ∀ j, o.sub = some j → j ≠ k := by
      rintro j hj rfl
      exact hk hj
    refine ⟨?_, ?_, h.not_panicked, ?_⟩
    · intro j hj
      obtain ⟨sub', hsub', hopen⟩ := h.attached_open j hj
      exact ⟨sub', (List.getElem?_set_ne (Ne.symm (hother j hj))).trans hsub', hopen⟩
    · intro j sub' hsub' hj
      rcases getElem?_set_cases hsub' with ⟨rfl, rfl⟩ | ⟨_, hold⟩
      · exact h.detached_empty j sub hsub hj
      · exact h.detached_empty j sub' hold hj
    · have hconserved := h.conserved
      have hunread : (o.setSubscriber k { sub with cancelled := true }).unread = o.unread := by
        cases hj : o.sub with
        | none =>
          rw [unread_of_none hj]
          exact unread_of_none hj
        | some j =>
          obtain ⟨sub', hsub', _⟩ := h.attached_open j hj
          rw [unread_of_some hj hsub']
          exact unread_of_some (o := o.setSubscriber k _) hj
            ((List.getElem?_set_ne (Ne.symm (hother j hj))).trans hsub')
      rw [Conserved, received_setSubscriber hsub { sub with cancelled := true } rfl, hunread]
      exact hconserved

theorem Sound.receive {o' : Outbox μ} (h : o.Sound) {sub : OutboxSubscriber μ}
    (hsub : o.subscribers[k]? = some sub) (hrecv : o.receive k sub = some o') : o'.Sound := by
  revert hrecv
  fun_cases Outbox.receive o k sub <;> intro hrecv <;> cases hrecv
  · rename_i msg ch hvalue
    obtain ⟨hbuf, _, hclosed⟩ := Chan.value_of_receive hvalue
    -- only the attached subscriber has anything to receive
    have hk : o.sub = some k := by
      by_contra hk
      rw [h.detached_empty k sub hsub hk] at hbuf
      cases hbuf
    have hset := h.setAttached hk hsub { sub with ch := ch, received := sub.received ++ [msg] } []
      hclosed (by simp [hbuf])
    rwa [List.append_nil] at hset
  · exact h

end Outbox

/-! ## Runs -/

namespace Bidirectional

variable {μ ρ : Type}

/-- The condition on a step: a `Subscribe` finds no message that the attached subscriber has not
    read. -/
def ReadsFirst (s : Bidirectional μ ρ) : BidiEvent μ ρ → Prop
  | .subscribe _ => s.outbox.unread = []
  | _ => True

instance [DecidableEq μ] (s : Bidirectional μ ρ) (ev : BidiEvent μ ρ) :
    Decidable (s.ReadsFirst ev) :=
  match ev with
  | .subscribe _ => inferInstanceAs (Decidable (_ = _))
  | .send .. | .advance _ | .reply _ | .expire _ | .cancelCtx _ | .deliver _ | .advanceDeliver _
  | .notify _ | .receive _ | .cancel _ => isTrue trivial

variable {s s' : Bidirectional μ ρ}

def enqueues (s : Bidirectional μ ρ) : BidiEvent μ ρ → Option (OutboundMessage μ)
  | .notify payload => some (.notification payload)
  | .advance i => s.sends[i]?.bind fun c =>
    match c.pc with
    | .queueing => some (.request c.key c.payload)
    | _ => none
  | _ => none

/-- What an event does to the outbox. -/
inductive OutboxStep (s : Bidirectional μ ρ) : BidiEvent μ ρ → Outbox μ → Prop where
  | keep (ev : BidiEvent μ ρ) : OutboxStep s ev s.outbox
  | enqueue {ev : BidiEvent μ ρ} {msg : OutboundMessage μ} (h : s.enqueues ev = some msg) :
      OutboxStep s ev (s.outbox.enqueue msg)
  | subscribe (buffer : Int) : OutboxStep s (.subscribe buffer) (s.outbox.subscribe buffer)
  | receive {k : Nat} {sub : OutboxSubscriber μ} {o : Outbox μ}
      (hsub : s.outbox.subscribers[k]? = some sub) (h : s.outbox.receive k sub = some o) :
      OutboxStep s (.receive k) o
  | cancel {k : Nat} {sub : OutboxSubscriber μ} (hsub : s.outbox.subscribers[k]? = some sub) :
      OutboxStep s (.cancel k) (s.outbox.cancel k sub)

theorem outboxStep_of_step {ev : BidiEvent μ ρ} (hstep : s.step ev = some s') :
    s.OutboxStep ev s'.outbox := by
  cases ev with
  | send payload encodable | deliver resp =>
    cases hstep
    exact .keep _
  | advance i =>
    obtain ⟨c, hc, hadvance⟩ := Option.bind_eq_some_iff.mp hstep
    revert hadvance
    fun_cases advance s i c <;> intro hadvance <;> cases hadvance <;> try exact .keep _
    rename_i hpc
    exact .enqueue (by simp [enqueues, hc, hpc])
  | reply i | expire i =>
    obtain ⟨c, _, hstep⟩ := Option.bind_eq_some_iff.mp hstep
    split at hstep <;> cases hstep
    exact .keep _
  | cancelCtx i =>
    obtain ⟨c, _, rfl⟩ := Option.map_eq_some_iff.mp hstep
    exact .keep _
  | advanceDeliver j =>
    obtain ⟨d, _, hadvance⟩ := Option.bind_eq_some_iff.mp hstep
    revert hadvance
    fun_cases advanceDeliver s j d <;> intro hadvance <;> cases hadvance <;> exact .keep _
  | notify payload =>
    cases hstep
    exact .enqueue rfl
  | subscribe buffer =>
    cases hstep
    exact .subscribe buffer
  | receive k =>
    obtain ⟨sub, hsub, hrecv⟩ := Option.bind_eq_some_iff.mp hstep
    obtain ⟨o, ho, rfl⟩ := Option.map_eq_some_iff.mp hrecv
    exact .receive hsub ho
  | cancel k =>
    obtain ⟨sub, hsub, rfl⟩ := Option.map_eq_some_iff.mp hstep
    exact .cancel hsub

theorem sound_of_step {ev : BidiEvent μ ρ} (h : s.outbox.Sound) (hreads : s.ReadsFirst ev)
    (hstep : s.step ev = some s') : s'.outbox.Sound := by
  have hout := outboxStep_of_step hstep
  generalize s'.outbox = o at hout ⊢
  cases hout with
  | keep => exact h
  | enqueue _ => exact h.enqueue _
  | subscribe buffer => exact h.subscribe hreads buffer
  | receive hsub hrecv => exact h.receive hsub hrecv
  | cancel hsub => exact h.cancel hsub

/-- In every run in which a stream is taken over only after its channel was read, every message
    is in exactly one place. -/
theorem conserved_of_allSteps (events : List (BidiEvent μ ρ))
    (hreads : AllSteps step ReadsFirst ({} : Bidirectional μ ρ) events) {s : Bidirectional μ ρ}
    (hrun : run {} events = some s) : s.outbox.Conserved := by
  have hinit : ({} : Bidirectional μ ρ).outbox.Sound :=
    ⟨fun k hk => (nomatch (show none = some k from hk)), by simp, rfl, List.Perm.refl _⟩
  have hsound : s.outbox.Sound := runOption_inv_of_allSteps step ReadsFirst (·.outbox.Sound)
    (fun s ev s' hreads hstep h => sound_of_step h hreads hstep) hreads hrun hinit
  exact hsound.conserved

/-- The second subscriber takes over from the first one, which has read its message; it cancels
    with two messages in its channel, and a third one gets them. -/
def handedOver : List (BidiEvent Nat Nat) :=
  [.notify 1, .subscribe 2, .receive 0, .subscribe 2, .cancel 0, .send 2 true, .advance 0,
   .advance 0, .advance 0, .advance 0, .notify 3, .notify 4, .cancel 1, .subscribe 2, .receive 2]

theorem handedOver_conserved : ∃ s : Bidirectional Nat Nat, run {} handedOver = some s ∧
    s.outbox.Conserved ∧ s.outbox.subscribers.map (·.received.length) = [1, 0, 1] ∧
      s.outbox.enqueued.length = 4 := by
  obtain ⟨s, hs, hreceived, henqueued⟩ : ∃ s, run {} handedOver = some s ∧
      s.outbox.subscribers.map (·.received.length) = [1, 0, 1] ∧
      s.outbox.enqueued.length = 4 := by decide
  exact ⟨s, hs, conserved_of_allSteps handedOver (by decide) hs, hreceived, henqueued⟩

/-- A second client subscribes while a message waits in the channel of the first one, which then
    goes away. -/
def takenOver : List (BidiEvent Nat Nat) := [.subscribe 1, .notify 7, .subscribe 1, .cancel 0]

/-- A message that is lost. -/
theorem takenOver_not_conserved : ∃ s : Bidirectional Nat Nat, run {} takenOver = some s ∧
    s.outbox.enqueued = [.notification 7] ∧ s.outbox.received = [] ∧ s.outbox.unread = [] ∧
      s.outbox.outbound = [] ∧ ¬ s.outbox.Conserved := by
  obtain ⟨s, hs, henqueued, hreceived, hunread, houtbound⟩ : ∃ s, run {} takenOver = some s ∧
      s.outbox.enqueued = [.notification 7] ∧ s.outbox.received = [] ∧ s.outbox.unread = [] ∧
      s.outbox.outbound = [] := by decide
  refine ⟨s, hs, henqueued, hreceived, hunread, houtbound, ?_⟩
  rw [Outbox.Conserved, henqueued, hreceived, hunread, houtbound]
  decide

end Bidirectional

end MockAgents

