import MockAgents.Server.LogBroadcaster

/-!
# What a log subscriber gets

In every interleaving, a subscription gets a subsequence of the entries that were published
while it was registered and that are of its tenant, and its drop counter says how many of
them it did not get. Entries of other tenants leave it alone.
-/

namespace MockAgents.LogBroadcaster

open scoped List
open List (contains_iff_mem erase_sublist getElem?_set_cases nodup_nil)

variable {ε : Type}

/-- The entries for the subscription `k`: published while it was registered, and of its
    tenant. -/
def offered (b : LogBroadcaster ε) (k : Nat) (sub : LogSubscription ε) :
    List (InteractionLog ε) :=
  (b.history.filter fun item => item.2.contains k && sub.wants item.1).map (·.1)

/-- The entry that `Publish` has still to hand to the subscription `k`. -/
def visiting (b : LogBroadcaster ε) (k : Nat) (sub : LogSubscription ε) :
    List (InteractionLog ε) :=
  match b.lock with
  | .publishing entry todo => if todo.contains k && sub.wants entry then [entry] else []
  | _ => []

/-- The event is a step of a `Publish` of this entry. -/
def Publishes (b : LogBroadcaster ε) (entry : InteractionLog ε) (ev : BroadcastEvent ε) : Prop :=
  ev = .publish entry ∨
    ∃ todo, b.lock = .publishing entry todo ∧ (ev = .endPublish ∨ ∃ j, ev = .deliver j)

/-- What the subscribers can rely on. -/
structure FannedOut (b : LogBroadcaster ε) : Prop where
  /-- No channel is sent on after it was closed, or closed twice. -/
  not_panicked : b.panicked = false
  /-- What a subscription has received and what waits in its channel is a subsequence of the
      entries for it. -/
  sublist : ∀ k sub, b.subs[k]? = some sub → sub.received ++ sub.ch.buf <+ b.offered k sub
  /-- The others were dropped, unless `Publish` is still on its way to the subscription. -/
  counted : ∀ k sub, b.subs[k]? = some sub → b.visiting k sub = [] →
    sub.received.length + sub.ch.buf.length + sub.dropped = (b.offered k sub).length
  /-- That includes a subscription whose channel is closed. -/
  drained : ∀ k sub, b.subs[k]? = some sub → sub.ch.closed = true → b.visiting k sub = []
  /-- Entries of other tenants change nothing. -/
  isolated : ∀ (k : Nat) (sub : LogSubscription ε), b.subs[k]? = some sub →
    ∀ entry ev b', b.step ev = some b' →
    b.Publishes entry ev → sub.wants entry = false → b'.subs[k]? = some sub

/-! ## Who is visited -/

/-- The subscribers that the holder of the lock has still to visit. -/
def todo (b : LogBroadcaster ε) : List Nat :=
  match b.lock with
  | .free => []
  | .publishing _ todo | .closing todo => todo

/-- The subscribers whose channels are open. -/
def live (b : LogBroadcaster ε) : List Nat :=
  match b.lock with
  | .closing todo => todo
  | _ => b.subscribers

variable {b b' : LogBroadcaster ε} {entry : InteractionLog ε} {k : Nat}
  {sub sub' : LogSubscription ε} {l : List Nat}

theorem visiting_of_publishing (h : b.lock = .publishing entry l) (k : Nat)
    (sub : LogSubscription ε) :
    b.visiting k sub = if l.contains k && sub.wants entry then [entry] else [] := by
  rw [visiting, h]

/-- A visit to one subscriber leaves those to the others to come. -/
theorem visiting_erase_of_ne (h : b.lock = .publishing entry l)
    (h' : b'.lock = .publishing entry (l.erase k)) (j : Nat) (hne : j ≠ k)
    (sub : LogSubscription ε) : b'.visiting j sub = b.visiting j sub := by
  have hmem : (l.erase k).contains j = l.contains j := by
    rw [Bool.eq_iff_iff, contains_iff_mem, contains_iff_mem, List.mem_erase_of_ne hne]
  rw [visiting_of_publishing h, visiting_of_publishing h', hmem]

/-- A subscriber that is not to be visited has nothing to come. -/
theorem visiting_of_not_mem (h : k ∉ b.todo) (sub : LogSubscription ε) :
    b.visiting k sub = [] := by
  unfold visiting
  split
  · rename_i hlock
    rw [todo, hlock] at h
    simp [h]
  · rfl

/-! ## The tally of a subscription -/

/-- What became of the entries for a subscription. -/
structure Tally (b : LogBroadcaster ε) (k : Nat) (sub : LogSubscription ε) : Prop where
  sublist : sub.received ++ sub.ch.buf ++ b.visiting k sub <+ b.offered k sub
  length : sub.received.length + sub.ch.buf.length + sub.dropped + (b.visiting k sub).length =
    (b.offered k sub).length

/-- An entry for a subscription moves on, or is dropped and counted. -/
theorem Tally.replace (h : b.Tally k sub)
    (hhistory : b'.history = b.history) (htenant : sub'.tenantID = sub.tenantID)
    (hmoved : sub'.received ++ sub'.ch.buf ++ b'.visiting k sub' <+
        sub.received ++ sub.ch.buf ++ b.visiting k sub ∧
      sub'.received.length + sub'.ch.buf.length + sub'.dropped + (b'.visiting k sub').length =
        sub.received.length + sub.ch.buf.length + sub.dropped + (b.visiting k sub).length) :
    b'.Tally k sub' := by
  have hoffered : b'.offered k sub' = b.offered k sub := by
    simp only [offered, hhistory, LogSubscription.wants, htenant]
  exact ⟨hoffered ▸ hmoved.1.trans h.sublist, hoffered ▸ hmoved.2.trans h.length⟩

/-- The tally looks at the history and at the visit that is still to come. -/
theorem Tally.congr (h : b.Tally k sub) (hhistory : b'.history = b.history)
    (hvisiting : b'.visiting k sub = b.visiting k sub) : b'.Tally k sub :=
  h.replace hhistory rfl (by simp [hvisiting])

/-- Closing a channel leaves what is in it. -/
theorem Tally.close (h : b.Tally k sub) (hhistory : b'.history = b.history)
    (hvisiting : b'.visiting k sub = b.visiting k sub) :
    b'.Tally k { sub with ch := { sub.ch with closed := true } } :=
  have hsame := h.congr hhistory hvisiting
  ⟨hsame.sublist, hsame.length⟩

theorem Tally.publish (hfree : b.lock = .free) (entry : InteractionLog ε) (h : b.Tally k sub) :
    Tally { b with
      lock := .publishing entry b.subscribers
      history := b.history ++ [(entry, b.subscribers)] } k sub := by
  have hoffered : offered { b with
      lock := .publishing entry b.subscribers
      history := b.history ++ [(entry, b.subscribers)] } k sub =
      b.offered k sub ++ if b.subscribers.contains k && sub.wants entry then [entry] else [] := by
    rw [offered, List.filter_append, List.map_append, offered]
    simp only [List.filter_singleton]
    cases b.subscribers.contains k && sub.wants entry <;> rfl
  have hsublist := h.sublist
  have hlength := h.length
  rw [visiting, hfree] at hsublist hlength
  constructor
  · rw [hoffered]
    exact (List.append_nil _ ▸ hsublist).append_right _
  · rw [hoffered, visiting_of_publishing rfl, List.length_append, ← hlength]
    rfl

/-! ## Steps -/

/-- Subscribers exist, are visited at most once and have open channels, and every
    subscription has its tally. -/
structure Inv (b : LogBroadcaster ε) : Prop where
  nodup : b.subscribers.Nodup
  lt : ∀ k ∈ b.subscribers, k < b.subs.length
  todo_nodup : b.todo.Nodup
  todo_subset : ∀ k ∈ b.todo, k ∈ b.subscribers
  history_lt : ∀ item ∈ b.history, ∀ k ∈ item.2, k < b.subs.length
  live_open : ∀ k sub, b.subs[k]? = some sub → k ∈ b.live → sub.ch.closed = false
  tally : ∀ k sub, b.subs[k]? = some sub → b.Tally k sub
  not_panicked : b.panicked = false

theorem Inv.open_of_mem (h : b.Inv) (hlock : b.lock = .publishing entry l)
    (hsub : b.subs[k]? = some sub) (hk : k ∈ l) : sub.ch.closed = false := by
  refine h.live_open k sub hsub ?_
  simpa only [live, hlock] using h.todo_subset k (by simpa only [todo, hlock] using hk)

/-- A new subscription is a subscriber if its channel is open. -/
theorem Inv.snoc (h : b.Inv) (hfree : b.lock = .free) (ch : Chan (InteractionLog ε))
    (hbuf : ch.buf = []) (tenantID : String) (added : List Nat)
    (hadded : added = [] ∨ added = [b.subs.length] ∧ ch.closed = false) :
    Inv { b with
      subs := b.subs ++ [{ ch := ch, tenantID := tenantID }]
      subscribers := added ++ b.subscribers } := by
  have hnew : ∀ k ∈ added, k = b.subs.length := by
    rcases hadded with rfl | ⟨rfl, _⟩ <;> simp
  have hlt : ∀ k < b.subs.length, ∀ sub, k < (b.subs ++ [sub]).length := by
    simp only [List.length_append]
    omega
  refine ⟨?_, ?_, by simp [todo, hfree], by simp [todo, hfree],
    fun item hitem k hk => hlt k (h.history_lt item hitem k hk) _, ?_, ?_, h.not_panicked⟩
  · rcases hadded with rfl | ⟨rfl, _⟩
    · exact h.nodup
    · exact List.nodup_cons.mpr ⟨fun hmem => absurd (h.lt _ hmem) (by omega), h.nodup⟩
  · intro k hk
    rcases List.mem_append.mp hk with hk | hk
    · simp [hnew k hk]
    · exact hlt k (h.lt k hk) _
  · intro k sub hsub hk
    have hmem : k ∈ added ++ b.subscribers := by simpa only [live, hfree] using hk
    rcases List.getElem?_snoc_cases hsub with ⟨rfl, rfl⟩ | hold
    · rcases hadded with rfl | ⟨_, hopen⟩
      · exact absurd (h.lt _ hmem) (by omega)
      · exact hopen
    · have hne : k ≠ b.subs.length := Nat.ne_of_lt (List.getElem?_eq_some_iff.mp hold).1
      have hk := (List.mem_append.mp hmem).resolve_left fun hk => hne (hnew k hk)
      exact h.live_open k sub hold (by simpa only [live, hfree] using hk)
  · intro k sub hsub
    rcases List.getElem?_snoc_cases hsub with ⟨rfl, rfl⟩ | hold
    · -- no entry that was published before is for it
      have hoffered : ∀ item ∈ b.history, b.subs.length ∉ item.2 :=
        fun item hitem hk => absurd (h.history_lt item hitem _ hk) (Nat.lt_irrefl _)
      have hnone : ∀ wanted : InteractionLog ε → Bool, (b.history.filter fun item =>
          item.2.contains b.subs.length && wanted item.1) = [] := by
        intro wanted
        rw [List.filter_eq_nil_iff]
        simp +contextual [hoffered]
      constructor <;> simp only [offered, hnone, visiting, hfree, hbuf] <;> rfl
    · exact (h.tally k sub hold).congr rfl rfl

theorem Inv.subscribe (h : b.Inv) (hfree : b.lock = .free) (buffer : Int) (tenantID : String) :
    (b.subscribe buffer tenantID).Inv := by
  rw [LogBroadcaster.subscribe]
  split
  · exact h.snoc hfree _ rfl tenantID [] (.inl rfl)
  · exact h.snoc hfree _ rfl tenantID [_] (.inr ⟨rfl, rfl⟩)

theorem Inv.publish (h : b.Inv) (hfree : b.lock = .free) (entry : InteractionLog ε) :
    Inv { b with
      lock := .publishing entry b.subscribers
      history := b.history ++ [(entry, b.subscribers)] } := by
  refine ⟨h.nodup, h.lt, h.nodup, fun _ hk => hk, ?_, ?_, ?_, h.not_panicked⟩
  · exact List.forall_mem_append.mpr ⟨h.history_lt, List.forall_mem_singleton.mpr h.lt⟩
  · intro k sub hsub hk
    exact h.live_open k sub hsub (by simpa only [live, hfree] using hk)
  · exact fun k sub hsub => (h.tally k sub hsub).publish hfree entry

/-- A subscription changes, keeps its channel open if it is still a subscriber, and has its
    tally. -/
theorem Inv.setSub (h : b.Inv) (hsubs : b'.subs = b.subs.set k sub')
    (hrest : (b'.history, b'.panicked) = (b.history, b.panicked))
    (hsubscribers : b'.subscribers <+ b.subscribers) (htodo : b'.todo <+ b.todo)
    (hsubset : ∀ j ∈ b'.todo, j ∈ b'.subscribers) (hlive : ∀ j ∈ b'.live, j ∈ b.live)
    (hopen : k ∈ b'.live → sub'.ch.closed = false)
    (hvisiting : ∀ j ≠ k, ∀ sub, b'.visiting j sub = b.visiting j sub)
    (htally : b'.Tally k sub') : b'.Inv := by
  obtain ⟨hhistory, hpanicked⟩ := Prod.mk.inj hrest
  have hlength : b'.subs.length = b.subs.length := by rw [hsubs, List.length_set]
  refine ⟨h.nodup.sublist hsubscribers, ?_, h.todo_nodup.sublist htodo, hsubset, ?_, ?_, ?_,
    hpanicked.trans h.not_panicked⟩
  · exact fun j hj => hlength ▸ h.lt j (hsubscribers.subset hj)
  · exact hhistory ▸ hlength ▸ h.history_lt
  · intro j sub hsub hj
    rw [hsubs] at hsub
    rcases getElem?_set_cases hsub with ⟨rfl, rfl⟩ | ⟨_, hold⟩
    · exact hopen hj
    · exact h.live_open j sub hold (hlive j hj)
  · intro j sub hsub
    rw [hsubs] at hsub
    rcases getElem?_set_cases hsub with ⟨rfl, rfl⟩ | ⟨hne, hold⟩
    · exact htally
    · exact (h.tally j sub hold).congr hhistory (hvisiting j hne sub)

/-- What `Publish` does to a subscription with an open channel. -/
theorem deliver_of_open (b : LogBroadcaster ε) (entry : InteractionLog ε)
    (hsub : b.subs[k]? = some sub) (hopen : sub.ch.closed = false) :
    ∃ sub', b.deliver k sub entry = b.setSub k sub' ∧ sub'.ch.closed = false ∧
      sub'.tenantID = sub.tenantID ∧ (sub.wants entry = false → sub' = sub) ∧
      (sub.wants entry = true →
        sub'.received ++ sub'.ch.buf <+ sub.received ++ sub.ch.buf ++ [entry] ∧
        sub'.received.length + sub'.ch.buf.length + sub'.dropped =
          sub.received.length + sub.ch.buf.length + sub.dropped + 1) := by
  rw [LogBroadcaster.deliver]
  split
  · rename_i hwants
    split
    · rename_i ch hsend
      obtain ⟨_, _, hbuf, _, hopen'⟩ := Chan.sent_of_trySend hsend
      refine ⟨_, rfl, hopen', rfl, by simp [hwants], fun _ => ?_⟩
      simp [hbuf]
      omega
    · refine ⟨_, rfl, hopen, rfl, by simp [hwants], fun _ => ?_⟩
      simp
      omega
    · exact absurd (Chan.closed_of_trySend ‹_›) (by simp [hopen])
  · refine ⟨sub, ?_, hopen, rfl, fun _ => rfl, fun hwants => absurd hwants ‹_›⟩
    obtain ⟨_, rfl⟩ := List.getElem?_eq_some_iff.mp hsub
    rw [LogBroadcaster.setSub, List.set_getElem_self]

theorem Inv.deliver (h : b.Inv) (hlock : b.lock = .publishing entry l)
    (hsub : b.subs[k]? = some sub) (hk : k ∈ l) :
    ({ b with lock := .publishing entry (l.erase k) }.deliver k sub entry).Inv := by
  have htodo : b.todo = l := by rw [todo, hlock]
  have hlive : b.live = b.subscribers := by rw [live, hlock]
  obtain ⟨sub', hdeliver, hopen, htenant, hpassed, hmoved⟩ := deliver_of_open
    { b with lock := .publishing entry (l.erase k) } entry hsub (h.open_of_mem hlock hsub hk)
  rw [hdeliver]
  refine h.setSub rfl rfl (.refl _) (htodo ▸ erase_sublist) ?_ (fun _ hj => hlive ▸ hj)
    (fun _ => hopen) (visiting_erase_of_ne hlock rfl) ((h.tally k sub hsub).replace rfl htenant ?_)
  · exact fun j hj => h.todo_subset j (htodo ▸ List.mem_of_mem_erase hj)
  · have hdone := visiting_of_not_mem (b := { b with
      lock := .publishing entry (l.erase k) }.setSub k sub') (htodo ▸ h.todo_nodup).not_mem_erase
    rw [hdone, visiting_of_publishing hlock, contains_iff_mem.mpr hk]
    cases hwants : sub.wants entry with
    | false => simp [hpassed hwants]
    | true => simpa using hmoved hwants

theorem Inv.receive (h : b.Inv) (hsub : b.subs[k]? = some sub) {ch : Chan (InteractionLog ε)}
    (hrecv : sub.ch.receive = .value entry ch) :
    (b.setSub k { sub with ch := ch, received := sub.received ++ [entry] }).Inv := by
  obtain ⟨hbuf, _, hclosed⟩ := Chan.value_of_receive hrecv
  refine h.setSub rfl rfl (.refl _) (.refl _) h.todo_subset (fun _ hj => hj) ?_
    (fun _ _ _ => rfl) ((h.tally k sub hsub).replace rfl rfl ?_)
  · exact fun hk => hclosed.trans (h.live_open k sub hsub hk)
  · show (sub.received ++ [entry]) ++ ch.buf ++ b.visiting k sub <+ _ ∧
      (sub.received ++ [entry]).length + ch.buf.length + sub.dropped +
        (b.visiting k sub).length = _
    simp [hbuf]
    omega

/-- The channel of a subscription that is no subscriber any more, or was visited, is closed. -/
theorem Inv.closeSub (h : b.Inv) (hsub : b.subs[k]? = some sub) (hk : k ∈ b.live)
    (hrest : (b'.subs, b'.history, b'.panicked) = (b.subs, b.history, b.panicked))
    (hsubscribers : b'.subscribers <+ b.subscribers) (htodo : b'.todo <+ b.todo)
    (hsubset : ∀ j ∈ b'.todo, j ∈ b'.subscribers) (hlive : ∀ j ∈ b'.live, j ∈ b.live ∧ j ≠ k)
    (hvisiting : ∀ j sub, b'.visiting j sub = b.visiting j sub) :
    (b'.closeSub k sub).Inv := by
  obtain ⟨hsubs, hrest⟩ := Prod.mk.inj hrest
  rw [LogBroadcaster.closeSub, Chan.close, h.live_open k sub hsub hk]
  exact h.setSub (congrArg (List.set · k _) hsubs) hrest hsubscribers htodo hsubset
    (fun j hj => (hlive j hj).1) (fun hmem => absurd rfl (hlive k hmem).2)
    (fun j _ => hvisiting j)
    ((h.tally k sub hsub).close (Prod.mk.inj hrest).1 (hvisiting k sub))

theorem Inv.cancel (h : b.Inv) (hfree : b.lock = .free) (hsub : b.subs[k]? = some sub)
    (hk : k ∈ b.subscribers) :
    ({ b with subscribers := b.subscribers.erase k }.closeSub k sub).Inv := by
  have hlive : b.live = b.subscribers := by rw [live, hfree]
  refine h.closeSub hsub (hlive ▸ hk) rfl erase_sublist (.refl _) ?_ ?_ (fun _ _ => rfl)
  · simp [todo, hfree]
  · simp only [live, hfree]
    exact fun j hj => ⟨List.mem_of_mem_erase hj, fun hjk => h.nodup.not_mem_erase (hjk ▸ hj)⟩

theorem Inv.closing (h : b.Inv) (hlock : b.lock = .closing l) (hsub : b.subs[k]? = some sub)
    (hk : k ∈ l) : ({ b with lock := .closing (l.erase k) }.closeSub k sub).Inv := by
  have htodo : b.todo = l := by rw [todo, hlock]
  have hlive : b.live = l := by rw [live, hlock]
  refine h.closeSub hsub (hlive ▸ hk) rfl (.refl _) (htodo ▸ erase_sublist) ?_ ?_ ?_
  · exact fun j hj => h.todo_subset j (htodo ▸ List.mem_of_mem_erase hj)
  · exact fun j hj => ⟨hlive ▸ List.mem_of_mem_erase hj,
      fun hjk => (htodo ▸ h.todo_nodup).not_mem_erase (hjk ▸ hj)⟩
  · simp [visiting, hlock]

/-- The lock goes to another call, which leaves the subscriptions alone. -/
theorem Inv.relock (h : b.Inv)
    (hrest : (b'.subs, b'.history, b'.panicked) = (b.subs, b.history, b.panicked))
    (hsubscribers : b'.subscribers <+ b.subscribers) (htodo : b'.todo.Nodup)
    (hsubset : ∀ j ∈ b'.todo, j ∈ b'.subscribers) (hlive : ∀ j ∈ b'.live, j ∈ b.live)
    (hvisiting : ∀ j sub, b'.visiting j sub = b.visiting j sub) : b'.Inv := by
  simp only [Prod.mk.injEq] at hrest
  obtain ⟨hsubs, hhistory, hpanicked⟩ := hrest
  refine ⟨h.nodup.sublist hsubscribers, ?_, htodo, hsubset, ?_, ?_, ?_,
    hpanicked.trans h.not_panicked⟩
  · exact fun j hj => hsubs ▸ h.lt j (hsubscribers.subset hj)
  · exact hhistory ▸ hsubs ▸ h.history_lt
  · exact fun j sub hsub hj => h.live_open j sub (hsubs ▸ hsub) (hlive j hj)
  · exact fun j sub hsub => (h.tally j sub (hsubs ▸ hsub)).congr hhistory (hvisiting j sub)

theorem Inv.step {ev : BroadcastEvent ε} (h : b.Inv) (hstep : b.step ev = some b') : b'.Inv := by
  revert hstep
  fun_cases LogBroadcaster.step b ev <;> intro hstep <;> try cases hstep
  · exact h.subscribe ‹_› _ _
  · exact h.publish ‹_› _
  · exact h.deliver ‹_› ‹_› ‹_›
  · rename_i hlock
    refine h.relock rfl (.refl _) (by simp [todo]) (by simp [todo]) ?_ ?_
    · simp [live, hlock]
    · simp [visiting, hlock]
  · obtain ⟨sub, hsub, hrecv⟩ := Option.bind_eq_some_iff.mp hstep
    split at hrecv <;> cases hrecv
    · exact h.receive hsub ‹_›
    · exact h
  · exact h.cancel ‹_› ‹_› ‹_›
  · exact h
  · exact h
  · rename_i hfree _
    refine h.relock rfl (.refl _) h.nodup (fun _ hj => hj) ?_ ?_
    · simp [live, hfree]
    · simp [visiting, hfree]
  · exact h.closing ‹_› ‹_› ‹_›
  · rename_i hlock
    exact h.relock rfl (List.nil_sublist _) (by simp [todo]) (by simp [todo]) (by simp [live])
      (by simp [visiting, hlock])

/-! ## Other tenants -/

/-- A step of a `Publish` touches only the subscriptions that want the entry. -/
theorem Inv.isolated (h : b.Inv) (hsub : b.subs[k]? = some sub) {ev : BroadcastEvent ε}
    (hstep : b.step ev = some b') (hpublishes : b.Publishes entry ev)
    (hwants : sub.wants entry = false) : b'.subs[k]? = some sub := by
  rcases hpublishes with rfl | ⟨todo, hlock, rfl | ⟨j, rfl⟩⟩
  · simp only [LogBroadcaster.step] at hstep
    split at hstep <;> cases hstep
    exact hsub
  · simp only [LogBroadcaster.step, hlock] at hstep
    split at hstep <;> cases hstep
    exact hsub
  · simp only [LogBroadcaster.step, hlock] at hstep
    split at hstep
    · rename_i sub' hlock' hsub'
      cases hlock'
      obtain ⟨hj, ⟨⟩⟩ := Option.ite_none_right_eq_some.mp hstep
      obtain ⟨new, hdeliver, _, _, hpassed, _⟩ := deliver_of_open
        { b with lock := .publishing entry (todo.erase j) } entry hsub'
        (h.open_of_mem hlock hsub' hj)
      rw [hdeliver, LogBroadcaster.setSub, List.getElem?_set]
      split
      · rename_i hjk
        subst hjk
        cases hsub.symm.trans hsub'
        rw [hpassed hwants, if_pos (List.getElem?_eq_some_iff.mp hsub).1]
      · exact hsub
    · cases hstep

/-! ## Runs -/

theorem Inv.fannedOut (h : b.Inv) : b.FannedOut := by
  refine ⟨h.not_panicked, ?_, ?_, ?_, fun k sub hsub entry ev b' => h.isolated hsub⟩
  · intro k sub hsub
    exact (List.sublist_append_left _ _).trans (h.tally k sub hsub).sublist
  · intro k sub hsub hvisiting
    have hlength := (h.tally k sub hsub).length
    rwa [hvisiting, List.length_nil, Nat.add_zero] at hlength
  · intro k sub hsub hclosed
    unfold visiting
    split
    · -- the channel of a subscriber that is still to be visited is open
      rename_i entry todo hlock
      have hk : k ∉ todo := fun hk => absurd hclosed (by simp [h.open_of_mem hlock hsub hk])
      simp [hk]
    · rfl

/-- In every interleaving, the subscribers get what they can rely on. -/
theorem run_fannedOut (events : List (BroadcastEvent ε)) {b : LogBroadcaster ε}
    (hrun : run {} events = some b) : b.FannedOut := by
  have hinit : ({} : LogBroadcaster ε).Inv := by
    refine ⟨nodup_nil, ?_, nodup_nil, ?_, ?_, ?_, ?_, rfl⟩ <;> simp [todo]
  have hinv : b.Inv := runOption_inv step Inv (fun _ _ _ hstep h => h.step hstep) hrun hinit
  exact hinv.fannedOut

/-- Two subscriptions with room for one entry, of which the second one is for all tenants. -/
def noisyTenant : List (BroadcastEvent Nat) :=
  [.subscribe 1 "acme", .subscribe 1 "", .publish ⟨"noisy", 1⟩, .deliver 1, .deliver 0, .endPublish,
   .publish ⟨"acme", 2⟩, .deliver 0, .receive 0, .deliver 1, .endPublish, .cancel 0,
   .publish ⟨"acme", 3⟩, .deliver 1, .endPublish, .close, .closeSub 1, .receive 1, .endClose,
   .subscribe 1 "acme"]

theorem noisyTenant_fannedOut : ∃ b : LogBroadcaster Nat, run {} noisyTenant = some b ∧
    b.FannedOut ∧ b.subs.map (fun sub => (sub.received, sub.dropped)) =
      [([⟨"acme", 2⟩], 0), ([⟨"noisy", 1⟩], 2), ([], 0)] := by
  obtain ⟨b, hb, hsubs⟩ : ∃ b, run {} noisyTenant = some b ∧
      b.subs.map (fun sub => (sub.received, sub.dropped)) =
        [([⟨"acme", 2⟩], 0), ([⟨"noisy", 1⟩], 2), ([], 0)] := by decide
  exact ⟨b, hb, run_fannedOut noisyTenant hb, hsubs⟩

end MockAgents.LogBroadcaster
