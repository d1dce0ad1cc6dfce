import MockAgents.State.Store

/-!
# Turns that the store keeps

A turn is kept if, for one TTL after it ended, `GetOrCreate` on its key returns the
session that holds it. A request gets its session and applies its turn in two separate
lock regions, and `Get` evicts a session in a region after the one that found it
expired, so turns can be lost. They are kept in every run in which a successful turn
ends on a session that is still stored, and `Get` evicts only what is still expired.
-/

namespace MockAgents

/-- `GetOrCreate` on the turn's key, up to one TTL after the turn, returns the session
    that holds it. -/
def StoreSystem.TurnsKept {ι : Type} [DecidableEq ι] (s : StoreSystem ι) : Prop :=
  ∀ turn ∈ s.done, ∀ i agentName checkAt createAt s',
    s.step (.getOrCreate i turn.key agentName checkAt createAt) = some s' →
    checkAt ≤ turn.endedAt + s.store.ttl →
    s'.pc i = .holding turn.key turn.ptr ∧
      turn.session.messages <+: (s'.store.heap turn.ptr).messages ∧
      turn.session.turnCount ≤ (s'.store.heap turn.ptr).turnCount

/-- The key and the session of a turn in progress. -/
def StorePc.turn? : StorePc → Option (String × SessionPtr)
  | .inTurn key p => some (key, p)
  | _ => none

/-- The key and the session that `Get` is about to evict. -/
def StorePc.evicted? : StorePc → Option (String × SessionPtr)
  | .evicting key p => some (key, p)
  | _ => none

/-- The condition on a step: a successful turn ends while its key still maps to its
    session, and `Get` evicts only a session that is expired at that moment. -/
def StoreSystem.Careful {ι : Type} (s : StoreSystem ι) : StoreEvent ι → Prop
  | .endTurn i _ (some _) _ =>
    ∀ key p, s.pc i = .inTurn key p → s.store.sessions.lookup key = some p
  | .getEvict i now =>
    ∀ key p, s.pc i = .evicting key p → s.store.sessions.lookup key = some p →
      (s.store.heap p).isExpired now = true
  | _ => True

instance StoreSystem.Careful.decidable {ι : Type} (s : StoreSystem ι) :
    (ev : StoreEvent ι) → Decidable (s.Careful ev)
  | .endTurn i _ (some _) _ =>
    decidable_of_iff (∀ x ∈ (s.pc i).turn?, s.store.sessions.lookup x.1 = some x.2)
      (by simp only [Careful]; cases s.pc i <;> simp [StorePc.turn?])
  | .getEvict i now =>
    decidable_of_iff (∀ x ∈ (s.pc i).evicted?, s.store.sessions.lookup x.1 = some x.2 →
      (s.store.heap x.2).isExpired now = true)
      (by simp only [Careful]; cases s.pc i <;> simp [StorePc.evicted?])
  | .endTurn _ _ none _ | .getOrCreate .. | .beginTurn .. | .getLookup .. | .getCheck .. |
    .cleanupSnapshot .. | .cleanupCheck .. | .cleanupDelete .. => isTrue trivial

/-! ## What a step does to the store -/

theorem Session.isExpired_iff {s : Session} (h : 0 < s.ttl) (now : Int) :
    s.isExpired now = true ↔ s.lastAccess + s.ttl < now := by
  have hpos : ¬ s.ttl ≤ 0 := by omega
  simp only [isExpired, hpos, if_false, decide_eq_true_iff]
  omega

/-- The later state of a session: history and turn count grow, the access time does not
    go back. -/
structure Session.Extends (s s' : Session) : Prop where
  messages : s.messages <+: s'.messages
  turnCount : s.turnCount ≤ s'.turnCount
  lastAccess : s.lastAccess ≤ s'.lastAccess
  ttl : s'.ttl = s.ttl

theorem Session.Extends.refl (s : Session) : s.Extends s :=
  ⟨List.prefix_rfl, le_rfl, le_rfl, rfl⟩

theorem Session.Extends.trans {s₁ s₂ s₃ : Session} (h₁ : s₁.Extends s₂)
    (h₂ : s₂.Extends s₃) : s₁.Extends s₃ :=
  ⟨h₁.messages.trans h₂.messages, h₁.turnCount.trans h₂.turnCount,
    h₁.lastAccess.trans h₂.lastAccess, h₂.ttl.trans h₁.ttl⟩

theorem Session.extends_appendUserMessage (s : Session) (content : String) (now : Int)
    (h : s.lastAccess ≤ now) : s.Extends (s.appendUserMessage content now) :=
  ⟨List.prefix_append _ _, Nat.le_succ _, h, rfl⟩

theorem Session.extends_appendAssistantMessage (s : Session) (content : String)
    (toolCalls : List ToolCallMsg) (now : Int) (h : s.lastAccess ≤ now) :
    s.Extends (s.appendAssistantMessage content toolCalls now) :=
  ⟨List.prefix_append _ _, le_rfl, h, rfl⟩

namespace MemoryStore

/-- Every stored pointer is allocated, and every session has the store's TTL and was
    last accessed in the past. -/
structure Sound (st : MemoryStore) (now : Int) : Prop where
  ttl_pos : 0 < st.ttl
  allocated : ∀ key p, st.sessions.lookup key = some p → p < st.next
  ttl : ∀ p < st.next, (st.heap p).ttl = st.ttl
  lastAccess : ∀ p < st.next, (st.heap p).lastAccess ≤ now

/-- What a step may do to the store: time passes, sessions are allocated and extended,
    and a key loses its session only if the session is expired. -/
structure Evolves (st : MemoryStore) (now : Int) (st' : MemoryStore) (now' : Int) :
    Prop where
  time : now ≤ now'
  next : st.next ≤ st'.next
  ttl : st'.ttl = st.ttl
  sessions : ∀ p < st.next, (st.heap p).Extends (st'.heap p)
  kept : ∀ key p, st.sessions.lookup key = some p →
    st'.sessions.lookup key = some p ∨ (st.heap p).lastAccess + st.ttl < now'

variable {now now' : Int}

theorem Evolves.refl (st : MemoryStore) (h : now ≤ now') : st.Evolves now st now' :=
  ⟨h, le_rfl, rfl, fun p _ => Session.Extends.refl (st.heap p), fun _ _ hp => Or.inl hp⟩

variable {st : MemoryStore}

theorem Sound.mono (h : st.Sound now) (hnow : now ≤ now') : st.Sound now' :=
  ⟨h.ttl_pos, h.allocated, h.ttl, fun p hp => (h.lastAccess p hp).trans hnow⟩

variable {p : SessionPtr}

/-- A stored session is expired when its TTL has passed since its last access. -/
theorem Sound.isExpired_iff (h : st.Sound now) (hp : p < st.next) (t : Int) :
    (st.heap p).isExpired t = true ↔ (st.heap p).lastAccess + st.ttl < t := by
  have httl := h.ttl p hp
  rw [Session.isExpired_iff (by rw [httl]; exact h.ttl_pos), httl]

variable {id : String}

/-- Dropping an expired session. -/
private theorem Sound.erase (h : st.Sound now) (hnow : now ≤ now')
    (hp : st.sessions.lookup id = some p) (hexp : (st.heap p).isExpired now' = true) :
    { st with sessions := st.sessions.erase id }.Sound now' ∧
      st.Evolves now { st with sessions := st.sessions.erase id } now' := by
  refine ⟨⟨h.ttl_pos, fun key q hq => h.allocated key q (GoMap.lookup_of_lookup_erase hq),
    h.ttl, (h.mono hnow).lastAccess⟩,
    ⟨hnow, le_rfl, rfl, fun q _ => Session.Extends.refl _, ?_⟩⟩
  intro key q hq
  -- only `id` loses its session, and that one is expired
  by_cases hkey : key = id
  · subst hkey
    cases hp.symm.trans hq
    exact Or.inr ((h.isExpired_iff (h.allocated key p hp) now').mp hexp)
  · exact Or.inl (by rw [GoMap.lookup_erase_eq, if_neg hkey]; exact hq)

theorem Evolves.trans {st₁ st₂ : MemoryStore} {now₁ now₂ : Int} (hs : st.Sound now)
    (h₁ : st.Evolves now st₁ now₁) (h₂ : st₁.Evolves now₁ st₂ now₂) : st.Evolves now st₂ now₂ := by
  have hsessions : ∀ p < st.next, (st.heap p).Extends (st₂.heap p) := fun p hp =>
    (h₁.sessions p hp).trans (h₂.sessions p (lt_of_lt_of_le hp h₁.next))
  refine ⟨h₁.time.trans h₂.time, h₁.next.trans h₂.next, h₂.ttl.trans h₁.ttl, hsessions, ?_⟩
  intro key p hp
  have htime := h₂.time
  -- last accesses only grow, so a session that is expired by the later one is expired by
  -- the earlier one as well
  obtain hp₁ | hexp := h₁.kept key p hp
  · obtain hp₂ | hexp := h₂.kept key p hp₁
    · exact Or.inl hp₂
    · have hacc := (h₁.sessions p (hs.allocated key p hp)).lastAccess
      rw [h₁.ttl] at hexp
      exact Or.inr (by omega)
  · exact Or.inr (by omega)

/-- Creating a session under a free key. -/
private theorem Sound.create (h : st.Sound now) (hnow : now ≤ now') (agentName : String)
    (hfree : st.sessions.lookup id = none) :
    (st.create id agentName now').1.Sound now' ∧
      st.Evolves now (st.create id agentName now').1 now' := by
  -- the new session gets the next address, so the old ones stay as they are
  have hold : ∀ p < st.next, (st.create id agentName now').1.heap p = st.heap p := by
    intro p hp
    exact Function.update_of_ne (Nat.ne_of_lt hp) _ _
  have hnew : (st.create id agentName now').1.heap st.next =
      Session.newSession id agentName st.ttl now' := Function.update_self _ _ _
  refine ⟨⟨h.ttl_pos, ?_, ?_, ?_⟩, ⟨hnow, Nat.le_succ _, rfl, ?_, ?_⟩⟩
  · intro key p hp
    simp only [MemoryStore.create, GoMap.lookup_insert_eq] at hp ⊢
    split at hp
    · cases hp
      exact Nat.lt_succ_self _
    · exact Nat.lt_succ_of_lt (h.allocated key p hp)
  · intro p hp
    obtain hlt | rfl := Nat.lt_succ_iff_lt_or_eq.mp hp
    · rw [hold p hlt]; exact h.ttl p hlt
    · rw [hnew]; rfl
  · intro p hp
    obtain hlt | rfl := Nat.lt_succ_iff_lt_or_eq.mp hp
    · rw [hold p hlt]; exact (h.mono hnow).lastAccess p hlt
    · rw [hnew]; exact le_rfl
  · intro p hp
    rw [hold p hp]
    exact Session.Extends.refl _
  · intro key p hp
    have hne : key ≠ id := by
      intro heq
      rw [heq, hfree] at hp
      cases hp
    exact Or.inl (by simpa only [MemoryStore.create, GoMap.lookup_insert_eq, if_neg hne] using hp)

theorem Sound.update (h : st.Sound now) (hnow : now ≤ now') (p : SessionPtr)
    (f : Session → Session) (hext : (st.heap p).Extends (f (st.heap p)))
    (hacc : p < st.next → (f (st.heap p)).lastAccess ≤ now') :
    (st.update p f).Sound now' ∧ st.Evolves now (st.update p f) now' := by
  have hheap : ∀ q, (st.update p f).heap q = if q = p then f (st.heap p) else st.heap q :=
    fun q => Function.update_apply st.heap p _ q
  refine ⟨⟨h.ttl_pos, h.allocated, ?_, ?_⟩, ⟨hnow, le_rfl, rfl, ?_, fun _ _ hq => Or.inl hq⟩⟩
  · intro q hq
    rw [hheap q]
    split
    · rename_i heq
      rw [hext.ttl]
      exact h.ttl p (heq ▸ hq)
    · exact h.ttl q hq
  · intro q hq
    rw [hheap q]
    split
    · rename_i heq
      exact hacc (heq ▸ hq)
    · exact (h.mono hnow).lastAccess q hq
  · intro q _
    rw [hheap q]
    split
    · rename_i heq
      exact heq ▸ hext
    · exact Session.Extends.refl _

theorem getOrCreate_evolves {checkAt createAt : Int} (h : st.Sound now) (hcheck : now ≤ checkAt)
    (hcreate : checkAt ≤ createAt) (id agentName : String) :
    (st.getOrCreate id agentName checkAt createAt).1.Sound createAt ∧
      st.Evolves now (st.getOrCreate id agentName checkAt createAt).1 createAt ∧
      (st.getOrCreate id agentName checkAt createAt).2 <
        (st.getOrCreate id agentName checkAt createAt).1.next := by
  unfold getOrCreate
  cases hid : st.sessions.lookup id with
  | none =>
    obtain ⟨hsound, hevolves⟩ := h.create (hcheck.trans hcreate) agentName hid
    exact ⟨hsound, hevolves, Nat.lt_succ_self _⟩
  | some p =>
    simp only
    split
    · rename_i hexp
      -- the expired session goes, then the key is free for a new one
      obtain ⟨hsound₁, hevolves₁⟩ := h.erase hcheck hid hexp
      have hfree : (st.sessions.erase id).lookup id = none := AList.lookup_erase _ _
      obtain ⟨hsound₂, hevolves₂⟩ := hsound₁.create hcreate agentName hfree
      exact ⟨hsound₂, hevolves₁.trans h hevolves₂, Nat.lt_succ_self _⟩
    · exact ⟨h.mono (hcheck.trans hcreate), Evolves.refl st (hcheck.trans hcreate),
        h.allocated id p hid⟩

theorem deleteIfSame_evolves (h : st.Sound now) (hnow : now ≤ now')
    (hexp : st.sessions.lookup id = some p → (st.heap p).isExpired now' = true) :
    (st.deleteIfSame id p).Sound now' ∧ st.Evolves now (st.deleteIfSame id p) now' := by
  unfold deleteIfSame
  split
  · rename_i hp
    exact h.erase hnow hp (hexp hp)
  · exact ⟨h.mono hnow, Evolves.refl st hnow⟩

theorem deleteIfExpired_evolves (h : st.Sound now) (hnow : now ≤ now') (p : SessionPtr) :
    (st.deleteIfExpired p now').Sound now' ∧ st.Evolves now (st.deleteIfExpired p now') now' := by
  unfold deleteIfExpired
  split
  · rename_i hexp
    -- the clean-up checks expiry under the same lock as it deletes
    exact deleteIfSame_evolves h hnow fun _ => hexp
  · exact ⟨h.mono hnow, Evolves.refl st hnow⟩

/-- The turn is in its session, and its key maps to that session for one TTL. -/
structure Keeps (st : MemoryStore) (now : Int) (turn : DoneTurn) : Prop where
  allocated : turn.ptr < st.next
  endedAt : turn.endedAt ≤ (st.heap turn.ptr).lastAccess
  messages : turn.session.messages <+: (st.heap turn.ptr).messages
  turnCount : turn.session.turnCount ≤ (st.heap turn.ptr).turnCount
  stored : now ≤ turn.endedAt + st.ttl → st.sessions.lookup turn.key = some turn.ptr

/-- A store that evolves as a step may lets no turn go. -/
theorem Keeps.evolves {st' : MemoryStore} {turn : DoneTurn} (hk : st.Keeps now turn)
    (h : st.Evolves now st' now') : st'.Keeps now' turn := by
  have hext := h.sessions turn.ptr hk.allocated
  have hended := hk.endedAt
  refine ⟨lt_of_lt_of_le hk.allocated h.next, hended.trans hext.lastAccess,
    hk.messages.trans hext.messages, hk.turnCount.trans hext.turnCount, ?_⟩
  intro hnow
  rw [h.ttl] at hnow
  have htime := h.time
  -- the session was accessed when the turn ended, so it cannot be expired yet
  obtain hkept | hexp := h.kept turn.key turn.ptr (hk.stored (by omega))
  · exact hkept
  · omega

end MemoryStore

/-! ## Runs -/

/-- The session that a request will apply, or is applying, its turn to. -/
def StorePc.session : StorePc → Option SessionPtr
  | .holding _ p | .inTurn _ p => some p
  | _ => none

namespace StoreSystem

variable {ι : Type}

/-- The invariant of careful runs. -/
structure Keeping (s : StoreSystem ι) : Prop where
  sound : s.store.Sound s.now
  clients : ∀ i p, (s.pc i).session = some p → p < s.store.next
  done : ∀ turn ∈ s.done, s.store.Keeps s.now turn

theorem keeping_initial (ttl now : Int) : Keeping (initial ttl now : StoreSystem ι) := by
  have hpos : 0 < (MemoryStore.newMemoryStore ttl).ttl := by
    show 0 < if ttl ≤ 0 then defaultSessionTTL else ttl
    split
    · decide
    · omega
  exact {
    sound := ⟨hpos, fun _ _ h => (nomatch h), fun p h => absurd h (Nat.not_lt_zero p),
      fun p h => absurd h (Nat.not_lt_zero p)⟩
    clients := nofun
    done := nofun }

variable [DecidableEq ι] {s : StoreSystem ι} {now : Int}

/-- A client moves on and the store evolves as a step may. -/
private theorem Keeping.move (h : s.Keeping) (i : ι) {pc : StorePc} {store : MemoryStore}
    {busy : SessionPtr → Bool} (hstore : store.Sound now ∧ s.store.Evolves s.now store now)
    (hpc : ∀ p, pc.session = some p → p < store.next) :
    Keeping { s.move i pc store now with busy := busy } := by
  refine ⟨hstore.1, ?_, fun turn ht => (h.done turn ht).evolves hstore.2⟩
  intro j p hj
  simp only [StoreSystem.move] at hj ⊢
  -- the other clients keep their sessions, which stay allocated
  by_cases hji : j = i
  · subst hji
    rw [Function.update_self] at hj
    exact hpc p hj
  · rw [Function.update_of_ne hji] at hj
    exact lt_of_lt_of_le (h.clients j p hj) hstore.2.next

/-- A client without a session moves on. -/
private theorem Keeping.moveFree (h : s.Keeping) (i : ι) {pc : StorePc} {store : MemoryStore}
    (hstore : store.Sound now ∧ s.store.Evolves s.now store now) (hpc : pc.session = none) :
    Keeping (s.move i pc store now) :=
  h.move i hstore fun p hp => by rw [hpc] at hp; cases hp

omit [DecidableEq ι] in
/-- The variables are written back on every turn, with or without a reply. -/
private theorem Keeping.writeVars (h : s.Keeping) (hnow : s.now ≤ now) (p : SessionPtr)
    (vars : Fields) :
    (s.store.update p fun session => { session with vars := vars }).Sound now ∧
      s.store.Evolves s.now (s.store.update p fun session => { session with vars := vars }) now :=
  h.sound.update hnow p _ ⟨List.prefix_rfl, le_rfl, le_rfl, rfl⟩
    fun hp => (h.sound.mono hnow).lastAccess p hp

/-- Every careful step keeps all turns. -/
theorem Keeping.step {s' : StoreSystem ι} {e : StoreEvent ι} (h : s.Keeping)
    (hcareful : s.Careful e) (hstep : s.step e = some s') : s'.Keeping := by
  revert hstep
  fun_cases StoreSystem.step s e <;> intro hstep <;> cases hstep
  · rename_i i key agentName _ _ _ hguard _ _ heq
    obtain ⟨hsound, hevolves, hptr⟩ := MemoryStore.getOrCreate_evolves h.sound hguard.1 hguard.2.1
      key agentName
    rw [heq] at hsound hevolves hptr
    exact h.move i ⟨hsound, hevolves⟩ fun p hp => Option.some.inj hp ▸ hptr
  · rename_i i content now key p hpc hguard _
    have hp : p < s.store.next := h.clients i p (by rw [hpc]; rfl)
    have hacc := (h.sound.lastAccess p hp).trans hguard.1
    have hstore := h.sound.update hguard.1 p (·.appendUserMessage content now)
      (Session.extends_appendUserMessage _ content now hacc) fun _ => le_rfl
    exact h.move i hstore fun q hq => Option.some.inj hq ▸ hp
  · -- the turn failed: nothing is appended
    exact h.move _ (h.writeVars ‹_› _ _) fun q hq => nomatch hq
  · -- the turn adds itself to the turns that the store keeps
    rename_i i vars now key p hpc hnow _ store reply replied
    have hp : p < s.store.next := h.clients i p (by rw [hpc]; rfl)
    have hvars := h.writeVars hnow p vars
    have hacc := hvars.1.lastAccess p hp
    have hreplied := hvars.1.update le_rfl p
      (·.appendAssistantMessage reply.content reply.toolCalls now)
      (Session.extends_appendAssistantMessage _ reply.content reply.toolCalls now hacc)
      fun _ => le_rfl
    have hstore := And.intro hreplied.1 (hvars.2.trans h.sound hreplied.2)
    have hmoved := h.moveFree i hstore (show StorePc.idle.session = none from rfl)
    refine ⟨hmoved.sound, hmoved.clients, List.forall_mem_append.mpr ⟨hmoved.done, ?_⟩⟩
    -- the new turn: carefulness says that its session is still stored
    refine List.forall_mem_singleton.mpr
      ⟨hp, ?_, List.prefix_rfl, le_rfl, fun _ => hcareful key p hpc⟩
    simp [replied, store, MemoryStore.update, Session.appendAssistantMessage, StoreSystem.move]
  · exact h.moveFree _ ⟨h.sound, .refl _ le_rfl⟩ rfl
  · exact h
  · rename_i hguard pc
    exact h.moveFree _ ⟨h.sound.mono hguard.1, .refl _ hguard.1⟩ (by simp only [pc]; split <;> rfl)
  · rename_i i _ key p hpc hnow
    exact h.moveFree i (MemoryStore.deleteIfSame_evolves h.sound hnow (hcareful key p hpc)) rfl
  · exact h.moveFree _ ⟨h.sound, .refl _ le_rfl⟩ rfl
  · rename_i hnow
    exact h.moveFree _ ⟨h.sound.mono hnow, .refl _ hnow⟩ rfl
  · rename_i hguard _
    exact h.moveFree _ ⟨h.sound.mono hguard.1, .refl _ hguard.1⟩ rfl
  · rename_i hnow
    exact h.moveFree _ ⟨h.sound.mono hnow, .refl _ hnow⟩ rfl
  · rename_i hguard
    exact h.moveFree _ (MemoryStore.deleteIfExpired_evolves h.sound hguard.1 _) rfl

/-- Within one TTL after a kept turn, `GetOrCreate` finds its session unexpired. -/
theorem Keeping.turnsKept (h : s.Keeping) : s.TurnsKept := by
  intro turn hturn i agentName checkAt createAt s' hstep hcheck
  have hk := h.done turn hturn
  simp only [StoreSystem.step] at hstep
  split at hstep
  · obtain ⟨hguard, ⟨⟩⟩ := Option.ite_none_right_eq_some.mp hstep
    have hstored : s.store.sessions.lookup turn.key = some turn.ptr := hk.stored (by omega)
    -- its last access is not before the end of the turn
    have hlive : (s.store.heap turn.ptr).isExpired checkAt = false := by
      rw [← Bool.not_eq_true, h.sound.isExpired_iff hk.allocated]
      have hended := hk.endedAt
      omega
    have hget : s.store.getOrCreate turn.key agentName checkAt createAt =
        (s.store, turn.ptr) := by
      simp only [MemoryStore.getOrCreate, hstored, hlive]
      rfl
    simp only [hget]
    exact ⟨Function.update_self _ _ _, hk.messages, hk.turnCount⟩
  · cases hstep

/-- In every run whose steps are careful, no turn is lost. -/
theorem turnsKept_of_allSteps (ttl now : Int) (events : List (StoreEvent ι))
    (s : StoreSystem ι) (hcareful : AllSteps step Careful (initial ttl now) events)
    (hrun : (initial ttl now).run events = some s) : s.TurnsKept := by
  have hkeeping : s.Keeping := runOption_inv_of_allSteps step Careful Keeping
    (fun _ _ _ hc hstep h => h.step hc hstep) hcareful hrun (keeping_initial ttl now)
  exact hkeeping.turnsKept

/-- Two requests share a session. A `Get` then evicts one of two other sessions, which have
    expired meanwhile, and a `Cleanup` the other one. -/
def keptRun : List (StoreEvent (Fin 6)) :=
  [.getOrCreate 0 "k" "bot" 0 0, .getOrCreate 1 "k" "bot" 0 0, .getOrCreate 2 "a" "bot" 0 0,
    .getOrCreate 3 "b" "bot" 0 0, .beginTurn 0 "hi" 40,
    .endTurn 0 [] (some { content := "hello" }) 41, .beginTurn 1 "more" 50,
    .endTurn 1 [] (some { content := "sure" }) 51, .getLookup 4 "a", .getCheck 4 70,
    .getEvict 4 71, .cleanupSnapshot 5 .stored, .cleanupCheck 5 72, .cleanupCheck 5 72,
    .cleanupCheck 5 72, .cleanupDelete 5 73, .cleanupDelete 5 73]

theorem keptRun_turnsKept :
    ∃ s, (initial 60 0).run keptRun = some s ∧ s.done.length = 2 ∧
      s.store.sessions.keys = ["k"] ∧ s.TurnsKept := by
  refine ⟨_, rfl, rfl, rfl, ?_⟩
  exact turnsKept_of_allSteps 60 0 keptRun _ (by decide) rfl

/-- The session of the first request expires before its turn; the second request
    replaces it. -/
def detachedRun : List (StoreEvent Bool) :=
  [.getOrCreate true "k" "bot" 0 0, .getOrCreate false "k" "bot" 61 61,
    .beginTurn true "hi" 62, .endTurn true [] (some { content := "hello" }) 62]

/-- `Get` finds the session expired; the request then refreshes it with a turn, and
    `Get` evicts it all the same. -/
def refreshedRun : List (StoreEvent Bool) :=
  [.getOrCreate true "k" "bot" 0 0, .getLookup false "k", .getCheck false 61,
    .beginTurn true "hi" 62, .endTurn true [] (some { content := "hello" }) 62,
    .getEvict false 63]

/-- After either run, a later `GetOrCreate` within the TTL returns another session. -/
theorem lostTurns_not_turnsKept :
    (∃ s, (initial 60 0).run detachedRun = some s ∧ ¬ s.TurnsKept) ∧
      ∃ s, (initial 60 0).run refreshedRun = some s ∧ ¬ s.TurnsKept := by
  refine ⟨⟨_, rfl, fun h => ?_⟩, ⟨_, rfl, fun h => ?_⟩⟩
  · have hpc := (h _ List.mem_cons_self true "bot" 63 63 _ rfl (by decide)).1
    exact absurd (StorePc.holding.inj hpc).2 (by decide)
  · have hpc := (h _ List.mem_cons_self true "bot" 64 64 _ rfl (by decide)).1
    exact absurd (StorePc.holding.inj hpc).2 (by decide)

end StoreSystem

end MockAgents
