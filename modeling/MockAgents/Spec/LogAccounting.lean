import MockAgents.Server.LogWorker

/-!
# The accounts of the log worker

In every interleaving, the counters of a `LogWorker` add up: an accepted entry is counted as
submitted before anyone can see it, and it is in exactly one place from then on, in the queue,
in the hands of a worker, or among the processed ones. The lock keeps sends and the `close` of
the queue apart.
-/

namespace MockAgents

/-! ## What is counted -/

/-- The call has bumped `submitted`, and will not take that back unless the queue is full. -/
def SubmitPc.counted : SubmitPc → Bool
  | .sending | .rollingBack | .unlocking true | .returned true => true
  | _ => false

/-- The entry of the call is in the queue or has left it. -/
def SubmitPc.accepted : SubmitPc → Bool
  | .unlocking true | .returned true => true
  | _ => false

/-- The call has bumped `dropped`. -/
def SubmitPc.refused : SubmitPc → Bool
  | .unlocking false | .returned false => true
  | _ => false

/-- What a worker has taken from the queue and not accounted for yet. -/
def LogWorkerPc.held {ε : Type} : LogWorkerPc ε → List (Submission ε)
  | .writing sub => [sub]
  | _ => []

/-- `Shutdown` has set `stopped`. -/
def ShutdownPc.hasStopped : ShutdownPc → Bool
  | .idle | .storing => false
  | _ => true

/-- `Shutdown` has closed the queue. -/
def ShutdownPc.hasClosed : ShutdownPc → Bool
  | .idle | .storing | .closing => false
  | _ => true

/-- `Shutdown` has waited for the workers. -/
def ShutdownPc.hasJoined : ShutdownPc → Bool
  | .stopping | .returned => true
  | _ => false

namespace LogSystem

open scoped List

variable {ε : Type}

/-- The entry was accepted from its call. -/
def Accepted (s : LogSystem ε) (sub : Submission ε) : Prop :=
  ∃ c, s.submits[sub.call]? = some c ∧ c.entry = sub.entry ∧ c.pc.accepted = true

/-- Every accepted entry, wherever it is. -/
def inPlay (s : LogSystem ε) : List (Submission ε) :=
  s.processed ++ (s.workers.flatMap (·.held) ++ s.queue.buf)

structure Accounted (s : LogSystem ε) : Prop where
  /-- What was processed was submitted. -/
  processed_le : s.written + s.failed ≤ s.submitted
  /-- Nothing is sent on the closed queue, and it is not closed twice. -/
  not_panicked : s.panicked = false
  /-- Only accepted entries are processed, each at most once. -/
  once : (s.processed.map (·.call)).Nodup ∧ ∀ sub ∈ s.processed, s.Accepted sub
  /-- When all calls have returned, every call and every submitted entry is accounted for. -/
  settled : (∀ c ∈ s.submits, ∃ accepted, c.pc = .returned accepted) → s.shutdown = .returned →
    s.submits.length = s.submitted + s.dropped ∧
      s.submitted = s.written + s.failed + s.queue.buf.length ∧
      (s.fired = false → s.queue.buf = [])

/-! ## Invariants -/

/-- The lock keeps the `Submit` calls apart from the part of `Shutdown` that closes the
    queue. -/
structure Locked (s : LogSystem ε) : Prop where
  stopped : s.stopped = s.shutdown.hasStopped
  closed : s.queue.closed = s.shutdown.hasClosed
  exclusive : ∀ c ∈ s.submits, c.pc.holdsLock = true → s.shutdown.holdsLock = false
  /-- A call that found the worker running holds the lock until it has sent its entry. -/
  running : ∀ c ∈ s.submits, c.pc = .counting ∨ c.pc = .sending → s.shutdown = .idle
  not_panicked : s.panicked = false

/-- The counters against the places of the calls and the entries. -/
structure Counts (s : LogSystem ε) : Prop where
  submitted : s.submitted = s.submits.countP (·.pc.counted)
  dropped : s.dropped = s.submits.countP (·.pc.refused)
  processed : s.processed.length = s.written + s.failed
  inPlay_length : s.inPlay.length = s.submits.countP (·.pc.accepted)
  nodup : (s.inPlay.map (·.call)).Nodup
  accepted : ∀ sub ∈ s.inPlay, s.Accepted sub

/-- When and why workers exit. -/
structure Drains (s : LogSystem ε) : Prop where
  /-- A worker exits at the deadline, or when nothing can come any more. -/
  exited : .exited ∈ s.workers → s.quit = true ∨ (s.queue.closed = true ∧ s.queue.buf = [])
  quit : s.quit = true → s.fired = true
  joined : s.shutdown.hasJoined = true → ∀ pc ∈ s.workers, pc = .exited
  workers : s.workers ≠ []

/-- The three invariants together. -/
structure Sound (s : LogSystem ε) : Prop where
  locked : s.Locked
  counts : s.Counts
  drains : s.Drains

theorem sound_newLogWorker (enabled : Bool) (cfg : LogWorkerConfig) :
    (newLogWorker enabled cfg : LogSystem ε).Sound := by
  -- there is at least one worker, and none of them holds anything
  have hheld : ∀ n : Nat,
      (List.replicate n (.polling : LogWorkerPc ε)).flatMap (·.held) = [] := by
    simp [LogWorkerPc.held]
  have hplay : (newLogWorker enabled cfg : LogSystem ε).inPlay = [] := by
    simp [inPlay, newLogWorker, hheld, Chan.buf_make]
  refine ⟨⟨rfl, rfl, by simp [newLogWorker], by simp [newLogWorker], rfl⟩,
    ⟨rfl, rfl, rfl, by rw [hplay]; rfl, by simp [hplay], by simp [hplay]⟩,
    ⟨?_, by simp [newLogWorker], by simp [newLogWorker, ShutdownPc.hasJoined], ?_⟩⟩
  · intro hmem
    exact nomatch List.eq_of_mem_replicate hmem
  · simp only [newLogWorker, defaultLogWorkerCount, ne_eq, List.replicate_eq_nil_iff]
    split <;> omega

/-! ## Submitting -/

variable {s s' : LogSystem ε} {k : Nat} {c : SubmitCall ε} {pc old : SubmitPc}

/-- A call holds the lock after a step if it did before, or if `Shutdown` does not. -/
theorem Locked.moveSubmit (h : s.Locked) (hc : s.submits[k]? = some c) (hpc : c.pc = old)
    (hsubmits : s'.submits = (s.moveSubmit k c pc).submits)
    (hrest : (s'.stopped, s'.shutdown, s'.panicked) = (s.stopped, s.shutdown, s.panicked))
    (hclosed : s'.queue.closed = s.queue.closed)
    (hlock : pc.holdsLock = true → old.holdsLock = true ∨ s.shutdown.holdsLock = false)
    (hrun : pc = .counting ∨ pc = .sending → s.shutdown = .idle) : s'.Locked := by
  simp only [Prod.mk.injEq] at hrest
  obtain ⟨hstopped, hshutdown, hpanicked⟩ := hrest
  refine ⟨by rw [hstopped, hshutdown, h.stopped], by rw [hclosed, hshutdown, h.closed], ?_, ?_,
    hpanicked.trans h.not_panicked⟩ <;> rw [hsubmits, hshutdown] <;> intro c' hc' hpc'
  · rcases List.mem_or_eq_of_mem_set hc' with hmem | rfl
    · exact h.exclusive c' hmem hpc'
    · refine (hlock hpc').elim (fun hold => ?_) id
      exact h.exclusive c (List.mem_of_getElem? hc) (hpc ▸ hold)
  · rcases List.mem_or_eq_of_mem_set hc' with hmem | rfl
    · exact h.running c' hmem hpc'
    · exact hrun hpc'

theorem countP_moveSubmit (hc : s.submits[k]? = some c) (pc : SubmitPc) (p : SubmitPc → Bool) :
    (s.moveSubmit k c pc).submits.countP (p ·.pc) + (p c.pc).toNat =
      s.submits.countP (p ·.pc) + (p pc).toNat := by
  obtain ⟨rest, hold, hnew⟩ := List.exists_perm_set hc
  rw [moveSubmit, (hnew _).countP_eq, hold.countP_eq, List.countP_cons, List.countP_cons]
  cases p c.pc <;> cases p pc <;> simp

theorem Accepted.moveSubmit {sub : Submission ε} (h : s.Accepted sub)
    (hc : s.submits[k]? = some c) (hpc : c.pc.accepted = true → pc.accepted = true) :
    (s.moveSubmit k c pc).Accepted sub := by
  obtain ⟨c', hc', hentry, haccepted⟩ := h
  by_cases hk : k = sub.call
  · subst hk
    cases hc.symm.trans hc'
    have hlt := (List.getElem?_eq_some_iff.mp hc).1
    exact ⟨_, List.getElem?_set_self hlt, hentry, hpc haccepted⟩
  · exact ⟨c', (List.getElem?_set_ne hk).trans hc', hentry, haccepted⟩

/-- The counters follow the move of a call. -/
theorem Counts.moveSubmit (h : s.Counts) (hc : s.submits[k]? = some c) (hpc : c.pc = old)
    (hsubmits : s'.submits = (s.moveSubmit k c pc).submits) (hplay : s'.inPlay = s.inPlay)
    (hprocessed : s'.processed.length = s'.written + s'.failed)
    (haccepted : pc.accepted = old.accepted)
    (hsubmitted : s'.submitted + old.counted.toNat = s.submitted + pc.counted.toNat)
    (hdropped : s'.dropped + old.refused.toNat = s.dropped + pc.refused.toNat) : s'.Counts := by
  subst hpc
  have hcount := countP_moveSubmit hc pc
  refine ⟨?_, ?_, hprocessed, ?_, hplay ▸ h.nodup, ?_⟩
  · have := hcount (·.counted)
    rw [← hsubmits, ← h.submitted] at this
    omega
  · have := hcount (·.refused)
    rw [← hsubmits, ← h.dropped] at this
    omega
  · have := hcount (·.accepted)
    rw [← hsubmits, ← h.inPlay_length, haccepted] at this
    rw [hplay]
    omega
  · intro sub hsub
    obtain ⟨c', hc', hentry⟩ :=
      (h.accepted sub (hplay ▸ hsub)).moveSubmit hc (fun h => haccepted.trans h)
    exact ⟨c', hsubmits ▸ hc', hentry⟩

/-- A call hands over its entry. -/
theorem Counts.send (h : s.Counts) (hc : s.submits[k]? = some c) (hpc : c.pc = .sending)
    {queue : Chan (Submission ε)} (hbuf : queue.buf = s.queue.buf ++ [⟨k, c.entry⟩]) :
    ({ s with queue := queue }.moveSubmit k c (.unlocking true)).Counts := by
  have hplay : ({ s with queue := queue }.moveSubmit k c (.unlocking true)).inPlay =
      s.inPlay ++ [⟨k, c.entry⟩] := by
    simp [inPlay, LogSystem.moveSubmit, hbuf]
  have hcount := countP_moveSubmit hc (.unlocking true)
  -- what is in play was accepted, and the call is still about to send
  have hnew : k ∉ s.inPlay.map (·.call) := by
    intro hmem
    obtain ⟨sub, hsub, rfl⟩ := List.mem_map.mp hmem
    obtain ⟨c', hc', _, haccepted⟩ := h.accepted sub hsub
    cases hc.symm.trans hc'
    rw [hpc] at haccepted
    cases haccepted
  refine ⟨?_, ?_, h.processed, ?_, ?_, ?_⟩
  · have := hcount (·.counted)
    rw [← h.submitted, hpc] at this
    exact Nat.add_right_cancel this.symm
  · have := hcount (·.refused)
    rw [← h.dropped, hpc] at this
    exact Nat.add_right_cancel this.symm
  · have := hcount (·.accepted)
    rw [← h.inPlay_length, hpc] at this
    rw [hplay, List.length_append]
    exact this.symm
  · rw [hplay, List.map_append, List.nodup_append]
    refine ⟨h.nodup, by simp, ?_⟩
    intro a ha b hb hab
    rw [hab, List.mem_singleton.mp hb] at ha
    exact hnew ha
  · intro sub hsub
    rw [hplay] at hsub
    rcases List.mem_append.mp hsub with hsub | hsub
    · exact (h.accepted sub hsub).moveSubmit hc (fun _ => rfl)
    · have hlt := (List.getElem?_eq_some_iff.mp hc).1
      rw [List.mem_singleton.mp hsub]
      exact ⟨_, List.getElem?_set_self hlt, rfl, rfl⟩

/-- A call moves on without the queue. -/
theorem Sound.moveSubmit (h : s.Sound) (hc : s.submits[k]? = some c) (hpc : c.pc = old)
    {submitted dropped : Nat}
    (hlock : pc.holdsLock = true → old.holdsLock = true ∨ s.shutdown.holdsLock = false)
    (hrun : pc = .counting ∨ pc = .sending → s.shutdown = .idle)
    (haccepted : pc.accepted = old.accepted)
    (hsubmitted : submitted + old.counted.toNat = s.submitted + pc.counted.toNat)
    (hdropped : dropped + old.refused.toNat = s.dropped + pc.refused.toNat) :
    ({ s with submitted := submitted, dropped := dropped }.moveSubmit k c pc).Sound :=
  ⟨h.locked.moveSubmit hc hpc rfl rfl rfl hlock hrun,
    h.counts.moveSubmit hc hpc rfl rfl h.counts.processed haccepted hsubmitted hdropped,
    { h.drains with }⟩

theorem Sound.advance (h : s.Sound) (hc : s.submits[k]? = some c)
    (hstep : s.advance k c = some s') : s'.Sound := by
  have hmem := List.mem_of_getElem? hc
  revert hstep
  fun_cases LogSystem.advance s k c <;> intro hstep <;> cases hstep
  · rename_i hpc hfree
    exact h.moveSubmit hc hpc (fun _ => .inr (by simpa using hfree)) (by simp) rfl rfl rfl
  · rename_i hpc
    -- the worker is running, so `Shutdown` has not begun
    have hidle : s.stopped = false → s.shutdown = .idle := by
      have hfree := h.locked.exclusive c hmem (by rw [hpc]; rfl)
      rw [h.locked.stopped]
      revert hfree
      cases s.shutdown <;> simp [ShutdownPc.hasStopped, ShutdownPc.holdsLock]
    cases hs : s.stopped with
    | true => exact h.moveSubmit hc hpc (fun _ => .inl rfl) (by simp) rfl rfl rfl
    | false => exact h.moveSubmit hc hpc (fun _ => .inl rfl) (fun _ => hidle hs) rfl rfl rfl
  · rename_i hpc
    have hidle := h.locked.running c hmem (.inl hpc)
    exact h.moveSubmit hc hpc (fun _ => .inl rfl) (fun _ => hidle) rfl rfl rfl
  · rename_i hpc queue hsend
    obtain ⟨hopen, _, hbuf, _, hopen'⟩ := Chan.sent_of_trySend hsend
    refine ⟨h.locked.moveSubmit hc hpc rfl rfl (hopen'.trans hopen.symm) (fun _ => .inl rfl)
      (by simp), h.counts.send hc hpc hbuf, ⟨fun hexited => .inl ?_, h.drains.quit,
      h.drains.joined, h.drains.workers⟩⟩
    -- the queue is open, so nobody has exited because it was drained
    exact (h.drains.exited hexited).resolve_right (by simp [hopen])
  · rename_i hpc _
    exact h.moveSubmit hc hpc (fun _ => .inl rfl) (by simp) rfl rfl rfl
  · -- the queue is not closed while a call is about to send
    rename_i hpc hpanic
    have hclosed := Chan.closed_of_trySend hpanic
    rw [h.locked.closed, h.locked.running c hmem (.inr hpc)] at hclosed
    cases hclosed
  · rename_i hpc
    -- the call has bumped the counter, so it is not zero
    have hpos : 0 < s.submitted := by
      rw [h.counts.submitted, List.countP_pos_iff]
      exact ⟨c, hmem, by rw [hpc]; rfl⟩
    exact h.moveSubmit hc hpc (fun _ => .inl rfl) (by simp) rfl (Nat.sub_add_cancel hpos) rfl
  · rename_i hpc
    exact h.moveSubmit hc hpc (fun _ => .inl rfl) (by simp) rfl rfl rfl
  · rename_i accepted hpc
    cases accepted <;>
      exact h.moveSubmit hc hpc (by simp [SubmitPc.holdsLock]) (by simp) rfl rfl rfl

/-! ## Workers -/

/-- An entry moves from one place to another. -/
theorem Counts.of_perm (h : s.Counts) (hplay : s'.inPlay ~ s.inPlay)
    (hrest : (s'.submits, s'.submitted, s'.dropped) = (s.submits, s.submitted, s.dropped))
    (hprocessed : s'.processed.length = s'.written + s'.failed) : s'.Counts := by
  simp only [Prod.mk.injEq] at hrest
  obtain ⟨hsubmits, hsubmitted, hdropped⟩ := hrest
  refine ⟨?_, ?_, hprocessed, ?_, ?_, ?_⟩
  · rw [hsubmitted, hsubmits, h.submitted]
  · rw [hdropped, hsubmits, h.dropped]
  · rw [hplay.length_eq, hsubmits, h.inPlay_length]
  · exact (hplay.map _).nodup_iff.mpr h.nodup
  · intro sub hsub
    obtain ⟨c, hc⟩ := h.accepted sub (hplay.subset hsub)
    exact ⟨c, hsubmits ▸ hc⟩

/-- An entry that a worker takes or accounts for stays in play. -/
theorem inPlay_perm {j : Nat} {old pc : LogWorkerPc ε} (hj : s.workers[j]? = some old)
    (hworkers : s'.workers = s.workers.set j pc)
    (hplay : s'.processed ++ pc.held ++ s'.queue.buf = s.processed ++ old.held ++ s.queue.buf) :
    s'.inPlay ~ s.inPlay := by
  obtain ⟨rest, hold, hnew⟩ := List.exists_perm_set hj
  -- what the other workers hold goes to the end
  have hgather : ∀ {s : LogSystem ε} {pc : LogWorkerPc ε}, s.workers ~ pc :: rest →
      s.inPlay ~ s.processed ++ pc.held ++ s.queue.buf ++ rest.flatMap (·.held) := by
    intro s pc hperm
    have hheld := (hperm.flatMap_right (·.held)).append_right s.queue.buf
    refine (hheld.append_left s.processed).trans ?_
    simp only [List.flatMap_cons, List.append_assoc]
    exact (List.perm_append_comm.append_left _).append_left _
  calc s'.inPlay
      _ ~ s'.processed ++ pc.held ++ s'.queue.buf ++ rest.flatMap (·.held) :=
        hgather (hworkers ▸ hnew pc)
      _ = s.processed ++ old.held ++ s.queue.buf ++ rest.flatMap (·.held) := by rw [hplay]
      _ ~ s.inPlay := (hgather hold).symm

theorem Sound.moveWorker (h : s.Sound) {j : Nat} {old pc : LogWorkerPc ε}
    (hj : s.workers[j]? = some old) (hold : old ≠ .exited) {queue : Chan (Submission ε)}
    {processed : List (Submission ε)} {written failed : Nat} {published : List ε}
    (hclosed : queue.closed = s.queue.closed) (hbuf : s.queue.buf = [] → queue.buf = [])
    (hplay : processed ++ pc.held ++ queue.buf = s.processed ++ old.held ++ s.queue.buf)
    (hprocessed : processed.length = written + failed)
    (hpc : pc = .exited → s.quit = true ∨ (s.queue.closed = true ∧ s.queue.buf = [])) :
    ({ s with queue := queue, processed := processed, written := written, failed := failed,
              published := published }.moveWorker j pc).Sound := by
  refine ⟨{ h.locked with closed := hclosed.trans h.locked.closed },
    h.counts.of_perm (inPlay_perm hj rfl hplay) rfl hprocessed, ⟨?_, h.drains.quit, ?_, ?_⟩⟩
  · intro hmem
    have hexited : s.quit = true ∨ (s.queue.closed = true ∧ s.queue.buf = []) := by
      rcases List.mem_or_eq_of_mem_set hmem with hmem | heq
      · exact h.drains.exited hmem
      · exact hpc heq.symm
    exact hexited.imp_right fun hempty => ⟨hclosed.trans hempty.1, hbuf hempty.2⟩
  · intro hjoined
    exact absurd (h.drains.joined hjoined old (List.mem_of_getElem? hj)) hold
  · intro hnil
    exact h.drains.workers (by simpa [LogSystem.moveWorker] using hnil)

/-! ## Shutting down -/

/-- Once `Shutdown` has taken the lock, no call is about to send. -/
theorem Sound.moveShutdown (h : s.Sound) {stopped : Bool} {queue : Chan (Submission ε)}
    {pc : ShutdownPc} (hidle : s.shutdown ≠ .idle)
    (hlock : pc.holdsLock = true → s.shutdown.holdsLock = true)
    (hstopped : stopped = pc.hasStopped) (hclosed : queue.closed = pc.hasClosed)
    (hbuf : queue.buf = s.queue.buf) (hstays : s.queue.closed = true → queue.closed = true)
    (hjoined : pc.hasJoined = true → ∀ pc ∈ s.workers, pc = .exited) :
    Sound { s with stopped := stopped, queue := queue, shutdown := pc } := by
  refine ⟨⟨hstopped, hclosed, ?_, ?_, h.locked.not_panicked⟩,
    h.counts.of_perm (by rw [inPlay, inPlay, hbuf]) rfl h.counts.processed,
    ⟨fun hexited => (h.drains.exited hexited).imp_right ?_, h.drains.quit, hjoined,
      h.drains.workers⟩⟩
  · intro c hc hpc
    have hfree := h.locked.exclusive c hc hpc
    exact Bool.eq_false_iff.mpr fun hheld => absurd (hlock hheld) (by simp [hfree])
  · exact fun c hc hpc => absurd (h.locked.running c hc hpc) hidle
  · exact fun hempty => ⟨hstays hempty.1, hbuf.trans hempty.2⟩

theorem Sound.advanceShutdown (h : s.Sound) (hstep : s.advanceShutdown = some s') :
    s'.Sound := by
  have hstopped := h.locked.stopped
  have hclosed := h.locked.closed
  revert hstep
  fun_cases LogSystem.advanceShutdown s <;> intro hstep <;> cases hstep
  · rename_i hpc hfree
    rw [hpc] at hstopped hclosed
    have hfree : ∀ c ∈ s.submits, c.pc.holdsLock = false := by simpa using hfree
    refine ⟨⟨hstopped, hclosed, ?_, ?_, h.locked.not_panicked⟩, { h.counts with },
      { h.drains with joined := (nomatch ·) }⟩
    · exact fun c hc hlock => absurd hlock (by simp [hfree c hc])
    · intro c hc hrun
      have hlock := hfree c hc
      rcases hrun with hrun | hrun <;> rw [hrun] at hlock <;> cases hlock
  · rename_i hpc
    rw [hpc] at hclosed
    exact h.moveShutdown (by simp [hpc]) (by simp [hpc, ShutdownPc.holdsLock]) rfl hclosed rfl id
      (nomatch ·)
  · rename_i hpc queue hclose
    rw [hpc] at hstopped
    obtain ⟨_, hbuf, _, hclosed'⟩ := Chan.eq_of_close hclose
    exact h.moveShutdown (by simp [hpc]) (by simp [hpc, ShutdownPc.holdsLock]) hstopped hclosed'
      hbuf (fun _ => hclosed') (nomatch ·)
  · -- the queue is closed here and nowhere else
    rename_i hpc hpanic
    rw [hpc, Chan.closed_of_close hpanic] at hclosed
    cases hclosed
  · rename_i hpc
    rw [hpc] at hstopped hclosed
    exact h.moveShutdown (by simp [hpc]) (nomatch ·) hstopped hclosed rfl id (nomatch ·)
  · rename_i hpc hexited
    rw [hpc] at hstopped hclosed
    refine h.moveShutdown (by simp [hpc]) (nomatch ·) hstopped hclosed rfl id fun _ pc hmem => ?_
    have hpc' := List.all_eq_true.mp hexited pc hmem
    cases pc <;> simp_all
  · rename_i hpc
    rw [hpc] at hstopped hclosed
    exact h.moveShutdown (by simp [hpc]) (nomatch ·) hstopped hclosed rfl id
      fun _ => h.drains.joined (by rw [hpc]; rfl)

/-! ## Runs -/

theorem Sound.submit (h : s.Sound) (entry : ε) :
    Sound { s with submits := s.submits ++ [⟨entry, .locking⟩] } := by
  refine ⟨⟨h.locked.stopped, h.locked.closed, ?_, ?_, h.locked.not_panicked⟩,
    ⟨?_, ?_, h.counts.processed, ?_, h.counts.nodup, ?_⟩, { h.drains with }⟩
  · exact List.forall_mem_append.mpr ⟨h.locked.exclusive, by simp [SubmitPc.holdsLock]⟩
  · exact List.forall_mem_append.mpr ⟨h.locked.running, by simp⟩
  · simpa [List.countP_append, SubmitPc.counted] using h.counts.submitted
  · simpa [List.countP_append, SubmitPc.refused] using h.counts.dropped
  · have hlength := h.counts.inPlay_length
    rw [List.countP_append]
    exact hlength
  · intro sub hsub
    obtain ⟨c, hc, hrest⟩ := h.counts.accepted sub hsub
    exact ⟨c, List.getElem?_append_of_some hc, hrest⟩

theorem Sound.step {ev : LogEvent ε} (h : s.Sound) (hstep : s.step ev = some s') : s'.Sound := by
  have hprocessed := h.counts.processed
  have hlength : ∀ sub, (s.processed ++ [sub]).length = s.written + s.failed + 1 := by
    simp [hprocessed]
  revert hstep
  fun_cases LogSystem.step s ev <;> intro hstep <;> try cases hstep
  · exact h.submit _
  · exact h
  · obtain ⟨c, hc, hadvance⟩ := Option.bind_eq_some_iff.mp hstep
    exact h.advance hc hadvance
  · rename_i hj
    cases hquit : s.quit with
    | true => exact h.moveWorker hj (by simp) rfl id rfl hprocessed fun _ => .inl hquit
    | false => exact h.moveWorker hj (by simp) rfl id rfl hprocessed (by simp)
  · -- a waiting worker leaves after `quit`
    rename_i hj hquit
    exact h.moveWorker hj (by simp) rfl id rfl hprocessed fun _ => .inl hquit
  · -- a worker takes an entry
    rename_i hj sub queue hrecv
    obtain ⟨hbuf, _, hclosed⟩ := Chan.value_of_receive hrecv
    exact h.moveWorker hj (by simp) hclosed (by simp [hbuf]) (by simp [hbuf, LogWorkerPc.held])
      hprocessed (by simp)
  · rename_i hj hrecv
    obtain ⟨hbuf, hclosed⟩ := Chan.closed_of_receive hrecv
    exact h.moveWorker hj (by simp) rfl id rfl hprocessed fun _ => .inr ⟨hclosed, hbuf⟩
  · -- the entry is written, or the store fails
    rename_i hj _
    exact h.moveWorker hj (by simp) rfl id (List.append_nil _ ▸ rfl)
      ((hlength _).trans (Nat.add_right_comm ..)) (by simp)
  · rename_i hj _ _
    exact h.moveWorker hj (by simp) rfl id (List.append_nil _ ▸ rfl) (hlength _) (by simp)
  · rename_i hj
    exact h.moveWorker hj (by simp) rfl id rfl hprocessed (by simp)
  · exact h.advanceShutdown hstep
  · exact ⟨{ h.locked with }, { h.counts with }, { h.drains with quit := fun _ => rfl }⟩
  · rename_i hfired
    exact ⟨{ h.locked with }, { h.counts with },
      ⟨fun _ => .inl rfl, fun _ => hfired.1, h.drains.joined, h.drains.workers⟩⟩

theorem held_eq_nil {workers : List (LogWorkerPc ε)} (h : ∀ pc ∈ workers, pc = .exited) :
    workers.flatMap (·.held) = [] := by
  rw [List.flatMap_eq_nil_iff]
  intro pc hpc
  rw [h pc hpc]
  rfl

theorem Sound.accounted (h : s.Sound) : s.Accounted := by
  obtain ⟨hlocked, hcounts, hdrains⟩ := h
  have hprocessed := hcounts.processed
  have hlength := hcounts.inPlay_length
  have hsubmitted := hcounts.submitted
  rw [inPlay, List.length_append, List.length_append] at hlength
  refine ⟨?_, hlocked.not_panicked, ⟨?_, ?_⟩, ?_⟩
  · -- an accepted entry is counted as submitted
    have hle : s.submits.countP (·.pc.accepted) ≤ s.submits.countP (·.pc.counted) := by
      refine List.countP_mono_left fun c _ => ?_
      cases c.pc with
      | unlocking accepted | returned accepted =>
        cases accepted <;> simp [SubmitPc.accepted, SubmitPc.counted]
      | _ => simp [SubmitPc.accepted]
    omega
  · have hnodup := hcounts.nodup
    rw [inPlay, List.map_append] at hnodup
    exact (List.nodup_append.mp hnodup).1
  · exact fun sub hsub => hcounts.accepted sub (List.mem_append_left _ hsub)
  · intro hreturned hshutdown
    have hexited := hdrains.joined (by rw [hshutdown]; rfl)
    rw [held_eq_nil hexited, List.length_nil] at hlength
    -- a call that has returned was accepted or refused
    have hall : ∀ c ∈ s.submits, c.pc.counted = c.pc.accepted ∧ c.pc.refused = !c.pc.accepted := by
      intro c hc
      obtain ⟨accepted, hpc⟩ := hreturned c hc
      rw [hpc]
      cases accepted <;> exact ⟨rfl, rfl⟩
    have hcounted : s.submits.countP (·.pc.counted) = s.submits.countP (·.pc.accepted) :=
      List.countP_congr fun c hc => by rw [(hall c hc).1]
    have hrefused : s.submits.countP (·.pc.refused) = s.submits.countP (!·.pc.accepted) :=
      List.countP_congr fun c hc => by rw [(hall c hc).2]
    have htotal := List.length_eq_countP_add_countP (·.pc.accepted) (l := s.submits)
    have hdropped := hcounts.dropped
    refine ⟨?_, by omega, ?_⟩
    · simp only [Bool.not_eq_true, Bool.decide_eq_false] at htotal
      omega
    · intro hfired
      obtain ⟨pc, rest, hworkers⟩ := List.exists_cons_of_ne_nil hdrains.workers
      have hpc : pc ∈ s.workers := by simp [hworkers]
      rcases hdrains.exited (hexited pc hpc ▸ hpc) with hquit | hdrained
      · exact absurd (hdrains.quit hquit) (by simp [hfired])
      · exact hdrained.2

/-- In every interleaving of `Submit` calls, workers and a `Shutdown`, the accounts hold. -/
theorem run_accounted (enabled : Bool) (cfg : LogWorkerConfig) (events : List (LogEvent ε))
    {s : LogSystem ε} (hrun : run (newLogWorker enabled cfg) events = some s) : s.Accounted := by
  have hsound : s.Sound := runOption_inv step Sound (fun _ _ _ hstep h => h.step hstep) hrun
    (sound_newLogWorker enabled cfg)
  exact hsound.accounted

/-- A worker with a queue of one entry. The second `Submit` finds the queue full, and the
    third one comes while `Shutdown` waits for the worker. -/
def threeSubmits : List (LogEvent Nat) :=
  [.submit 7, .advance 0, .advance 0, .advance 0, .submit 8, .advance 1, .advance 1, .advance 1,
   .advance 0, .advance 1, .advance 0, .advance 1, .advance 1, .advance 1, .shutdown, .shutdown,
   .shutdown, .poll 0, .shutdown, .submit 9, .advance 2, .take 0, .advance 2, .advance 2,
   .write 0 true, .advance 2, .publish 0, .poll 0, .take 0, .shutdown, .shutdown]

theorem threeSubmits_accounted : ∃ s : LogSystem Nat,
    run (newLogWorker true ⟨1, 1⟩) threeSubmits = some s ∧ s.Accounted ∧
      (s.submits.length, s.submitted, s.dropped, s.written, s.shutdown) =
        (3, 1, 2, 1, .returned) := by
  obtain ⟨s, hs, hfields⟩ : ∃ s, run (newLogWorker true ⟨1, 1⟩) threeSubmits = some s ∧
      (s.submits.length, s.submitted, s.dropped, s.written, s.shutdown) =
        (3, 1, 2, 1, .returned) := by decide
  exact ⟨s, hs, run_accounted true ⟨1, 1⟩ threeSubmits hs, hfields⟩

end LogSystem

end MockAgents
