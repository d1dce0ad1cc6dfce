import MockAgents.Mcp.Streamable

/-!
# Resumed event streams

A client that reconnects with the largest event id it has received gets the later events of the
log. What it has ahead of it (on the wire, in the replay, in the channel) is then a run of
consecutive ids that ends at the session's last event. A broadcast that finds the channel full
leaves its event out, which is harmless while the channel stays full, or the client reconnects;
but as soon as the handler takes an event out of the channel, the next broadcast goes in behind
the gap, and the client receives it. Its last id is then past the gap, so no reconnect brings
the event back.
-/

namespace MockAgents

open List (mem_append mem_singleton)
open Option (bind_eq_some_iff map_eq_some_iff)

variable {δ : Type}

/-- The ids on their way to the client, in the order in which it gets them. -/
def GetStream.ahead (g : GetStream δ) : List Nat :=
  (g.wire ++ g.replay ++ g.ch.buf).map (·.id)

namespace Streaming

/-- The number of events since the client's first subscription that it has not received. -/
def behind (s : Streaming δ) : Nat :=
  match s.client.first with
  | none => 0
  | some first => s.session.nextID - max s.client.last first

/-- The client's stream, if its channel gets broadcasts. -/
def live (s : Streaming δ) : Option (GetStream δ) :=
  s.client.current.bind fun k => if k ∈ s.session.subs then s.session.streams[k]? else none

/-- The condition on a step: a broadcast finds no room in the channel of a stream for which an
    event was left out. -/
def Orderly (s : Streaming δ) : StreamingEvent δ → Prop
  | .broadcast (some _) =>
    ∀ g ∈ s.live, g.skipped = true → g.ch.buf.length = g.ch.cap
  | _ => True

instance (s : Streaming δ) (ev : StreamingEvent δ) : Decidable (s.Orderly ev) :=
  match ev with
  | .broadcast (some _) => inferInstanceAs (Decidable (∀ g ∈ s.live, _ → _))
  | .broadcast none | .connect | .receive | .disconnect | .get _ | .write _ | .finish _
  | .close => isTrue trivial

/-- What a client may rely on. -/
structure Resumes (s : Streaming δ) : Prop where
  /-- No id twice, and in order. -/
  increasing : s.client.received.Pairwise (· < ·)
  /-- Nothing is missing before an event that was received. -/
  no_gap : ∀ first, s.client.first = some first → ∀ id ∈ s.client.received,
    ∀ m, first < m → m < id → m ∈ s.client.received
  /-- Every event since the first subscription that is missing is on its way, if none was left
      out for the stream. -/
  on_the_way : ∀ g ∈ s.live, g.skipped = false → ∀ first, s.client.first = some first →
    ∀ m, first < m → m ≤ s.session.nextID → m ∉ s.client.received → m ∈ g.ahead
  /-- None is when it reconnects. -/
  reconnected : ∀ s', s.client.current = none → s.session.closed = false →
    s.session.subs.length < maxSubscribersPerSession → s.step .connect = some s' →
    ∃ g ∈ s'.live, g.skipped = false

end Streaming

/-! ## Ids ahead of a client -/

/-- Increasing ids after `last` up to `top`, which leave none out after `first`. -/
structure Ahead (first last top : Nat) (ids : List Nat) : Prop where
  increasing : ids.Pairwise (· < ·)
  bounds : ∀ m ∈ ids, last < m ∧ m ≤ top
  complete : ∀ m, first < m → last < m → m ≤ top → m ∈ ids

namespace Ahead

variable {first last top : Nat} {ids : List Nat}

theorem snoc (h : Ahead first last top ids) (hlast : last ≤ top) :
    Ahead first last (top + 1) (ids ++ [top + 1]) := by
  refine ⟨?_, ?_, ?_⟩
  · rw [List.pairwise_append]
    refine ⟨h.increasing, List.pairwise_singleton _ _, fun m hm m' hm' => ?_⟩
    have hle := (h.bounds m hm).2
    simp only [mem_singleton] at hm'
    omega
  · intro m hm
    simp only [mem_append, mem_singleton] at hm
    rcases hm with hm | rfl
    · have hbounds := h.bounds m hm
      omega
    · omega
  · intro m hfirst hlast htop
    simp only [mem_append, mem_singleton]
    by_cases hm : m = top + 1
    · exact .inr hm
    · exact .inl (h.complete m hfirst hlast (by omega))

variable {id : Nat}

theorem tail (h : Ahead first last top (id :: ids)) : Ahead first id top ids := by
  obtain ⟨hhead, htail⟩ := List.pairwise_cons.mp h.increasing
  have hid := h.bounds id (List.mem_cons_self ..)
  refine ⟨htail, fun m hm => ⟨hhead m hm, (h.bounds m (List.mem_cons_of_mem _ hm)).2⟩, ?_⟩
  intro m hfirst hm htop
  rcases List.mem_cons.mp (h.complete m hfirst (by omega) htop) with rfl | hmem
  · omega
  · exact hmem

theorem le_head (h : Ahead first last top (id :: ids)) {m : Nat} (hfirst : first < m)
    (hlast : last < m) (hm : m ≤ id) : m = id := by
  have hid := h.bounds id (List.mem_cons_self ..)
  rcases List.mem_cons.mp (h.complete m hfirst hlast (by omega)) with rfl | hmem
  · rfl
  · have hgt := (List.pairwise_cons.mp h.increasing).1 m hmem
    omega

end Ahead

/-! ## The log -/

structure LogWindow (cap n : Nat) (log : List (LoggedEvent δ)) : Prop where
  ids : log.map (·.id) = List.range' (n + 1 - log.length) log.length
  length : log.length = min n cap

namespace LogWindow

variable {cap n : Nat} {log : List (LoggedEvent δ)}

theorem snoc (h : LogWindow cap n log) {ev : LoggedEvent δ} (hev : ev.id = n + 1) :
    LogWindow cap (n + 1) ((log ++ [ev]).drop ((log ++ [ev]).length - cap)) := by
  have hlength := h.length
  have hstart : n + 1 - log.length + log.length = n + 1 := by omega
  have hids : (log ++ [ev]).map (·.id) = List.range' (n + 1 - log.length) (log.length + 1) := by
    rw [List.map_append, h.ids, List.range'_1_concat, hstart, List.map_singleton, hev]
  refine ⟨?_, ?_⟩
  · rw [List.map_drop, hids, List.drop_range', List.length_drop, List.length_append,
      List.length_singleton]
    congr 1
    omega
  · rw [List.length_drop, List.length_append, List.length_singleton]
    omega

theorem mem_ids (h : LogWindow cap n log) (m : Nat) :
    m ∈ log.map (·.id) ↔ 0 < m ∧ n < m + cap ∧ m ≤ n := by
  have hlength := h.length
  rw [h.ids, List.mem_range'_1]
  omega

theorem increasing (h : LogWindow cap n log) : log.Pairwise fun a b => a.id < b.id := by
  have hids : (log.map (·.id)).Pairwise (· < ·) := by
    rw [h.ids]
    exact List.pairwise_lt_range'
  exact List.pairwise_map.mp hids

/-- The replay of a client that is not more than the log behind. -/
theorem ahead_replay (h : LogWindow cap n log) {first last : Nat}
    (hbehind : n - max last first ≤ cap) :
    Ahead first last n ((log.filter fun ev => decide ((last : Int) < ev.id)).map (·.id)) := by
  refine ⟨?_, ?_, ?_⟩
  · rw [List.pairwise_map]
    exact h.increasing.filter _
  · intro m hm
    obtain ⟨ev, hev, rfl⟩ := List.mem_map.mp hm
    obtain ⟨hlog, hlast⟩ := List.mem_filter.mp hev
    have hle := (h.mem_ids ev.id).mp (List.mem_map_of_mem hlog)
    have hlast := of_decide_eq_true hlast
    omega
  · intro m hfirst hlast hle
    obtain ⟨ev, hev, rfl⟩ := List.mem_map.mp ((h.mem_ids m).mpr (by omega))
    refine List.mem_map_of_mem (List.mem_filter.mpr ⟨hev, decide_eq_true ?_⟩)
    omega

end LogWindow

/-- The log holds the last events, and the channels in the map are open. -/
structure StreamSession.Sound (s : StreamSession δ) : Prop where
  log : LogWindow maxSessionLogEvents s.nextID s.log
  subs_open : ∀ k ∈ s.subs, ∃ g, s.streams[k]? = some g ∧ g.ch.closed = false

namespace StreamSession

theorem forSubs_nextID (s : StreamSession δ) (f : GetStream δ → Option (GetStream δ)) :
    (s.forSubs f).nextID = s.nextID := rfl

theorem forSubs_log (s : StreamSession δ) (f : GetStream δ → Option (GetStream δ)) :
    (s.forSubs f).log = s.log := rfl

theorem getElem?_forSubs (s : StreamSession δ) (f : GetStream δ → Option (GetStream δ)) (k : Nat) :
    (s.forSubs f).streams[k]? =
      s.streams[k]?.map fun g => if k ∈ s.subs then (f g).getD g else g := by
  rw [forSubs, List.getElem?_mapIdx]

variable {g : GetStream δ}

theorem offer_closed (ev : LoggedEvent δ) (h : g.ch.closed = false) :
    ((g.offer ev).getD g).ch.closed = false := by
  rw [GetStream.offer]
  split
  · rename_i hsend
    exact (Chan.sent_of_trySend hsend).2.2.2.2
  · exact h
  · exact h

variable {s : StreamSession δ}

theorem Sound.broadcastNotification (h : s.Sound) (data : Option δ) :
    (s.broadcastNotification data).Sound := by
  cases data with
  | none => exact h
  | some data =>
    rw [StreamSession.broadcastNotification]
    split
    · exact h
    · have hlog := h.log.snoc (show (⟨s.nextID + 1, data⟩ : LoggedEvent δ).id = _ from rfl)
      refine ⟨by simpa only [forSubs_nextID, forSubs_log] using hlog, fun k hk => ?_⟩
      obtain ⟨g, hg, hopen⟩ := h.subs_open k hk
      refine ⟨_, ?_, offer_closed ⟨s.nextID + 1, data⟩ hopen⟩
      rw [getElem?_forSubs]
      simp only [hg, Option.map_some, if_pos (show k ∈ s.subs from hk)]

variable {s' : StreamSession δ} {after : Int}

theorem subscribe_cases (hs' : s.subscribe after = some s') :
    (s.closed = true ∧ ∃ g : GetStream δ, g.ahead = [] ∧
      s' = { s with streams := s.streams ++ [g] }) ∨
    (s.closed = false ∧ s' = { s with
      streams := s.streams ++ [
        { ch := Chan.make _ subscriberChanBuffer
          replay := s.log.filter fun ev => decide (after < ev.id) }]
      subs := s.subs ++ [s.streams.length] }) := by
  revert hs'
  fun_cases StreamSession.subscribe s after <;> intro hs' <;> cases hs'
  · exact .inl ⟨‹_›, _, rfl, rfl⟩
  · rename_i hclosed _
    exact .inr ⟨by simpa using hclosed, rfl⟩

theorem Sound.subscribe (h : s.Sound) (hs' : s.subscribe after = some s') : s'.Sound := by
  have hold : ∀ k ∈ s.subs, ∀ new, ∃ g, (s.streams ++ [new])[k]? = some g ∧
      g.ch.closed = false := by
    intro k hk new
    obtain ⟨g, hg, hopen⟩ := h.subs_open k hk
    exact ⟨g, List.getElem?_append_of_some hg, hopen⟩
  rcases subscribe_cases hs' with ⟨_, g, _, rfl⟩ | ⟨_, rfl⟩
  · exact ⟨h.log, fun k hk => hold k hk g⟩
  · refine ⟨h.log, List.forall_mem_append.mpr ⟨fun k hk => hold k hk _, ?_⟩⟩
    exact List.forall_mem_singleton.mpr ⟨_, List.getElem?_concat_length, rfl⟩

theorem Sound.set (h : s.Sound) {k : Nat} {g' : GetStream δ} (hg : s.streams[k]? = some g)
    (hstreams : s'.streams = s.streams.set k g') (hsubs : s'.subs ⊆ s.subs)
    (hlog : s'.log = s.log) (hnext : s'.nextID = s.nextID) (hclosed : g'.ch.closed = g.ch.closed) :
    s'.Sound := by
  refine ⟨by rw [hlog, hnext]; exact h.log, fun j hj => ?_⟩
  obtain ⟨e, he, hopen⟩ := h.subs_open j (hsubs hj)
  rw [hstreams]
  by_cases hk : k = j
  · subst hk
    cases hg.symm.trans he
    exact ⟨g', List.getElem?_set_self (List.getElem?_eq_some_iff.mp hg).1, hclosed.trans hopen⟩
  · exact ⟨e, (List.getElem?_set_ne hk).trans he, hopen⟩

theorem Sound.length_not_mem (h : s.Sound) : s.streams.length ∉ s.subs := by
  intro hmem
  obtain ⟨g, hg, _⟩ := h.subs_open _ hmem
  exact absurd (List.getElem?_eq_some_iff.mp hg).1 (Nat.lt_irrefl _)

theorem Sound.close (h : s.Sound) : s.close.Sound := by
  rw [StreamSession.close]
  split
  · exact h
  · exact ⟨h.log, by simp⟩

end StreamSession

/-- The handler moves an event from one place to the next. -/
theorem GetStream.ahead_write {g g' : GetStream δ} (h : g.write = some g') :
    g'.ahead = g.ahead ∧ g'.ch.closed = g.ch.closed ∧ g'.skipped = g.skipped := by
  revert h
  fun_cases GetStream.write g <;> intro h <;> cases h
  · simp [GetStream.ahead, *]
  · rename_i hreplay ev ch hvalue
    obtain ⟨hbuf, _, hclosed⟩ := Chan.value_of_receive hvalue
    simp [GetStream.ahead, hreplay, hbuf, hclosed]
  · exact ⟨rfl, rfl, rfl⟩

/-! ## The client -/

namespace Streaming

/-- The stream of a client that first subscribed after `first` events: nothing is left out up to
    `top`, and `top` is the last event of the session while none was left out. -/
structure Tracks (s : Streaming δ) (k : Nat) (g : GetStream δ) (first top : Nat) : Prop where
  ahead : Ahead first s.client.last top g.ahead
  top_le : top ≤ s.session.nextID
  live_le : k ∈ s.session.subs → first ≤ top ∧ s.client.last ≤ top
  live_complete : k ∈ s.session.subs → g.skipped = false → top = s.session.nextID
  live_skipped : k ∈ s.session.subs → g.skipped = true → top < s.session.nextID

/-- The state between steps. -/
structure Sound (s : Streaming δ) : Prop where
  session : s.session.Sound
  increasing : s.client.received.Pairwise (· < ·)
  le_last : ∀ m ∈ s.client.received, m ≤ s.client.last
  no_gap : ∀ first, s.client.first = some first →
    ∀ m, first < m → m ≤ s.client.last → m ∈ s.client.received
  last_le : s.client.last ≤ s.session.nextID
  first_le : ∀ first, s.client.first = some first → first ≤ s.session.nextID
  unsubscribed : s.client.first = none → s.client.current = none
  current_lt : ∀ k, s.client.current = some k → k < s.session.streams.length
  tracks : ∀ first, s.client.first = some first → ∀ k, s.client.current = some k →
    ∀ g, s.session.streams[k]? = some g → ∃ top, s.Tracks k g first top

variable {s : Streaming δ} {session : StreamSession δ}

theorem Sound.of_session (h : s.Sound) (hsession : session.Sound)
    (hnext : s.session.nextID ≤ session.nextID)
    (hlength : s.session.streams.length ≤ session.streams.length)
    (htracks : ∀ first k g', s.client.current = some k → session.streams[k]? = some g' →
      ∃ g, s.session.streams[k]? = some g ∧ ∀ top, s.Tracks k g first top →
        ∃ top', Tracks { s with session := session } k g' first top') :
    Sound { s with session := session } := by
  refine ⟨hsession, h.increasing, h.le_last, h.no_gap, Nat.le_trans h.last_le hnext,
    fun first hfirst => Nat.le_trans (h.first_le first hfirst) hnext, h.unsubscribed,
    fun k hk => Nat.lt_of_lt_of_le (h.current_lt k hk) hlength, ?_⟩
  intro first hfirst k hk g' hg'
  obtain ⟨g, hg, hmoved⟩ := htracks first k g' hk hg'
  obtain ⟨top, htop⟩ := h.tracks first hfirst k hk g hg
  exact hmoved top htop

/-! ## Broadcasts -/

variable {k first top : Nat} {g : GetStream δ}

theorem Tracks.offer {data : δ} (h : s.Tracks k g first top) (hk : k ∈ s.session.subs)
    (hopen : g.ch.closed = false) (horderly : g.skipped = true → g.ch.buf.length = g.ch.cap)
    (hnext : session.nextID = s.session.nextID + 1) : ∃ top', Tracks { s with session := session } k
      ((g.offer ⟨s.session.nextID + 1, data⟩).getD g) first top' := by
  obtain ⟨hfirst, hlast⟩ := h.live_le hk
  rw [GetStream.offer]
  split
  · rename_i ch hsend
    obtain ⟨_, hroom, hbuf, hcap, _⟩ := Chan.sent_of_trySend hsend
    -- there is room, so none was left out before
    have hskipped : g.skipped = false := by
      by_contra hskipped
      have hfull := horderly (by simpa using hskipped)
      omega
    have htop := h.live_complete hk hskipped
    refine ⟨top + 1, ?_, by simp only [hnext]; omega, fun _ => by simp only; omega,
      fun _ _ => by simp only [hnext]; omega, fun _ hskipped' => ?_⟩
    · have hahead : GetStream.ahead { g with ch := ch } = g.ahead ++ [top + 1] := by
        simp [GetStream.ahead, hbuf, htop]
      simp only [Option.getD_some, hahead]
      exact h.ahead.snoc hlast
    · exact absurd hskipped (by simpa using hskipped')
  · have hle := h.top_le
    refine ⟨top, h.ahead, by simp only [hnext]; omega, fun _ => ⟨hfirst, hlast⟩, ?_,
      fun _ _ => by simp only [hnext]; omega⟩
    simp
  · rename_i hpanic
    exact absurd (Chan.closed_of_trySend hpanic) (by simp [hopen])

theorem Tracks.later (h : s.Tracks k g first top) (hnext : s.session.nextID ≤ session.nextID)
    (hk : k ∉ session.subs) : Tracks { s with session := session } k g first top :=
  ⟨h.ahead, Nat.le_trans h.top_le hnext, fun hk' => absurd hk' hk, fun hk' => absurd hk' hk,
    fun hk' => absurd hk' hk⟩

theorem Sound.broadcast (h : s.Sound) {data : Option δ} (horderly : s.Orderly (.broadcast data)) :
    Sound { s with session := s.session.broadcastNotification data } := by
  have hsession := h.session.broadcastNotification data
  cases data with
  | none => exact h
  | some data =>
    rw [StreamSession.broadcastNotification] at hsession ⊢
    split at hsession
    · rename_i hclosed
      rw [if_pos hclosed]
      exact h
    · rename_i hclosed
      rw [if_neg hclosed]
      refine h.of_session hsession (Nat.le_succ _) (by simp [StreamSession.forSubs])
        fun first k g' hk hg' => ?_
      rw [StreamSession.getElem?_forSubs] at hg'
      obtain ⟨g, hg, hg'⟩ := map_eq_some_iff.mp hg'
      refine ⟨g, hg, fun top htop => ?_⟩
      split at hg'
      · rename_i hmem
        obtain ⟨g₀, hg₀, hopen⟩ := h.session.subs_open k hmem
        cases hg.symm.trans hg₀
        have hlive : g ∈ s.live := by simp [live, hk, show k ∈ s.session.subs from hmem, hg]
        subst hg'
        exact htop.offer hmem hopen (horderly g hlive) rfl
      · rename_i hmem
        subst hg'
        exact ⟨top, htop.later (Nat.le_succ _) hmem⟩

/-! ## Handlers and other streams -/

variable {g' : GetStream δ}

/-- Nothing changes for the client. -/
theorem Tracks.congr (h : s.Tracks k g first top) (hahead : g'.ahead = g.ahead)
    (hskipped : g'.skipped = g.skipped) (hnext : session.nextID = s.session.nextID)
    (hsubs : k ∈ session.subs → k ∈ s.session.subs) :
    Tracks { s with session := session } k g' first top := by
  refine ⟨?_, ?_, fun hk => h.live_le (hsubs hk), fun hk => ?_, fun hk => ?_⟩
  · rw [hahead]
    exact h.ahead
  · simpa only [hnext] using h.top_le
  · simpa only [hskipped, hnext] using h.live_complete (hsubs hk)
  · simpa only [hskipped, hnext] using h.live_skipped (hsubs hk)

theorem Sound.set (h : s.Sound) {subs : List Nat} (hg : s.session.streams[k]? = some g)
    (hsubs : subs ⊆ s.session.subs) (hahead : g'.ahead = g.ahead)
    (hskipped : g'.skipped = g.skipped) (hclosed : g'.ch.closed = g.ch.closed) :
    Sound { s with
      session := { s.session with streams := s.session.streams.set k g', subs := subs } } := by
  refine h.of_session (h.session.set hg rfl hsubs rfl rfl hclosed) (Nat.le_refl _)
    (by simp) ?_
  intro first j e he hj
  rcases List.getElem?_set_cases hj with ⟨rfl, rfl⟩ | ⟨_, hj⟩
  · exact ⟨g, hg, fun top htop => ⟨top, htop.congr hahead hskipped rfl (hsubs ·)⟩⟩
  · exact ⟨e, hj, fun top htop => ⟨top, htop.congr rfl rfl rfl (hsubs ·)⟩⟩

theorem Sound.close (h : s.Sound) : Sound { s with session := s.session.close } := by
  have hsession := h.session.close
  rw [StreamSession.close] at hsession ⊢
  split at hsession
  · rename_i hclosed
    rw [if_pos hclosed]
    exact h
  · rename_i hclosed
    rw [if_neg hclosed]
    refine h.of_session hsession (Nat.le_refl _) (by simp [StreamSession.forSubs])
      fun first k g' hk hg' => ?_
    simp only [StreamSession.getElem?_forSubs] at hg'
    obtain ⟨g, hg, hg'⟩ := map_eq_some_iff.mp hg'
    refine ⟨g, hg, fun top htop => ⟨top, ?_⟩⟩
    have hsame : g'.ahead = g.ahead ∧ g'.skipped = g.skipped := by
      subst hg'
      split
      · cases hclose : g.ch.close with
        | none => exact ⟨rfl, rfl⟩
        | some ch => simp [GetStream.ahead, (Chan.eq_of_close hclose).2.1]
      · exact ⟨rfl, rfl⟩
    exact htop.congr hsame.1 hsame.2 rfl (by simp)

variable {after : Int}

/-- Someone else's stream. -/
theorem Sound.get (h : s.Sound) (hsession : s.session.subscribe after = some session) :
    Sound { s with session := session } := by
  have hsound := h.session.subscribe hsession
  have hother : ∀ k, s.client.current = some k → k ≠ s.session.streams.length :=
    fun k hk => Nat.ne_of_lt (h.current_lt k hk)
  rcases StreamSession.subscribe_cases hsession with ⟨_, g, _, rfl⟩ | ⟨_, rfl⟩
  · refine h.of_session hsound (Nat.le_refl _) (by simp) fun first k g' hk hg' => ?_
    rcases List.getElem?_snoc_cases hg' with ⟨hlast, _⟩ | hg'
    · exact absurd hlast (hother k hk)
    · exact ⟨g', hg', fun top htop => ⟨top, htop.congr rfl rfl rfl id⟩⟩
  · refine h.of_session hsound (Nat.le_refl _) (by simp) fun first k g' hk hg' => ?_
    rcases List.getElem?_snoc_cases hg' with ⟨hlast, _⟩ | hg'
    · exact absurd hlast (hother k hk)
    · refine ⟨g', hg', fun top htop => ⟨top, htop.congr rfl rfl rfl fun hk' => ?_⟩⟩
      simpa [hother k hk] using hk'

/-! ## Steps of the client -/

theorem Sound.getD_first_le (h : s.Sound) :
    s.client.first.getD s.session.nextID ≤ s.session.nextID := by
  cases hfirst : s.client.first with
  | none => exact Nat.le_refl _
  | some first => exact h.first_le first hfirst

theorem behind_eq (s : Streaming δ) :
    s.behind = s.session.nextID - max s.client.last (s.client.first.getD s.session.nextID) := by
  rw [behind]
  cases s.client.first with
  | none =>
    simp only [Option.getD_none]
    omega
  | some first => rfl

/-- The state after a GET of the client that was not refused. -/
def connected (s : Streaming δ) (session : StreamSession δ) : Streaming δ :=
  { s with
    session := session
    client := { s.client with
      first := some (s.client.first.getD s.session.nextID)
      current := some s.session.streams.length } }

theorem Sound.tracks_connected (h : s.Sound)
    (hsession : s.session.subscribe s.client.last = some session)
    (hbehind : s.behind ≤ maxSessionLogEvents)
    (hg : session.streams[s.session.streams.length]? = some g) :
    ∃ top, (s.connected session).Tracks s.session.streams.length g
      (s.client.first.getD s.session.nextID) top := by
  have hlast := h.last_le
  rcases StreamSession.subscribe_cases hsession with ⟨_, g', hahead, rfl⟩ | ⟨_, rfl⟩
  · cases List.getElem?_concat_length.symm.trans hg
    have hlive := h.session.length_not_mem
    refine ⟨s.client.last, ?_, hlast, fun hk => absurd hk hlive, fun hk => absurd hk hlive,
      fun hk => absurd hk hlive⟩
    rw [hahead]
    refine ⟨List.Pairwise.nil, by simp, fun m _ hm hm' => ?_⟩
    simp only [connected] at hm
    omega
  · cases List.getElem?_concat_length.symm.trans hg
    have hahead := h.session.log.ahead_replay (s.behind_eq ▸ hbehind)
    refine ⟨s.session.nextID, ?_, Nat.le_refl _, fun _ => ⟨h.getD_first_le, hlast⟩,
      fun _ _ => rfl, nofun⟩
    simpa [GetStream.ahead, connected] using hahead

theorem Sound.connect (h : s.Sound) (hsession : s.session.subscribe s.client.last = some session)
    (hbehind : s.behind ≤ maxSessionLogEvents) : (s.connected session).Sound := by
  have hnext : session.nextID = s.session.nextID := by
    rcases StreamSession.subscribe_cases hsession with ⟨_, _, _, rfl⟩ | ⟨_, rfl⟩ <;> rfl
  have hlength : session.streams.length = s.session.streams.length + 1 := by
    rcases StreamSession.subscribe_cases hsession with ⟨_, _, _, rfl⟩ | ⟨_, rfl⟩ <;> simp
  have hlast := h.last_le
  refine ⟨h.session.subscribe hsession, h.increasing, h.le_last, ?_, by simpa [connected, hnext],
    ?_, (nomatch ·), ?_, ?_⟩
  · intro first hfirst m hm hle
    cases hold : s.client.first with
    | none =>
      -- nothing was broadcast before the first subscription that it must have received
      simp only [connected, hold, Option.getD_none, Option.some.injEq] at hfirst hle
      omega
    | some first' =>
      simp only [connected, hold, Option.getD_some, Option.some.injEq] at hfirst
      exact h.no_gap first' hold m (by omega) hle
  · intro first hfirst
    cases hfirst
    simpa [connected, hnext] using h.getD_first_le
  · intro k hk
    cases hk
    simp [connected, hlength]
  · intro first hfirst k hk g hg
    cases hfirst
    cases hk
    exact h.tracks_connected hsession hbehind hg

variable {s' : Streaming δ}

theorem Sound.receive (h : s.Sound) (hk : s.client.current = some k)
    (hg : s.session.streams[k]? = some g) (hs' : s.receive k g = some s') : s'.Sound := by
  revert hs'
  fun_cases Streaming.receive s k g <;> intro hs' <;> cases hs'
  · -- the next event on the wire is newer than all that the client has
    rename_i ev wire hwire
    obtain ⟨first, hfirst⟩ : ∃ first, s.client.first = some first := by
      cases hfirst : s.client.first with
      | none => exact nomatch (h.unsubscribed hfirst).symm.trans hk
      | some first => exact ⟨first, rfl⟩
    obtain ⟨top, htop⟩ := h.tracks first hfirst k hk g hg
    have hcons : g.ahead = ev.id :: GetStream.ahead { g with wire := wire } := by
      simp [GetStream.ahead, hwire]
    have hahead := htop.ahead
    rw [hcons] at hahead
    have hid := hahead.bounds ev.id (List.mem_cons_self ..)
    have hmax : max s.client.last ev.id = ev.id := by omega
    have hle := htop.top_le
    refine ⟨h.session.set hg rfl (List.Subset.refl _) rfl rfl rfl, ?_, ?_, ?_, ?_, h.first_le,
      h.unsubscribed, ?_, ?_⟩
    · simp only [List.pairwise_append, List.pairwise_singleton, mem_singleton]
      refine ⟨h.increasing, trivial, fun m hm m' hm' => ?_⟩
      have hlast := h.le_last m hm
      omega
    · intro m hm
      simp only [mem_append, mem_singleton] at hm
      simp only
      rcases hm with hm | rfl
      · have hlast := h.le_last m hm
        omega
      · omega
    · -- up to the old last id nothing was missing, and only the event lies above it
      intro first' hfirst' m hm hlast
      cases hfirst.symm.trans hfirst'
      simp only [mem_append, mem_singleton]
      by_cases hold : m ≤ s.client.last
      · exact .inl (h.no_gap first hfirst m hm hold)
      · refine .inr (hahead.le_head hm (by omega) ?_)
        simp only at hlast
        omega
    · simp only [setStream]
      omega
    · intro j hj
      simpa [setStream] using h.current_lt j hj
    · intro first' hfirst' k' hk' g' hg'
      cases hfirst.symm.trans hfirst'
      cases hk.symm.trans hk'
      have hself := List.getElem?_set_self (a := { g with wire := wire })
        (List.getElem?_eq_some_iff.mp hg).1
      cases hself.symm.trans hg'
      refine ⟨top, ?_, hle, fun hlive => ?_, htop.live_complete, htop.live_skipped⟩
      · simp only [hmax]
        exact hahead.tail
      · have hfirst_le := (htop.live_le hlive).1
        simp only
        omega

/-! ## Every run -/

theorem sound_of_step {ev : StreamingEvent δ} (h : s.Sound)
    (hbehind : s.behind ≤ maxSessionLogEvents) (horderly : s.Orderly ev)
    (hstep : s.step ev = some s') : s'.Sound := by
  revert horderly hstep
  fun_cases step s ev <;> intro horderly hstep <;> try cases hstep
  · exact h.broadcast horderly
  · exact h
  · exact h.connect ‹_› hbehind
  · obtain ⟨k, hk, hstep⟩ := bind_eq_some_iff.mp hstep
    obtain ⟨g, hg, hstep⟩ := bind_eq_some_iff.mp hstep
    exact h.receive hk hg hstep
  · exact ⟨h.session, h.increasing, h.le_last, h.no_gap, h.last_le, h.first_le, fun _ => rfl,
      fun _ => (nomatch ·), fun _ _ _ => (nomatch ·)⟩
  · exact h
  · exact h.get ‹_›
  · obtain ⟨g, hg, hstep⟩ := bind_eq_some_iff.mp hstep
    obtain ⟨g', hg', rfl⟩ := map_eq_some_iff.mp hstep
    obtain ⟨hahead, hclosed, hskipped⟩ := GetStream.ahead_write hg'
    exact h.set hg (List.Subset.refl _) hahead hskipped hclosed
  · obtain ⟨g, hg, rfl⟩ := map_eq_some_iff.mp hstep
    exact h.set hg (fun j hj => (List.mem_filter.mp hj).1) rfl rfl rfl
  · exact h.close

theorem mem_live :
    g ∈ s.live ↔ ∃ k, s.client.current = some k ∧ k ∈ s.session.subs ∧
      s.session.streams[k]? = some g := by
  simp [live, bind_eq_some_iff]

theorem Sound.resumes (h : s.Sound) : s.Resumes := by
  refine ⟨h.increasing, ?_, ?_, ?_⟩
  · intro first hfirst id hid m hm hlt
    have hlast := h.le_last id hid
    exact h.no_gap first hfirst m hm (by omega)
  · intro g hg hskipped first hfirst m hm hle hmissing
    obtain ⟨k, hk, hmem, hg⟩ := mem_live.mp hg
    obtain ⟨top, htop⟩ := h.tracks first hfirst k hk g hg
    have hcomplete := htop.live_complete hmem hskipped
    have hlast : s.client.last < m := by
      by_contra hlast
      exact hmissing (h.no_gap first hfirst m hm (by omega))
    exact htop.ahead.complete m hm hlast (by omega)
  · intro s' hcurrent hopen hroom hstep
    simp only [step, hcurrent, StreamSession.subscribe, hopen, Bool.false_eq_true, if_false,
      if_neg (Nat.not_le_of_lt hroom)] at hstep
    cases hstep
    exact ⟨_, mem_live.mpr ⟨s.session.streams.length, rfl,
      List.mem_append_right _ (mem_singleton.mpr rfl), List.getElem?_concat_length⟩, rfl⟩

theorem sound_init : ({} : Streaming δ).Sound := by
  exact ⟨⟨⟨rfl, rfl⟩, by simp⟩, List.Pairwise.nil, by simp, fun _ => (nomatch ·), Nat.le_refl _,
    fun _ => (nomatch ·), fun _ => rfl, fun _ => (nomatch ·), fun _ => (nomatch ·)⟩

/-- In every run in which the client is never more than the log behind, and no event goes into
    its channel after one was left out, the client's events have no gaps. -/
theorem resumes_of_allSteps (events : List (StreamingEvent δ))
    (hsteps : AllSteps step (fun s ev => s.behind ≤ maxSessionLogEvents ∧ s.Orderly ev)
      ({} : Streaming δ) events) {s : Streaming δ} (hrun : run {} events = some s) :
    s.Resumes := by
  have hsound : s.Sound := runOption_inv_of_allSteps step _ Sound
    (fun s ev s' hcond hstep h => sound_of_step h hcond.1 hcond.2 hstep) hsteps hrun sound_init
  exact hsound.resumes

/-- A slow client: the channel fills up and two events are left out; it disconnects before it has
    read everything, and gets them when it reconnects. -/
def slowClient : List (StreamingEvent Unit) :=
  .broadcast (some ()) :: .connect :: .write 0 :: .receive ::
    (List.replicate 66 (.broadcast (some ())) ++
      [.write 0, .receive, .disconnect, .finish 0, .connect, .write 1, .receive])

theorem slowClient_resumes : ∃ s : Streaming Unit, run {} slowClient = some s ∧ s.Resumes ∧
    s.client.received = [1, 2, 3] ∧ s.session.nextID = 67 ∧
      s.live.map (·.ahead) = some (List.range' 4 64) := by
  obtain ⟨s, hs, hfields⟩ : ∃ s, run {} slowClient = some s ∧ s.client.received = [1, 2, 3] ∧
      s.session.nextID = 67 ∧ s.live.map (·.ahead) = some (List.range' 4 64) := by decide +kernel
  exact ⟨s, hs, resumes_of_allSteps slowClient (by decide +kernel) hs, hfields⟩

/-- The channel fills up, event 65 is left out, and the handler takes one event out of the
    channel before the next broadcast. The client reads everything and reconnects. -/
def drainedChannel : List (StreamingEvent Unit) :=
  .connect :: (List.replicate 65 (.broadcast (some ())) ++ .write 0 :: .broadcast (some ()) ::
    (List.replicate 64 (.write 0) ++ List.replicate 65 .receive ++ [.disconnect, .connect]))

/-- An event that is lost. -/
theorem drainedChannel_not_resumes :
    AllSteps step (fun s _ => s.behind ≤ maxSessionLogEvents) ({} : Streaming Unit)
      drainedChannel ∧
    ∃ s : Streaming Unit, run {} drainedChannel = some s ∧
      s.client.received = List.range' 1 64 ++ [66] ∧ s.client.first = some 0 ∧
      s.live.map (·.ahead) = some [] ∧ ¬ s.Resumes := by
  obtain ⟨s, hs, hreceived, hfirst, hahead⟩ : ∃ s, run {} drainedChannel = some s ∧
      s.client.received = List.range' 1 64 ++ [66] ∧ s.client.first = some 0 ∧
      s.live.map (·.ahead) = some [] := by decide +kernel
  refine ⟨by decide +kernel, s, hs, hreceived, hfirst, hahead, fun h => ?_⟩
  -- event 66 was received, event 65 was not
  have hmissing := h.no_gap 0 hfirst 66 (by rw [hreceived]; decide) 65 (by decide) (by decide)
  rw [hreceived] at hmissing
  exact absurd hmissing (by decide)

end Streaming

end MockAgents

