import MockAgents.Mcp.Bidirectional

/-!
# Requests and their responses

A `SendRequest` call stands in `pending` from its registration until its clean-up, or until a
`DeliverResponse` call took it out. Ids are never issued twice, so an id leads to one call, and
once it was taken out, or cleaned up, no later delivery finds it.
-/

namespace MockAgents

open Option (bind_eq_some_iff map_eq_some_iff)
open List (getElem?_set_cases getElem?_set_self getElem?_snoc_cases)
open Decimal (natText)

variable {μ ρ : Type}

/-- How far a call is: 0 before `newServerID`, 1 before `registerPending`, 2 until its clean-up,
    3 once it has returned. -/
def SendPc.stage : SendPc ρ → Nat
  | .issuing => 0
  | .encoding | .registering => 1
  | .queueing | .waiting | .cleaning _ => 2
  | .returned _ => 3

namespace SendCall

/-- The responses that a call holds: in its channel, or as its result. -/
def held (c : SendCall μ ρ) : List (ClientReply ρ) :=
  match c.pc with
  | .cleaning (.ok resp) | .returned (.ok resp) => c.ch.buf ++ [resp]
  | _ => c.ch.buf

theorem key_inj {c c' : SendCall μ ρ} (h : c.key = c'.key) : c.id = c'.id := by
  rw [← Decimal.natValue_natText c.id, ← Decimal.natValue_natText c'.id]
  exact congrArg _ h

end SendCall

/-- The call that a delivery found. -/
def DeliverPc.target : DeliverPc → Option Nat
  | .sending i | .succeeded i => some i
  | .looking | .failed => none

namespace Bidirectional

/-! ## Steps -/

/-- What a step can do to the calls. A `move` is a step of one call that neither issues its id,
    nor touches `pending`. -/
inductive Steps (s : Bidirectional μ ρ) : Bidirectional μ ρ → Prop
  | outbox (o : Outbox μ) : Steps s { s with outbox := o }
  | call (payload : μ) (encodable : Bool) :
    Steps s { s with sends := s.sends ++ [{ payload := payload, encodable := encodable }] }
  | issue {i : Nat} {c : SendCall μ ρ} (hc : s.sends[i]? = some c) (hpc : c.pc = .issuing) :
    Steps s ({ s with nextID := s.nextID + 1 }.setSend i
      { c with id := s.nextID + 1, pc := .encoding })
  | move {i : Nat} {c c' : SendCall μ ρ} (o : Outbox μ) (hc : s.sends[i]? = some c)
      (hid : c'.id = c.id)
      (hstage : c'.pc.stage = c.pc.stage ∨ (c.pc.stage = 1 ∧ c'.pc.stage = 3))
      (hch : c'.ch.closed = c.ch.closed ∧ c'.ch.cap = c.ch.cap) (hheld : c'.held ⊆ c.held) :
    Steps s ({ s with outbox := o }.setSend i c')
  | register {i : Nat} {c : SendCall μ ρ} (hc : s.sends[i]? = some c) (hpc : c.pc = .registering) :
    Steps s ({ s with pending := s.pending.insert c.key i }.setSend i
      { c with ch := Chan.make _ 1, pc := .queueing })
  | clean {i : Nat} {c : SendCall μ ρ} {result : Except SendError (ClientReply ρ)}
      (hc : s.sends[i]? = some c) (hpc : c.pc = .cleaning result) :
    Steps s ({ s with pending := s.pending.erase c.key }.setSend i
      { c with pc := .returned result })
  | deliver (resp : ClientReply ρ) (pc : DeliverPc) (hpc : pc = .looking ∨ pc = .failed) :
    Steps s { s with delivers := s.delivers ++ [⟨resp, pc⟩] }
  | miss {j : Nat} {d : DeliverCall ρ} (hd : s.delivers[j]? = some d) (hpc : d.pc = .looking)
      (hnone : s.pending.lookup d.resp.id = none) :
    Steps s (s.moveDeliver j d .failed)
  | hit {j i : Nat} {d : DeliverCall ρ} (hd : s.delivers[j]? = some d) (hpc : d.pc = .looking)
      (hsome : s.pending.lookup d.resp.id = some i) :
    Steps s ({ s with pending := s.pending.erase d.resp.id }.moveDeliver j d (.sending i))
  | hand {j i : Nat} {d : DeliverCall ρ} {c : SendCall μ ρ} {ch : Chan (ClientReply ρ)}
      (hd : s.delivers[j]? = some d) (hpc : d.pc = .sending i) (hc : s.sends[i]? = some c)
      (hsend : c.ch.trySend d.resp = .sent ch) :
    Steps s ((s.setSend i { c with ch := ch }).moveDeliver j d (.succeeded i))
  | panic {i : Nat} {d : DeliverCall ρ} {c : SendCall μ ρ} (hc : s.sends[i]? = some c)
      (hsend : c.ch.trySend d.resp = .panic) :
    Steps s { s with panicked := true }

variable {s s' : Bidirectional μ ρ} {i : Nat} {c : SendCall μ ρ}

theorem steps_of_advance (hc : s.sends[i]? = some c) (h : s.advance i c = some s') :
    Steps s s' := by
  revert h
  fun_cases advance s i c <;> intro h <;> cases h
  · exact .issue hc ‹_›
  · rename_i hpc _
    exact .move s.outbox hc rfl (.inl (by rw [hpc]; rfl)) ⟨rfl, rfl⟩ (by simp [SendCall.held, hpc])
  · rename_i hpc _
    exact .move s.outbox hc rfl (.inr ⟨by rw [hpc]; rfl, rfl⟩) ⟨rfl, rfl⟩
      (by simp [SendCall.held, hpc])
  · exact .register hc ‹_›
  · rename_i hpc
    exact .move _ hc rfl (.inl (by rw [hpc]; rfl)) ⟨rfl, rfl⟩ (by simp [SendCall.held, hpc])
  · exact .clean hc ‹_›

variable {j : Nat} {d : DeliverCall ρ}

theorem steps_of_advanceDeliver (hd : s.delivers[j]? = some d)
    (h : s.advanceDeliver j d = some s') : Steps s s' := by
  revert h
  fun_cases advanceDeliver s j d <;> intro h <;> cases h
  · exact .miss hd ‹_› ‹_›
  · exact .hit hd ‹_› ‹_›
  · exact .hand hd ‹_› ‹_› ‹_›
  · exact .panic ‹_› ‹_›

theorem steps_of_step {ev : BidiEvent μ ρ} (h : s.step ev = some s') : Steps s s' := by
  cases ev with
  | send payload encodable =>
    cases h
    exact .call payload encodable
  | advance i =>
    obtain ⟨c, hc, hadvance⟩ := bind_eq_some_iff.mp h
    exact steps_of_advance hc hadvance
  | reply i =>
    obtain ⟨c, hc, hreply⟩ := bind_eq_some_iff.mp h
    split at hreply
    · rename_i hpc hvalue
      cases hreply
      obtain ⟨hbuf, hcap, hclosed⟩ := Chan.value_of_receive hvalue
      exact .move s.outbox hc rfl (.inl (by rw [hpc]; rfl)) ⟨hclosed, hcap⟩
        (by simp [SendCall.held, hpc, hbuf])
    · cases hreply
  | expire i =>
    obtain ⟨c, hc, hexpire⟩ := bind_eq_some_iff.mp h
    split at hexpire
    · rename_i hpc _
      cases hexpire
      exact .move s.outbox hc rfl (.inl (by rw [hpc]; rfl)) ⟨rfl, rfl⟩
        (by simp [SendCall.held, hpc])
    · cases hexpire
  | cancelCtx i =>
    obtain ⟨c, hc, rfl⟩ := map_eq_some_iff.mp h
    exact .move s.outbox hc rfl (.inl rfl) ⟨rfl, rfl⟩ (List.Subset.refl _)
  | deliver resp =>
    cases h
    refine .deliver resp _ ?_
    split
    · exact .inr rfl
    · exact .inl rfl
  | advanceDeliver j =>
    obtain ⟨d, hd, hadvance⟩ := bind_eq_some_iff.mp h
    exact steps_of_advanceDeliver hd hadvance
  | notify payload | subscribe buffer =>
    cases h
    exact .outbox _
  | receive k =>
    obtain ⟨sub, _, hrecv⟩ := bind_eq_some_iff.mp h
    obtain ⟨o, _, rfl⟩ := map_eq_some_iff.mp hrecv
    exact .outbox o
  | cancel k =>
    obtain ⟨sub, _, rfl⟩ := map_eq_some_iff.mp h
    exact .outbox _

/-- A call keeps its id, once it has one, and goes on. -/
theorem Steps.call_mono (h : Steps s s') (hc : s.sends[i]? = some c) (hissued : 0 < c.pc.stage) :
    ∃ c', s'.sends[i]? = some c' ∧ c'.key = c.key ∧ c.pc.stage ≤ c'.pc.stage := by
  -- one call moves; the others are untouched
  have hset : ∀ {i' : Nat} {c₀ c₁ : SendCall μ ρ}, s.sends[i']? = some c₀ →
      (0 < c₀.pc.stage → c₁.key = c₀.key ∧ c₀.pc.stage ≤ c₁.pc.stage) →
      ∃ c', (s.sends.set i' c₁)[i]? = some c' ∧ c'.key = c.key ∧ c.pc.stage ≤ c'.pc.stage := by
    intro i' c₀ c₁ hc₀ hmoved
    by_cases hi : i' = i
    · subst hi
      cases hc.symm.trans hc₀
      obtain ⟨hkey, hstage⟩ := hmoved hissued
      exact ⟨c₁, getElem?_set_self (List.getElem?_eq_some_iff.mp hc).1, hkey, hstage⟩
    · exact ⟨c, (List.getElem?_set_ne hi).trans hc, rfl, Nat.le_refl _⟩
  cases h with
  | call => exact ⟨c, List.getElem?_append_of_some hc, rfl, Nat.le_refl _⟩
  | issue hc₀ hpc => exact hset hc₀ fun hpos => by simp [hpc, SendPc.stage] at hpos
  | move o hc₀ hid hstage =>
    exact hset hc₀ fun _ => ⟨congrArg natText hid, by omega⟩
  | register hc₀ hpc | clean hc₀ hpc => exact hset hc₀ fun _ => ⟨rfl, by simp [hpc, SendPc.stage]⟩
  | hand hd hpc hc₀ hsend => exact hset hc₀ fun _ => ⟨rfl, Nat.le_refl _⟩
  | outbox | deliver | miss | hit | panic => exact ⟨c, hc, rfl, Nat.le_refl _⟩

/-! ## Invariants -/

/-- Ids are issued once. -/
structure Issued (s : Bidirectional μ ρ) : Prop where
  le : ∀ (i : Nat) (c : SendCall μ ρ), s.sends[i]? = some c → 0 < c.pc.stage → c.id ≤ s.nextID
  inj : ∀ (i i' : Nat) (c c' : SendCall μ ρ), s.sends[i]? = some c → s.sends[i']? = some c' →
    0 < c.pc.stage → 0 < c'.pc.stage → c.id = c'.id → i = i'

/-- An id in `pending` leads to the registered call with that id, and a delivery that found its
    call has taken it out. -/
structure Routed (s : Bidirectional μ ρ) : Prop where
  pending : ∀ (key : Bytes) (i : Nat), s.pending.lookup key = some i →
    ∃ c, s.sends[i]? = some c ∧ c.key = key ∧ c.pc.stage = 2
  target : ∀ (j i : Nat) (d : DeliverCall ρ), s.delivers[j]? = some d → d.pc.target = some i →
    ∃ c, s.sends[i]? = some c ∧ c.key = d.resp.id ∧ 2 ≤ c.pc.stage
  taken : ∀ (j i : Nat) (d : DeliverCall ρ), s.delivers[j]? = some d → d.pc.target = some i →
    s.pending.lookup d.resp.id = none
  unique : ∀ (j j' i : Nat) (d d' : DeliverCall ρ), s.delivers[j]? = some d →
    s.delivers[j']? = some d' → d.pc.target = some i → d'.pc.target = some i → j = j'

/-- What a call holds was handed to it. -/
structure Handed (s : Bidirectional μ ρ) : Prop where
  ch_open : ∀ (i : Nat) (c : SendCall μ ρ), s.sends[i]? = some c →
    c.ch.closed = false ∧ c.ch.cap = 1
  source : ∀ (i : Nat) (c : SendCall μ ρ), s.sends[i]? = some c → ∀ resp ∈ c.held,
    ∃ j : Nat, s.delivers[j]? = some ⟨resp, .succeeded i⟩
  not_panicked : s.panicked = false

/-- The state between steps. -/
structure Sound (s : Bidirectional μ ρ) : Prop where
  issued : s.Issued
  routed : s.Routed
  handed : s.Handed

variable {c' : SendCall μ ρ} {i' : Nat}

/-- Two calls with one id are one call. -/
theorem Issued.key_inj (h : s.Issued) (hc : s.sends[i]? = some c) (hc' : s.sends[i']? = some c')
    (hissued : 0 < c.pc.stage) (hissued' : 0 < c'.pc.stage) (hkey : c.key = c'.key) : i = i' :=
  h.inj i i' c c' hc hc' hissued hissued' (SendCall.key_inj hkey)

/-! ## Ids -/

theorem Issued.set (h : s.Issued) (hc : s.sends[i]? = some c)
    (hsends : s'.sends = s.sends.set i c') (hnext : s'.nextID = s.nextID) (hid : c'.id = c.id)
    (hstage : 0 < c'.pc.stage → 0 < c.pc.stage) : s'.Issued := by
  -- every call of `s'` stands for one of `s` with the same id
  have hold : ∀ (k : Nat) (e : SendCall μ ρ), s'.sends[k]? = some e → 0 < e.pc.stage →
      ∃ e₀, s.sends[k]? = some e₀ ∧ e.id = e₀.id ∧ 0 < e₀.pc.stage := by
    intro k e he hissued
    rw [hsends] at he
    rcases getElem?_set_cases he with ⟨rfl, rfl⟩ | ⟨_, he⟩
    · exact ⟨c, hc, hid, hstage hissued⟩
    · exact ⟨e, he, rfl, hissued⟩
  constructor
  · intro k e he hissued
    obtain ⟨e₀, he₀, hid₀, hissued₀⟩ := hold k e he hissued
    rw [hid₀, hnext]
    exact h.le k e₀ he₀ hissued₀
  · intro k k' e e' he he' hissued hissued' hids
    obtain ⟨e₀, he₀, hid₀, hissued₀⟩ := hold k e he hissued
    obtain ⟨e₀', he₀', hid₀', hissued₀'⟩ := hold k' e' he' hissued'
    exact h.inj k k' e₀ e₀' he₀ he₀' hissued₀ hissued₀' (hid₀.symm.trans (hids.trans hid₀'))

theorem Issued.steps (h : s.Issued) (hstep : Steps s s') : s'.Issued := by
  cases hstep with
  | outbox | deliver | miss | hit | panic => exact ⟨h.le, h.inj⟩
  | call payload encodable =>
    constructor
    · intro k e he hissued
      rcases getElem?_snoc_cases he with ⟨_, rfl⟩ | he
      · exact absurd hissued (by simp [SendPc.stage])
      · exact h.le k e he hissued
    · intro k k' e e' he he' hissued hissued' hids
      rcases getElem?_snoc_cases he with ⟨_, rfl⟩ | he
      · exact absurd hissued (by simp [SendPc.stage])
      · rcases getElem?_snoc_cases he' with ⟨_, rfl⟩ | he'
        · exact absurd hissued' (by simp [SendPc.stage])
        · exact h.inj k k' e e' he he' hissued hissued' hids
  | issue hc hpc =>
    constructor
    · intro k e he hissued
      rcases getElem?_set_cases he with ⟨_, rfl⟩ | ⟨_, he⟩
      · exact Nat.le_refl _
      · exact Nat.le_succ_of_le (h.le k e he hissued)
    · intro k k' e e' he he' hissued hissued' hids
      -- the new id is larger than the others
      rcases getElem?_set_cases he with ⟨hk, rfl⟩ | ⟨_, he⟩ <;>
        rcases getElem?_set_cases he' with ⟨hk', rfl⟩ | ⟨_, he'⟩
      · exact hk.trans hk'.symm
      · have hle := h.le k' e' he' hissued'
        simp only at hids
        omega
      · have hle := h.le k e he hissued
        simp only at hids
        omega
      · exact h.inj k k' e e' he he' hissued hissued' hids
  | move o hc hid hstage => exact h.set hc rfl rfl hid (by omega)
  | register hc hpc | clean hc hpc => exact h.set hc rfl rfl rfl (by simp [hpc, SendPc.stage])
  | hand hd hpc hc => exact h.set hc rfl rfl rfl id

/-! ## Routes -/

variable {key : Bytes} {k : Nat}

/-- What `pending` leads to, after a call moved that stays registered. -/
theorem Routed.pending_set (h : s.Routed) (hc : s.sends[i]? = some c)
    (hkept : c.pc.stage = 2 → c'.key = c.key ∧ c'.pc.stage = 2)
    (hlookup : s.pending.lookup key = some k) :
    ∃ e, (s.sends.set i c')[k]? = some e ∧ e.key = key ∧ e.pc.stage = 2 := by
  obtain ⟨e, he, hkey, hstage⟩ := h.pending key k hlookup
  by_cases hk : i = k
  · subst hk
    cases hc.symm.trans he
    obtain ⟨hkey', hstage'⟩ := hkept hstage
    exact ⟨c', getElem?_set_self (List.getElem?_eq_some_iff.mp hc).1, hkey'.trans hkey,
      hstage'⟩
  · exact ⟨e, (List.getElem?_set_ne hk).trans he, hkey, hstage⟩

/-- The routes after a step in which no delivery finds its call. -/
theorem Routed.carry (h : s.Routed) (hstep : Steps s s')
    (hpending : ∀ (key : Bytes) (i : Nat), s'.pending.lookup key = some i →
      ∃ c, s'.sends[i]? = some c ∧ c.key = key ∧ c.pc.stage = 2)
    (hdelivers : ∀ (j i : Nat) (d : DeliverCall ρ), s'.delivers[j]? = some d →
      d.pc.target = some i →
      ∃ d₀, s.delivers[j]? = some d₀ ∧ d₀.resp = d.resp ∧ d₀.pc.target = some i)
    (htaken : ∀ (j i : Nat) (d : DeliverCall ρ), s.delivers[j]? = some d → d.pc.target = some i →
      s'.pending.lookup d.resp.id = none) : s'.Routed := by
  refine ⟨hpending, ?_, ?_, ?_⟩
  · intro j i d hd htarget
    obtain ⟨d₀, hd₀, hresp, htarget₀⟩ := hdelivers j i d hd htarget
    obtain ⟨c, hc, hkey, hstage⟩ := h.target j i d₀ hd₀ htarget₀
    obtain ⟨c', hc', hkey', hstage'⟩ := hstep.call_mono hc (by omega)
    exact ⟨c', hc', hkey'.trans (hkey.trans (congrArg _ hresp)), by omega⟩
  · intro j i d hd htarget
    obtain ⟨d₀, hd₀, hresp, htarget₀⟩ := hdelivers j i d hd htarget
    rw [← hresp]
    exact htaken j i d₀ hd₀ htarget₀
  · intro j j' i d d' hd hd' htarget htarget'
    obtain ⟨d₀, hd₀, _, htarget₀⟩ := hdelivers j i d hd htarget
    obtain ⟨d₀', hd₀', _, htarget₀'⟩ := hdelivers j' i d' hd' htarget'
    exact h.unique j j' i d₀ d₀' hd₀ hd₀' htarget₀ htarget₀'

variable {j₀ : Nat} {d₀ : DeliverCall ρ} {delivers : List (DeliverCall ρ)} {pc : DeliverPc}

theorem target_set (hd₀ : delivers[j₀]? = some d₀)
    (hpc : ∀ i, pc.target = some i → d₀.pc.target = some i) (j i : Nat) (d : DeliverCall ρ)
    (hd : (delivers.set j₀ { d₀ with pc := pc })[j]? = some d) (htarget : d.pc.target = some i) :
    ∃ d₁, delivers[j]? = some d₁ ∧ d₁.resp = d.resp ∧ d₁.pc.target = some i := by
  rcases getElem?_set_cases hd with ⟨rfl, rfl⟩ | ⟨_, hd⟩
  · exact ⟨d₀, hd₀, rfl, hpc i htarget⟩
  · exact ⟨d, hd, rfl, htarget⟩

theorem Sound.taken_register (h : s.Sound) (hc : s.sends[i]? = some c) (hpc : c.pc = .registering)
    (j k : Nat) (d : DeliverCall ρ) (hd : s.delivers[j]? = some d)
    (htarget : d.pc.target = some k) : (s.pending.insert c.key i).lookup d.resp.id = none := by
  -- the call that the delivery found has registered, so it is another one
  have hkey : d.resp.id ≠ c.key := by
    intro hkey
    obtain ⟨c', hc', hkey', hstage⟩ := h.routed.target j k d hd htarget
    have hissued : 0 < c.pc.stage := by simp [hpc, SendPc.stage]
    obtain rfl := h.issued.key_inj hc' hc (by omega) hissued (hkey'.trans hkey)
    cases hc.symm.trans hc'
    simp [hpc, SendPc.stage] at hstage
  rw [GoMap.lookup_insert_eq, if_neg hkey]
  exact h.routed.taken j k d hd htarget

theorem Routed.pending_clean (h : s.Routed) (hc : s.sends[i]? = some c)
    (hlookup : (s.pending.erase c.key).lookup key = some k) :
    ∃ e, (s.sends.set i c')[k]? = some e ∧ e.key = key ∧ e.pc.stage = 2 := by
  rw [GoMap.lookup_erase_eq] at hlookup
  split at hlookup
  · cases hlookup
  · rename_i hkey
    obtain ⟨e, he, hkey', hstage⟩ := h.pending key k hlookup
    have hk : i ≠ k := by
      rintro rfl
      cases hc.symm.trans he
      exact hkey hkey'.symm
    exact ⟨e, (List.getElem?_set_ne hk).trans he, hkey', hstage⟩

/-- A delivery finds its call, and no other delivery has found that one. -/
theorem Routed.hit (h : s.Routed) {i₀ : Nat} (hd₀ : s.delivers[j₀]? = some d₀)
    (hsome : s.pending.lookup d₀.resp.id = some i₀) :
    ({ s with pending := s.pending.erase d₀.resp.id }.moveDeliver j₀ d₀ (.sending i₀)).Routed := by
  obtain ⟨c, hc, hkey, hstage⟩ := h.pending _ _ hsome
  have hfirst : ∀ (j : Nat) (d : DeliverCall ρ), s.delivers[j]? = some d →
      d.pc.target ≠ some i₀ := by
    intro j d hd htarget
    obtain ⟨c', hc', hkey', _⟩ := h.target j i₀ d hd htarget
    cases hc.symm.trans hc'
    have htaken := h.taken j i₀ d hd htarget
    rw [← hkey', hkey, hsome] at htaken
    cases htaken
  refine ⟨fun key i hlookup => h.pending key i (GoMap.lookup_of_lookup_erase hlookup), ?_, ?_, ?_⟩
  · intro j i d hd htarget
    rcases getElem?_set_cases hd with ⟨rfl, rfl⟩ | ⟨_, hd⟩
    · cases htarget
      exact ⟨c, hc, hkey, Nat.le_of_eq hstage.symm⟩
    · exact h.target j i d hd htarget
  · intro j i d hd htarget
    rw [moveDeliver, GoMap.lookup_erase_eq]
    rcases getElem?_set_cases hd with ⟨rfl, rfl⟩ | ⟨_, hd⟩
    · exact if_pos rfl
    · rw [h.taken j i d hd htarget, ite_self]
  · intro j j' i d d' hd hd' htarget htarget'
    rcases getElem?_set_cases hd with ⟨hj, rfl⟩ | ⟨_, hd⟩ <;>
      rcases getElem?_set_cases hd' with ⟨hj', rfl⟩ | ⟨_, hd'⟩
    · exact hj.trans hj'.symm
    · cases htarget
      exact absurd htarget' (hfirst j' d' hd')
    · cases htarget'
      exact absurd htarget (hfirst j d hd)
    · exact h.unique j j' i d d' hd hd' htarget htarget'

theorem Sound.routed_steps (h : s.Sound) (hstep : Steps s s') : s'.Routed := by
  have hrouted := h.routed
  have hsame : ∀ (j i : Nat) (d : DeliverCall ρ), s.delivers[j]? = some d →
      d.pc.target = some i → ∃ d₀, s.delivers[j]? = some d₀ ∧ d₀.resp = d.resp ∧
        d₀.pc.target = some i := fun _ _ d hd htarget => ⟨d, hd, rfl, htarget⟩
  have hcarry := hrouted.carry hstep
  cases hstep with
  | outbox | panic => exact hcarry hrouted.pending hsame hrouted.taken
  | call payload encodable =>
    refine hcarry (fun key i hlookup => ?_) hsame hrouted.taken
    obtain ⟨c, hc, hkey, hstage⟩ := hrouted.pending key i hlookup
    exact ⟨c, List.getElem?_append_of_some hc, hkey, hstage⟩
  | issue hc hpc =>
    refine hcarry (fun key i => hrouted.pending_set hc ?_) hsame hrouted.taken
    simp [hpc, SendPc.stage]
  | move o hc hid hstage =>
    refine hcarry (fun key i => hrouted.pending_set hc fun _ => ?_) hsame hrouted.taken
    exact ⟨congrArg natText hid, by omega⟩
  | register hc hpc =>
    refine hcarry (fun key k hlookup => ?_) hsame (h.taken_register hc hpc)
    -- the new entry leads to the call that registers
    rw [setSend, GoMap.lookup_insert_eq] at hlookup
    split at hlookup
    · rename_i hkey
      cases hlookup
      exact ⟨_, getElem?_set_self (List.getElem?_eq_some_iff.mp hc).1, hkey.symm, rfl⟩
    · exact hrouted.pending_set hc (by simp [hpc, SendPc.stage]) hlookup
  | clean hc hpc =>
    refine hcarry (fun key k => hrouted.pending_clean hc) hsame fun j k d hd htarget => ?_
    rw [setSend, GoMap.lookup_erase_eq, hrouted.taken j k d hd htarget, ite_self]
  | deliver resp pc hpc =>
    refine hcarry hrouted.pending (fun j i d hd htarget => ?_) hrouted.taken
    rcases getElem?_snoc_cases hd with ⟨_, rfl⟩ | hd
    · rcases hpc with rfl | rfl <;> cases htarget
    · exact ⟨d, hd, rfl, htarget⟩
  | miss hd hpc => exact hcarry hrouted.pending (target_set hd fun _ => (nomatch ·)) hrouted.taken
  | hit hd hpc hsome => exact hrouted.hit hd hsome
  | hand hd hpc hc hsend =>
    refine hcarry (fun key k => hrouted.pending_set hc ?_) (target_set hd fun i hi => ?_)
      hrouted.taken
    · exact fun hstage => ⟨rfl, hstage⟩
    · rw [hpc]
      exact hi

/-! ## Responses -/

theorem Handed.set (h : s.Handed) (hc : s.sends[i]? = some c)
    (hsends : s'.sends = s.sends.set i c') (hdelivers : s'.delivers = s.delivers)
    (hpanicked : s'.panicked = s.panicked) (hch : c'.ch.closed = false ∧ c'.ch.cap = 1)
    (hheld : c'.held ⊆ c.held) : s'.Handed := by
  refine ⟨?_, ?_, hpanicked.trans h.not_panicked⟩
  · intro k e he
    rw [hsends] at he
    rcases getElem?_set_cases he with ⟨_, rfl⟩ | ⟨_, he⟩
    · exact hch
    · exact h.ch_open k e he
  · intro k e he resp hresp
    rw [hsends] at he
    rw [hdelivers]
    rcases getElem?_set_cases he with ⟨rfl, rfl⟩ | ⟨_, he⟩
    · exact h.source k c hc resp (hheld hresp)
    · exact h.source k e he resp hresp

variable {resp : ClientReply ρ}

theorem succeeded_set (hd₀ : delivers[j₀]? = some d₀) (hpc : ∀ i, d₀.pc ≠ .succeeded i)
    (hj : delivers[j]? = some ⟨resp, .succeeded i⟩) :
    (delivers.set j₀ d)[j]? = some ⟨resp, .succeeded i⟩ := by
  have hne : j₀ ≠ j := by
    rintro rfl
    exact hpc i (by rw [Option.some.inj (hd₀.symm.trans hj)])
  exact (List.getElem?_set_ne hne).trans hj

theorem Handed.moveDeliver (h : s.Handed) (hd₀ : s.delivers[j₀]? = some d₀)
    (hpc : ∀ i, d₀.pc ≠ .succeeded i) : (s.moveDeliver j₀ d₀ pc).Handed := by
  refine ⟨h.ch_open, fun k e he resp hresp => ?_, h.not_panicked⟩
  obtain ⟨j, hj⟩ := h.source k e he resp hresp
  exact ⟨j, succeeded_set hd₀ hpc hj⟩

theorem held_hand {ch : Chan (ClientReply ρ)} {resp' : ClientReply ρ}
    (hbuf : ch.buf = c.ch.buf ++ [resp]) (h : resp' ∈ ({ c with ch := ch } : SendCall μ ρ).held) :
    resp' ∈ c.held ∨ resp' = resp := by
  revert h
  simp only [SendCall.held, hbuf]
  split <;> simp only [List.mem_append, List.mem_singleton] <;> tauto

theorem Handed.steps (h : s.Handed) (hstep : Steps s s') : s'.Handed := by
  cases hstep with
  | outbox o => exact ⟨h.ch_open, h.source, h.not_panicked⟩
  | call payload encodable =>
    refine ⟨fun k e he => ?_, fun k e he resp hresp => ?_, h.not_panicked⟩
    · rcases getElem?_snoc_cases he with ⟨_, rfl⟩ | he
      · exact ⟨rfl, rfl⟩
      · exact h.ch_open k e he
    · rcases getElem?_snoc_cases he with ⟨_, rfl⟩ | he
      · simp [SendCall.held] at hresp
      · exact h.source k e he resp hresp
  | issue hc hpc =>
    have hch := h.ch_open _ _ hc
    exact h.set hc rfl rfl rfl hch (by simp [SendCall.held, hpc])
  | move o hc hid hstage hch hheld =>
    obtain ⟨hopen, hcap⟩ := h.ch_open _ _ hc
    exact h.set hc rfl rfl rfl ⟨hch.1.trans hopen, hch.2.trans hcap⟩ hheld
  | register hc hpc => exact h.set hc rfl rfl rfl ⟨rfl, rfl⟩ (by simp [SendCall.held])
  | clean hc hpc =>
    have hch := h.ch_open _ _ hc
    refine h.set hc rfl rfl rfl hch ?_
    simp only [SendCall.held, hpc]
    split <;> simp_all
  | deliver resp pc =>
    refine ⟨h.ch_open, fun k e he resp hresp => ?_, h.not_panicked⟩
    obtain ⟨j, hj⟩ := h.source k e he resp hresp
    exact ⟨j, List.getElem?_append_of_some hj⟩
  | miss hd hpc => exact h.moveDeliver hd (by simp [hpc])
  | @hit j i d hd hpc =>
    have hmoved : (s.moveDeliver j d (.sending i)).Handed := h.moveDeliver hd (by simp [hpc])
    exact ⟨hmoved.ch_open, hmoved.source, hmoved.not_panicked⟩
  | @hand j₀ i₀ d₀ c ch hd hpc hc hsend =>
    -- call `i₀` now holds the response, and its delivery has succeeded
    obtain ⟨hopen, _, hbuf, hcap, hopen'⟩ := Chan.sent_of_trySend hsend
    refine ⟨fun k e he => ?_, fun k e he resp hresp => ?_, h.not_panicked⟩
    · rcases getElem?_set_cases he with ⟨_, rfl⟩ | ⟨_, he⟩
      · exact ⟨hopen', hcap.trans (h.ch_open _ _ hc).2⟩
      · exact h.ch_open k e he
    · have hold : ∀ resp ∈ e.held, (∃ j : Nat, s.delivers[j]? = some ⟨resp, .succeeded k⟩) →
          ∃ j : Nat, (s.delivers.set j₀ { d₀ with pc := .succeeded i₀ })[j]? =
            some ⟨resp, .succeeded k⟩ :=
        fun resp _ ⟨j, hj⟩ => ⟨j, succeeded_set hd (by simp [hpc]) hj⟩
      rcases getElem?_set_cases he with ⟨rfl, rfl⟩ | ⟨_, he⟩
      · rcases held_hand hbuf hresp with hresp' | rfl
        · exact hold resp hresp (h.source k c hc resp hresp')
        · exact ⟨j₀, getElem?_set_self (List.getElem?_eq_some_iff.mp hd).1⟩
      · exact hold resp hresp (h.source k e he resp hresp)
  | panic hc hsend =>
    exact absurd (Chan.closed_of_trySend hsend) (by simp [(h.ch_open _ _ hc).1])

theorem Sound.steps (h : s.Sound) (hstep : Steps s s') : s'.Sound :=
  ⟨h.issued.steps hstep, h.routed_steps hstep, h.handed.steps hstep⟩

theorem sound_init : ({} : Bidirectional μ ρ).Sound :=
  ⟨⟨by simp, by simp⟩, ⟨by simp, by simp, by simp, by simp⟩, ⟨by simp, by simp, rfl⟩⟩

/-! ## Late deliveries -/

/-- A delivery that does not succeed: it has failed, or its next step fails. -/
def Fails (s : Bidirectional μ ρ) (j : Nat) (d : DeliverCall ρ) : Prop :=
  d.pc = .failed ∨ (d.pc = .looking ∧ s.step (.advanceDeliver j) = some (s.moveDeliver j d .failed))

/-- A call has returned, and the deliveries with its id from `n` on have found nothing. -/
structure Late (s : Bidirectional μ ρ) (i : Nat) (key : Bytes) (n : Nat) : Prop where
  returned : ∃ c, s.sends[i]? = some c ∧ c.key = key ∧ c.pc.stage = 3
  from_length : n ≤ s.delivers.length
  found_none : ∀ (j : Nat) (d : DeliverCall ρ), n ≤ j → s.delivers[j]? = some d →
    d.resp.id = key → d.pc.target = none

theorem Sound.lookup_returned (h : s.Sound) (hc : s.sends[i]? = some c)
    (hreturned : c.pc.stage = 3) : s.pending.lookup c.key = none := by
  rw [Option.eq_none_iff_forall_ne_some]
  intro k hk
  obtain ⟨c', hc', hkey, hstage⟩ := h.routed.pending _ _ hk
  obtain rfl := h.issued.key_inj hc' hc (by omega) (by omega) hkey
  cases hc.symm.trans hc'
  omega

theorem stage_le (pc : SendPc ρ) : pc.stage ≤ 3 := by
  cases pc <;> simp [SendPc.stage]

variable {n : Nat}

theorem Late.steps (h : s.Late i key n) (hsound : s.Sound) (hstep : Steps s s') :
    s'.Late i key n := by
  obtain ⟨c, hc, hkey, hstage⟩ := h.returned
  have hreturned : ∃ c, s'.sends[i]? = some c ∧ c.key = key ∧ c.pc.stage = 3 := by
    obtain ⟨c', hc', hkey', hstage'⟩ := hstep.call_mono hc (by omega)
    exact ⟨c', hc', hkey'.trans hkey, Nat.le_antisymm (stage_le _) (by omega)⟩
  have hnone := hsound.lookup_returned hc hstage
  rw [hkey] at hnone
  cases hstep with
  | outbox | call | issue | move | register | clean | panic =>
    exact ⟨hreturned, h.from_length, h.found_none⟩
  | deliver resp pc hpc =>
    refine ⟨hreturned, by simp [Nat.le_succ_of_le h.from_length], fun j d hj hd hid => ?_⟩
    rcases getElem?_snoc_cases hd with ⟨_, rfl⟩ | hd
    · rcases hpc with rfl | rfl <;> rfl
    · exact h.found_none j d hj hd hid
  | miss =>
    refine ⟨hreturned, by simp [moveDeliver, h.from_length], fun j d hj hd hid => ?_⟩
    rcases getElem?_set_cases hd with ⟨_, rfl⟩ | ⟨_, hd⟩
    · rfl
    · exact h.found_none j d hj hd hid
  | hit hd₀ hpc hsome =>
    refine ⟨hreturned, by simp [moveDeliver, h.from_length], fun j d hj hd hid => ?_⟩
    rcases getElem?_set_cases hd with ⟨_, rfl⟩ | ⟨_, hd⟩
    · rw [hid, hnone] at hsome
      cases hsome
    · exact h.found_none j d hj hd hid
  | hand hd₀ hpc =>
    refine ⟨hreturned, by simp [moveDeliver, setSend, h.from_length], fun j d hj hd hid => ?_⟩
    rcases getElem?_set_cases hd with ⟨rfl, rfl⟩ | ⟨_, hd⟩
    · have hfound := h.found_none j _ hj hd₀ hid
      rw [hpc] at hfound
      cases hfound
    · exact h.found_none j d hj hd hid

theorem Late.fails (h : s.Late i key n) (hsound : s.Sound) (hj : n ≤ j)
    (hd : s.delivers[j]? = some d) (hid : d.resp.id = key) : s.Fails j d := by
  have htarget := h.found_none j d hj hd hid
  cases hpc : d.pc with
  | failed => exact .inl hpc
  | looking =>
    obtain ⟨c, hc, hkey, hstage⟩ := h.returned
    have hnone := hsound.lookup_returned hc hstage
    refine .inr ⟨hpc, ?_⟩
    rw [hkey, ← hid] at hnone
    simp [step, hd, advanceDeliver, hpc, hnone]
  | sending k | succeeded k =>
    rw [hpc] at htarget
    cases htarget

/-! ## Every run -/

/-- What holds between requests and responses at every moment. -/
structure Correlated (s : Bidirectional μ ρ) : Prop where
  /-- A call returns a response that was delivered with its id. -/
  own : ∀ (i : Nat) (c : SendCall μ ρ) (resp : ClientReply ρ), s.sends[i]? = some c →
    c.pc = .returned (.ok resp) →
    resp.id = c.key ∧ ∃ j : Nat, s.delivers[j]? = some ⟨resp, .succeeded i⟩
  /-- One delivery for each id. -/
  once : ∀ (j j' i i' : Nat) (d d' : DeliverCall ρ), s.delivers[j]? = some d →
    s.delivers[j']? = some d' → d.pc = .succeeded i → d'.pc = .succeeded i' →
    d.resp.id = d'.resp.id → j = j'
  /-- A delivery that has found its call goes through at once. -/
  unblocked : ∀ (j i : Nat) (d : DeliverCall ρ), s.delivers[j]? = some d → d.pc = .sending i →
    ∃ s', s.step (.advanceDeliver j) = some s' ∧
      s'.delivers[j]? = some { d with pc := .succeeded i }
  /-- Nothing is left behind. -/
  emptied : (∀ c ∈ s.sends, ∃ result, c.pc = .returned result) → s.pending = ∅

theorem Sound.target_eq (h : s.Sound) {j' : Nat} {d' : DeliverCall ρ}
    (hd : s.delivers[j]? = some d) (hd' : s.delivers[j']? = some d')
    (htarget : d.pc.target = some i) (htarget' : d'.pc.target = some i')
    (hid : d.resp.id = d'.resp.id) : i = i' := by
  obtain ⟨c, hc, hkey, hstage⟩ := h.routed.target j i d hd htarget
  obtain ⟨c', hc', hkey', hstage'⟩ := h.routed.target j' i' d' hd' htarget'
  exact h.issued.key_inj hc hc' (by omega) (by omega) (hkey.trans (hid.trans hkey'.symm))

/-- The channel of a call is empty while a delivery to it is under way. -/
theorem Sound.buf_sending (h : s.Sound) (hd : s.delivers[j]? = some d) (hpc : d.pc = .sending i)
    (hc : s.sends[i]? = some c) : c.ch.buf = [] := by
  rw [List.eq_nil_iff_forall_not_mem]
  intro resp hresp
  have hheld : resp ∈ c.held := by
    simp only [SendCall.held]
    split <;> simp [hresp]
  obtain ⟨j', hj'⟩ := h.handed.source i c hc resp hheld
  obtain rfl := h.routed.unique j j' i d _ hd hj' (by rw [hpc]; rfl) rfl
  rw [Option.some.inj (hd.symm.trans hj')] at hpc
  cases hpc

theorem Sound.correlated (h : s.Sound) : s.Correlated := by
  refine ⟨?_, ?_, ?_, ?_⟩
  · -- a call returns a response with its id
    intro i c resp hc hpc
    obtain ⟨j, hj⟩ := h.handed.source i c hc resp (by simp [SendCall.held, hpc])
    obtain ⟨c', hc', hkey, _⟩ := h.routed.target j i _ hj rfl
    cases hc.symm.trans hc'
    exact ⟨hkey.symm, j, hj⟩
  · -- no two responses with one id are delivered
    intro j j' i i' d d' hd hd' hpc hpc' hid
    have htarget : d.pc.target = some i := by rw [hpc]; rfl
    have htarget' : d'.pc.target = some i' := by rw [hpc']; rfl
    obtain rfl := h.target_eq hd hd' htarget htarget' hid
    exact h.routed.unique j j' i d d' hd hd' htarget htarget'
  · -- a delivery that found its call has room in the channel
    intro j i d hd hpc
    obtain ⟨c, hc, _, _⟩ := h.routed.target j i d hd (by rw [hpc]; rfl)
    obtain ⟨hopen, hcap⟩ := h.handed.ch_open i c hc
    have hbuf := h.buf_sending hd hpc hc
    cases hsend : c.ch.trySend d.resp with
    | sent ch =>
      refine ⟨(s.setSend i { c with ch := ch }).moveDeliver j d (.succeeded i), ?_,
        getElem?_set_self (List.getElem?_eq_some_iff.mp hd).1⟩
      simp [step, hd, advanceDeliver, hpc, hc, hsend]
    | full =>
      have hfull := (Chan.full_of_trySend hsend).2
      rw [hbuf, hcap] at hfull
      cases hfull
    | panic => exact absurd (Chan.closed_of_trySend hsend) (by simp [hopen])
  · -- when all calls have returned, none is pending
    intro hall
    have hnone : ∀ key, s.pending.lookup key = none := by
      intro key
      rw [Option.eq_none_iff_forall_ne_some]
      intro i hi
      obtain ⟨c, hc, _, hstage⟩ := h.routed.pending key i hi
      obtain ⟨result, hpc⟩ := hall c (List.mem_of_getElem? hc)
      simp [hpc, SendPc.stage] at hstage
    exact GoMap.eq_empty_of_lookup hnone

/-- In every interleaving of the calls, responses are correlated at every moment; and a delivery
    that starts after the request with its id has returned fails. -/
theorem run_correlated (before later : List (BidiEvent μ ρ)) {s s' : Bidirectional μ ρ}
    (hs : run {} before = some s) (hs' : run s later = some s') :
    s.Correlated ∧
      ∀ (i : Nat) (c : SendCall μ ρ) (result : Except SendError (ClientReply ρ)),
        s.sends[i]? = some c → c.pc = .returned result →
        ∀ (j : Nat) (d : DeliverCall ρ), s.delivers.length ≤ j → s'.delivers[j]? = some d →
          d.resp.id = c.key → s'.Fails j d := by
  have hsound : s.Sound := runOption_inv step Sound
    (fun _ _ _ hstep h => h.steps (steps_of_step hstep)) hs sound_init
  refine ⟨hsound.correlated, fun i c result hc hpc j d hj hd hid => ?_⟩
  have hlate : s.Late i c.key s.delivers.length := by
    refine ⟨⟨c, hc, rfl, by rw [hpc]; rfl⟩, Nat.le_refl _, fun j d hj hd => ?_⟩
    exact absurd (List.getElem?_eq_some_iff.mp hd).1 (by omega)
  obtain ⟨hsound', hlate'⟩ : s'.Sound ∧ s'.Late i c.key s.delivers.length :=
    runOption_inv step (fun s' => s'.Sound ∧ s'.Late i c.key s.delivers.length)
      (fun _ _ _ hstep h => ⟨h.1.steps (steps_of_step hstep), h.2.steps h.1 (steps_of_step hstep)⟩)
      hs' ⟨hsound, hlate⟩
  exact hlate'.fails hsound' hj hd hid

/-- Two requests, of which the second one draws the first id. Its context is done while its
    response is on the way; the other one gets the response with its own id. -/
def crossedReplies : List (BidiEvent Nat Nat) :=
  [.send 10 true, .send 20 true, .advance 1, .advance 0, .advance 0, .advance 0, .advance 0,
   .advance 1, .advance 1, .advance 1, .deliver ⟨natText 1, 101⟩, .advanceDeliver 0,
   .cancelCtx 1, .expire 1, .deliver ⟨natText 2, 202⟩, .advanceDeliver 1,
   .advanceDeliver 1, .reply 0, .advanceDeliver 0, .advance 0, .advance 1]

/-- The responses come once more. -/
def lateReplies : List (BidiEvent Nat Nat) :=
  [.deliver ⟨natText 1, 103⟩, .deliver ⟨natText 2, 204⟩, .advanceDeliver 3]

theorem crossedReplies_correlated : ∃ s s' : Bidirectional Nat Nat,
    run {} crossedReplies = some s ∧ run s lateReplies = some s' ∧ s.Correlated ∧
      s.sends.map (·.pc) =
        [.returned (.ok ⟨natText 2, 202⟩), .returned (.error .context)] ∧
      s'.Fails 2 ⟨⟨natText 1, 103⟩, .looking⟩ ∧
      s'.Fails 3 ⟨⟨natText 2, 204⟩, .failed⟩ := by
  obtain ⟨s, hs, s', hs', hpcs, ⟨c, hc, hid, hpc⟩, ⟨e, he, hid', hpc'⟩, hlength, hd, hd'⟩ :
      ∃ s, run {} crossedReplies = some s ∧ ∃ s', run s lateReplies = some s' ∧
        s.sends.map (·.pc) = [.returned (.ok ⟨natText 2, 202⟩), .returned (.error .context)] ∧
        (∃ c, s.sends[0]? = some c ∧ c.id = 2 ∧ c.pc = .returned (.ok ⟨natText 2, 202⟩)) ∧
        (∃ e, s.sends[1]? = some e ∧ e.id = 1 ∧ e.pc = .returned (.error .context)) ∧
        s.delivers.length = 2 ∧ s'.delivers[2]? = some ⟨⟨natText 1, 103⟩, .looking⟩ ∧
        s'.delivers[3]? = some ⟨⟨natText 2, 204⟩, .failed⟩ := by decide
  obtain ⟨hcorrelated, hlate⟩ := run_correlated crossedReplies lateReplies hs hs'
  refine ⟨s, s', hs, hs', hcorrelated, hpcs, ?_, ?_⟩
  · exact hlate 1 e _ he hpc' 2 _ (by omega) hd (by rw [SendCall.key, hid'])
  · exact hlate 0 c _ hc hpc 3 _ (by omega) hd' (by rw [SendCall.key, hid])

/-- In every interleaving, ids are issued once, each leads to its own call, and no send meets a
    closed channel. -/
theorem run_sound (events : List (BidiEvent μ ρ)) {s : Bidirectional μ ρ}
    (hs : run {} events = some s) : s.Sound :=
  runOption_inv step Sound (fun _ _ _ hstep h => h.steps (steps_of_step hstep)) hs sound_init

theorem crossedReplies_sound : ∃ s, run {} crossedReplies = some s ∧ s.Sound := by
  obtain ⟨s, hs⟩ := Option.isSome_iff_exists.mp (show (run {} crossedReplies).isSome by decide)
  exact ⟨s, hs, run_sound _ hs⟩

end Bidirectional

end MockAgents
