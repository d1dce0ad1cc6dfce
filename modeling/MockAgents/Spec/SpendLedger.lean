import Mathlib.Data.Finset.Card
import MockAgents.Quota.Spend

/-!
# Charges that the in-memory ledger keeps

Without a shared ledger the counter of a tenant is replaced whenever a call arrives with
another month key. The key is read before the lock is taken, so a call keyed to the old
month can replace the counter of the new one, and the charges in it are lost. They are
kept in every run in which no call takes the lock with the key of an earlier month than
the counter's and no sum is rounded.
-/

namespace MockAgents

variable {ι : Type}

namespace SpendSystem

/-- A call that started after every `AddSpend` had finished reports the sum of the
    amounts charged to its month. -/
def SpendKept (s : SpendSystem ι) : Prop :=
  ∀ r ∈ s.reports, r.finished = s.started → r.total = chargedTo s.charges r.month

/-- A month key that does not turn the counter back. -/
def Current (s : SpendSystem ι) (key : Month) : Prop :=
  ∀ c ∈ s.cached, c.month = key ∨ c.month.index < key.index

/-- The condition on a step: a lock region on the counter is entered with the key of the
    counter's month or of a later one, and the counter holds the sum exactly. -/
def InOrder (s : SpendSystem ι) : SpendEvent ι → Prop
  | .addFinish i _ => ∀ key ∈ (s.pc i).key, s.Current key ∧
      ∀ usd ∈ (s.pc i).amount, AddsExactly (s.counter key).usd usd
  | .readLock i _ => ∀ key ∈ (s.pc i).key, s.Current key
  | _ => True

instance (s : SpendSystem ι) : Decidable s.SpendKept :=
  inferInstanceAs (Decidable (∀ r ∈ s.reports, _ → _))

instance (s : SpendSystem ι) (key : Month) : Decidable (s.Current key) :=
  inferInstanceAs (Decidable (∀ c ∈ s.cached, _))

instance (s : SpendSystem ι) (e : SpendEvent ι) : Decidable (s.InOrder e) :=
  match e with
  | .addFinish .. => inferInstanceAs (Decidable (∀ key ∈ _, s.Current key ∧ ∀ usd ∈ _, _))
  | .readLock .. => inferInstanceAs (Decidable (∀ key ∈ _, s.Current key))
  | .addStart .. | .addBackend .. | .checkStart .. | .usageStart .. | .readKey ..
  | .readBackend .. | .readFinish .. | .remoteAdd .. => inferInstanceAs (Decidable True)

end SpendSystem

/-! ## Sums of charges -/

theorem chargedTo_append (cs : List Charge) (c : Charge) (month : Month) :
    chargedTo (cs ++ [c]) month =
      chargedTo cs month + if c.month = month then c.usd else 0 := by
  by_cases h : c.month = month <;> simp [chargedTo, h]

theorem chargedTo_eq_zero {cs : List Charge} {month : Month}
    (h : ∀ c ∈ cs, c.month ≠ month) : chargedTo cs month = 0 := by
  have hnil : cs.filter (·.month = month) = [] := by
    simpa [List.filter_eq_nil_iff] using h
  rw [chargedTo, hnil]
  rfl

/-! ## The invariant -/

/-- A client that has not called the shared ledger. -/
def SpendPc.offline : SpendPc → Bool
  | .idle | .keyed .. | .called .. | .reading .. => true
  | _ => false

namespace SpendSystem

/-- The cached counter holds the charges of its month, and no charge is keyed to a later
    month. -/
def Tallied (cached : Option Counter) (charges : List Charge) : Prop :=
  match cached with
  | none => charges = []
  | some c => c.usd = chargedTo charges c.month ∧
      ∀ ch ∈ charges, ch.month = c.month ∨ ch.month.index < c.month.index

/-- A client's place, when `n` calls of `AddSpend` have finished and the clients `adders`
    are inside one. -/
structure Place (n : Nat) (adders : Finset ι) (i : ι) (pc : SpendPc) : Prop where
  offline : pc.offline = true
  adding : i ∈ adders ↔ pc.adding = true
  finished : pc.finished ≤ n

/-- The invariant of a run in order. -/
structure LedgerInv (s : SpendSystem ι) : Prop where
  inMemory : s.enforcer.spendBackend = false
  tallied : Tallied s.cached s.charges
  clients : ∃ adders : Finset ι, s.charges.length + adders.card = s.started ∧
    ∀ i, Place s.charges.length adders i (s.pc i)
  reports : ∀ r ∈ s.reports, ∃ n ≤ s.charges.length, r.finished ≤ n ∧
    r.total = chargedTo (s.charges.take n) r.month

/-- The counter a lock region works on holds the charges of its key. -/
theorem Tallied.counter {s : SpendSystem ι} (h : Tallied s.cached s.charges) {key : Month}
    (hkey : s.Current key) :
    Tallied (some (s.counter key)) s.charges := by
  rw [counter_eq]
  cases hc : s.cached with
  | none =>
    rw [hc] at h
    have hnil : s.charges = [] := h
    simp [Tallied, hnil, chargedTo]
  | some c =>
    rw [hc] at h
    obtain ⟨husd, hle⟩ := h
    by_cases hm : c.month = key
    · simp only [if_pos hm]
      exact ⟨husd, hle⟩
    · -- a fresh counter: no charge is keyed to this month yet
      simp only [if_neg hm]
      have hlt : c.month.index < key.index := (hkey c hc).resolve_left hm
      have hbefore : ∀ ch ∈ s.charges, ch.month.index < key.index := by
        intro ch hch
        obtain heq | h := hle ch hch
        · rw [heq]
          exact hlt
        · omega
      refine ⟨?_, fun ch hch => Or.inr (hbefore ch hch)⟩
      refine (chargedTo_eq_zero fun ch hch heq => ?_).symm
      exact absurd (congrArg Month.index heq) (hbefore ch hch).ne

variable {s : SpendSystem ι} {month : Month}

/-- Charging the counter of a lock region. -/
theorem Tallied.charge (h : Tallied s.cached s.charges) (hkey : s.Current month) {ch : Charge}
    (hch : ch.month = month) :
    Tallied (some { s.counter month with usd := (s.counter month).usd + ch.usd })
      (s.charges ++ [ch]) := by
  obtain ⟨husd, hle⟩ := h.counter hkey
  have hmonth : ch.month = (s.counter month).month := by rw [hch, counter_month]
  have hsum : (s.counter month).usd + ch.usd =
      chargedTo (s.charges ++ [ch]) (s.counter month).month := by
    rw [chargedTo_append, if_pos hmonth, husd]
  exact ⟨hsum, List.forall_mem_append.mpr ⟨hle, List.forall_mem_singleton.mpr (.inl hmonth)⟩⟩

variable {i : ι}

/-- `currentSpend` leaves the counter and returns its amount. -/
theorem LedgerInv.report (h : s.LedgerInv) {call : ReadCall} {n : Nat}
    (hpc : s.pc i = .reading call n month) (hkey : s.Current month) :
    ((s.store (s.counter month)).report call n month (s.counter month).usd).LedgerInv := by
  have htally := h.tallied.counter hkey
  obtain ⟨adders, _, hplace⟩ := h.clients
  have hn : n ≤ s.charges.length := by simpa [hpc, SpendPc.finished] using (hplace i).finished
  refine ⟨h.inMemory, by rwa [← cached_store s] at htally, h.clients,
    List.forall_mem_append.mpr ⟨h.reports, List.forall_mem_singleton.mpr ?_⟩⟩
  have htotal := htally.1
  rw [counter_month] at htotal
  refine ⟨s.charges.length, le_rfl, hn, ?_⟩
  show (s.counter month).usd = chargedTo (s.charges.take s.charges.length) month
  rw [List.take_length, htotal]

theorem ledgerInv_initial (enforcer : Enforcer) (hlocal : enforcer.spendBackend = false)
    (tenantID : String) (ledger : Month → List Rat) (now : Int) :
    (initial enforcer tenantID ledger now : SpendSystem ι).LedgerInv where
  inMemory := hlocal
  tallied := rfl
  clients := ⟨∅, rfl, fun _ => ⟨rfl, by simp [initial, SpendPc.adding], le_rfl⟩⟩
  reports := nofun

/-- The invariant gives the sum: a call that started when every `AddSpend` of the run had
    finished saw all charges. -/
theorem LedgerInv.spendKept (h : s.LedgerInv) : s.SpendKept := by
  intro r hr hall
  obtain ⟨n, hn, hfin, htotal⟩ := h.reports r hr
  obtain ⟨adders, hcard, _⟩ := h.clients
  have hlen : n = s.charges.length := by omega
  rw [htotal, hlen, List.take_length]

variable [DecidableEq ι]

theorem LedgerInv.move (h : s.LedgerInv) {pc : SpendPc} (now : Int) (hoff : pc.offline = true)
    (hadd : pc.adding = (s.pc i).adding) (hfin : pc.finished ≤ s.charges.length) :
    (s.move i pc now).LedgerInv := by
  obtain ⟨adders, hcard, hplace⟩ := h.clients
  have hi : Place s.charges.length adders i pc :=
    ⟨hoff, by rw [hadd]; exact (hplace i).adding, hfin⟩
  exact ⟨h.inMemory, h.tallied, ⟨adders, hcard,
    (Function.forall_update_iff s.pc (Place _ adders)).mpr ⟨hi, fun j _ => hplace j⟩⟩,
    h.reports⟩

/-- A client enters `AddSpend`. -/
theorem LedgerInv.addStart (h : s.LedgerInv) (usd : Rat) (month : Month) (now : Int)
    (hidle : s.pc i = .idle) :
    { s.move i (.keyed usd month) now with started := s.started + 1 }.LedgerInv := by
  obtain ⟨adders, hcard, hplace⟩ := h.clients
  have hnot : i ∉ adders := by simp [(hplace i).adding, hidle, SpendPc.adding]
  have hcard' : s.charges.length + (insert i adders).card = s.started + 1 := by
    rw [Finset.card_insert_of_notMem hnot]
    omega
  have hi : Place s.charges.length (insert i adders) i (.keyed usd month) :=
    ⟨rfl, by simp [SpendPc.adding], Nat.zero_le _⟩
  have hj : ∀ j ≠ i, Place s.charges.length (insert i adders) j (s.pc j) := fun j hj =>
    ⟨(hplace j).offline, by simp [hj, (hplace j).adding], (hplace j).finished⟩
  exact ⟨h.inMemory, h.tallied, ⟨insert i adders, hcard',
    (Function.forall_update_iff s.pc (Place _ _)).mpr ⟨hi, hj⟩⟩, h.reports⟩

/-- `AddSpend` adds its amount to the counter and returns. -/
theorem LedgerInv.addFinish (h : s.LedgerInv) {usd : Rat} (now : Int)
    (hpc : s.pc i = .keyed usd month) (hkey : s.Current month)
    (hexact : AddsExactly (s.counter month).usd usd) :
    ((s.settle usd month none now).move i .idle now).LedgerInv := by
  let ch : Charge := ⟨month, usd, false, Float64.add (s.counter month).usd usd⟩
  obtain ⟨adders, hcard, hplace⟩ := h.clients
  have hi : i ∈ adders := by simp [(hplace i).adding, hpc, SpendPc.adding]
  have herase := Finset.card_erase_add_one hi
  have hlen : (s.charges ++ [ch]).length = s.charges.length + 1 :=
    List.length_append
  have hi' : Place (s.charges.length + 1) (adders.erase i) i .idle :=
    ⟨rfl, by simp [SpendPc.adding], Nat.zero_le _⟩
  have hj : ∀ j ≠ i, Place (s.charges.length + 1) (adders.erase i) j (s.pc j) := fun j hj =>
    ⟨(hplace j).offline, by simp [hj, (hplace j).adding], (hplace j).finished.trans (by omega)⟩
  refine ⟨h.inMemory, ?_, ⟨adders.erase i, ?_, ?_⟩, ?_⟩
  · have htally := h.tallied.charge hkey (show ch.month = month from rfl)
    rwa [← hexact, ← cached_store s] at htally
  · show (s.charges ++ [ch]).length + (adders.erase i).card = s.started
    omega
  · show ∀ j, Place (s.charges ++ [ch]).length _ j _
    rw [hlen]
    exact (Function.forall_update_iff s.pc (Place _ _)).mpr ⟨hi', hj⟩
  · intro r hr
    obtain ⟨n, hn, hfin, htotal⟩ := h.reports r hr
    show ∃ n ≤ (s.charges ++ [ch]).length, r.finished ≤ n ∧
      r.total = chargedTo ((s.charges ++ [ch]).take n) r.month
    exact ⟨n, by omega, hfin, by rw [htotal, List.take_append_of_le_length hn]⟩

/-- A step in order keeps the invariant. -/
theorem LedgerInv.step {s' : SpendSystem ι} (h : s.LedgerInv) {e : SpendEvent ι}
    (hin : s.InOrder e) (hstep : s.step e = some s') : s'.LedgerInv := by
  obtain ⟨_, _, hplace⟩ := h.clients
  -- there is no shared ledger, so no client is waiting for one
  have hoffline : ∀ i, (s.pc i).offline = true := fun i => (hplace i).offline
  have hlocal : s.enforcer.spendBackend ≠ true := by simp [h.inMemory]
  cases step_cases hstep with
  | addIgnored | checkIgnored => exact h
  | addStarted i hpc => exact h.addStart _ _ _ hpc
  | addAnswered _ _ hshared | addFailed _ _ hshared | readStale _ _ hshared =>
    exact absurd hshared hlocal
  | addLocal i hpc =>
    obtain ⟨hkey, hexact⟩ := hin _ (by rw [hpc]; rfl)
    exact h.addFinish _ hpc hkey (hexact _ (by rw [hpc]; rfl))
  | addSettled i hpc | readFetched i hpc | readFinished i hpc => exact nomatch hpc ▸ hoffline i
  | checkStarted i hpc | usageStarted i hpc => exact h.move _ rfl (by rw [hpc]; rfl) le_rfl
  | readKeyed i hpc =>
    have hn := (hplace i).finished
    rw [hpc] at hn
    exact h.move _ rfl (by rw [hpc]; rfl) hn
  | readCached i hpc =>
    have hreport := h.report hpc (hin _ (by rw [hpc]; rfl))
    refine hreport.move _ rfl ?_ (Nat.zero_le _)
    show _ = (s.pc i).adding
    rw [hpc]
    rfl
  | remoteAdded => exact ⟨h.inMemory, h.tallied, h.clients, h.reports⟩

/-- Without a shared ledger, a run that enters every lock region in the order of the
    months, with sums that are not rounded, keeps every charge. -/
theorem spendKept_of_allSteps (enforcer : Enforcer) (hlocal : enforcer.spendBackend = false)
    (tenantID : String) (ledger : Month → List Rat) (now : Int)
    (events : List (SpendEvent ι)) (s : SpendSystem ι)
    (hin : AllSteps step InOrder (initial enforcer tenantID ledger now) events)
    (hrun : run (initial enforcer tenantID ledger now) events = some s) : s.SpendKept :=
  (runOption_inv_of_allSteps step InOrder LedgerInv (fun _ _ _ hin hstep h => h.step hin hstep)
    hin hrun (ledgerInv_initial enforcer hlocal tenantID ledger now)).spendKept

/-- The first instant of February 2026, UTC. -/
def february : Int := 20485 * dayNanos

/-- A charge in January, one in February, and a report in February. -/
def orderedRun : List (SpendEvent Nat) :=
  [.addStart 0 3 (february - 1), .addFinish 0 (february - 1), .addStart 1 5 february,
    .addFinish 1 february, .usageStart 2 february, .readKey 2 february, .readLock 2 february]

theorem orderedRun_spendKept :
    ∃ s, run (initial { defaults := {} } "acme" (fun _ => []) 0) orderedRun = some s ∧
      s.reports.map (·.total) = [5] ∧ s.SpendKept := by
  obtain ⟨s, hs, htotal⟩ :
      ∃ s, run (initial { defaults := {} } "acme" (fun _ => []) 0) orderedRun = some s ∧
        s.reports.map (·.total) = [5] := by decide +kernel
  exact ⟨s, hs, htotal, spendKept_of_allSteps { defaults := {} } rfl "acme" (fun _ => []) 0
    orderedRun s (by decide +kernel) hs⟩

/-- The January charge takes the lock after the February one. -/
def lateCharge : List (SpendEvent Nat) :=
  [.addStart 0 3 (february - 1), .addStart 1 5 february, .addFinish 1 february,
    .addFinish 0 february, .usageStart 2 february, .readKey 2 february, .readLock 2 february]

/-- The report of February, made after both charges, is zero. -/
theorem lateCharge_not_spendKept :
    ∃ s, run (initial { defaults := {} } "acme" (fun _ => []) 0) lateCharge = some s ∧
      s.reports.map (·.total) = [0] ∧ ¬ s.SpendKept := by
  decide +kernel

end SpendSystem

end MockAgents
