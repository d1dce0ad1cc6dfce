import Mathlib.Algebra.BigOperators.Group.Finset.Basic
import Mathlib.Algebra.Order.BigOperators.Group.Finset
import Mathlib.Tactic.Linarith
import MockAgents.Quota.Spend

/-!
# What the spend cache covers

With a shared ledger the counter caches the ledger's total. Its answers are written to
the counter in a lock region after the one that asked for them, so an older answer can
overwrite a newer one; and an amount the ledger did not take, which `AddSpend` adds to
the counter, is overwritten by the next answer. Within one month, in every run without
either and without a sum that is rounded, what `CheckSpend` compares with the cap is at
least what the replica's finished `AddSpend` calls charged.
-/

namespace MockAgents

open Function (forall_update_iff update update_of_ne update_self)

/-- The sum of the amounts of some charges. -/
def spent (charges : List Charge) : Rat := (charges.map (·.usd)).sum

def SpendEvent.InMonth {ι : Type} (month : Month) : SpendEvent ι → Prop
  | .addStart _ _ now | .addFinish _ now | .usageStart _ now | .readKey _ now
  | .readLock _ now | .readFinish _ now => monthKey now = month
  | .addBackend .. | .checkStart .. | .readBackend .. | .remoteAdd .. => True

instance {ι : Type} (month : Month) (e : SpendEvent ι) : Decidable (e.InMonth month) :=
  match e with
  | .addStart _ _ now | .addFinish _ now | .usageStart _ now | .readKey _ now
  | .readLock _ now | .readFinish _ now => inferInstanceAs (Decidable (monthKey now = month))
  | .addBackend .. | .checkStart .. | .readBackend .. | .remoteAdd .. =>
    inferInstanceAs (Decidable True)

namespace SpendSystem

variable {ι : Type}

/-- `CheckSpend` compares the cap with at least the amounts of the `AddSpend` calls that
    had finished when it started, and with at least the total each of them came to; so it
    refuses if one of these has reached the cap. -/
def Covered (s : SpendSystem ι) : Prop :=
  ∀ r ∈ s.reports, r.call = .check →
    spent (s.charges.take r.finished) ≤ r.total ∧
    (∀ ch ∈ s.charges.take r.finished, ch.total ≤ r.total) ∧
    (s.spendCap ≤ spent (s.charges.take r.finished) → r.allowed = false) ∧
    ∀ ch ∈ s.charges.take r.finished, s.spendCap ≤ ch.total → r.allowed = false

/-- The condition on a step: an answer is written to the counter only if the ledger has
    taken every amount charged so far, and if no answer that the ledger gave later has
    been written; and no sum is rounded. -/
def InSequence (s : SpendSystem ι) : SpendEvent ι → Prop
  | .addFinish i _ | .readFinish i _ =>
    ∀ month ∈ (s.pc i).key,
      (∀ a ∈ (s.pc i).answer,
        (∀ ch ∈ s.charges, ch.accepted = true) ∧ s.installed month ≤ a.version) ∧
      ((s.pc i).answer.isNone →
        ∀ usd ∈ (s.pc i).amount, AddsExactly (s.counter month).usd usd)
  | .addBackend i _ => ∀ month ∈ (s.pc i).key, ∀ usd ∈ (s.pc i).amount,
      AddsExactly (ledgerTotal (s.ledger month)) usd
  | .remoteAdd month usd => AddsExactly (ledgerTotal (s.ledger month)) usd
  | _ => True

instance (s : SpendSystem ι) : Decidable s.Covered :=
  inferInstanceAs (Decidable (∀ r ∈ s.reports, _ → _))

instance (s : SpendSystem ι) (e : SpendEvent ι) : Decidable (s.InSequence e) :=
  match e with
  | .addFinish .. | .readFinish .. =>
    inferInstanceAs (Decidable (∀ month ∈ _, (∀ a ∈ _, _ ∧ _) ∧ (_ → ∀ usd ∈ _, _)))
  | .addBackend .. => inferInstanceAs (Decidable (∀ month ∈ _, ∀ usd ∈ _, _))
  | .remoteAdd .. => inferInstanceAs (Decidable (AddsExactly _ _))
  | .addStart .. | .checkStart .. | .usageStart .. | .readKey .. | .readLock ..
  | .readBackend .. => inferInstanceAs (Decidable True)

end SpendSystem

/-! ## Sums -/

theorem spent_append (cs : List Charge) (c : Charge) : spent (cs ++ [c]) = spent cs + c.usd := by
  simp [spent]

theorem spent_take_le {cs : List Charge} (h : ∀ c ∈ cs, 0 ≤ c.usd) (n : Nat) :
    spent (cs.take n) ≤ spent cs := by
  have hdrop : 0 ≤ spent (cs.drop n) := by
    refine List.sum_nonneg fun x hx => ?_
    obtain ⟨c, hc, rfl⟩ := List.mem_map.mp hx
    exact h c (List.mem_of_mem_drop hc)
  have hsplit : spent cs = spent (cs.take n) + spent (cs.drop n) := by
    rw [spent, spent, spent, ← List.sum_append, ← List.map_append, List.take_append_drop]
  linarith

theorem sum_take_eq_sum_range (l : List Rat) (n : Nat) :
    (l.take n).sum = ∑ k ∈ Finset.range n, l.getD k 0 := by
  induction n with
  | zero => simp
  | succ n ih =>
    rw [Finset.sum_range_succ, ← ih, List.take_add_one]
    cases h : l[n]? <;> simp [List.getD, h]

variable {l : List Rat} {entries : Finset Nat}

/-- Some of the first entries of a ledger sum to at most all of them. -/
theorem sum_entries_le_sum_take (hl : ∀ x ∈ l, 0 ≤ x) {n : Nat} (h : ∀ k ∈ entries, k < n) :
    ∑ k ∈ entries, l.getD k 0 ≤ (l.take n).sum := by
  rw [sum_take_eq_sum_range]
  refine Finset.sum_le_sum_of_subset_of_nonneg (fun k hk => Finset.mem_range.mpr (h k hk)) ?_
  intro k _ _
  rw [List.getD_eq_getElem?_getD]
  cases hk : l[k]? with
  | none => exact le_rfl
  | some x => exact hl x (List.mem_of_getElem? hk)

theorem sum_take_mono (hl : ∀ x ∈ l, 0 ≤ x) {m n : Nat} (h : m ≤ n) :
    (l.take m).sum ≤ (l.take n).sum := by
  rw [sum_take_eq_sum_range l m]
  exact sum_entries_le_sum_take hl fun k hk => (Finset.mem_range.mp hk).trans_le h

/-! ## The books -/

/-- An answer the ledger gave: the sum of some first entries. -/
def Answer.Of (l : List Rat) (a : Answer) : Prop :=
  a.version ≤ l.length ∧ a.total = (l.take a.version).sum

theorem Answer.Of.append {a : Answer} (h : a.Of l) (x : Rat) : a.Of (l ++ [x]) := by
  obtain ⟨hle, htotal⟩ := h
  exact ⟨by simp; omega, by rw [List.take_append_of_le_length hle, htotal]⟩

/-- The ledger `l`, the counter's amount `usd` and the finished charges. The counter
    covers the charges. Until a charge was not accepted, the counter is the sum of the
    first `n` ledger entries, and the charges are those at the indices `entries`. -/
structure Books (l : List Rat) (n : Nat) (usd : Rat) (charges : List Charge)
    (entries : Finset Nat) : Prop where
  nonneg : ∀ x ∈ l, 0 ≤ x
  exact : ledgerTotal l = l.sum
  version : n ≤ l.length
  charges_nonneg : ∀ ch ∈ charges, 0 ≤ ch.usd
  covered : spent charges ≤ usd
  total_le : ∀ ch ∈ charges, ch.total ≤ usd
  entries_lt : ∀ k ∈ entries, k < n
  sums : (∀ ch ∈ charges, ch.accepted = true) →
    usd = (l.take n).sum ∧ spent charges = ∑ k ∈ entries, l.getD k 0

namespace Books

variable {l : List Rat} {n : Nat} {usd : Rat} {charges : List Charge} {entries : Finset Nat}

section

variable (h : Books l n usd charges entries)
include h

theorem append {x : Rat} (hx : 0 ≤ x) (hexact : AddsExactly (ledgerTotal l) x) :
    Books (l ++ [x]) n usd charges entries where
  nonneg := List.forall_mem_append.mpr ⟨h.nonneg, List.forall_mem_singleton.mpr hx⟩
  exact := by
    rw [List.sum_append, List.sum_singleton, ← h.exact, ← hexact]
    exact List.foldl_append
  version := by
    have := h.version
    simp
    omega
  charges_nonneg := h.charges_nonneg
  covered := h.covered
  total_le := h.total_le
  entries_lt := h.entries_lt
  sums := by
    intro hacc
    obtain ⟨husd, hspent⟩ := h.sums hacc
    refine ⟨by rw [List.take_append_of_le_length h.version, husd], ?_⟩
    rw [hspent]
    refine Finset.sum_congr rfl fun k hk => ?_
    have hlt := (h.entries_lt k hk).trans_le h.version
    rw [List.getD_eq_getElem?_getD, List.getD_eq_getElem?_getD, List.getElem?_append_left hlt]

theorem charges_nonneg_append {ch : Charge} (husd : 0 ≤ ch.usd) :
    ∀ ch' ∈ charges ++ [ch], 0 ≤ ch'.usd :=
  List.forall_mem_append.mpr ⟨h.charges_nonneg, List.forall_mem_singleton.mpr husd⟩

/-- A charge the ledger did not take is added to the counter. -/
theorem bump {ch : Charge} (husd : 0 ≤ ch.usd) (hacc : ch.accepted = false)
    (htotal : ch.total = usd + ch.usd) :
    Books l n (usd + ch.usd) (charges ++ [ch]) entries where
  nonneg := h.nonneg
  exact := h.exact
  version := h.version
  charges_nonneg := h.charges_nonneg_append husd
  covered := by
    have := h.covered
    rw [spent_append]
    linarith
  total_le := by
    refine List.forall_mem_append.mpr ⟨fun ch' hch' => ?_, by simp [htotal]⟩
    have := h.total_le ch' hch'
    linarith
  entries_lt := h.entries_lt
  sums := fun hall => by
    have := hall ch (by simp)
    rw [hacc] at this
    cases this

theorem install {a : Answer} (ha : a.Of l) (hall : ∀ ch ∈ charges, ch.accepted = true)
    (hn : n ≤ a.version) : Books l a.version a.total charges entries := by
  obtain ⟨husd, hspent⟩ := h.sums hall
  have hle : usd ≤ a.total := by
    rw [husd, ha.2]
    exact sum_take_mono h.nonneg hn
  exact {
    nonneg := h.nonneg
    exact := h.exact
    version := ha.1
    charges_nonneg := h.charges_nonneg
    covered := h.covered.trans hle
    total_le := fun ch hch => (h.total_le ch hch).trans hle
    entries_lt := fun k hk => (h.entries_lt k hk).trans_le hn
    sums := fun _ => ⟨ha.2, hspent⟩ }

theorem charge {ch : Charge} (husd : 0 ≤ ch.usd) (hall : ∀ ch ∈ charges, ch.accepted = true)
    (htotal : ch.total = usd) {k : Nat} (hk : k < n) (hentry : l[k]? = some ch.usd)
    (hnew : k ∉ entries) : Books l n usd (charges ++ [ch]) (insert k entries) := by
  obtain ⟨heq, hspent⟩ := h.sums hall
  have hget : l.getD k 0 = ch.usd := by rw [List.getD_eq_getElem?_getD, hentry]; rfl
  have hsum : spent (charges ++ [ch]) = ∑ k ∈ insert k entries, l.getD k 0 := by
    rw [spent_append, Finset.sum_insert hnew, hget, hspent, add_comm]
  have hlt : ∀ j ∈ insert k entries, j < n := by
    intro j hj
    obtain rfl | hj := Finset.mem_insert.mp hj
    · exact hk
    · exact h.entries_lt j hj
  exact {
    nonneg := h.nonneg
    exact := h.exact
    version := h.version
    charges_nonneg := h.charges_nonneg_append husd
    covered := by
      rw [hsum, heq]
      exact sum_entries_le_sum_take h.nonneg hlt
    total_le := List.forall_mem_append.mpr
      ⟨h.total_le, List.forall_mem_singleton.mpr (le_of_eq htotal)⟩
    entries_lt := hlt
    sums := fun _ => ⟨heq, hsum⟩ }

end

end Books

/-! ## The clients -/

/-- What a client knows about the month's ledger: its key is the month, an answer is one
    the ledger gave, and the answer to `AddSpend` ends with the client's own entry, which
    is not yet among the finished ones. -/
def SpendPc.Knows (month : Month) (l : List Rat) (entries : Finset Nat) : SpendPc → Prop
  | .keyed usd m | .answered usd m none => m = month ∧ 0 < usd
  | .answered usd m (some a) => m = month ∧ 0 < usd ∧ a.Of l ∧
      ∃ k, a.version = k + 1 ∧ l[k]? = some usd ∧ k ∉ entries
  | .reading _ _ m | .stale _ _ m => m = month
  | .fetched _ _ m ans => m = month ∧ ∀ a ∈ ans, a.Of l
  | .idle | .called .. => True

/-- The ledger entry an `AddSpend` call has made. -/
def SpendPc.version : SpendPc → Option Nat
  | .answered _ _ (some a) => some a.version
  | _ => none

theorem SpendPc.Knows.append {month : Month} {pc : SpendPc} (h : pc.Knows month l entries)
    (x : Rat) : pc.Knows month (l ++ [x]) entries := by
  cases pc with
  | answered usd m ans =>
    cases ans with
    | none => exact h
    | some a =>
      obtain ⟨hm, husd, ha, k, hk, hentry, hnew⟩ := h
      have hlt : k < l.length := by
        have := ha.1
        omega
      exact ⟨hm, husd, ha.append x, k, hk, by rw [List.getElem?_append_left hlt, hentry], hnew⟩
  | fetched call n m ans => exact ⟨h.1, fun a ha => (h.2 a ha).append x⟩
  | idle | keyed | called | reading | stale => exact h

theorem SpendPc.Knows.insert {month : Month} {l : List Rat} {entries : Finset Nat}
    {pc : SpendPc} (h : pc.Knows month l entries) {k : Nat} (hk : pc.version ≠ some (k + 1)) :
    pc.Knows month l (insert k entries) := by
  cases pc with
  | answered usd m ans =>
    cases ans with
    | none => exact h
    | some a =>
      obtain ⟨hm, husd, ha, j, hj, hentry, hnew⟩ := h
      have hjk : j ≠ k := by
        rintro rfl
        exact hk (congrArg some hj)
      exact ⟨hm, husd, ha, j, hj, hentry, by simp [hjk, hnew]⟩
  | idle | keyed | called | reading | stale | fetched => exact h

theorem SpendPc.Knows.version_le {month : Month} {pc : SpendPc} (h : pc.Knows month l entries)
    {v : Nat} (hv : pc.version = some v) : v ≤ l.length := by
  cases pc with
  | answered usd m ans =>
    cases ans with
    | none => cases hv
    | some a =>
      cases hv
      exact h.2.2.1.1
  | idle | keyed | called | reading | stale | fetched => cases hv

/-! ## The invariant -/

namespace SpendSystem

variable {ι : Type}

/-- A report that covers the charges it has to cover. -/
structure Reported (s : SpendSystem ι) (r : SpendReport) : Prop where
  finished : r.finished ≤ s.charges.length
  covered : spent (s.charges.take r.finished) ≤ r.total
  total_le : ∀ ch ∈ s.charges.take r.finished, ch.total ≤ r.total
  allowed : r.allowed = decide (r.total < s.spendCap)

/-- The invariant of a run in sequence, within one month. -/
structure CacheInv (month : Month) (s : SpendSystem ι) : Prop where
  shared : s.enforcer.spendBackend = true
  books : ∃ entries,
    Books (s.ledger month) (s.installed month) (s.counter month).usd s.charges entries ∧
    ∀ i, (s.pc i).Knows month (s.ledger month) entries
  distinct : ∀ i j v, (s.pc i).version = some v → (s.pc j).version = some v → i = j
  callers : ∀ i, (s.pc i).finished ≤ s.charges.length
  reports : ∀ r ∈ s.reports, s.Reported r

theorem cacheInv_initial (month : Month) (enforcer : Enforcer)
    (hshared : enforcer.spendBackend = true) (tenantID : String) (ledger : Month → List Rat)
    (hledger : ∀ x ∈ ledger month, 0 ≤ x)
    (hexact : ledgerTotal (ledger month) = (ledger month).sum) (now : Int) :
    (initial enforcer tenantID ledger now : SpendSystem ι).CacheInv month where
  shared := hshared
  books := ⟨∅, ⟨hledger, hexact, Nat.zero_le _, nofun, le_rfl, nofun,
    fun k h => absurd h (Finset.notMem_empty k), fun _ => ⟨rfl, rfl⟩⟩, fun _ => trivial⟩
  distinct := fun _ _ _ h => nomatch h
  callers := fun _ => le_rfl
  reports := nofun

variable {s : SpendSystem ι}

theorem Reported.of_eq {s' : SpendSystem ι} {r : SpendReport} (h : s.Reported r)
    (hcharges : s'.charges = s.charges) (hcap : s'.spendCap = s.spendCap) : s'.Reported r := by
  refine ⟨?_, ?_, ?_, ?_⟩
  · rw [hcharges]
    exact h.finished
  · rw [hcharges]
    exact h.covered
  · rw [hcharges]
    exact h.total_le
  · rw [hcap]
    exact h.allowed

theorem Reported.charge {r : SpendReport} (h : s.Reported r) (ch : Charge) :
    (s.charge ch).Reported r := by
  have htake : (s.charges ++ [ch]).take r.finished = s.charges.take r.finished :=
    List.take_append_of_le_length h.finished
  refine ⟨h.finished.trans (by simp [SpendSystem.charge]), ?_, ?_, h.allowed⟩
  · show spent ((s.charges ++ [ch]).take r.finished) ≤ r.total
    rw [htake]
    exact h.covered
  · show ∀ ch' ∈ (s.charges ++ [ch]).take r.finished, ch'.total ≤ r.total
    rw [htake]
    exact h.total_le

variable {month : Month}

/-- A reading call returns the counter's amount. -/
theorem CacheInv.report (h : s.CacheInv month) (call : ReadCall) {n : Nat}
    (hn : n ≤ s.charges.length) : (s.report call n month (s.counter month).usd).CacheInv month := by
  obtain ⟨entries, hbooks, hknows⟩ := h.books
  refine ⟨h.shared, ⟨entries, hbooks, hknows⟩, h.distinct, h.callers,
    List.forall_mem_append.mpr ⟨fun r hr => (h.reports r hr).of_eq rfl rfl, ?_⟩⟩
  exact List.forall_mem_singleton.mpr {
    finished := hn
    covered := (spent_take_le hbooks.charges_nonneg n).trans hbooks.covered
    total_le := fun ch hch => hbooks.total_le ch (List.mem_of_mem_take hch)
    allowed := rfl }

/-- A lock region that leaves the counter as it found it. -/
theorem CacheInv.store (h : s.CacheInv month) : (s.store (s.counter month)).CacheInv month := by
  obtain ⟨entries, hbooks, hknows⟩ := h.books
  have hcounter := s.counter_store (s.counter_month month)
  refine ⟨h.shared, ⟨entries, ?_, hknows⟩, h.distinct, h.callers, fun r hr => ?_⟩
  · rw [hcounter]
    exact hbooks
  · exact (h.reports r hr).of_eq rfl rfl

/-- An answer is written to the counter. -/
theorem CacheInv.install (h : s.CacheInv month) {a : Answer} (ha : a.Of (s.ledger month))
    (hall : ∀ ch ∈ s.charges, ch.accepted = true) (hversion : s.installed month ≤ a.version)
    (now : Int) : (s.install month a now).CacheInv month := by
  obtain ⟨entries, hbooks, hknows⟩ := h.books
  have hcounter : (s.install month a now).counter month =
      { s.counter month with usd := a.total, expiry := now + spendCacheTTL } :=
    s.counter_store (s.counter_month month)
  have hinstalled : (s.install month a now).installed month = a.version :=
    update_self _ _ _
  refine ⟨h.shared, ⟨entries, ?_, hknows⟩, h.distinct, h.callers, fun r hr => ?_⟩
  · rw [hcounter, hinstalled]
    exact hbooks.install ha hall hversion
  · exact (h.reports r hr).of_eq rfl rfl

variable {usd : Rat}

/-- The shared ledger grows. -/
theorem CacheInv.increment (h : s.CacheInv month) (m : Month) (husd : 0 < usd)
    (hexact : AddsExactly (ledgerTotal (s.ledger m)) usd) :
    (s.increment m usd).CacheInv month := by
  obtain ⟨entries, hbooks, hknows⟩ := h.books
  have hreports : ∀ r ∈ s.reports, (s.increment m usd).Reported r := fun r hr =>
    (h.reports r hr).of_eq rfl rfl
  by_cases hm : m = month
  · subst hm
    have hledger : (s.increment m usd).ledger m = s.ledger m ++ [usd] := update_self _ _ _
    refine ⟨h.shared, ⟨entries, ?_, ?_⟩, h.distinct, h.callers, hreports⟩
    · rw [hledger]
      exact hbooks.append husd.le hexact
    · rw [hledger]
      exact fun i => (hknows i).append usd
  · have hledger : (s.increment m usd).ledger month = s.ledger month :=
      update_of_ne (Ne.symm hm) _ _
    refine ⟨h.shared, ⟨entries, ?_, ?_⟩, h.distinct, h.callers, hreports⟩
    · rw [hledger]
      exact hbooks
    · rw [hledger]
      exact hknows

variable [DecidableEq ι]

/-- Two clients at the same ledger entry are one, also after a client moved to where no
    other is. -/
theorem distinct_update {f : ι → SpendPc}
    (h : ∀ i j v, (f i).version = some v → (f j).version = some v → i = j) (i : ι)
    (pc : SpendPc) (hpc : ∀ j ≠ i, ∀ v, pc.version = some v → (f j).version ≠ some v) :
    ∀ j k v, (update f i pc j).version = some v →
      (update f i pc k).version = some v → j = k := by
  intro j k v hj hk
  by_cases hji : j = i <;> by_cases hki : k = i
  · rw [hji, hki]
  · subst hji
    rw [update_self] at hj
    rw [update_of_ne hki] at hk
    exact absurd hk (hpc k hki v hj)
  · subst hki
    rw [update_self] at hk
    rw [update_of_ne hji] at hj
    exact absurd hj (hpc j hji v hk)
  · rw [update_of_ne hji] at hj
    rw [update_of_ne hki] at hk
    exact h j k v hj hk

section

variable (h : s.CacheInv month)
include h

/-- A client moves on without a new ledger entry. -/
theorem CacheInv.move {i : ι} {pc : SpendPc} (now : Int)
    (hpc : ∀ entries, (s.pc i).Knows month (s.ledger month) entries →
      pc.Knows month (s.ledger month) entries)
    (hversion : pc.version = none) (hfin : pc.finished ≤ s.charges.length) :
    (s.move i pc now).CacheInv month := by
  obtain ⟨entries, hbooks, hknows⟩ := h.books
  have hdistinct := distinct_update h.distinct i pc fun j _ v hv => by
    rw [hversion] at hv
    cases hv
  exact {
    shared := h.shared
    books := ⟨entries, hbooks, (forall_update_iff s.pc fun _ pc =>
      pc.Knows month (s.ledger month) entries).mpr ⟨hpc entries (hknows i), fun j _ => hknows j⟩⟩
    distinct := hdistinct
    callers := (forall_update_iff s.pc fun _ pc => pc.finished ≤ s.charges.length).mpr
      ⟨hfin, fun j _ => h.callers j⟩
    reports := fun r hr => (h.reports r hr).of_eq rfl rfl }

/-- The ledger takes the amount of an `AddSpend` call and answers. -/
theorem CacheInv.addBackend (i : ι) (husd : 0 < usd)
    (hexact : AddsExactly (ledgerTotal (s.ledger month)) usd) (now : Int) :
    ((s.increment month usd).move i
      (.answered usd month (some ((s.increment month usd).answer month))) now).CacheInv month := by
  obtain ⟨entries, hbooks, hknows⟩ := h.books
  have hledger : (s.increment month usd).ledger month = s.ledger month ++ [usd] :=
    update_self _ _ _
  have happend := hbooks.append husd.le hexact
  have hanswer : (s.increment month usd).answer month =
      ⟨(s.ledger month ++ [usd]).sum, (s.ledger month).length + 1⟩ := by
    simp [answer, hledger, happend.exact]
  have hnew : (s.ledger month).length ∉ entries := fun hmem =>
    absurd ((hbooks.entries_lt _ hmem).trans_le hbooks.version) (lt_irrefl _)
  have hi : (SpendPc.answered usd month (some ((s.increment month usd).answer month))).Knows
      month (s.ledger month ++ [usd]) entries := by
    rw [hanswer]
    refine ⟨rfl, husd, ⟨by simp, ?_⟩, (s.ledger month).length, rfl, by simp, hnew⟩
    simp
  -- the new entry comes after those of all other clients
  have hdistinct := distinct_update h.distinct i
    (.answered usd month (some ((s.increment month usd).answer month))) fun j _ v hv hj => by
      have hle := (hknows j).version_le hj
      rw [hanswer] at hv
      have hv : (s.ledger month).length + 1 = v := Option.some.inj hv
      omega
  exact {
    shared := h.shared
    books := by
      refine ⟨entries, ?_, ?_⟩
      · show Books ((s.increment month usd).ledger month) _ _ _ entries
        rw [hledger]
        exact happend
      · show ∀ j, (update s.pc i _ j).Knows month
          ((s.increment month usd).ledger month) entries
        rw [hledger]
        exact (forall_update_iff s.pc fun _ pc => pc.Knows month _ entries).mpr
          ⟨hi, fun j _ => (hknows j).append usd⟩
    distinct := hdistinct
    callers := (forall_update_iff s.pc fun _ pc => pc.finished ≤ s.charges.length).mpr
      ⟨Nat.zero_le _, fun j _ => h.callers j⟩
    reports := fun r hr => (h.reports r hr).of_eq rfl rfl }

/-- The last lock region of `AddSpend`, if the books are right with the new counter and
    the charge in them. -/
theorem CacheInv.charge (i : ι) {c : Counter} (hc : c.month = month) (installed : Month → Nat)
    (ch : Charge) (now : Int)
    (hbooks : ∃ entries,
      Books (s.ledger month) (installed month) c.usd (s.charges ++ [ch]) entries ∧
      ∀ j ≠ i, (s.pc j).Knows month (s.ledger month) entries) :
    (({ s.store c with installed := installed }.charge ch).move i .idle now).CacheInv month := by
  obtain ⟨entries, hbooks, hknows⟩ := hbooks
  have hcounter : (s.store c).counter month = c := s.counter_store hc
  have hlen : s.charges.length ≤ (s.charges ++ [ch]).length := by simp
  exact {
    shared := h.shared
    books := by
      refine ⟨entries, ?_, (forall_update_iff s.pc fun _ pc =>
        pc.Knows month (s.ledger month) entries).mpr ⟨trivial, hknows⟩⟩
      show Books _ _ ((s.store c).counter month).usd _ entries
      rw [hcounter]
      exact hbooks
    distinct := distinct_update h.distinct i .idle fun _ _ _ hv => nomatch hv
    callers := (forall_update_iff s.pc fun _ pc =>
      pc.finished ≤ (s.charges ++ [ch]).length).mpr
      ⟨Nat.zero_le _, fun j _ => (h.callers j).trans hlen⟩
    reports := fun r hr => ((h.reports r hr).charge ch).of_eq rfl rfl }

theorem CacheInv.settle_failed (i : ι) (husd : 0 < usd)
    (hexact : AddsExactly (s.counter month).usd usd) (now : Int) :
    ((s.settle usd month none now).move i .idle now).CacheInv month := by
  obtain ⟨entries, hbooks, hknows⟩ := h.books
  let c : Counter := { s.counter month with usd := Float64.add (s.counter month).usd usd }
  let ch : Charge := ⟨month, usd, false, Float64.add (s.counter month).usd usd⟩
  have hc : c.month = month := s.counter_month month
  have hbump : Books (s.ledger month) (s.installed month) c.usd (s.charges ++ [ch]) entries := by
    show Books _ _ (Float64.add (s.counter month).usd usd) _ _
    rw [hexact]
    exact hbooks.bump (show 0 ≤ ch.usd from husd.le) rfl hexact
  exact h.charge i hc s.installed ch now ⟨entries, hbump, fun j _ => hknows j⟩

theorem CacheInv.settle_answered {i : ι} {a : Answer} (hpc : s.pc i = .answered usd month (some a))
    (hall : ∀ ch ∈ s.charges, ch.accepted = true) (hversion : s.installed month ≤ a.version)
    (now : Int) : ((s.settle usd month (some a) now).move i .idle now).CacheInv month := by
  obtain ⟨entries, hbooks, hknows⟩ := h.books
  have hi := hknows i
  rw [hpc] at hi
  obtain ⟨_, husd, ha, k, hk, hentry, hnew⟩ := hi
  have hinstalled := hbooks.install ha hall hversion
  have hcharge : Books (s.ledger month) a.version a.total
      (s.charges ++ [⟨month, usd, true, a.total⟩]) (insert k entries) :=
    hinstalled.charge husd.le hall rfl (by omega) hentry hnew
  let c : Counter :=
    { s.counter month with usd := a.total, expiry := now + spendCacheTTL }
  have hc : c.month = month := s.counter_month month
  refine h.charge i hc (update s.installed month a.version) _ now
    ⟨insert k entries, ?_, fun j hj => (hknows j).insert fun hv => ?_⟩
  · rw [update_self]
    exact hcharge
  · exact hj (h.distinct j i (k + 1) hv (by rw [hpc, ← hk]; rfl))

/-- A client starts an `AddSpend` of the month. -/
theorem CacheInv.addStart (i : ι) (husd : 0 < usd) {key : Month} (hkey : key = month) (now : Int) :
    { s.move i (.keyed usd key) now with started := s.started + 1 }.CacheInv month := by
  have hmove : (s.move i (.keyed usd key) now).CacheInv month :=
    h.move now (fun _ _ => ⟨hkey, husd⟩) rfl (Nat.zero_le _)
  exact ⟨hmove.shared, hmove.books, hmove.distinct, hmove.callers, fun r hr =>
    (hmove.reports r hr).of_eq rfl rfl⟩

/-- The last lock region of a reading call, with or without an answer. -/
theorem CacheInv.readFinish (i : ι) (call : ReadCall) {n : Nat} (hn : n ≤ s.charges.length)
    {ans : Option Answer}
    (hans : ∀ a ∈ ans, a.Of (s.ledger month) ∧ (∀ ch ∈ s.charges, ch.accepted = true) ∧
      s.installed month ≤ a.version)
    (now : Int) :
    (((s.refresh month ans now).report call n month
      ((s.refresh month ans now).counter month).usd).move i .idle now).CacheInv month := by
  cases ans with
  | none => exact (h.store.report call hn).move now (fun _ _ => trivial) rfl (Nat.zero_le _)
  | some a =>
    obtain ⟨ha, hall, hversion⟩ := hans a rfl
    have hinstall := h.install ha hall hversion now
    exact (hinstall.report call hn).move now (fun _ _ => trivial) rfl (Nat.zero_le _)

end

theorem CacheInv.step {month : Month} {s s' : SpendSystem ι} (h : s.CacheInv month)
    {e : SpendEvent ι} (hmonth : e.InMonth month) (hseq : s.InSequence e)
    (hstep : s.step e = some s') : s'.CacheInv month := by
  obtain ⟨entries, hbooks, hknows⟩ := h.books
  -- what the client of the step knows, and which charges its call has to cover
  have hclient : ∀ {i : ι} {pc : SpendPc}, s.pc i = pc →
      pc.Knows month (s.ledger month) entries ∧ pc.finished ≤ s.charges.length := by
    rintro i _ rfl
    exact ⟨hknows i, h.callers i⟩
  cases step_cases hstep with
  | addIgnored | checkIgnored => exact h
  | addStarted i _ husd => exact h.addStart i husd hmonth _
  | addAnswered i hpc =>
    obtain ⟨⟨rfl, husd⟩, _⟩ := hclient hpc
    exact h.addBackend i husd (hseq _ (by rw [hpc]; rfl) _ (by rw [hpc]; rfl)) _
  | addFailed i hpc =>
    obtain ⟨⟨rfl, husd⟩, _⟩ := hclient hpc
    exact h.move _ (fun _ _ => ⟨rfl, husd⟩) rfl (Nat.zero_le _)
  | addLocal _ _ hlocal =>
    rw [h.shared] at hlocal
    cases hlocal
  | @addSettled i _ m ans _ hpc =>
    cases ans with
    | none =>
      obtain ⟨⟨rfl, husd⟩, _⟩ := hclient hpc
      have hexact := (hseq _ (by rw [hpc]; rfl)).2 (by rw [hpc]; rfl) _ (by rw [hpc]; rfl)
      exact h.settle_failed i husd hexact _
    | some a =>
      obtain ⟨⟨rfl, _⟩, _⟩ := hclient hpc
      obtain ⟨hall, hversion⟩ := (hseq m (by rw [hpc]; rfl)).1 a (by rw [hpc]; rfl)
      exact h.settle_answered hpc hall hversion _
  | checkStarted | usageStarted => exact h.move _ (fun _ _ => trivial) rfl le_rfl
  | readKeyed i hpc => exact h.move _ (fun _ _ => hmonth) rfl (hclient hpc).2
  | @readCached i call n m now hpc =>
    obtain ⟨hm, hn⟩ := hclient hpc
    obtain rfl : m = month := hm
    have hreport := h.store.report call hn
    rw [s.counter_store (s.counter_month m)] at hreport
    exact hreport.move now (fun _ _ => trivial) rfl (Nat.zero_le _)
  | @readStale i call n m now hpc =>
    obtain ⟨hm, hn⟩ := hclient hpc
    obtain rfl : m = month := hm
    exact h.store.move now (fun _ _ => rfl) rfl hn
  | @readFetched i call n m ok hpc =>
    obtain ⟨hm, hn⟩ := hclient hpc
    obtain rfl : m = month := hm
    refine h.move _ (fun _ _ => ⟨rfl, fun a ha => ?_⟩) rfl hn
    cases ok with
    | true =>
      cases ha
      exact ⟨le_rfl, by rw [answer, List.take_length]; exact hbooks.exact⟩
    | false => cases ha
  | @readFinished i call n m ans now hpc =>
    obtain ⟨⟨rfl, hans⟩, hn⟩ := hclient hpc
    refine h.readFinish i call hn (fun a ha => ⟨hans a ha, ?_⟩) now
    exact (hseq m (by rw [hpc]; rfl)).1 a (by rw [hpc]; exact ha)
  | remoteAdded husd => exact h.increment _ husd hseq

omit [DecidableEq ι] in
/-- The invariant gives the cover, and a cover that has reached the cap is refused. -/
theorem CacheInv.covered (h : s.CacheInv month) : s.Covered := by
  intro r hr _
  have hr := h.reports r hr
  have hrefused : s.spendCap ≤ r.total → r.allowed = false := fun hcap => by
    rw [hr.allowed]
    exact decide_eq_false (not_lt.mpr hcap)
  exact ⟨hr.covered, hr.total_le, fun hcap => hrefused (hcap.trans hr.covered),
    fun ch hch hcap => hrefused (hcap.trans (hr.total_le ch hch))⟩

/-- With a shared ledger, within one month, a run that writes every answer in sequence and
    rounds no sum keeps the cache covering the replica's charges. -/
theorem covered_of_allSteps (month : Month) (enforcer : Enforcer)
    (hshared : enforcer.spendBackend = true) (tenantID : String) (ledger : Month → List Rat)
    (hledger : ∀ x ∈ ledger month, 0 ≤ x)
    (hexact : ledgerTotal (ledger month) = (ledger month).sum) (now : Int)
    (events : List (SpendEvent ι)) (s : SpendSystem ι) (hmonth : ∀ e ∈ events, e.InMonth month)
    (hseq : AllSteps step InSequence (initial enforcer tenantID ledger now) events)
    (hrun : run (initial enforcer tenantID ledger now) events = some s) : s.Covered :=
  (runOption_inv_of_allSteps step _ (CacheInv month)
    (fun _ _ _ hP hstep h => h.step hP.1 hP.2 hstep) (hseq.and_of_forall hmonth) hrun
    (cacheInv_initial month enforcer hshared tenantID ledger hledger hexact now)).covered

/-- A month in which the tenant `acme` may spend 10. -/
def capped : Enforcer := { defaults := { monthlySpendUSD := 10 }, spendBackend := true }

/-- Two charges whose answers are written in the order the ledger gave them, then a
    check. -/
def sequencedRun : List (SpendEvent Nat) :=
  [.addStart 0 6 0, .addStart 1 6 0, .addBackend 0 true, .addBackend 1 true,
    .addFinish 0 0, .addFinish 1 0, .checkStart 2, .readKey 2 0, .readLock 2 0]

theorem sequencedRun_covered :
    ∃ s, run (initial capped "acme" (fun _ => []) 0) sequencedRun = some s ∧
      s.reports.map (fun r => (r.total, r.allowed)) = [(12, false)] ∧ s.Covered := by
  obtain ⟨s, hs, htotal⟩ : ∃ s, run (initial capped "acme" (fun _ => []) 0) sequencedRun = some s ∧
      s.reports.map (fun r => (r.total, r.allowed)) = [(12, false)] := by decide +kernel
  exact ⟨s, hs, htotal, covered_of_allSteps (monthKey 0) capped rfl "acme" (fun _ => [])
    (nofun) rfl 0 sequencedRun s (by decide) (by decide +kernel) hs⟩

/-- The first answer is written over the second. -/
def overtakenRun : List (SpendEvent Nat) :=
  [.addStart 0 6 0, .addStart 1 6 0, .addBackend 0 true, .addBackend 1 true,
    .addFinish 1 0, .addFinish 0 0, .checkStart 2, .readKey 2 0, .readLock 2 0]

/-- The ledger does not take a charge; the next refresh overwrites the local bump. -/
def droppedRun : List (SpendEvent Nat) :=
  [.addStart 0 12 0, .addBackend 0 false, .addFinish 0 0, .checkStart 0, .readKey 0 0,
    .readLock 0 0, .readBackend 0 true, .readFinish 0 0]

/-- After charges of 12 in either run, `CheckSpend` admits the tenant. -/
theorem uncoveredRuns_not_covered :
    (∃ s, run (initial capped "acme" (fun _ => []) 0) overtakenRun = some s ∧
      s.reports.map (fun r => (r.total, r.allowed)) = [(6, true)] ∧ ¬ s.Covered) ∧
    ∃ s, run (initial capped "acme" (fun _ => []) 0) droppedRun = some s ∧
      s.reports.map (fun r => (r.total, r.allowed)) = [(0, true)] ∧ ¬ s.Covered := by
  decide +kernel

end SpendSystem

end MockAgents
