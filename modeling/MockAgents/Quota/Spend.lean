import MockAgents.ForStd.Float64
import MockAgents.ForStd.Trace
import MockAgents.Quota.Enforcer

/-!
# Concurrent spend accounting

`SpendSystem` runs the `AddSpend`, `CheckSpend` and `Usage` calls of one tenant on one
replica. Its events are what the source does in one go: a reading of the clock for the
month key, one lock region, one call of the shared ledger. The ledger of a month is the
list of the amounts added to it, by this replica or another. Sums are those of `float64`,
which are rounded.

`charges` and `reports` record the finished calls. `installed` records, for every month,
how many ledger entries the answer last written to the counter was the sum of.
-/

namespace MockAgents

/-- The two calls that read the total; `Usage` has read the month it reports. -/
inductive ReadCall where
  | check
  | usage (label : Month)
  deriving DecidableEq

/-- A total the ledger answered, and the number of entries it is the sum of. -/
structure Answer where
  total : Rat
  version : Nat

/-- Where a client of the enforcer is. A failed ledger call has no answer; `finished`
    is the number of `AddSpend` calls that had finished when a reading call started. -/
inductive SpendPc where
  | idle
  | keyed (usd : Rat) (month : Month)
  | answered (usd : Rat) (month : Month) (answer : Option Answer)
  | called (call : ReadCall) (finished : Nat)
  | reading (call : ReadCall) (finished : Nat) (month : Month)
  | stale (call : ReadCall) (finished : Nat) (month : Month)
  | fetched (call : ReadCall) (finished : Nat) (month : Month) (answer : Option Answer)

def SpendPc.adding : SpendPc → Bool
  | .keyed .. | .answered .. => true
  | _ => false

def SpendPc.key : SpendPc → Option Month
  | .keyed _ m | .answered _ m _ | .reading _ _ m | .stale _ _ m | .fetched _ _ m _ => some m
  | .idle | .called .. => none

/-- The amount that an `AddSpend` call is charging. -/
def SpendPc.amount : SpendPc → Option Rat
  | .keyed usd _ | .answered usd _ _ => some usd
  | _ => none

/-- The answer of the ledger a client holds. -/
def SpendPc.answer : SpendPc → Option Answer
  | .answered _ _ ans | .fetched _ _ _ ans => ans
  | .idle | .keyed .. | .called .. | .reading .. | .stale .. => none

/-- The number of `AddSpend` calls that had finished before a reading call. -/
def SpendPc.finished : SpendPc → Nat
  | .called _ n | .reading _ n _ | .stale _ n _ | .fetched _ n _ _ => n
  | .idle | .keyed .. | .answered .. => 0

/-- A finished `AddSpend`: whether the shared ledger took the amount, and the total the
    call left in the counter. -/
structure Charge where
  month : Month
  usd : Rat
  accepted : Bool
  total : Rat

/-- A finished `CheckSpend` or `Usage`: the month key and the total of `currentSpend`,
    and the verdict of `CheckSpend`. -/
structure SpendReport where
  call : ReadCall
  finished : Nat
  month : Month
  total : Rat
  allowed : Bool

/-- The enforcer, the shared ledger, the latest clock reading and the clients. `started`
    counts the `AddSpend` calls that were not ignored. -/
structure SpendSystem (ι : Type) where
  enforcer : Enforcer
  tenantID : String
  ledger : Month → List Rat
  now : Int
  pc : ι → SpendPc
  started : Nat
  charges : List Charge
  reports : List SpendReport
  installed : Month → Nat

/-- The steps of the calls, with their clock readings and, for the ledger calls, whether
    they succeed. `remoteAdd` is a charge of another replica. -/
inductive SpendEvent (ι : Type) where
  | addStart (i : ι) (usd : Rat) (now : Int)
  | addBackend (i : ι) (ok : Bool)
  | addFinish (i : ι) (now : Int)
  | checkStart (i : ι)
  | usageStart (i : ι) (now : Int)
  | readKey (i : ι) (now : Int)
  | readLock (i : ι) (now : Int)
  | readBackend (i : ι) (ok : Bool)
  | readFinish (i : ι) (now : Int)
  | remoteAdd (month : Month) (usd : Rat)

/-- The sum of two amounts is not rounded. -/
def AddsExactly (x usd : Rat) : Prop := Float64.add x usd = x + usd

instance (x usd : Rat) : Decidable (AddsExactly x usd) := inferInstanceAs (Decidable (_ = _))

/-- The total of a ledger, as the backend computes it. -/
def ledgerTotal (ledger : List Rat) : Rat := ledger.foldl Float64.add 0

/-- The sum of the amounts charged to a month. -/
def chargedTo (charges : List Charge) (month : Month) : Rat :=
  ((charges.filter (·.month = month)).map (·.usd)).sum

namespace SpendSystem

variable {ι : Type}

/-- A new enforcer without clients, and what the shared ledger holds. -/
def initial (enforcer : Enforcer) (tenantID : String) (ledger : Month → List Rat)
    (now : Int) : SpendSystem ι where
  enforcer := { enforcer with spendCache := ∅ }
  tenantID := tenantID
  ledger := ledger
  now := now
  pc := fun _ => .idle
  started := 0
  charges := []
  reports := []
  installed := fun _ => 0

/-- The tenant's monthly cap. -/
def spendCap (s : SpendSystem ι) : Rat :=
  (s.enforcer.effectiveLocked s.tenantID).monthlySpendUSD

/-- The counter the tenant has in the enforcer. -/
def cached (s : SpendSystem ι) : Option Counter := s.enforcer.spendCache.lookup s.tenantID

/-- `counterForMonthLocked` for the tenant. -/
def counter (s : SpendSystem ι) (month : Month) : Counter :=
  s.enforcer.counterForMonthLocked s.tenantID month

/-- Leave a counter in the enforcer. -/
def store (s : SpendSystem ι) (c : Counter) : SpendSystem ι :=
  { s with enforcer := s.enforcer.setCounter s.tenantID c }

variable (s : SpendSystem ι)

theorem counter_eq (month : Month) :
    s.counter month = match s.cached with
      | some c => if c.month = month then c else { month := month }
      | none => { month := month } := rfl

@[simp] theorem counter_month (month : Month) : (s.counter month).month = month := by
  rw [counter_eq]
  split
  · split
    · assumption
    · rfl
  · rfl

@[simp] theorem cached_store (c : Counter) : (s.store c).cached = some c :=
  AList.lookup_insert _

theorem counter_store {c : Counter} {month : Month} (h : c.month = month) :
    (s.store c).counter month = c := by
  rw [counter_eq, cached_store]
  exact if_pos h

/-- An `AddSpend` call returns. -/
def charge (s : SpendSystem ι) (c : Charge) : SpendSystem ι :=
  { s with charges := s.charges ++ [c] }

/-- A reading call returns; `CheckSpend` compares the total with the cap. -/
def report (s : SpendSystem ι) (call : ReadCall) (finished : Nat) (month : Month)
    (total : Rat) : SpendSystem ι :=
  { s with reports := s.reports ++ [⟨call, finished, month, total, decide (total < s.spendCap)⟩] }

def answer (s : SpendSystem ι) (month : Month) : Answer :=
  ⟨ledgerTotal (s.ledger month), (s.ledger month).length⟩

/-- Add an amount to the shared ledger. -/
def increment (s : SpendSystem ι) (month : Month) (usd : Rat) : SpendSystem ι :=
  { s with ledger := Function.update s.ledger month (s.ledger month ++ [usd]) }

/-- Write an answer of the ledger to the counter. -/
def install (s : SpendSystem ι) (month : Month) (a : Answer) (now : Int) : SpendSystem ι :=
  { s.store { s.counter month with usd := a.total, expiry := now + spendCacheTTL } with
    installed := Function.update s.installed month a.version }

/-- The last lock region of `AddSpend`. Without a backend the counter itself is the
    ledger; with one, a failed call falls back to a local bump. -/
def settle (s : SpendSystem ι) (usd : Rat) (month : Month) (ans : Option Answer)
    (now : Int) : SpendSystem ι :=
  match ans with
  | some a => (s.install month a now).charge ⟨month, usd, true, a.total⟩
  | none =>
    let total := Float64.add (s.counter month).usd usd
    (s.store { s.counter month with usd := total }).charge ⟨month, usd, false, total⟩

/-- The second lock region of `currentSpend`: install the answer, or serve what is
    cached. -/
def refresh (s : SpendSystem ι) (month : Month) (ans : Option Answer) (now : Int) :
    SpendSystem ι :=
  match ans with
  | some a => s.install month a now
  | none => s.store (s.counter month)

variable [DecidableEq ι]

/-- Move one client, at a new time. -/
def move (s : SpendSystem ι) (i : ι) (pc : SpendPc) (now : Int) : SpendSystem ι :=
  { s with now := now, pc := Function.update s.pc i pc }

/-- One step; `none` if the event is not enabled. The clock never goes back, and a
    replica adds only positive amounts. -/
def step (s : SpendSystem ι) : SpendEvent ι → Option (SpendSystem ι)
  | .addStart i usd now =>
    match s.pc i with
    | .idle =>
      if s.now ≤ now then
        if s.tenantID = "" ∨ usd ≤ 0 then some s
        else some { s.move i (.keyed usd (monthKey now)) now with started := s.started + 1 }
      else none
    | _ => none
  | .addBackend i ok =>
    match s.pc i with
    | .keyed usd month =>
      if s.enforcer.spendBackend then
        if ok then
          let s := s.increment month usd
          some (s.move i (.answered usd month (some (s.answer month))) s.now)
        else some (s.move i (.answered usd month none) s.now)
      else none
    | _ => none
  | .addFinish i now =>
    if s.now ≤ now then
      match s.pc i with
      | .keyed usd month =>
        if s.enforcer.spendBackend then none
        else some ((s.settle usd month none now).move i .idle now)
      | .answered usd month ans => some ((s.settle usd month ans now).move i .idle now)
      | _ => none
    else none
  | .checkStart i =>
    match s.pc i with
    | .idle =>
      if s.tenantID = "" ∨ s.spendCap ≤ 0 then some s
      else some (s.move i (.called .check s.charges.length) s.now)
    | _ => none
  | .usageStart i now =>
    match s.pc i with
    | .idle =>
      if s.now ≤ now then
        some (s.move i (.called (.usage (monthKey now)) s.charges.length) now)
      else none
    | _ => none
  | .readKey i now =>
    match s.pc i with
    | .called call n =>
      if s.now ≤ now then some (s.move i (.reading call n (monthKey now)) now) else none
    | _ => none
  | .readLock i now =>
    match s.pc i with
    | .reading call n month =>
      if s.now ≤ now then
        let c := s.counter month
        if s.enforcer.spendBackend = false ∨ now < c.expiry then
          some (((s.store c).report call n month c.usd).move i .idle now)
        else some ((s.store c).move i (.stale call n month) now)
      else none
    | _ => none
  | .readBackend i ok =>
    match s.pc i with
    | .stale call n month =>
      some (s.move i (.fetched call n month (if ok then some (s.answer month) else none)) s.now)
    | _ => none
  | .readFinish i now =>
    match s.pc i with
    | .fetched call n month ans =>
      if s.now ≤ now then
        let s := s.refresh month ans now
        some ((s.report call n month (s.counter month).usd).move i .idle now)
      else none
    | _ => none
  | .remoteAdd month usd => if 0 < usd then some (s.increment month usd) else none

def run (s : SpendSystem ι) (events : List (SpendEvent ι)) : Option (SpendSystem ι) :=
  runOption step s events

/-! ## The branches of a step -/

/-- What a step does: one case for each branch of `step`. -/
inductive Step (s : SpendSystem ι) : SpendEvent ι → SpendSystem ι → Prop
  | addIgnored (i : ι) {usd : Rat} {now : Int} : s.pc i = .idle → Step s (.addStart i usd now) s
  | addStarted (i : ι) {usd : Rat} {now : Int} : s.pc i = .idle → 0 < usd →
      Step s (.addStart i usd now)
        { s.move i (.keyed usd (monthKey now)) now with started := s.started + 1 }
  | addAnswered (i : ι) {usd : Rat} {month : Month} : s.pc i = .keyed usd month →
      s.enforcer.spendBackend = true →
      Step s (.addBackend i true) ((s.increment month usd).move i
        (.answered usd month (some ((s.increment month usd).answer month))) s.now)
  | addFailed (i : ι) {usd : Rat} {month : Month} : s.pc i = .keyed usd month →
      s.enforcer.spendBackend = true →
      Step s (.addBackend i false) (s.move i (.answered usd month none) s.now)
  | addLocal (i : ι) {usd : Rat} {month : Month} {now : Int} : s.pc i = .keyed usd month →
      s.enforcer.spendBackend = false →
      Step s (.addFinish i now) ((s.settle usd month none now).move i .idle now)
  | addSettled (i : ι) {usd : Rat} {month : Month} {ans : Option Answer} {now : Int} :
      s.pc i = .answered usd month ans →
      Step s (.addFinish i now) ((s.settle usd month ans now).move i .idle now)
  | checkIgnored (i : ι) : s.pc i = .idle → Step s (.checkStart i) s
  | checkStarted (i : ι) : s.pc i = .idle →
      Step s (.checkStart i) (s.move i (.called .check s.charges.length) s.now)
  | usageStarted (i : ι) {now : Int} : s.pc i = .idle →
      Step s (.usageStart i now)
        (s.move i (.called (.usage (monthKey now)) s.charges.length) now)
  | readKeyed (i : ι) {call : ReadCall} {n : Nat} {now : Int} : s.pc i = .called call n →
      Step s (.readKey i now) (s.move i (.reading call n (monthKey now)) now)
  | readCached (i : ι) {call : ReadCall} {n : Nat} {month : Month} {now : Int} :
      s.pc i = .reading call n month →
      Step s (.readLock i now) (((s.store (s.counter month)).report call n month
        (s.counter month).usd).move i .idle now)
  | readStale (i : ι) {call : ReadCall} {n : Nat} {month : Month} {now : Int} :
      s.pc i = .reading call n month → s.enforcer.spendBackend = true →
      Step s (.readLock i now) ((s.store (s.counter month)).move i (.stale call n month) now)
  | readFetched (i : ι) {call : ReadCall} {n : Nat} {month : Month} {ok : Bool} :
      s.pc i = .stale call n month →
      Step s (.readBackend i ok) (s.move i
        (.fetched call n month (if ok then some (s.answer month) else none)) s.now)
  | readFinished (i : ι) {call : ReadCall} {n : Nat} {month : Month} {ans : Option Answer}
      {now : Int} : s.pc i = .fetched call n month ans →
      Step s (.readFinish i now) (((s.refresh month ans now).report call n month
        ((s.refresh month ans now).counter month).usd).move i .idle now)
  | remoteAdded {month : Month} {usd : Rat} : 0 < usd →
      Step s (.remoteAdd month usd) (s.increment month usd)

theorem step_cases {s s' : SpendSystem ι} {e : SpendEvent ι} (h : s.step e = some s') :
    s.Step e s' := by
  revert h
  -- `cases` closes the branches in which no step is made
  fun_cases step s e <;> intro h <;> cases h
  · exact .addIgnored _ ‹_›
  · rename_i hpos
    exact .addStarted _ ‹_› (not_le.mp fun hle => hpos (.inr hle))
  · exact .addAnswered _ ‹_› ‹_›
  · rename_i ok _ _ _ hshared hok
    rw [Bool.not_eq_true] at hok
    subst hok
    exact .addFailed _ ‹_› hshared
  · rename_i hlocal
    exact .addLocal _ ‹_› (Bool.not_eq_true _ ▸ hlocal)
  · exact .addSettled _ ‹_›
  · exact .checkIgnored _ ‹_›
  · exact .checkStarted _ ‹_›
  · exact .usageStarted _ ‹_›
  · exact .readKeyed _ ‹_›
  · exact .readCached _ ‹_›
  · rename_i hexpired
    have hshared : s.enforcer.spendBackend ≠ false := fun hlocal => hexpired (.inl hlocal)
    exact .readStale _ ‹_› (Bool.not_eq_false _ ▸ hshared)
  · exact .readFetched _ ‹_›
  · exact .readFinished _ ‹_›
  · exact .remoteAdded ‹_›

end SpendSystem

end MockAgents
