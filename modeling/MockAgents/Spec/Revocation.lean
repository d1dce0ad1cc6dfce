import MockAgents.Spec.AuthCacheTransparent
import MockAgents.Tenancy.Concurrent

/-!
# Revocations and the auth cache

A `Resolve` that starts after a mutator has returned should only return principals that
the tables have given since that mutator's write. But a `Resolve` already under way writes
the cache long after it selected its rows: if a mutator writes and flushes in between, the
stale principal is cached after the flush and later calls get it. In every run in which no
principal is cached from rows selected before the write of a mutator that has already
flushed, revocations are final.
-/

namespace MockAgents

open Bytes (ofString)

variable {ι H : Type} (crypto : Crypto H)

namespace AuthSystem

/-- Some version of the tables, not older than `since`, gives the principal to the
    plaintext. -/
def GivenSince (s : AuthSystem ι H) (since : Nat) (plaintext : Bytes) (p : Principal) : Prop :=
  ∃ v, since ≤ v ∧ v ≤ s.version ∧ (s.history v).authenticate crypto plaintext = some p

/-- Every principal returned was given by tables no older than the last write whose
    mutator had returned when the call started. -/
def RevocationFinal (s : AuthSystem ι H) : Prop :=
  ∀ r ∈ s.reports, ∀ p, r.result = .ok p → s.GivenSince crypto r.since r.plaintext p

end AuthSystem

/-- The version of the tables that a `Resolve` call about to write the cache has seen. -/
def AuthPc.seen : AuthPc H → Option Nat
  | .setting _ _ version _ => some version
  | _ => none

namespace AuthSystem

/-- The condition on a step: the cache is written from rows at least as new as the last
    write that has been flushed. -/
def Fresh (s : AuthSystem ι H) : AuthEvent ι → Prop
  | .set i _ => ∀ version ∈ (s.pc i).seen, s.flushed ≤ version
  | _ => True

instance (s : AuthSystem ι H) (e : AuthEvent ι) : Decidable (s.Fresh e) :=
  match e with
  | .set .. => inferInstanceAs (Decidable (∀ version ∈ _, _))
  | .lookup .. | .drop .. | .select .. | .compare .. | .bump .. | .createTenant ..
  | .createAPIKey .. | .deleteTenant .. | .deleteAPIKey .. | .rotateAPIKey ..
  | .roleSelect .. | .roleUpdate .. | .bulkSelect .. | .bulkUpdate .. | .flush .. =>
    inferInstanceAs (Decidable True)

/-! ## Creations leave the cache alone -/

theorem cache_createTenant (s : SQLiteStore H) (name : String) (idBytes : Vector UInt8 8)
    (now : Int) :
    (s.createTenant name idBytes now).1.cache = s.cache := by
  simp only [SQLiteStore.createTenant]
  split
  · rfl
  · split <;> rfl

theorem cache_createAPIKey (s : SQLiteStore H) (tenantID : Bytes) (name : String)
    (role : Tenancy.Role) (seed : KeySeed) (idBytes : Vector UInt8 8) (now : Int) :
    (s.createAPIKey crypto tenantID name role seed idBytes now).1.cache = s.cache := by
  simp only [SQLiteStore.createAPIKey]
  split
  · rfl
  · split
    · rfl
    · split <;> rfl

/-! ## The invariant -/

/-- What holds of a client's place. -/
def PcSound (s : AuthSystem ι H) : AuthPc H → Prop
  | .idle | .updating .. | .rotating .. => True
  | .dropping _ since | .selecting _ since => since ≤ s.version
  | .comparing plaintext since v candidates _ =>
    since ≤ v ∧ v ≤ s.version ∧ candidates = (s.history v).candidates plaintext
  | .bumping plaintext since v p _ | .setting plaintext since v p =>
    since ≤ v ∧ v ≤ s.version ∧ (s.history v).authenticate crypto plaintext = some p
  | .flushing v => v ≤ s.version

/-- Every cache entry was given by tables no older than the last flush. -/
def CacheFresh (s : AuthSystem ι H) : Prop :=
  ∀ c, s.store.cache = some c → ∀ k e, c.entries.lookup k = some e →
    ∃ plaintext, k = AuthCache.hashKey crypto.sha256 plaintext ∧
      s.GivenSince crypto s.flushed plaintext e.principal

/-- The invariant of a fresh run. -/
structure RevInv (s : AuthSystem ι H) : Prop where
  current : s.history s.version = s.store.tables
  flushed_le : s.flushed ≤ s.version
  cache : s.CacheFresh crypto
  clients : ∀ i, s.PcSound crypto (s.pc i)
  reports : s.RevocationFinal crypto

variable {crypto} {s : AuthSystem ι H} {v : Nat}

theorem history_write (s : AuthSystem ι H) (store : SQLiteStore H) (hv : v ≤ s.version) :
    (s.write store).history v = s.history v :=
  Function.update_of_ne (by omega) _ _

variable {since : Nat} {plaintext : Bytes} {p : Principal}

theorem GivenSince.write (h : s.GivenSince crypto since plaintext p) (store : SQLiteStore H) :
    (s.write store).GivenSince crypto since plaintext p := by
  obtain ⟨v, hsince, hv, hauth⟩ := h
  exact ⟨v, hsince, Nat.le_succ_of_le hv, by rw [history_write s store hv]; exact hauth⟩

variable {pc : AuthPc H}

theorem PcSound.write (h : s.PcSound crypto pc) (store : SQLiteStore H) :
    (s.write store).PcSound crypto pc := by
  cases pc with
  | idle | updating | rotating => trivial
  | dropping | selecting | flushing => exact Nat.le_succ_of_le h
  | comparing plaintext since v candidates lastUsed =>
    obtain ⟨hsince, hv, hcands⟩ := h
    exact ⟨hsince, Nat.le_succ_of_le hv, by rw [history_write s store hv]; exact hcands⟩
  | bumping plaintext since v p lastUsed | setting plaintext since v p =>
    obtain ⟨hsince, hv, hauth⟩ := h
    exact ⟨hsince, Nat.le_succ_of_le hv, by rw [history_write s store hv]; exact hauth⟩

variable {store : SQLiteStore H}

section

variable (h : s.RevInv crypto)
include h

theorem RevInv.write (hcache : store.cache = s.store.cache) :
    (s.write store).RevInv crypto where
  current := Function.update_self _ _ _
  flushed_le := Nat.le_succ_of_le h.flushed_le
  cache := by
    intro c hc k e hk
    obtain ⟨plaintext, hkey, hgiven⟩ := h.cache c (hcache.symm.trans hc) k e hk
    exact ⟨plaintext, hkey, hgiven.write store⟩
  clients := fun i => (h.clients i).write store
  reports := fun r hr p hp => (h.reports r hr p hp).write store

theorem RevInv.report (plaintext : Bytes) (since : Nat) (result : Except StoreError Principal)
    (hresult : ∀ p, result = .ok p → s.GivenSince crypto since plaintext p) :
    (s.report plaintext since result).RevInv crypto := by
  refine ⟨h.current, h.flushed_le, h.cache, h.clients, fun r hr p hp => ?_⟩
  obtain hr | hr := List.mem_append.mp hr
  · exact h.reports r hr p hp
  · obtain rfl := List.mem_singleton.mp hr
    exact hresult p hp

theorem RevInv.setStore (htables : store.tables = s.store.tables)
    (hcache : { s with store := store }.CacheFresh crypto) :
    { s with store := store }.RevInv crypto :=
  ⟨h.current.trans htables.symm, h.flushed_le, hcache, h.clients, h.reports⟩

theorem RevInv.flush (hv : v ≤ s.version) :
    { s with store := s.store.invalidate, flushed := max s.flushed v }.RevInv crypto where
  current := h.current
  flushed_le := max_le h.flushed_le hv
  cache := by
    intro c hc k e hk
    obtain ⟨c₀, _, rfl⟩ := Option.map_eq_some_iff.mp hc
    cases hk
  clients := h.clients
  reports := h.reports

end

variable [DecidableEq ι]

theorem RevInv.move (h : s.RevInv crypto) (i : ι) (hpc : s.PcSound crypto pc) :
    (s.move i pc).RevInv crypto :=
  ⟨h.current, h.flushed_le, h.cache, (Function.forall_update_iff s.pc fun _ pc =>
    s.PcSound crypto pc).mpr ⟨hpc, fun j _ => h.clients j⟩, h.reports⟩

/-- The write of a mutator. -/
theorem RevInv.mutate (h : s.RevInv crypto) (i : ι) (hcache : store.cache = s.store.cache) :
    (s.mutate i store).RevInv crypto :=
  (h.write hcache).move i le_rfl

/-- The first part of `Resolve`. -/
theorem RevInv.lookupKey (hsha : Function.Injective crypto.sha256) (h : s.RevInv crypto) (i : ι)
    (plaintext : Bytes) (now : Int) : (s.lookupKey crypto i plaintext now).RevInv crypto := by
  simp only [AuthSystem.lookupKey]
  split
  · exact h.report _ _ _ nofun
  · split
    · exact h.move i h.flushed_le
    · rename_i e he
      split
      · exact h.move i h.flushed_le
      · -- a hit: the entry was made for this very plaintext
        refine h.report _ _ _ fun p hp => ?_
        obtain rfl := Except.ok.inj hp
        obtain ⟨c, hc, hlookup⟩ := Option.bind_eq_some_iff.mp he
        obtain ⟨q, hq, hgiven⟩ := h.cache c hc _ e hlookup
        rw [AuthCache.hashKey_injective hsha hq]
        exact hgiven

/-! ### The parts of `Resolve` after the lookup -/

variable {i : ι}

omit [DecidableEq ι] in
theorem RevInv.client (h : s.RevInv crypto) (hpc : s.pc i = pc) : s.PcSound crypto pc := by
  rw [← hpc]
  exact h.clients i

section

variable (h : s.RevInv crypto)
include h

theorem RevInv.dropEntry (hpc : s.pc i = .dropping plaintext since) (now : Int) :
    ({ s with store := s.store.cacheDrop crypto plaintext now }.move i
      (.selecting plaintext since)).RevInv crypto := by
  have hdrop : { s with store := s.store.cacheDrop crypto plaintext now }.RevInv crypto := by
    refine h.setStore rfl ?_
    intro c hc k e hk
    obtain ⟨c₀, hc₀, rfl⟩ := Option.map_eq_some_iff.mp hc
    exact h.cache c₀ hc₀ k e (AuthCache.lookup_dropExpired hk)
  exact hdrop.move i (h.client hpc)

theorem RevInv.selectRows (hpc : s.pc i = .selecting plaintext since) :
    (s.move i (.comparing plaintext since s.version (s.store.tables.candidates plaintext)
      s.store.lastUsed)).RevInv crypto :=
  h.move i ⟨h.client hpc, le_rfl, by rw [h.current]⟩

theorem RevInv.refuse (i : ι) (plaintext : Bytes) (since : Nat) :
    ((s.report plaintext since (.error .invalidKey)).move i .idle).RevInv crypto :=
  (h.report plaintext since (.error .invalidKey) nofun).move i trivial

theorem RevInv.accept {candidates : List (KeyRow H)} {lastUsed : Bytes → Option Int} {c : KeyRow H}
    (hpc : s.pc i = .comparing plaintext since v candidates lastUsed)
    (hc : matchCandidate crypto candidates plaintext = some c) :
    (s.move i (.bumping plaintext since v c.principal (lastUsed c.id))).RevInv crypto := by
  obtain ⟨hsince, hv, rfl⟩ := h.client hpc
  refine h.move i ⟨hsince, hv, ?_⟩
  rw [Tables.authenticate, hc]
  rfl

theorem RevInv.bump {lastUsed : Option Int} (hpc : s.pc i = .bumping plaintext since v p lastUsed)
    (now : Int) :
    ({ s with store := s.store.bumpLastUsed p.keyID lastUsed now }.move i
      (.setting plaintext since v p)).RevInv crypto := by
  refine (h.setStore (SQLiteStore.tables_bumpLastUsed _ _ _ _) ?_).move i (h.client hpc)
  intro c hc
  exact h.cache c ((SQLiteStore.cache_bumpLastUsed _ _ _ _).symm.trans hc)

/-- The cache is written from rows at least as new as the last flush. -/
theorem RevInv.setEntry (hpc : s.pc i = .setting plaintext since v p) (hflushed : s.flushed ≤ v)
    (inp : AuthCache.SetInput) :
    (({ s with store := s.store.cacheSet crypto plaintext p inp }.report plaintext since
      (.ok p)).move i .idle).RevInv crypto := by
  obtain ⟨hsince, hv, hauth⟩ := h.client hpc
  have hset : { s with store := s.store.cacheSet crypto plaintext p inp }.RevInv crypto := by
    refine h.setStore rfl ?_
    intro c hc k e hk
    obtain ⟨c₀, hc₀, rfl⟩ := Option.map_eq_some_iff.mp hc
    obtain ⟨rfl, he⟩ | hold := AuthCache.lookup_set hk
    · exact ⟨plaintext, rfl, v, hflushed, hv, by rw [he]; exact hauth⟩
    · exact h.cache c₀ hc₀ k e hold
  refine (hset.report _ _ _ fun q hq => ?_).move i trivial
  obtain rfl := Except.ok.inj hq
  exact ⟨v, hsince, hv, hauth⟩

end

/-- A fresh step keeps the invariant. -/
theorem RevInv.step (hsha : Function.Injective crypto.sha256) {s' : AuthSystem ι H}
    (h : s.RevInv crypto) {e : AuthEvent ι} (hfresh : s.Fresh e)
    (hstep : s.step crypto e = some s') : s'.RevInv crypto := by
  revert hstep
  fun_cases AuthSystem.step crypto s e <;> intro hstep <;> cases hstep
  -- a call that finds no row changes nothing
  any_goals exact h
  · exact h.lookupKey hsha _ _ _
  · exact h.dropEntry ‹_› _
  · exact h.selectRows ‹_›
  · exact h.refuse _ _ _
  · exact h.accept ‹_› ‹_›
  · exact h.bump ‹_› _
  · rename_i hpc
    exact h.setEntry hpc (hfresh _ (by rw [hpc]; rfl)) _
  · exact h.write (cache_createTenant _ _ _ _)
  · exact h.write (cache_createAPIKey _ _ _ _ _ _ _ _)
  · exact h.mutate _ rfl
  · exact h.mutate _ rfl
  · exact h.mutate _ rfl
  · exact h.move _ trivial
  · exact h.mutate _ rfl
  · exact h.move _ trivial
  · exact h.mutate _ (SQLiteStore.rotateAll_congr crypto _ rfl).2.2
  · rename_i i v hpc
    have hi := h.clients i
    rw [hpc] at hi
    exact (h.flush hi).move i trivial

omit [DecidableEq ι] in
theorem revInv_initial (crypto : Crypto H) (store : SQLiteStore H) (ttl maxSize : Int) :
    (initial (store.enableAuthCache ttl maxSize) : AuthSystem ι H).RevInv crypto where
  current := rfl
  flushed_le := le_rfl
  cache := by
    intro c hc k e hk
    cases hc
    cases hk
  clients := fun _ => trivial
  reports := nofun

/-- In every run whose cache writes are fresh, revocations are final. -/
theorem revocationFinal_of_allSteps (crypto : Crypto H) (hideal : crypto.Ideal)
    (store : SQLiteStore H) (ttl maxSize : Int) (events : List (AuthEvent ι))
    (s : AuthSystem ι H)
    (hfresh : AllSteps (step crypto) Fresh (initial (store.enableAuthCache ttl maxSize)) events)
    (hrun : run crypto (initial (store.enableAuthCache ttl maxSize)) events = some s) :
    s.RevocationFinal crypto :=
  (runOption_inv_of_allSteps (step crypto) Fresh (RevInv crypto)
    (fun _ _ _ hf hstep h => h.step hideal.sha256_injective hf hstep) hfresh hrun
    (revInv_initial crypto store ttl maxSize)).reports

/-- The API key of the runs below. -/
def demoKey : Bytes := ofString "mak_0123abcd_secret"

def demoStore : SQLiteStore Bytes where
  tables := {
    tenants := [⟨ofString "ten_1", "acme", 0⟩]
    keys := [{
      id := ofString "key_1", tenantID := ofString "ten_1", name := "ci"
      keyPrefix := demoKey.take apiKeyPrefixLen, hash := demoKey, role := .admin
      createdAt := 0 }] }

/-- The key is resolved, deleted, and used again. -/
def deletedKey : List (AuthEvent Nat) :=
  [.lookup 0 demoKey 1, .select 0, .compare 0, .bump 0 1, .set 0 {},
    .deleteAPIKey 1 (ofString "ten_1") (ofString "key_1"), .flush 1,
    .lookup 2 demoKey 3, .select 2, .compare 2]

theorem deletedKey_revocationFinal :
    ∃ s, run plainCrypto (initial (demoStore.enableAuthCache 0 0)) deletedKey = some s ∧
      s.reports.map (·.result.toOption.isSome) = [true, false] ∧
      s.RevocationFinal plainCrypto := by
  obtain ⟨s, hs, hreports⟩ :
      ∃ s, run plainCrypto (initial (demoStore.enableAuthCache 0 0)) deletedKey = some s ∧
        s.reports.map (·.result.toOption.isSome) = [true, false] := by decide
  exact ⟨s, hs, hreports, revocationFinal_of_allSteps plainCrypto plainCrypto_ideal demoStore
    0 0 deletedKey s (by decide) hs⟩

/-- The first call has selected the row when the key is deleted and the cache flushed; it
    then caches the principal, and a call that starts later gets it. -/
def staleSet : List (AuthEvent Nat) :=
  [.lookup 0 demoKey 1, .select 0, .compare 0, .bump 0 1,
    .deleteAPIKey 1 (ofString "ten_1") (ofString "key_1"), .flush 1,
    .set 0 { setAt := 2 }, .lookup 2 demoKey 3]

/-- The tables hold no key any more, and still the last call returns the principal. -/
theorem staleSet_not_revocationFinal :
    ∃ s, run plainCrypto (initial (demoStore.enableAuthCache 0 0)) staleSet = some s ∧
      s.store.tables.keys = [] ∧ s.reports.map (·.result.toOption.isSome) = [true, true] ∧
      ¬ s.RevocationFinal plainCrypto := by
  obtain ⟨s, hs, hkeys, hreports, hversion, hnone, r, hr, hplain, hsince, hok⟩ :
      ∃ s, run plainCrypto (initial (demoStore.enableAuthCache 0 0)) staleSet = some s ∧
        s.store.tables.keys.length = 0 ∧
        s.reports.map (·.result.toOption.isSome) = [true, true] ∧ s.version = 1 ∧
        ((s.history 1).authenticate plainCrypto demoKey).isNone = true ∧
        ∃ r, s.reports[1]? = some r ∧ r.plaintext = demoKey ∧ r.since = 1 ∧
          r.result.toOption.isSome = true := by decide
  refine ⟨s, hs, List.length_eq_zero_iff.mp hkeys, hreports, fun hfinal => ?_⟩
  -- the report started at version 1, the last one, which gives no principal
  cases hresult : r.result with
  | error err =>
    rw [hresult] at hok
    cases hok
  | ok p =>
    obtain ⟨v, hge, hle, hauth⟩ := hfinal r (List.mem_of_getElem? hr) p hresult
    obtain rfl : v = 1 := by omega
    rw [← hplain, hauth] at hnone
    cases hnone

end AuthSystem

end MockAgents
