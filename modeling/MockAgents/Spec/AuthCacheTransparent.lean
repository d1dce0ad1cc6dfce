import MockAgents.ForStd.Trace
import MockAgents.Tenancy.Store

/-!
# The auth cache is transparent

Used one call at a time, a store with the auth cache returns what a store without it
returns. The cache agrees with the tables: every entry is the principal that the rows
give to the plaintext of its key. Calls that change a row flush the cache; a new row comes
after the others, so it does not change what an older one already answers.
-/

namespace MockAgents

variable {H : Type} (crypto : Crypto H)

/-- A new row does not change what an older one answers. -/
theorem Tables.authenticate_append {t : Tables H} {plaintext : Bytes} {p : Principal}
    (h : t.authenticate crypto plaintext = some p) (rows : List (KeyRow H)) :
    { t with keys := t.keys ++ rows }.authenticate crypto plaintext = some p := by
  obtain ⟨r, hr, rfl⟩ := Option.map_eq_some_iff.mp h
  simp only [authenticate, matchCandidate, candidates, List.filter_append] at hr ⊢
  rw [List.find?_append, hr]
  rfl

namespace AuthCache

/-- Every entry is the principal that the rows give to the plaintext of its key. -/
def Agrees (c : AuthCache) (t : Tables H) : Prop :=
  ∀ k e, c.entries.lookup k = some e →
    ∃ plaintext, k = hashKey crypto.sha256 plaintext ∧
      t.authenticate crypto plaintext = some e.principal

/-- A cache of size `n`, within its size. -/
def Bounded (n : Int) (c : AuthCache) : Prop :=
  c.maxSize = n ∧ 0 < n ∧ (c.entries.entries.length : Int) ≤ n

theorem bounded_newAuthCache (ttl maxSize : Int) :
    (newAuthCache ttl maxSize).Bounded (if maxSize ≤ 0 then 1024 else maxSize) := by
  have hempty : (newAuthCache ttl maxSize).entries.entries.length = 0 := rfl
  refine ⟨rfl, ?_, ?_⟩ <;> split <;> omega

/-! ## What the cache's methods do -/

variable {c : AuthCache} {now : Int} {k : Bytes} {ord ord' : MapOrder}

theorem lookup_victim (h : c.victim ord ord' now = some k) : (c.entries.lookup k).isSome := by
  have hentry : ∃ e ∈ c.entries.entries, e.1 = k := by
    simp only [victim] at h
    split at h
    · rename_i e he
      have hmem := List.mem_of_find?_eq_some he
      exact ⟨e, by simpa using hmem, Option.some.inj h⟩
    · obtain ⟨e, he, hk⟩ := Option.map_eq_some_iff.mp h
      have hmem := List.mem_of_mem_head? (Option.mem_def.mpr he)
      exact ⟨e, by simpa using hmem, hk⟩
  obtain ⟨⟨k', v⟩, hmem, rfl⟩ := hentry
  rw [(GoMap.lookup_eq_some_iff c.entries k' v).mpr hmem]
  rfl

theorem victim_isSome (ord ord' : MapOrder) (now : Int) (h : 0 < c.entries.entries.length) :
    (c.victim ord ord' now).isSome := by
  simp only [victim]
  split
  · rfl
  · have hlen := (ord'.perm c.entries.entries).length_eq
    cases hl : ord'.visit c.entries.entries with
    | nil =>
      rw [hl] at hlen
      simp only [List.length_nil] at hlen
      omega
    | cons e l => rfl

variable {e : AuthCacheEntry}

theorem lookup_evictOneLocked (h : (c.evictOneLocked ord ord' now).entries.lookup k = some e) :
    c.entries.lookup k = some e := by
  simp only [evictOneLocked] at h
  split at h
  · exact GoMap.lookup_of_lookup_erase h
  · exact h

/-- Evicting makes room for one entry. -/
theorem length_evictOneLocked (ord ord' : MapOrder) (now : Int) (h : 0 < c.entries.entries.length) :
    (c.evictOneLocked ord ord' now).entries.entries.length + 1 = c.entries.entries.length := by
  have hsome := victim_isSome ord ord' now h
  simp only [evictOneLocked]
  split
  · rename_i k hk
    exact GoMap.length_erase c.entries (lookup_victim hk)
  · rename_i hnone
    rw [hnone] at hsome
    cases hsome

theorem maxSize_evictOneLocked (c : AuthCache) (ord ord' : MapOrder) (now : Int) :
    (c.evictOneLocked ord ord' now).maxSize = c.maxSize := by
  simp only [evictOneLocked]
  split <;> rfl

theorem lookup_dropExpired {k' : Bytes} (h : (c.dropExpired k now).entries.lookup k' = some e) :
    c.entries.lookup k' = some e := by
  simp only [dropExpired] at h
  split at h
  · split at h
    · exact GoMap.lookup_of_lookup_erase h
    · exact h
  · exact h

variable {n : Int}

theorem Bounded.dropExpired (h : c.Bounded n) (k : Bytes) (now : Int) :
    (c.dropExpired k now).Bounded n := by
  simp only [AuthCache.dropExpired]
  split
  · rename_i e he
    split
    · have hlen := GoMap.length_erase c.entries (k := k) (by rw [he]; rfl)
      have := h.2.2
      exact ⟨h.1, h.2.1, show ((c.entries.erase k).entries.length : Int) ≤ n by omega⟩
    · exact h
  · exact h

variable {sha256 : Bytes → Bytes} {plaintext : Bytes} {principal : Principal}

theorem lookup_set {inp : SetInput}
    (h : (c.set sha256 plaintext principal inp).entries.lookup k = some e) :
    (k = hashKey sha256 plaintext ∧ e.principal = principal) ∨
      c.entries.lookup k = some e := by
  simp only [set] at h
  split at h
  · exact Or.inr h
  · simp only [GoMap.lookup_insert_eq] at h
    split at h
    · rename_i hk
      cases h
      exact Or.inl ⟨hk, rfl⟩
    · split at h
      · exact Or.inr (lookup_evictOneLocked h)
      · exact Or.inr h

theorem Bounded.set (h : c.Bounded n) (sha256 : Bytes → Bytes) (plaintext : Bytes)
    (principal : Principal) (inp : SetInput) :
    (c.set sha256 plaintext principal inp).Bounded n := by
  obtain ⟨rfl, hpos, hlen⟩ := h
  simp only [AuthCache.set]
  split
  · exact ⟨rfl, hpos, hlen⟩
  · split
    · -- a new key at capacity: one entry goes before it comes
      have hevict := length_evictOneLocked (c := c) inp.ord inp.ord' inp.evictAt (by omega)
      have hinsert := GoMap.length_insert_le
        (c.evictOneLocked inp.ord inp.ord' inp.evictAt).entries (hashKey sha256 plaintext)
        ⟨principal, inp.setAt + (c.evictOneLocked inp.ord inp.ord' inp.evictAt).ttl⟩
      refine ⟨maxSize_evictOneLocked c _ _ _, hpos, ?_⟩
      show (((c.evictOneLocked inp.ord inp.ord' inp.evictAt).entries.insert _ _).entries.length
        : Int) ≤ c.maxSize
      omega
    · rename_i hroom
      refine ⟨rfl, hpos, ?_⟩
      show ((c.entries.insert _ _).entries.length : Int) ≤ c.maxSize
      rw [not_and_or] at hroom
      obtain hkey | hroom := hroom
      · rw [GoMap.length_insert _ _ (by simpa [Option.isSome_iff_ne_none] using hkey)]
        exact hlen
      · have := GoMap.length_insert_le c.entries (hashKey sha256 plaintext)
          ⟨principal, inp.setAt + c.ttl⟩
        omega

variable {t : Tables H}

theorem Agrees.set (h : c.Agrees crypto t) (hp : t.authenticate crypto plaintext = some principal)
    (inp : SetInput) : (c.set crypto.sha256 plaintext principal inp).Agrees crypto t := by
  intro k e hk
  obtain ⟨rfl, he⟩ | hold := lookup_set hk
  · exact ⟨plaintext, rfl, by rw [he]; exact hp⟩
  · exact h k e hold

theorem agrees_invalidate (c : AuthCache) (t : Tables H) : c.invalidate.Agrees crypto t :=
  nofun

theorem Bounded.invalidate (h : c.Bounded n) : c.invalidate.Bounded n :=
  ⟨h.1, h.2.1, h.2.1.le⟩

theorem hashKey_injective (h : Function.Injective sha256) : Function.Injective (hashKey sha256) :=
  Bytes.hexEncode_injective.comp h

/-- `Get` returns what the rows would, and leaves a cache that agrees with them. -/
theorem Agrees.get (hsha : Function.Injective crypto.sha256) (h : c.Agrees crypto t)
    (hb : c.Bounded n) (plaintext : Bytes) (checkAt dropAt : Int) :
    let (c', cached) := c.get crypto.sha256 plaintext checkAt dropAt
    c'.Agrees crypto t ∧ c'.Bounded n ∧
      ∀ p, cached = some p → t.authenticate crypto plaintext = some p := by
  simp only [AuthCache.get]
  split
  · exact ⟨h, hb, nofun⟩
  · split
    · exact ⟨h, hb, nofun⟩
    · rename_i e he
      split
      · exact ⟨fun k e hk => h k e (lookup_dropExpired hk), hb.dropExpired _ _,
          nofun⟩
      · refine ⟨h, hb, fun p hp => ?_⟩
        cases hp
        -- the entry was made for this very plaintext
        obtain ⟨q, hq, hauth⟩ := h _ e he
        rw [hashKey_injective hsha hq]
        exact hauth

end AuthCache

/-! ## The simulation -/

namespace SQLiteStore

/-- A store with a cache of size `n` that agrees with its rows, and one with the same rows
    and no cache. -/
structure Mirrors (n : Int) (s t : SQLiteStore H) : Prop where
  tables : s.tables = t.tables
  plain : t.cache = none
  cache : ∃ c, s.cache = some c ∧ c.Agrees crypto s.tables ∧ c.Bounded n

variable {crypto} {n : Int} {s t : SQLiteStore H}

/-- After a flush any rows will do. -/
theorem Mirrors.invalidate (h : Mirrors crypto n s t) {s' t' : SQLiteStore H}
    (htables : s'.tables = t'.tables) (hs : s'.cache = s.cache) (ht : t'.cache = t.cache) :
    Mirrors crypto n s'.invalidate t'.invalidate := by
  obtain ⟨c, hc, _, hb⟩ := h.cache
  refine ⟨htables, ?_, c.invalidate, ?_, AuthCache.agrees_invalidate crypto c _, hb.invalidate⟩
  · rw [SQLiteStore.invalidate, ht, h.plain]
    rfl
  · rw [SQLiteStore.invalidate, hs, hc]
    rfl

variable (crypto) in
/-- The same result, and stores that are mirrored. -/
def MirrorResults {α : Type} (n : Int) (x y : SQLiteStore H × α) : Prop :=
  x.2 = y.2 ∧ Mirrors crypto n x.1 y.1

theorem MirrorResults.map {α β : Type} {x y : SQLiteStore H × α} (h : MirrorResults crypto n x y)
    (f : α → β) : MirrorResults crypto n (x.1, f x.2) (y.1, f y.2) :=
  ⟨congrArg f h.1, h.2⟩

/-- What a bulk rotation writes and returns depends on the tables only. -/
theorem rotateAll_congr (crypto : Crypto H) (l : List (KeyRow H × KeySeed))
    {s t : SQLiteStore H} (h : s.tables = t.tables) :
    (s.rotateAll crypto l).1.tables = (t.rotateAll crypto l).1.tables ∧
      (s.rotateAll crypto l).2 = (t.rotateAll crypto l).2 ∧
      (s.rotateAll crypto l).1.cache = s.cache := by
  induction l generalizing s t with
  | nil => exact ⟨h, rfl, rfl⟩
  | cons e l ih =>
    obtain ⟨r, seed⟩ := e
    simp only [rotateAll, ← h]
    split
    · have hrotate : (s.rotate crypto r.id seed).tables = (t.rotate crypto r.id seed).tables := by
        simp only [rotate, h]
      obtain ⟨htables, hout, hcache⟩ := ih hrotate
      exact ⟨htables, by simp [hout], hcache⟩
    · exact ih h

section

variable (h : Mirrors crypto n s t)
include h

theorem Mirrors.createTenant (name : String) (idBytes : Vector UInt8 8) (now : Int) :
    MirrorResults crypto n (s.createTenant name idBytes now) (t.createTenant name idBytes now) := by
  simp only [SQLiteStore.createTenant, ← h.tables]
  split
  · exact ⟨rfl, h⟩
  · split
    · exact ⟨rfl, h⟩
    · rename_i tables hinsert
      obtain ⟨c, hc, hagrees, hb⟩ := h.cache
      refine ⟨rfl, rfl, h.plain, c, hc, ?_, hb⟩
      -- the keys are the same
      simp only [Tables.insertTenant] at hinsert
      split at hinsert
      · cases hinsert
      · cases hinsert
        exact hagrees

theorem Mirrors.createAPIKey (tenantID : Bytes) (name : String) (role : Tenancy.Role)
    (seed : KeySeed) (idBytes : Vector UInt8 8) (now : Int) :
    MirrorResults crypto n (s.createAPIKey crypto tenantID name role seed idBytes now)
      (t.createAPIKey crypto tenantID name role seed idBytes now) := by
  simp only [SQLiteStore.createAPIKey, ← h.tables]
  split
  · exact ⟨rfl, h⟩
  · split
    · exact ⟨rfl, h⟩
    · split
      · exact ⟨rfl, h⟩
      · rename_i tables hinsert
        obtain ⟨c, hc, hagrees, hb⟩ := h.cache
        refine ⟨rfl, rfl, h.plain, c, hc, ?_, hb⟩
        simp only [Tables.insertKey] at hinsert
        split at hinsert
        · cases hinsert
        · cases hinsert
          intro k e hk
          obtain ⟨plaintext, hkey, hauth⟩ := hagrees k e hk
          exact ⟨plaintext, hkey, Tables.authenticate_append crypto hauth _⟩

theorem Mirrors.deleteTenant (id : Bytes) :
    MirrorResults crypto n (s.deleteTenant id) (t.deleteTenant id) := by
  simp only [SQLiteStore.deleteTenant, ← h.tables]
  split
  · exact ⟨rfl, h⟩
  · exact ⟨rfl, h.invalidate (congrArg (Tables.deleteTenant · id) h.tables) rfl rfl⟩

theorem Mirrors.updateAPIKeyRole (tenantID id : Bytes) (role : Tenancy.Role) :
    MirrorResults crypto n (s.updateAPIKeyRole tenantID id role)
      (t.updateAPIKeyRole tenantID id role) := by
  simp only [SQLiteStore.updateAPIKeyRole, ← h.tables]
  split
  · exact ⟨rfl, h⟩
  · split
    · exact ⟨rfl, h⟩
    · exact ⟨rfl, h.invalidate (congrArg (Tables.updateRole · tenantID id role) h.tables) rfl rfl⟩

theorem Mirrors.deleteAPIKey (tenantID id : Bytes) :
    MirrorResults crypto n (s.deleteAPIKey tenantID id) (t.deleteAPIKey tenantID id) := by
  simp only [SQLiteStore.deleteAPIKey, ← h.tables]
  split
  · exact ⟨rfl, h⟩
  · exact ⟨rfl, h.invalidate (congrArg (Tables.deleteKey · tenantID id) h.tables) rfl rfl⟩

theorem Mirrors.rotateAPIKey (callerTenantID id : Bytes) (seed : KeySeed) :
    MirrorResults crypto n (s.rotateAPIKey crypto callerTenantID id seed)
      (t.rotateAPIKey crypto callerTenantID id seed) := by
  simp only [SQLiteStore.rotateAPIKey, ← h.tables]
  split
  · exact ⟨rfl, h⟩
  · refine ⟨rfl, h.invalidate ?_ rfl rfl⟩
    simp only [rotate, h.tables]

theorem Mirrors.bulkRotateTenantKeys (tenantID : Bytes) (excludeKeyIDs : List Bytes)
    (seeds : Nat → KeySeed) :
    MirrorResults crypto n (s.bulkRotateTenantKeys crypto tenantID excludeKeyIDs seeds)
      (t.bulkRotateTenantKeys crypto tenantID excludeKeyIDs seeds) := by
  simp only [SQLiteStore.bulkRotateTenantKeys, ← h.tables]
  split
  · exact ⟨rfl, h⟩
  · split
    · exact ⟨rfl, h⟩
    · have hrows := fun rows => rotateAll_congr crypto rows h.tables
      exact ⟨by simp [(hrows _).2.1], h.invalidate (hrows _).1 (hrows _).2.2
        (rotateAll_congr crypto _ h.tables.symm).2.2⟩

end

/-- What `Resolve` returns after a cache miss. -/
theorem resolveRows_result (crypto : Crypto H) (s : SQLiteStore H) (plaintext : Bytes)
    (inp : ResolveInput) :
    (s.resolveRows crypto plaintext inp).2 =
      match s.tables.authenticate crypto plaintext with
      | some p => .ok p
      | none => .error .invalidKey := by
  simp only [resolveRows, Tables.authenticate]
  cases matchCandidate crypto (s.tables.candidates plaintext) plaintext <;> rfl

theorem tables_bumpLastUsed (s : SQLiteStore H) (id : Bytes) (lastUsed : Option Int)
    (now : Int) : (s.bumpLastUsed id lastUsed now).tables = s.tables := by
  simp only [bumpLastUsed]
  split <;> rfl

theorem cache_bumpLastUsed (s : SQLiteStore H) (id : Bytes) (lastUsed : Option Int)
    (now : Int) : (s.bumpLastUsed id lastUsed now).cache = s.cache := by
  simp only [bumpLastUsed]
  split <;> rfl

theorem tables_resolveRows (crypto : Crypto H) (s : SQLiteStore H) (plaintext : Bytes)
    (inp : ResolveInput) : (s.resolveRows crypto plaintext inp).1.tables = s.tables := by
  simp only [resolveRows]
  split
  · rfl
  · exact tables_bumpLastUsed s _ _ _

theorem cache_resolveRows_none (crypto : Crypto H) {s : SQLiteStore H} (h : s.cache = none)
    (plaintext : Bytes) (inp : ResolveInput) :
    (s.resolveRows crypto plaintext inp).1.cache = none := by
  simp only [resolveRows]
  split
  · exact h
  · rw [cacheSet, cache_bumpLastUsed, h]
    rfl

/-- A cache miss writes a principal that the rows give. -/
theorem Mirrors.resolveRows (h : Mirrors crypto n s t) (plaintext : Bytes) (inp : ResolveInput) :
    Mirrors crypto n (s.resolveRows crypto plaintext inp).1
      (t.resolveRows crypto plaintext inp).1 := by
  refine ⟨?_, cache_resolveRows_none crypto h.plain plaintext inp, ?_⟩
  · rw [tables_resolveRows, tables_resolveRows, h.tables]
  · rw [tables_resolveRows]
    obtain ⟨c, hc, hagrees, hb⟩ := h.cache
    simp only [SQLiteStore.resolveRows]
    split
    · exact ⟨c, hc, hagrees, hb⟩
    · rename_i r hr
      have hauth : s.tables.authenticate crypto plaintext = some r.principal := by
        rw [Tables.authenticate, hr]
        rfl
      exact ⟨_, by rw [cacheSet, cache_bumpLastUsed, hc]; rfl, hagrees.set crypto hauth inp.set,
        hb.set _ _ _ _⟩

theorem Mirrors.resolve (hsha : Function.Injective crypto.sha256) (h : Mirrors crypto n s t)
    (plaintext : Bytes) (inp : ResolveInput) :
    MirrorResults crypto n (s.resolve crypto plaintext inp) (t.resolve crypto plaintext inp) := by
  obtain ⟨c, hc, hagrees, hb⟩ := h.cache
  have hget := hagrees.get crypto hsha hb plaintext inp.checkAt inp.dropAt
  simp only [SQLiteStore.resolve, hc, h.plain]
  split
  · exact ⟨rfl, h⟩
  · obtain ⟨hagrees', hb', hcached⟩ := hget
    have h' : Mirrors crypto n
        { s with cache := some (c.get crypto.sha256 plaintext inp.checkAt inp.dropAt).1 } t :=
      ⟨h.tables, h.plain, _, rfl, hagrees', hb'⟩
    split
    · -- a hit: the rows would have given the same principal
      rename_i p hp
      refine ⟨?_, ?_⟩
      · rw [resolveRows_result, ← h.tables, hcached p hp]
      · exact ⟨by rw [tables_resolveRows, h.tables],
          cache_resolveRows_none crypto h.plain plaintext inp, _, rfl, hagrees', hb'⟩
    · refine ⟨?_, h'.resolveRows plaintext inp⟩
      rw [resolveRows_result, resolveRows_result, ← h.tables]

/-- One call on both stores. -/
theorem Mirrors.step (hsha : Function.Injective crypto.sha256) (h : Mirrors crypto n s t)
    (op : StoreOp) :
    MirrorResults crypto n (s.step crypto op) (t.step crypto op) := by
  cases op with
  | createTenant name idBytes now =>
    exact (h.createTenant name idBytes now).map StoreResult.tenant
  | deleteTenant id => exact (h.deleteTenant id).map StoreResult.deleted
  | createAPIKey tenantID name role seed idBytes now =>
    exact (h.createAPIKey tenantID name role seed idBytes now).map StoreResult.key
  | updateAPIKeyRole tenantID id role =>
    exact (h.updateAPIKeyRole tenantID id role).map StoreResult.roles
  | rotateAPIKey callerTenantID id seed =>
    exact (h.rotateAPIKey callerTenantID id seed).map StoreResult.rotated
  | bulkRotateTenantKeys tenantID excludeKeyIDs seeds =>
    exact (h.bulkRotateTenantKeys tenantID excludeKeyIDs seeds).map StoreResult.bulk
  | deleteAPIKey tenantID id => exact (h.deleteAPIKey tenantID id).map StoreResult.deleted
  | resolve plaintext inp =>
    exact (h.resolve hsha plaintext inp).map StoreResult.principal

theorem mirrors_enableAuthCache (crypto : Crypto H) {s : SQLiteStore H} (hplain : s.cache = none)
    (ttl maxSize : Int) :
    Mirrors crypto (if maxSize ≤ 0 then 1024 else maxSize) (s.enableAuthCache ttl maxSize) s :=
  ⟨rfl, hplain, _, rfl, fun _ _ h => (nomatch h), AuthCache.bounded_newAuthCache ttl maxSize⟩

/-- Enabling the auth cache changes the result of no later call, whatever the calls, their
    random bytes and their clock readings are; and the cache never holds more than its
    maximal number of entries. -/
theorem authCache_transparent (crypto : Crypto H) (hideal : crypto.Ideal) (s : SQLiteStore H)
    (hplain : s.cache = none) (ttl maxSize : Int) (ops : List StoreOp) :
    trace (step crypto) (s.enableAuthCache ttl maxSize) ops = trace (step crypto) s ops ∧
      ∃ c, (after (step crypto) (s.enableAuthCache ttl maxSize) ops).cache = some c ∧
        c.maxSize = (if maxSize ≤ 0 then 1024 else maxSize) ∧
        (c.entries.entries.length : Int) ≤ c.maxSize := by
  obtain ⟨htrace, hafter⟩ := trace_eq_of_simulation (step crypto) (Mirrors crypto _)
    (fun _ _ op h => h.step hideal.sha256_injective op)
    (mirrors_enableAuthCache crypto hplain ttl maxSize) ops
  obtain ⟨c, hc, _, hsize, _, hlen⟩ := hafter.cache
  exact ⟨htrace, c, hc, hsize, by rw [hsize]; exact hlen⟩

end SQLiteStore

/-- A tenant with a key that is used twice, deleted and used again. -/
def keyLife (seed : KeySeed) : List StoreOp :=
  let tenantID := randID "ten" (.replicate 8 0)
  let plaintext := (generateAPIKey seed).1
  [.createTenant "acme" (.replicate 8 0) 0,
    .createAPIKey tenantID "ci" .editor seed (.replicate 8 1) 0,
    .resolve plaintext {}, .resolve plaintext {},
    .deleteAPIKey tenantID (randID "key" (.replicate 8 1)), .resolve plaintext {}]

theorem keyLife_transparent :
    let s : SQLiteStore Bytes := { tables := ⟨[], []⟩ }
    let ops := keyLife ⟨.replicate 4 7, .replicate 24 9, []⟩
    trace (SQLiteStore.step plainCrypto) (s.enableAuthCache 0 1) ops =
        trace (SQLiteStore.step plainCrypto) s ops ∧
      ∃ c, (after (SQLiteStore.step plainCrypto) (s.enableAuthCache 0 1) ops).cache = some c ∧
        c.maxSize = 1 ∧ (c.entries.entries.length : Int) ≤ c.maxSize :=
  SQLiteStore.authCache_transparent plainCrypto plainCrypto_ideal _ rfl 0 1 _

end MockAgents
