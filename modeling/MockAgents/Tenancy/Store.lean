import MockAgents.Tenancy.AuthCache

/-!
# The tenancy store

`SQLiteStore`: the tables `tenants` and `api_keys` in the order of their row ids, and the
optional auth cache. A query by an indexed column visits the rows in that order. The
column `last_used` is kept apart, by key id, as nothing but its own refresh depends on it.

The random bytes of a new id, secret or bcrypt salt and the clock readings are arguments.
SHA-256 and bcrypt are a `Crypto`.
-/

namespace MockAgents

/-- SHA-256 and bcrypt, over a type of password hashes. -/
structure Crypto (H : Type) where
  sha256 : Bytes → Bytes
  generateFromPassword : (salt password : Bytes) → H
  compareHashAndPassword : H → Bytes → Bool

/-- What the store relies on: SHA-256 does not collide, and bcrypt accepts the password
    it hashed and no other. -/
structure Crypto.Ideal {H : Type} (crypto : Crypto H) : Prop where
  sha256_injective : Function.Injective crypto.sha256
  compare_iff : ∀ salt p q,
    crypto.compareHashAndPassword (crypto.generateFromPassword salt p) q = true ↔ q = p

/-- A row of `api_keys`, without `last_used`. -/
structure KeyRow (H : Type) where
  id : Bytes
  tenantID : Bytes
  name : String
  keyPrefix : Bytes
  hash : H
  role : Tenancy.Role
  createdAt : Int
  deriving DecidableEq

structure Tables (H : Type) where
  tenants : List Tenant
  keys : List (KeyRow H)
  deriving DecidableEq

structure SQLiteStore (H : Type) where
  tables : Tables H
  lastUsed : Bytes → Option Int := fun _ => none
  cache : Option AuthCache := none

/-- The random bytes of a new API key. -/
structure KeySeed where
  prefixBytes : Vector UInt8 4
  secret : Vector UInt8 24
  salt : Bytes

def randID (kind : String) (b : Vector UInt8 8) : Bytes :=
  Bytes.ofString kind ++ Bytes.ofString "_" ++ Bytes.hexEncode b.toList

def apiKeyPrefixLen : Nat := 12

/-- `generateAPIKey`: the plaintext and its public part. -/
def generateAPIKey (seed : KeySeed) : Bytes × Bytes :=
  let keyPrefix := Bytes.ofString "mak_" ++ Bytes.hexEncode seed.prefixBytes.toList
  (keyPrefix ++ Bytes.ofString "_" ++ Bytes.base64RawURL seed.secret.toList, keyPrefix)

/-- A time as the RFC 3339 text of a column keeps it: whole seconds. -/
def wholeSeconds (t : Int) : Int := t / 1000000000 * 1000000000

namespace Tables

variable {H : Type}

/-- `GetTenant`, as the row found. -/
def getTenant (t : Tables H) (id : Bytes) : Option Tenant := t.tenants.find? (·.id = id)

/-- The row an UPDATE or SELECT scoped to a tenant finds. -/
def findKey (t : Tables H) (tenantID id : Bytes) : Option (KeyRow H) :=
  t.keys.find? fun r => r.id = id ∧ r.tenantID = tenantID

/-- `INSERT INTO tenants`; `none` if the id or the name is taken. -/
def insertTenant (t : Tables H) (tenant : Tenant) : Option (Tables H) :=
  if t.tenants.any fun x => x.id = tenant.id ∨ x.name = tenant.name then none
  else some { t with tenants := t.tenants ++ [tenant] }

/-- `DELETE FROM tenants`, with the cascade to `api_keys`. -/
def deleteTenant (t : Tables H) (id : Bytes) : Tables H where
  tenants := t.tenants.filter (·.id ≠ id)
  keys := t.keys.filter (·.tenantID ≠ id)

/-- `INSERT INTO api_keys`; `none` if the id is taken. -/
def insertKey (t : Tables H) (row : KeyRow H) : Option (Tables H) :=
  if t.keys.any (·.id = row.id) then none else some { t with keys := t.keys ++ [row] }

/-- `DELETE FROM api_keys WHERE id = ? AND tenant_id = ?`. -/
def deleteKey (t : Tables H) (tenantID id : Bytes) : Tables H :=
  { t with keys := t.keys.filter fun r => ¬ (r.id = id ∧ r.tenantID = tenantID) }

/-- `UPDATE api_keys SET role = ? WHERE id = ? AND tenant_id = ?`. -/
def updateRole (t : Tables H) (tenantID id : Bytes) (role : Tenancy.Role) : Tables H :=
  { t with keys := t.keys.map fun r =>
      if r.id = id ∧ r.tenantID = tenantID then { r with role := role } else r }

/-- `UPDATE api_keys SET prefix = ?, hash = ? WHERE id = ?`. -/
def updateSecret (t : Tables H) (id keyPrefix : Bytes) (hash : H) : Tables H :=
  { t with keys := t.keys.map fun r =>
      if r.id = id then { r with keyPrefix := keyPrefix, hash := hash } else r }

/-- The keys `BulkRotateTenantKeys` selects: those of the tenant that are not excluded, by
    creation time. Empty ids exclude nothing. -/
def rotatable (t : Tables H) (tenantID : Bytes) (excludeKeyIDs : List Bytes) :
    List (KeyRow H) :=
  let exclude := excludeKeyIDs.filter (· ≠ [])
  (t.keys.filter fun r => r.tenantID = tenantID ∧ r.id ∉ exclude).mergeSort
    fun a b => a.createdAt ≤ b.createdAt

def candidates (t : Tables H) (plaintext : Bytes) : List (KeyRow H) :=
  t.keys.filter (·.keyPrefix = plaintext.take apiKeyPrefixLen)

end Tables

def KeyRow.principal {H : Type} (r : KeyRow H) : Principal := ⟨r.tenantID, r.id, r.role⟩

/-- The format check of `Resolve`: `mak_`, eight more bytes, an underscore and a secret. -/
def wellFormedKey (plaintext : Bytes) : Bool :=
  decide (apiKeyPrefixLen < plaintext.length) && plaintext.take 4 == Bytes.ofString "mak_" &&
    plaintext[apiKeyPrefixLen]? == some 95

def lastUsedResolution : Int := 60 * 1000000000

def shouldBumpLastUsed (lastUsed : Option Int) (now : Int) : Bool :=
  match lastUsed with
  | none => true
  | some prev => now - prev ≥ lastUsedResolution

/-- The clock readings of `Resolve`, and the inputs of the cache's `Set`. -/
structure ResolveInput where
  checkAt : Int := 0
  dropAt : Int := 0
  now : Int := 0
  set : AuthCache.SetInput := {}

section

variable {H : Type} (crypto : Crypto H)

/-- The comparison loop of `Resolve`: the first candidate bcrypt accepts. -/
def matchCandidate (candidates : List (KeyRow H)) (plaintext : Bytes) : Option (KeyRow H) :=
  candidates.find? fun c => crypto.compareHashAndPassword c.hash plaintext

/-- The principal that the rows give to a plaintext. -/
def Tables.authenticate (t : Tables H) (plaintext : Bytes) : Option Principal :=
  (matchCandidate crypto (t.candidates plaintext) plaintext).map KeyRow.principal

namespace SQLiteStore

/-- Flush the cache, if there is one. -/
def invalidate (s : SQLiteStore H) : SQLiteStore H :=
  { s with cache := s.cache.map AuthCache.invalidate }

def enableAuthCache (s : SQLiteStore H) (ttl maxSize : Int) : SQLiteStore H :=
  { s with cache := some (AuthCache.newAuthCache ttl maxSize) }

def createTenant (s : SQLiteStore H) (name : String) (idBytes : Vector UInt8 8) (now : Int) :
    SQLiteStore H × Except StoreError Tenant :=
  if name = "" then (s, .error .nameRequired)
  else
    let tenant : Tenant := ⟨randID "ten" idBytes, name, now⟩
    match s.tables.insertTenant { tenant with createdAt := wholeSeconds now } with
    | none => (s, .error .conflict)
    | some t => ({ s with tables := t }, .ok tenant)

def deleteTenantRow (s : SQLiteStore H) (id : Bytes) : SQLiteStore H :=
  let dropped := fun k => s.tables.keys.any fun r => r.tenantID = id ∧ r.id = k
  { s with
    tables := s.tables.deleteTenant id
    lastUsed := fun k => if dropped k then none else s.lastUsed k }

def deleteTenant (s : SQLiteStore H) (id : Bytes) : SQLiteStore H × Except StoreError Unit :=
  match s.tables.getTenant id with
  | none => (s, .error .notFound)
  | some _ => (invalidate (s.deleteTenantRow id), .ok ())

def createAPIKey (s : SQLiteStore H) (tenantID : Bytes) (name : String) (role : Tenancy.Role)
    (seed : KeySeed) (idBytes : Vector UInt8 8) (now : Int) :
    SQLiteStore H × Except StoreError NewAPIKeyResult :=
  if role.isValid = false then (s, .error (.invalidRole role))
  else
    match s.tables.getTenant tenantID with
    | none => (s, .error .notFound)
    | some _ =>
      let (plaintext, keyPrefix) := generateAPIKey seed
      let key : APIKey := ⟨randID "key" idBytes, tenantID, name, keyPrefix, role, now⟩
      let row : KeyRow H := {
        id := key.id, tenantID := tenantID, name := name, keyPrefix := keyPrefix
        hash := crypto.generateFromPassword seed.salt plaintext
        role := role, createdAt := wholeSeconds now }
      match s.tables.insertKey row with
      | none => (s, .error .insertAPIKey)
      | some t => ({ s with tables := t }, .ok ⟨key, plaintext⟩)

/-- The UPDATE of `UpdateAPIKeyRole`. -/
def updateRoleRow (s : SQLiteStore H) (tenantID id : Bytes) (role : Tenancy.Role) : SQLiteStore H :=
  { s with tables := s.tables.updateRole tenantID id role }

/-- `UpdateAPIKeyRole`: the previous and the new role. -/
def updateAPIKeyRole (s : SQLiteStore H) (tenantID id : Bytes) (role : Tenancy.Role) :
    SQLiteStore H × Except StoreError (Tenancy.Role × Tenancy.Role) :=
  if role.isValid = false then (s, .error (.invalidRole role))
  else
    match s.tables.findKey tenantID id with
    | none => (s, .error .notFound)
    | some r => (invalidate (s.updateRoleRow tenantID id role), .ok (r.role, role))

/-- The UPDATE of a rotation. -/
def rotate (s : SQLiteStore H) (id : Bytes) (seed : KeySeed) : SQLiteStore H :=
  let (plaintext, keyPrefix) := generateAPIKey seed
  { s with
    tables := s.tables.updateSecret id keyPrefix
      (crypto.generateFromPassword seed.salt plaintext)
    lastUsed := Function.update s.lastUsed id none }

/-- What a rotation returns for a row: the key with its new plaintext. -/
def rotated (r : KeyRow H) (seed : KeySeed) : NewAPIKeyResult :=
  let (plaintext, keyPrefix) := generateAPIKey seed
  ⟨⟨r.id, r.tenantID, r.name, keyPrefix, r.role, r.createdAt⟩, plaintext⟩

/-- `RotateAPIKey`: the new key and the prefix of the old secret. -/
def rotateAPIKey (s : SQLiteStore H) (callerTenantID id : Bytes) (seed : KeySeed) :
    SQLiteStore H × Except StoreError (NewAPIKeyResult × Bytes) :=
  match s.tables.findKey callerTenantID id with
  | none => (s, .error .notFound)
  | some r => (invalidate (s.rotate crypto id seed), .ok (rotated r seed, r.keyPrefix))

/-- The transaction of `BulkRotateTenantKeys`: rotate the selected rows, skipping those
    whose key is gone. -/
def rotateAll (s : SQLiteStore H) : List (KeyRow H × KeySeed) →
    SQLiteStore H × List NewAPIKeyResult × List Bytes
  | [] => (s, [], [])
  | (r, seed) :: rest =>
    if s.tables.keys.any (·.id = r.id) then
      let (s', results, oldPrefixes) := rotateAll (s.rotate crypto r.id seed) rest
      (s', rotated r seed :: results, r.keyPrefix :: oldPrefixes)
    else rotateAll s rest

/-- `BulkRotateTenantKeys`; the `n`-th selected key gets the `n`-th new secret. -/
def bulkRotateTenantKeys (s : SQLiteStore H) (tenantID : Bytes) (excludeKeyIDs : List Bytes)
    (seeds : Nat → KeySeed) :
    SQLiteStore H × Except StoreError (List NewAPIKeyResult × List Bytes) :=
  match s.tables.getTenant tenantID with
  | none => (s, .error .notFound)
  | some _ =>
    let existing := s.tables.rotatable tenantID excludeKeyIDs
    if existing = [] then (s, .ok ([], []))
    else
      let (s', results, oldPrefixes) :=
        s.rotateAll crypto (existing.zipIdx.map fun (r, n) => (r, seeds n))
      (s'.invalidate, .ok (results, oldPrefixes))

/-- The DELETE of `DeleteAPIKey`. -/
def deleteKeyRow (s : SQLiteStore H) (tenantID id : Bytes) : SQLiteStore H :=
  { s with
    tables := s.tables.deleteKey tenantID id
    lastUsed := Function.update s.lastUsed id none }

def deleteAPIKey (s : SQLiteStore H) (tenantID id : Bytes) :
    SQLiteStore H × Except StoreError Unit :=
  match s.tables.findKey tenantID id with
  | none => (s, .error .notFound)
  | some _ => (invalidate (s.deleteKeyRow tenantID id), .ok ())

/-- The refresh of `last_used` in `Resolve`; `lastUsed` is what the SELECT read. -/
def bumpLastUsed (s : SQLiteStore H) (id : Bytes) (lastUsed : Option Int) (now : Int) :
    SQLiteStore H :=
  if shouldBumpLastUsed lastUsed now ∧ s.tables.keys.any (·.id = id) then
    { s with lastUsed := Function.update s.lastUsed id (some (wholeSeconds now)) }
  else s

/-- The last part of `Get` on an expired entry, if there is a cache. -/
def cacheDrop (s : SQLiteStore H) (plaintext : Bytes) (now : Int) : SQLiteStore H :=
  let k := AuthCache.hashKey crypto.sha256 plaintext
  { s with cache := s.cache.map fun c => c.dropExpired k now }

/-- `Set` on the cache, if there is one. -/
def cacheSet (s : SQLiteStore H) (plaintext : Bytes) (principal : Principal)
    (inp : AuthCache.SetInput) : SQLiteStore H :=
  { s with cache := s.cache.map fun c => c.set crypto.sha256 plaintext principal inp }

/-- The part of `Resolve` after a cache miss. -/
def resolveRows (s : SQLiteStore H) (plaintext : Bytes) (inp : ResolveInput) :
    SQLiteStore H × Except StoreError Principal :=
  match matchCandidate crypto (s.tables.candidates plaintext) plaintext with
  | none => (s, .error .invalidKey)
  | some c =>
    let s := s.bumpLastUsed c.id (s.lastUsed c.id) inp.now
    (s.cacheSet crypto plaintext c.principal inp.set, .ok c.principal)

def resolve (s : SQLiteStore H) (plaintext : Bytes) (inp : ResolveInput) :
    SQLiteStore H × Except StoreError Principal :=
  if wellFormedKey plaintext = false then (s, .error .invalidKey)
  else
    match s.cache with
    | none => s.resolveRows crypto plaintext inp
    | some cache =>
      let (cache, cached) := cache.get crypto.sha256 plaintext inp.checkAt inp.dropAt
      match cached with
      | some principal => ({ s with cache := some cache }, .ok principal)
      | none => resolveRows crypto { s with cache := some cache } plaintext inp

end SQLiteStore

end

/-! ## Calls one at a time -/

/-- A call of the store, with its random bytes and clock readings. -/
inductive StoreOp where
  | createTenant (name : String) (idBytes : Vector UInt8 8) (now : Int)
  | deleteTenant (id : Bytes)
  | createAPIKey (tenantID : Bytes) (name : String) (role : Tenancy.Role) (seed : KeySeed)
      (idBytes : Vector UInt8 8) (now : Int)
  | updateAPIKeyRole (tenantID id : Bytes) (role : Tenancy.Role)
  | rotateAPIKey (callerTenantID id : Bytes) (seed : KeySeed)
  | bulkRotateTenantKeys (tenantID : Bytes) (excludeKeyIDs : List Bytes) (seeds : Nat → KeySeed)
  | deleteAPIKey (tenantID id : Bytes)
  | resolve (plaintext : Bytes) (inp : ResolveInput)

/-- What a call returns. -/
inductive StoreResult where
  | tenant (r : Except StoreError Tenant)
  | deleted (r : Except StoreError Unit)
  | key (r : Except StoreError NewAPIKeyResult)
  | roles (r : Except StoreError (Tenancy.Role × Tenancy.Role))
  | rotated (r : Except StoreError (NewAPIKeyResult × Bytes))
  | bulk (r : Except StoreError (List NewAPIKeyResult × List Bytes))
  | principal (r : Except StoreError Principal)

/-- Run one call. -/
def SQLiteStore.step {H : Type} (crypto : Crypto H) (s : SQLiteStore H) :
    StoreOp → SQLiteStore H × StoreResult
  | .createTenant name idBytes now =>
    let (s', r) := s.createTenant name idBytes now
    (s', .tenant r)
  | .deleteTenant id =>
    let (s', r) := s.deleteTenant id
    (s', .deleted r)
  | .createAPIKey tenantID name role seed idBytes now =>
    let (s', r) := s.createAPIKey crypto tenantID name role seed idBytes now
    (s', .key r)
  | .updateAPIKeyRole tenantID id role =>
    let (s', r) := s.updateAPIKeyRole tenantID id role
    (s', .roles r)
  | .rotateAPIKey callerTenantID id seed =>
    let (s', r) := s.rotateAPIKey crypto callerTenantID id seed
    (s', .rotated r)
  | .bulkRotateTenantKeys tenantID excludeKeyIDs seeds =>
    let (s', r) := s.bulkRotateTenantKeys crypto tenantID excludeKeyIDs seeds
    (s', .bulk r)
  | .deleteAPIKey tenantID id =>
    let (s', r) := s.deleteAPIKey tenantID id
    (s', .deleted r)
  | .resolve plaintext inp =>
    let (s', r) := s.resolve crypto plaintext inp
    (s', .principal r)

/-- Hashes that keep the password, to evaluate the store with. -/
def plainCrypto : Crypto Bytes where
  sha256 := fun b => b
  generateFromPassword := fun _ p => p
  compareHashAndPassword := fun h p => h == p

theorem plainCrypto_ideal : plainCrypto.Ideal where
  sha256_injective := fun _ _ h => h
  compare_iff := fun _ _ _ => beq_iff_eq.trans eq_comm

end MockAgents
