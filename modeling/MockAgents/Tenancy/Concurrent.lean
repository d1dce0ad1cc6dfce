import MockAgents.ForStd.Trace
import MockAgents.Tenancy.Store

/-!
# Concurrent use of the tenancy store

`AuthSystem` runs `Resolve` calls, mutators and creations concurrently. Its events are the
lock regions of the cache and the statements on the database. `Resolve` looks the key up
in the cache, drops an expired entry, selects the candidate rows, compares, refreshes
`last_used` and writes the cache. A mutator writes the database and then flushes the
cache; `UpdateAPIKeyRole` and `BulkRotateTenantKeys` read it first.

Every write of the tables makes a new version of them. `history` keeps all versions, and
`flushed` is the latest version written by a mutator that has returned.
-/

namespace MockAgents

/-- Where a client of the store is. In a `Resolve` call, `since` is the value of `flushed`
    when it started and `version` that of the tables it selected from. -/
inductive AuthPc (H : Type) where
  | idle
  | dropping (plaintext : Bytes) (since : Nat)
  | selecting (plaintext : Bytes) (since : Nat)
  | comparing (plaintext : Bytes) (since version : Nat) (candidates : List (KeyRow H))
      (lastUsed : Bytes → Option Int)
  | bumping (plaintext : Bytes) (since version : Nat) (principal : Principal)
      (lastUsed : Option Int)
  | setting (plaintext : Bytes) (since version : Nat) (principal : Principal)
  | updating (tenantID id : Bytes) (role : Tenancy.Role)
  | rotating (rows : List (KeyRow H × KeySeed))
  | flushing (version : Nat)

structure ResolveReport where
  plaintext : Bytes
  since : Nat
  result : Except StoreError Principal

/-- The store, its versions and its clients. -/
structure AuthSystem (ι H : Type) where
  store : SQLiteStore H
  version : Nat
  history : Nat → Tables H
  flushed : Nat
  pc : ι → AuthPc H
  reports : List ResolveReport

/-- The steps of the calls, with their random bytes and clock readings. -/
inductive AuthEvent (ι : Type) where
  | lookup (i : ι) (plaintext : Bytes) (now : Int)
  | drop (i : ι) (now : Int)
  | select (i : ι)
  | compare (i : ι)
  | bump (i : ι) (now : Int)
  | set (i : ι) (inp : AuthCache.SetInput)
  | createTenant (name : String) (idBytes : Vector UInt8 8) (now : Int)
  | createAPIKey (tenantID : Bytes) (name : String) (role : Tenancy.Role) (seed : KeySeed)
      (idBytes : Vector UInt8 8) (now : Int)
  | deleteTenant (i : ι) (id : Bytes)
  | deleteAPIKey (i : ι) (tenantID id : Bytes)
  | rotateAPIKey (i : ι) (callerTenantID id : Bytes) (seed : KeySeed)
  | roleSelect (i : ι) (tenantID id : Bytes) (role : Tenancy.Role)
  | roleUpdate (i : ι)
  | bulkSelect (i : ι) (tenantID : Bytes) (excludeKeyIDs : List Bytes) (seeds : Nat → KeySeed)
  | bulkUpdate (i : ι)
  | flush (i : ι)

namespace AuthSystem

variable {ι H : Type}

/-- A store without clients. -/
def initial (store : SQLiteStore H) : AuthSystem ι H where
  store := store
  version := 0
  history := fun _ => store.tables
  flushed := 0
  pc := fun _ => .idle
  reports := []

/-- A `Resolve` call returns. -/
def report (s : AuthSystem ι H) (plaintext : Bytes) (since : Nat)
    (result : Except StoreError Principal) : AuthSystem ι H :=
  { s with reports := s.reports ++ [⟨plaintext, since, result⟩] }

/-- A statement writes the tables. -/
def write (s : AuthSystem ι H) (store : SQLiteStore H) : AuthSystem ι H :=
  { s with
    store := store
    version := s.version + 1
    history := Function.update s.history (s.version + 1) store.tables }

variable [DecidableEq ι]

def move (s : AuthSystem ι H) (i : ι) (pc : AuthPc H) : AuthSystem ι H :=
  { s with pc := Function.update s.pc i pc }

/-- The write of a mutator, which has the cache to flush next. -/
def mutate (s : AuthSystem ι H) (i : ι) (store : SQLiteStore H) : AuthSystem ι H :=
  (s.write store).move i (.flushing (s.version + 1))

/-- The first part of `Resolve`: the format check and the cache lookup. -/
def lookupKey (crypto : Crypto H) (s : AuthSystem ι H) (i : ι) (plaintext : Bytes)
    (now : Int) : AuthSystem ι H :=
  if wellFormedKey plaintext = false then s.report plaintext s.flushed (.error .invalidKey)
  else
    match s.store.cache.bind (·.entries.lookup (AuthCache.hashKey crypto.sha256 plaintext)) with
    | none => s.move i (.selecting plaintext s.flushed)
    | some e =>
      if now > e.expiry then s.move i (.dropping plaintext s.flushed)
      else s.report plaintext s.flushed (.ok e.principal)

/-- One step; `none` if the event is not enabled. A call that finds nothing to change
    returns without a write. -/
def step (crypto : Crypto H) (s : AuthSystem ι H) : AuthEvent ι → Option (AuthSystem ι H)
  | .lookup i plaintext now =>
    match s.pc i with
    | .idle => some (s.lookupKey crypto i plaintext now)
    | _ => none
  | .drop i now =>
    match s.pc i with
    | .dropping plaintext since =>
      some ({ s with store := s.store.cacheDrop crypto plaintext now }.move i
        (.selecting plaintext since))
    | _ => none
  | .select i =>
    match s.pc i with
    | .selecting plaintext since =>
      some (s.move i (.comparing plaintext since s.version
        (s.store.tables.candidates plaintext) s.store.lastUsed))
    | _ => none
  | .compare i =>
    match s.pc i with
    | .comparing plaintext since version candidates lastUsed =>
      match matchCandidate crypto candidates plaintext with
      | none => some ((s.report plaintext since (.error .invalidKey)).move i .idle)
      | some c =>
        some (s.move i (.bumping plaintext since version c.principal (lastUsed c.id)))
    | _ => none
  | .bump i now =>
    match s.pc i with
    | .bumping plaintext since version principal lastUsed =>
      some ({ s with store := s.store.bumpLastUsed principal.keyID lastUsed now }.move i
        (.setting plaintext since version principal))
    | _ => none
  | .set i inp =>
    match s.pc i with
    | .setting plaintext since _ principal =>
      some (({ s with store := s.store.cacheSet crypto plaintext principal inp }.report
        plaintext since (.ok principal)).move i .idle)
    | _ => none
  | .createTenant name idBytes now => some (s.write (s.store.createTenant name idBytes now).1)
  | .createAPIKey tenantID name role seed idBytes now =>
    some (s.write (s.store.createAPIKey crypto tenantID name role seed idBytes now).1)
  | .deleteTenant i id =>
    match s.pc i with
    | .idle =>
      match s.store.tables.getTenant id with
      | none => some s
      | some _ => some (s.mutate i (s.store.deleteTenantRow id))
    | _ => none
  | .deleteAPIKey i tenantID id =>
    match s.pc i with
    | .idle =>
      match s.store.tables.findKey tenantID id with
      | none => some s
      | some _ => some (s.mutate i (s.store.deleteKeyRow tenantID id))
    | _ => none
  | .rotateAPIKey i callerTenantID id seed =>
    match s.pc i with
    | .idle =>
      match s.store.tables.findKey callerTenantID id with
      | none => some s
      | some _ => some (s.mutate i (s.store.rotate crypto id seed))
    | _ => none
  | .roleSelect i tenantID id role =>
    match s.pc i with
    | .idle =>
      if role.isValid = false then some s
      else
        match s.store.tables.findKey tenantID id with
        | none => some s
        | some _ => some (s.move i (.updating tenantID id role))
    | _ => none
  | .roleUpdate i =>
    match s.pc i with
    | .updating tenantID id role => some (s.mutate i (s.store.updateRoleRow tenantID id role))
    | _ => none
  | .bulkSelect i tenantID excludeKeyIDs seeds =>
    match s.pc i with
    | .idle =>
      match s.store.tables.getTenant tenantID with
      | none => some s
      | some _ =>
        let existing := s.store.tables.rotatable tenantID excludeKeyIDs
        if existing = [] then some s
        else some (s.move i (.rotating (existing.zipIdx.map fun (r, n) => (r, seeds n))))
    | _ => none
  | .bulkUpdate i =>
    match s.pc i with
    | .rotating rows => some (s.mutate i (s.store.rotateAll crypto rows).1)
    | _ => none
  | .flush i =>
    match s.pc i with
    | .flushing version =>
      some ({ s with store := s.store.invalidate, flushed := max s.flushed version }.move i .idle)
    | _ => none

def run (crypto : Crypto H) (s : AuthSystem ι H) (events : List (AuthEvent ι)) :
    Option (AuthSystem ι H) :=
  runOption (step crypto) s events

end AuthSystem

end MockAgents
