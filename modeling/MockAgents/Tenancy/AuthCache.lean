import MockAgents.ForStd.GoMap
import MockAgents.Tenancy.Types

/-!
# The auth cache

A bounded cache of resolved API keys, by the digest of the plaintext. Every function
takes the clock readings of the source as arguments, and `set` the order of the map
iterations that pick an entry to evict.
-/

namespace MockAgents

structure AuthCacheEntry where
  principal : Principal
  expiry : Int
  deriving DecidableEq

structure AuthCache where
  entries : GoMap Bytes AuthCacheEntry
  ttl : Int
  maxSize : Int

namespace AuthCache

def newAuthCache (ttl maxSize : Int) : AuthCache where
  entries := ∅
  ttl := if ttl ≤ 0 then 5 * 60 * 1000000000 else ttl
  maxSize := if maxSize ≤ 0 then 1024 else maxSize

def hashKey (sha256 : Bytes → Bytes) (plaintext : Bytes) : Bytes :=
  Bytes.hexEncode (sha256 plaintext)

/-- The last part of `Get` for an expired entry: delete it if it is still expired. -/
def dropExpired (c : AuthCache) (k : Bytes) (now : Int) : AuthCache :=
  match c.entries.lookup k with
  | some e => if now > e.expiry then { c with entries := c.entries.erase k } else c
  | none => c

/-- `Get`; `checkAt` and `dropAt` are the readings of the expiry check and of the check
    again under the exclusive lock. -/
def get (c : AuthCache) (sha256 : Bytes → Bytes) (plaintext : Bytes) (checkAt dropAt : Int) :
    AuthCache × Option Principal :=
  if plaintext = [] then (c, none)
  else
    match c.entries.lookup (hashKey sha256 plaintext) with
    | none => (c, none)
    | some e =>
      if checkAt > e.expiry then (c.dropExpired (hashKey sha256 plaintext) dropAt, none)
      else (c, some e.principal)

/-- The key `evictOneLocked` deletes: the first expired one in the first iteration, else
    the first in the second. -/
def victim (c : AuthCache) (ord ord' : MapOrder) (now : Int) : Option Bytes :=
  match (ord.visit c.entries.entries).find? fun e => decide (now > e.2.expiry) with
  | some e => some e.1
  | none => (ord'.visit c.entries.entries).head?.map (·.1)

def evictOneLocked (c : AuthCache) (ord ord' : MapOrder) (now : Int) : AuthCache :=
  match c.victim ord ord' now with
  | some k => { c with entries := c.entries.erase k }
  | none => c

/-- The order of the two iterations of `evictOneLocked`, and the clock readings of the
    eviction and of the new expiry. -/
structure SetInput where
  ord : MapOrder := .stored
  ord' : MapOrder := .stored
  evictAt : Int := 0
  setAt : Int := 0

def set (c : AuthCache) (sha256 : Bytes → Bytes) (plaintext : Bytes) (principal : Principal)
    (inp : SetInput) : AuthCache :=
  if plaintext = [] then c
  else
    let k := hashKey sha256 plaintext
    let c :=
      if (c.entries.lookup k).isNone ∧ c.maxSize ≤ c.entries.entries.length then
        c.evictOneLocked inp.ord inp.ord' inp.evictAt
      else c
    { c with entries := c.entries.insert k ⟨principal, inp.setAt + c.ttl⟩ }

def invalidate (c : AuthCache) : AuthCache := { c with entries := ∅ }

end AuthCache

end MockAgents
