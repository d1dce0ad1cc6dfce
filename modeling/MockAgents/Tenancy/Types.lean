import MockAgents.ForStd.Bytes

/-!
# Tenants, API keys and roles
-/

namespace MockAgents

/-- `Role`. A role text that is none of the known ones is `other`. -/
inductive Tenancy.Role where
  | viewer
  | editor
  | admin
  | platform
  | other (name : String)
  deriving DecidableEq

namespace Tenancy.Role

def rank : Tenancy.Role → Int
  | viewer => 1
  | editor => 2
  | admin => 3
  | platform => 4
  | other _ => -1

def isValid (r : Tenancy.Role) : Bool := r.rank > 0

def isAssignableViaAPI (r : Tenancy.Role) : Bool := r.isValid && r != platform

end Tenancy.Role

structure Tenant where
  id : Bytes
  name : String
  createdAt : Int
  deriving DecidableEq

/-- `APIKey`, as the store's methods return it. -/
structure APIKey where
  id : Bytes
  tenantID : Bytes
  name : String
  keyPrefix : Bytes
  role : Tenancy.Role
  createdAt : Int
  deriving DecidableEq

structure NewAPIKeyResult where
  key : APIKey
  plaintext : Bytes
  deriving DecidableEq

structure Principal where
  tenantID : Bytes
  keyID : Bytes
  role : Tenancy.Role
  deriving DecidableEq

/-- The errors of the store's methods: `ErrNotFound`, `ErrConflict` and `ErrInvalidKey`,
    possibly wrapped, and those without a name. -/
inductive StoreError where
  | notFound
  | conflict
  | invalidKey
  | nameRequired
  | invalidRole (role : Tenancy.Role)
  | insertAPIKey
  deriving DecidableEq

end MockAgents
