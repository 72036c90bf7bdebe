import TenantIam.Tenant.Inheritance
import TenantIam.Tenant.Tree

/-!
# Questions about the hierarchy

What is above and below an identifier is asked of the store as it is. What is above goes by the
identifier; the tree below goes by the parents that are stored.
-/

namespace TenantIam.TenantStore

/-- The stored tenants above an identifier, the root first. -/
def ancestors (s : TenantStore) (id : TenantId) : List Tenant := id.ancestors.filterMap s.get?

def descendants (s : TenantStore) (id : TenantId) : List TenantId :=
  (s.tenants.filter (·.id.isBelow id)).map (·.id)

def tree (s : TenantStore) (id : TenantId) : Except Refusal TenantTree :=
  match TenantTree.build s.tenants id with
  | some tree => .ok tree
  | none => .error (.noTenant id)

/-- Whether a principal administers a tenant: it or a tenant above it lists the principal. -/
def isAdmin (s : TenantStore) (principal : String) (id : TenantId) : Bool :=
  (match s.get? id with
    | some tenant => tenant.adminPrincipals.contains principal
    | none => false) ||
    (s.ancestors id).any (·.adminPrincipals.contains principal)

end TenantIam.TenantStore
