import TenantIam.Tenant.Basic

/-!
# The tenant store

Tenants are kept under their identifiers and listed in the order in which they were created; an
update moves nothing.
-/

namespace TenantIam

structure TenantStore where
  /-- The tenants, in the order in which they were created. -/
  tenants : List Tenant := []
  deriving DecidableEq

namespace TenantStore

def get? (s : TenantStore) (id : TenantId) : Option Tenant := s.tenants.find? (·.id = id)

/-- The tenants that name an identifier as the one above them. -/
def children (s : TenantStore) (id : TenantId) : List Tenant :=
  s.tenants.filter (·.parentId = some id)

inductive Refusal where
  /-- There is a tenant of that identifier. -/
  | tenantExists (id : TenantId)
  /-- There is no tenant of that identifier. -/
  | noTenant (id : TenantId)
  deriving DecidableEq

instance : Reported Refusal where
  toFault
    | .tenantExists id => .alreadyExists ("Tenant: " ++ id.text)
    | .noTenant id => .notFound ("Tenant: " ++ id.text)

/-- The tenant of an identifier, which has to be there. -/
def get (s : TenantStore) (id : TenantId) : Except Refusal Tenant :=
  match s.get? id with
  | some tenant => .ok tenant
  | none => .error (.noTenant id)

/-- The store with a tenant in the place of the one of the same identifier. -/
def replace (s : TenantStore) (tenant : Tenant) : TenantStore :=
  ⟨s.tenants.map fun t => if t.id = tenant.id then tenant else t⟩

inductive Operation where
  /-- Adds a tenant. -/
  | create (tenant : Tenant)
  /-- Replaces a tenant. -/
  | update (tenant : Tenant)
  /-- Removes a tenant. -/
  | delete (id : TenantId)

def perform (s : TenantStore) : Operation → Except Refusal TenantStore
  | .create tenant =>
    if (s.get? tenant.id).isSome then .error (.tenantExists tenant.id)
    else .ok ⟨s.tenants ++ [tenant]⟩
  | .update tenant =>
    if (s.get? tenant.id).isSome then .ok (s.replace tenant) else .error (.noTenant tenant.id)
  | .delete id =>
    if (s.get? id).isSome then .ok ⟨s.tenants.filter (·.id ≠ id)⟩ else .error (.noTenant id)

/-- The store after a change, which is the same store when the change is refused. -/
def after (s : TenantStore) (operation : Operation) : TenantStore :=
  match s.perform operation with
  | .ok t => t
  | .error _ => s

def run (s : TenantStore) (operations : List Operation) : TenantStore :=
  operations.foldl after s

/-- Sets a tenant: a later one takes the place of an earlier one of the same identifier. -/
def put (s : TenantStore) (tenant : Tenant) : TenantStore :=
  if (s.get? tenant.id).isSome then s.replace tenant else ⟨s.tenants ++ [tenant]⟩

def ofList (tenants : List Tenant) : TenantStore := tenants.foldl put {}

end TenantStore

end TenantIam
