import TenantIam.Fault

/-!
# Quotas

A tenant has limits on what it may hold. On five of them a sub-tenant may not be granted more than
the tenant above it.
-/

namespace TenantIam

structure Quotas where
  maxUsers : Number := 1000
  maxRoles : Number := 500
  maxPolicies : Number := 100
  maxGroups : Number := 100
  maxAccessKeys : Number := 2000
  maxSubTenants : Number := 10
  /-- Requests a minute. -/
  apiRateLimit : Number := 1000
  deriving DecidableEq

namespace Quotas

/-- A limit that is bounded by the tenant above. -/
inductive Bounded where
  | users
  | roles
  | policies
  | groups
  | subTenants
  deriving DecidableEq

namespace Bounded

/-- The bounded limits, in the order in which they are checked. -/
def all : List Bounded := [users, roles, policies, groups, subTenants]

def key : Bounded → String
  | users => "maxUsers"
  | roles => "maxRoles"
  | policies => "maxPolicies"
  | groups => "maxGroups"
  | subTenants => "maxSubTenants"

/-- The name of a limit in messages. -/
def label : Bounded → String
  | users => "max_users"
  | roles => "max_roles"
  | policies => "max_policies"
  | groups => "max_groups"
  | subTenants => "max_sub_tenants"

def value : Bounded → Quotas → Number
  | users => Quotas.maxUsers
  | roles => Quotas.maxRoles
  | policies => Quotas.maxPolicies
  | groups => Quotas.maxGroups
  | subTenants => Quotas.maxSubTenants

end Bounded

structure Excess where
  /-- Which limit it is. -/
  quota : Bounded
  /-- What was asked for. -/
  requested : Number
  /-- What there is. -/
  limit : Number
  deriving DecidableEq

instance : Reported Excess where
  toFault e :=
    .invalidParameter (e.quota.label ++ " exceeds parent limit")
      (some [("quota", .str e.quota.key), ("requested", .num e.requested), ("limit", .num e.limit)])

/-- The first limit of `quotas` that is above that of `bound`. -/
def excess? (quotas bound : Quotas) : Option Excess :=
  (Bounded.all.find? fun q => q.value bound < q.value quotas).map fun q =>
    { quota := q, requested := q.value quotas, limit := q.value bound }

def within (quotas bound : Quotas) : Except Excess Unit :=
  match quotas.excess? bound with
  | none => .ok ()
  | some excess => .error excess

end Quotas

end TenantIam
