import TenantIam.Instant
import TenantIam.Tenant.Name
import TenantIam.Tenant.Quotas

/-!
# Tenants

A tenant is kept with what it may hold, whether it may get sub-tenants and who administers it.
-/

namespace TenantIam

/-- Where a tenant is in its life. -/
inductive TenantStatus where
  | active
  | suspended
  | pending
  | deleted
  deriving DecidableEq

namespace TenantStatus

def all : List TenantStatus := [.active, .suspended, .pending, .deleted]

def name : TenantStatus → String
  | active => "Active"
  | suspended => "Suspended"
  | pending => "Pending"
  | deleted => "Deleted"

def ofName? (s : String) : Option TenantStatus := all.find? (·.name = s)

end TenantStatus

/-- Which quotas are in force for a tenant. -/
inductive QuotaMode where
  /-- Those of the tenant above. -/
  | inherited
  /-- Its own. -/
  | override
  deriving DecidableEq

namespace QuotaMode

def all : List QuotaMode := [.inherited, .override]

def name : QuotaMode → String
  | inherited => "Inherited"
  | override => "Override"

def ofName? (s : String) : Option QuotaMode := all.find? (·.name = s)

end QuotaMode

/-- What a tenant stands for. -/
inductive TenantType where
  | root
  | enterprise
  | department
  | team
  | project
  /-- Something else, in the owner's words. -/
  | custom (name : String)
  deriving DecidableEq

namespace TenantType

/-- A type as JSON: the known types are texts. -/
def toJson : TenantType → Json
  | root => .str "Root"
  | enterprise => .str "Enterprise"
  | department => .str "Department"
  | team => .str "Team"
  | project => .str "Project"
  | custom name => .obj [("custom", .str name)]

def ofName? : String → Option TenantType
  | "Root" => some .root
  | "Enterprise" => some .enterprise
  | "Department" => some .department
  | "Team" => some .team
  | "Project" => some .project
  | _ => none

end TenantType

structure Tenant where
  id : TenantId
  /-- The tenant above it, if there is one. -/
  parentId : Option TenantId
  name : String
  /-- The organization that it belongs to. -/
  organization : Option String
  /-- What it stands for. -/
  type : TenantType := .enterprise
  providerAccounts : Fields String := []
  /-- Where it is in its life. -/
  status : TenantStatus := .active
  /-- Its own quotas. -/
  quotas : Quotas := {}
  /-- Which quotas are in force. -/
  quotaMode : QuotaMode := .inherited
  /-- How many levels of tenants may be below it. -/
  maxChildDepth : Number := 3
  /-- Whether it may get sub-tenants. -/
  canCreateSubTenants : Bool := true
  adminPrincipals : List String := []
  /-- Further facts. -/
  metadata : Fields String := []
  /-- When it was created, if that is a valid point in time. -/
  createdAt : Option Instant
  deriving DecidableEq

namespace Tenant

def fresh (id : TenantId) (name : String) (parentId : Option TenantId)
    (organization : Option String) (now : Instant) : Tenant :=
  { id, parentId, name, organization, createdAt := some now }

def admitsChildren (t : Tenant) : Bool := t.canCreateSubTenants && t.status = .active

end Tenant

def TenantId.isWithinDepth (id : TenantId) (limit : Number) : Bool := limit.isAtLeast id.depth

end TenantIam
