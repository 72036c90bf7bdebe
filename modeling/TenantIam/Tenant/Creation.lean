import TenantIam.Log
import TenantIam.Tenant.Lineage

/-!
# Creating sub-tenants

A sub-tenant is created below a tenant that is active and may get sub-tenants, within the depth
that the settings and every tenant above admit, under an identifier that is not taken, within the
number of sub-tenants that the quotas in force admit, and with quotas of its own that do not exceed
them.
-/

namespace TenantIam

/-- What holds for all creations of sub-tenants. -/
structure Creation where
  /-- The depth that no tenant exceeds. -/
  maxDepth : Number
  /-- The present time. -/
  now : Instant

namespace Creation

/-- What a sub-tenant is to be given. -/
structure Options where
  /-- The organization; without one, that of the tenant above. -/
  organization : Option String := none
  /-- Quotas of its own. -/
  quotas : Option Quotas := none
  adminPrincipals : List String := []
  /-- Further facts. -/
  metadata : Fields String := []

structure Request where
  /-- The tenant above. -/
  parentId : TenantId
  name : TenantName
  /-- What it is to be given. -/
  options : Options

def Request.childId (r : Request) : TenantId := r.parentId.child r.name.segment

inductive Error where
  /-- The name is not admissible. -/
  | name (flaw : TenantName.Flaw)
  /-- The tenant above is not there, or the sub-tenant is. -/
  | store (refusal : TenantStore.Refusal)
  /-- The tenant above may not get sub-tenants. -/
  | notAllowed (id : TenantId) (status : TenantStatus)
  /-- The sub-tenant would be too deep. -/
  | tooDeep (id : TenantId) (limit : Number)
  /-- The sub-tenant would be too many levels below a tenant. -/
  | tooFarBelow (ancestor : TenantId) (limit : Number) (id : TenantId)
  /-- The quotas in force are not known. -/
  | quotas (error : TenantStore.QuotaError)
  /-- The tenant above has no room for another sub-tenant. -/
  | full (id : TenantId) (limit : Number)
  /-- The quotas of the sub-tenant are above those in force. -/
  | excess (excess : Quotas.Excess)
  deriving DecidableEq

instance : Reported Error where
  toFault
    | .name flaw => Reported.toFault flaw
    | .store refusal => Reported.toFault refusal
    | .notAllowed id status =>
      .invalidParameter ("Tenant " ++ id.text ++ " cannot create sub-tenants")
        (some [("tenantId", .str id.text), ("status", .str status.name)])
    | .tooDeep id limit =>
      .invalidParameter ("Tenant depth " ++ id.depth.repr ++ " exceeds maximum " ++ limit.text)
        (some [("tenantId", .str id.text)])
    | .tooFarBelow ancestor limit id =>
      .invalidParameter
        ("Tenant " ++ ancestor.text ++ " allows at most " ++ limit.text ++ " levels of sub-tenants")
        (some [("tenantId", .str id.text)])
    | .quotas error => Reported.toFault error
    | .full id limit =>
      .invalidParameter
        ("Tenant " ++ id.text ++ " has reached its sub-tenant limit of " ++ limit.text)
        (some [("tenantId", .str id.text)])
    | .excess e => Reported.toFault e

/-- The tenant above, which has to be there and to admit sub-tenants within the depth limit. -/
def checkParent (config : Creation) (r : Request) (parent : Option Tenant) : Except Error Tenant :=
  match parent with
  | none => .error (.store (.noTenant r.parentId))
  | some parent =>
    if !parent.admitsChildren then .error (.notAllowed r.parentId parent.status)
    else if r.childId.isWithinDepth config.maxDepth then .ok parent
    else .error (.tooDeep r.childId config.maxDepth)

/-- Whether a tenant admits one that is deeper by the difference of their depths. -/
def admitsLevels (ancestor : Tenant) (id : TenantId) : Bool :=
  !ancestor.maxChildDepth.isBelow (id.depth - ancestor.id.depth)

/-- Every tenant of the chain above has to admit the depth of the sub-tenant. -/
def checkLevels (r : Request) (chain : List Tenant) : Except Error Unit :=
  match chain.find? fun ancestor => !admitsLevels ancestor r.childId with
  | none => .ok ()
  | some ancestor => .error (.tooFarBelow ancestor.id ancestor.maxChildDepth r.childId)

def checkFree (r : Request) (found : Option Tenant) : Except Error Unit :=
  if found.isSome then .error (.store (.tenantExists r.childId)) else .ok ()

def checkRoom (r : Request) (limits : Quotas) (siblings : List Tenant) : Except Error Unit :=
  if limits.maxSubTenants.isAtMost siblings.length then
    .error (.full r.parentId limits.maxSubTenants)
  else .ok ()

/-- Quotas that are given must not exceed those in force. -/
def checkGrant (r : Request) (limits : Quotas) : Except Error Unit :=
  match r.options.quotas with
  | none => .ok ()
  | some quotas => (quotas.within limits).mapError .excess

def subTenant (config : Creation) (r : Request) (parent : Tenant) : Tenant :=
  let fresh := Tenant.fresh r.childId r.name.text (some r.parentId)
    (r.options.organization.or parent.organization) config.now
  { fresh with
    quotas := r.options.quotas.getD fresh.quotas
    quotaMode := if r.options.quotas.isSome then .override else fresh.quotaMode
    adminPrincipals := r.options.adminPrincipals
    metadata := r.options.metadata }

/-- The sub-tenant that is to be created in a store, or the first thing that is in the way. -/
def plan (config : Creation) (s : TenantStore) (r : Request) : Except Error Tenant := do
  let parent ← config.checkParent r (s.get? r.parentId)
  checkLevels r (s.ancestors r.parentId ++ [parent])
  checkFree r (s.get? r.childId)
  let limits ← (s.effectiveQuotas r.parentId).mapError .quotas
  checkRoom r limits (s.children r.parentId)
  checkGrant r limits
  return config.subTenant r parent

def entry (r : Request) : Log.Entry where
  level := .info
  message := "Sub-tenant created"
  context :=
    { component := some "tenancy", action := some "createSubTenant"
      metadata := some [("tenantId", .str r.childId.text), ("parentId", .str r.parentId.text)] }

/-- A store to which a sub-tenant has been added. -/
structure Created where
  /-- The sub-tenant. -/
  tenant : Tenant
  /-- The store with it. -/
  store : TenantStore

def insert (s : TenantStore) (tenant : Tenant) : Except Error Created :=
  match s.perform (.create tenant) with
  | .ok store => .ok { tenant, store }
  | .error refusal => .error (.store refusal)

def createRequested (config : Creation) (s : TenantStore) (r : Request) :
    Logged (Except Error Created) :=
  match (config.plan s r).bind (insert s) with
  | .ok created => ⟨.ok created, [entry r]⟩
  | .error error => ⟨.error error, []⟩

def create (config : Creation) (s : TenantStore) (parentId : TenantId) (name : String)
    (options : Options) : Logged (Except Error Created) :=
  match TenantName.of name with
  | .error flaw => ⟨.error (.name flaw), []⟩
  | .ok name => config.createRequested s { parentId, name, options }

/-- The store after a creation, which is the same store when nothing is created. -/
def after (config : Creation) (s : TenantStore) (parentId : TenantId) (name : String)
    (options : Options) : TenantStore :=
  match (config.create s parentId name options).value with
  | .ok created => created.store
  | .error _ => s

end Creation

end TenantIam
