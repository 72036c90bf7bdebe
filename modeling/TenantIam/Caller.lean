import TenantIam.Arn.Reader
import TenantIam.Text.Blank

/-!
# Callers

A caller makes requests from a tenant and an instance. The root reaches every tenant, everybody
else only the own tenant and those below it.
-/

namespace TenantIam

/-- Temporary credentials. -/
structure Session where
  token : String
  /-- The second from which on they are expired. -/
  expiration : Number
  /-- The role that was assumed, if one was. -/
  role : Option Arn

structure Caller where
  /-- The tenant that the request comes from. -/
  tenantPath : TenantPath
  /-- The instance that it comes from. -/
  instanceId : String
  /-- The resource name of the caller. -/
  arn : Arn
  /-- Whether the caller is the root. -/
  isRoot : Bool
  /-- The region that the request comes from, if known. -/
  region : Option String
  /-- The temporary credentials, if the caller uses some. -/
  session : Option Session

namespace Caller

/-- Whether a caller reaches a tenant. -/
def canAccess (caller : Caller) (target : TenantPath) : Bool :=
  caller.isRoot || target.startsWith caller.tenantPath

def isExpired (caller : Caller) (now : Number) : Bool :=
  match caller.session with
  | some session => session.expiration ≤ now
  | none => false

/-- The root reaches every tenant, everybody else the own one and those below. -/
theorem canAccess_iff {caller : Caller} {target : TenantPath} :
    caller.canAccess target = true ↔
      caller.isRoot = true ∨ caller.tenantPath.segments <+: target.segments := by
  simp [canAccess, TenantPath.startsWith_iff]

end Caller

structure CallerDraft where
  tenantPath : Option TenantPath := none
  instanceId : Option String := none
  arn : Option Arn := none
  isRoot : Bool := false
  region : Option String := none
  session : Option Session := none

namespace CallerDraft

inductive Edit where
  /-- Sets the tenant. -/
  | tenantPath (path : TenantPath)
  /-- Sets the instance. -/
  | instanceId (id : String)
  /-- Sets the resource name of the caller. -/
  | arn (arn : Arn)
  /-- Says whether the caller is the root. -/
  | isRoot (isRoot : Bool)
  /-- Sets the region. -/
  | region (region : String)
  /-- Sets the temporary credentials. -/
  | session (session : Session)

def apply (draft : CallerDraft) (edit : Edit) : CallerDraft :=
  match edit with
  | .tenantPath path => { draft with tenantPath := some path }
  | .instanceId id => { draft with instanceId := some id }
  | .arn arn => { draft with arn := some arn }
  | .isRoot isRoot => { draft with isRoot }
  | .region region => { draft with region := some region }
  | .session session => { draft with session := some session }

/-- Why a draft is no caller yet. -/
inductive Obstacle where
  /-- The tenant has not been set. -/
  | noTenantPath
  /-- The instance has not been set. -/
  | noInstance
  /-- The resource name has not been set. -/
  | noArn
  /-- The instance is made of blanks. -/
  | blankInstance
  deriving DecidableEq

instance : Reported Obstacle where
  toFault
    | .noTenantPath => .invalidParameter "tenant_path is required" none
    | .noInstance => .invalidParameter "instance_id is required" none
    | .noArn => .invalidParameter "caller_arn is required" none
    | .blankInstance => .invalidParameter "instance_id cannot be empty" none

def finish (draft : CallerDraft) : Except Obstacle Caller :=
  match draft.tenantPath, draft.instanceId, draft.arn with
  | none, _, _ => .error .noTenantPath
  | _, none, _ => .error .noInstance
  | _, _, none => .error .noArn
  | some tenantPath, some instanceId, some arn =>
    if Text.isAllBlank instanceId then .error .blankInstance
    else
      .ok
        { tenantPath, instanceId, arn, isRoot := draft.isRoot, region := draft.region
          session := draft.session }

end CallerDraft

end TenantIam
