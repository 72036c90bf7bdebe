import TenantIam.Log
import TenantIam.Policy.Decision
import TenantIam.Policy.Reader
import TenantIam.Tenant.Id

/-!
# Permissions on tenants

What a principal may do with tenants is said by policies over the resource names of tenants. Two
standard policies grant control over a tenant and all below it, and reading a tenant.
-/

namespace TenantIam

inductive TenantAction where
  | read
  | update
  | delete
  | createSubTenant
  | manageUsers
  | manageRoles
  | managePolicies
  /-- All of it. -/
  | all
  deriving DecidableEq

namespace TenantAction

def list : List TenantAction :=
  [.read, .update, .delete, .createSubTenant, .manageUsers, .manageRoles, .managePolicies, .all]

def name : TenantAction → String
  | read => "tenant:Read"
  | update => "tenant:Update"
  | delete => "tenant:Delete"
  | createSubTenant => "tenant:CreateSubTenant"
  | manageUsers => "tenant:ManageUsers"
  | manageRoles => "tenant:ManageRoles"
  | managePolicies => "tenant:ManagePolicies"
  | all => "tenant:*"

end TenantAction

def tenantArn (id : String) : String := "arn:wami:tenant::" ++ id

/-- The policies of a principal over tenants. -/
structure TenantGrants where
  documents : List Policy.Document

namespace TenantGrants

/-- The entry about a text that is passed over. -/
def warning (index : Nat) (issues : List Policy.Issue) : Log.Entry where
  level := .warn
  message := "Skipping malformed tenant policy"
  context :=
    { component := some "tenant-authorizer"
      metadata := some [("index", .nat index), ("errors", Policy.issuesJson issues)] }

/-- The documents of a list of texts, of which the first has the given index; malformed texts are
passed over. -/
def readTexts (index : Nat) : List String → Logged (List Policy.Document)
  | [] => ⟨[], []⟩
  | text :: texts =>
    let rest := readTexts (index + 1) texts
    match Policy.checkText text with
    | .ok document => ⟨document :: rest.value, rest.entries⟩
    | .error issues => ⟨rest.value, warning index issues :: rest.entries⟩

def ofTexts (texts : List String) : Logged TenantGrants :=
  (readTexts 0 texts).map TenantGrants.mk

/-- Whether an action, given by its name, is permitted on a tenant. -/
def permits (a : TenantGrants) (principal id action : String) : Logged Bool :=
  let allowed := Policy.allows a.documents action (tenantArn id)
  ⟨allowed, [Log.decision action (tenantArn id) allowed (some principal) (some id) none []]⟩

end TenantGrants

/-- The text of a policy with one statement, whose patterns are as given. -/
def grantText (action : String) (resource : Json) : String :=
  Json.write (.obj [("Version", .str "2012-10-17"), ("Statement", .arr [.obj
    [("Effect", .str "Allow"), ("Action", .str action), ("Resource", resource)]])])

/-- The text of the policy that grants control over a tenant and all below it. -/
def adminPolicy (id : String) : String :=
  grantText TenantAction.all.name (.strs [tenantArn id, (tenantArn id ++ "/*" : String)])

def readonlyPolicy (id : String) : String :=
  grantText TenantAction.read.name (.str (tenantArn id))

end TenantIam
