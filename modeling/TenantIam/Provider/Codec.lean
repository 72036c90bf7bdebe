import TenantIam.Arn.Draft
import TenantIam.Provider.Aws
import TenantIam.Provider.Azure
import TenantIam.Provider.Gcp
import TenantIam.Provider.Scaleway

/-!
# Identifiers of resource names

A resource name with a mapping has an identifier at the provider that it is mapped to. From an
identifier the resource name is rebuilt once tenant path and instance are supplied.
-/

namespace TenantIam

namespace Provider

def codec : Provider → Codec
  | aws => Aws.codec
  | gcp => Gcp.codec
  | azure => Azure.codec
  | scaleway => Scaleway.codec

/-- Why a resource name has no identifier at a provider. -/
inductive EncodeError where
  /-- The resource name has no mapping. -/
  | notSynced (arn : String)
  /-- The resource name is mapped to another provider. -/
  | otherProvider (given expected : String) (arn : String)
  /-- The provider is not known. -/
  | unknownProvider (given : String)
  deriving DecidableEq

instance : Reported EncodeError where
  toFault
    | .notSynced arn => .invalidParameter "ARN is not cloud-synced" (some [("arn", .str arn)])
    | .otherProvider given expected arn =>
      .invalidParameter ("ARN provider is '" ++ given ++ "', expected '" ++ expected ++ "'")
        (some [("arn", .str arn)])
    | .unknownProvider given =>
      .invalidParameter ("No ARN transformer available for provider '" ++ given ++ "'")
        (some [("provider", .str given)])

def identifier (p : Provider) (a : Arn) : Except EncodeError String :=
  match a.mapping with
  | none => .error (.notSynced a.text)
  | some m =>
    if m.provider = p.name then .ok (p.codec.encode m a.service a.resource)
    else .error (.otherProvider m.provider p.name a.text)

/-- What identifiers do not say about a resource. -/
structure Scope where
  /-- The tenant that the resource belongs to. -/
  tenantPath : TenantPath
  /-- The instance that holds the resource. -/
  instanceId : String
  /-- The service, if it is to differ from the one that the identifier names. -/
  service : Option Service := none

/-- The service of a rebuilt resource name. -/
def Info.service (info : Info) (scope : Scope) : Service :=
  scope.service.getD (info.provider.codec.service info.serviceToken)

/-- The resource name that an identifier and a scope determine. -/
def Info.rebuild (info : Info) (scope : Scope) : Except ArnDraft.Obstacle Arn :=
  let edits : List ArnDraft.Edit :=
    [.service (info.service scope), .tenant scope.tenantPath, .instanceId scope.instanceId,
     .resource info.resource, .mapping (.of info.provider.name info.accountId info.region)]
  (({} : ArnDraft).run edits).finish

end Provider

/-- The identifier of a resource name at its own provider. -/
def Arn.providerId (a : Arn) : Except Provider.EncodeError String :=
  match a.provider? with
  | none => .error (.notSynced a.text)
  | some name =>
    match Provider.ofName? name with
    | none => .error (.unknownProvider name)
    | some p => p.identifier a

end TenantIam
