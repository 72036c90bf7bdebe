import TenantIam.Arn.Reader

/-!
# Cloud providers

Every provider has identifiers of its own for resources. They carry the account, a service in the
provider's terms and the resource, and at some providers the region; tenant path and instance are
not part of them.
-/

namespace TenantIam

inductive Provider where
  | aws
  | gcp
  | azure
  | scaleway
  deriving DecidableEq

namespace Provider

def name : Provider → String
  | aws => "aws"
  | gcp => "gcp"
  | azure => "azure"
  | scaleway => "scaleway"

def all : List Provider := [.aws, .gcp, .azure, .scaleway]

def ofName? (s : String) : Option Provider := all.find? (·.name = s)

theorem ofName?_eq_some_iff {s : String} {p : Provider} : ofName? s = some p ↔ s = p.name := by
  constructor
  · intro h
    simpa [eq_comm] using List.find?_some h
  · rintro rfl
    cases p <;> decide

/-- What an identifier of a provider says. -/
structure Info where
  provider : Provider
  /-- The account at the provider. -/
  accountId : String
  /-- The service in the provider's terms. -/
  serviceToken : String
  resource : Resource
  /-- The region, where the identifier has one. -/
  region : Option String
  deriving DecidableEq

/-- Why a text is no identifier of a provider. -/
inductive DecodeError where
  /-- An identifier at AWS has at least six parts. -/
  | awsParts (count : Nat)
  /-- An identifier at AWS starts with two fixed parts. -/
  | awsHead (first second : String)
  /-- The last part of an identifier at AWS has no type or no identifier. -/
  | awsResource (given : String)
  /-- A resource name at GCP starts with two slashes. -/
  | gcpStart
  /-- A resource name at GCP has at least five parts. -/
  | gcpParts (count : Nat)
  /-- The second part of a resource name at GCP is fixed. -/
  | gcpProjects (given : String)
  /-- A part of a resource name at GCP is empty. -/
  | gcpEmpty (given : String)
  /-- A resource identifier at Azure starts with a slash and has at least eight parts. -/
  | azureParts
  /-- The first part of a resource identifier at Azure is fixed. -/
  | azureSubscriptions (given : String)
  /-- Two inner parts of a resource identifier at Azure are fixed. -/
  | azureGroup (given : String)
  /-- A part of a resource identifier at Azure is empty. -/
  | azureEmpty (given : String)
  /-- An identifier at Scaleway has at least four parts. -/
  | scalewayParts (count : Nat)
  /-- The first part of an identifier at Scaleway is fixed. -/
  | scalewayHead (given : String)
  /-- The last part of an identifier at Scaleway has no type or no identifier. -/
  | scalewayResource (given : String)
  deriving DecidableEq

def DecodeError.message : DecodeError → String
  | awsParts count => "Invalid AWS ARN format: expected at least 6 parts, got " ++ count.repr
  | awsHead first second =>
    "Invalid AWS ARN prefix: expected 'arn:aws', got '" ++ first ++ ":" ++ second ++ "'"
  | awsResource given =>
    "Invalid AWS ARN resource format: expected 'type/id', got '" ++ given ++ "'"
  | gcpStart => "Invalid GCP resource name: expected '//' prefix"
  | gcpParts count =>
    "Invalid GCP resource name format: expected at least 5 parts, got " ++ count.repr
  | gcpProjects given =>
    "Invalid GCP resource name: expected 'projects', got '" ++ given ++ "'"
  | gcpEmpty given => "Invalid GCP resource name: empty component in '" ++ given ++ "'"
  | azureParts => "Invalid Azure resource ID format"
  | azureSubscriptions given =>
    "Invalid Azure resource ID: expected 'subscriptions', got '" ++ given ++ "'"
  | azureGroup given =>
    "Invalid Azure resource ID: expected '/resourceGroups/<group>/providers/' in '" ++ given ++ "'"
  | azureEmpty given => "Invalid Azure resource ID: empty component in '" ++ given ++ "'"
  | scalewayParts count =>
    "Invalid Scaleway resource format: expected at least 4 parts, got " ++ count.repr
  | scalewayHead given =>
    "Invalid Scaleway resource prefix: expected 'scw', got '" ++ given ++ "'"
  | scalewayResource given =>
    "Invalid Scaleway resource format: expected 'type/id', got '" ++ given ++ "'"

instance : Reported DecodeError := ⟨fun e => .invalidParameter e.message none⟩

/-- How a provider names services and writes and reads identifiers. -/
structure Codec where
  /-- The provider's token for a service. -/
  token : Service → String
  /-- The service that a token of the provider stands for. -/
  service : String → Service
  /-- The identifier of a resource of a service at a place. -/
  encode : CloudMapping → Service → Resource → String
  /-- What an identifier says. -/
  decode : String → Except DecodeError Info

/-- The type and the identifier on the two sides of the first slash of a text; neither may be
empty. -/
def resourceTail? (s : String) : Option Resource :=
  match Text.cutFirst '/' s.toList with
  | some (type, id) =>
    if type = [] ∨ id = [] then none else some ⟨String.ofList type, String.ofList id⟩
  | none => none

end Provider

end TenantIam
