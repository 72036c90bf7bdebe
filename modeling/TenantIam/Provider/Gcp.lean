import TenantIam.Provider.Basic
import TenantIam.Text.Affix

/-!
# Resource names at GCP

A resource name is `//HOST/projects/ACCOUNT/TYPEs/ID`; the region is not part of it. A service
without a dot is named in the domain of the provider, a service with one is a host itself.
-/

namespace TenantIam.Provider.Gcp

def domain : String := ".googleapis.com"

/-- The host of a service. -/
def token : Service → String
  | .iam | .sts => "iam" ++ domain
  | .ssoAdmin => "cloudidentity" ++ domain
  | .custom name => if '.' ∈ name.toList then name else name ++ domain

def service (token : String) : Service :=
  if token = "iam" ++ domain then .iam
  else if token = "cloudidentity" ++ domain then .ssoAdmin
  else .custom (Text.withoutEnding domain token)

def encode (mapping : CloudMapping) (service : Service) (resource : Resource) : String :=
  "//" ++ token service ++ "/projects/" ++ mapping.accountId ++ "/" ++ resource.type ++ "s/" ++
    resource.id

def decode (s : String) : Except DecodeError Info :=
  match Text.dropStart? ['/', '/'] s.toList with
  | none => .error .gcpStart
  | some rest =>
    match Text.pieces '/' (String.ofList rest) with
    | serviceToken :: projects :: accountId :: plural :: part :: more =>
      if projects = "projects" then
        let type := Text.withoutEnding "s" plural
        let id := Text.joinWith '/' (part :: more)
        if serviceToken = "" ∨ accountId = "" ∨ type = "" ∨ id = "" then .error (.gcpEmpty s)
        else
          .ok { provider := .gcp, accountId, serviceToken, resource := ⟨type, id⟩, region := none }
      else .error (.gcpProjects projects)
    | parts => .error (.gcpParts parts.length)

def codec : Codec := { token, service, encode, decode }

end TenantIam.Provider.Gcp
