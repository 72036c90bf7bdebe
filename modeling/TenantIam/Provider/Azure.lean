import TenantIam.Provider.Basic

/-!
# Resource identifiers at Azure

A resource identifier is
`/subscriptions/ACCOUNT/resourceGroups/GROUP/providers/SERVICE/TYPE/ID`. The group is fixed on
writing and ignored on reading; the region is not part of it.
-/

namespace TenantIam.Provider.Azure

def resourceGroup : String := "wami-resources"

/-- The name space of a service. -/
def token : Service → String
  | .iam | .sts => "Microsoft.Authorization"
  | .ssoAdmin => "Microsoft.AzureActiveDirectory"
  | .custom name => name

def service (token : String) : Service :=
  if token = "Microsoft.Authorization" then .iam
  else if token = "Microsoft.AzureActiveDirectory" then .ssoAdmin
  else .custom token

def encode (mapping : CloudMapping) (service : Service) (resource : Resource) : String :=
  Text.joinWith '/'
    ["", "subscriptions", mapping.accountId, "resourceGroups", resourceGroup, "providers",
     token service, resource.type, resource.id]

def decode (s : String) : Except DecodeError Info :=
  match Text.pieces '/' s with
  | "" :: subscriptions :: accountId :: groups :: _ :: providers :: serviceToken :: type :: part ::
      more =>
    if subscriptions ≠ "subscriptions" then .error (.azureSubscriptions subscriptions)
    else if groups ≠ "resourceGroups" ∨ providers ≠ "providers" then .error (.azureGroup s)
    else
      let id := Text.joinWith '/' (part :: more)
      if accountId = "" ∨ serviceToken = "" ∨ type = "" ∨ id = "" then .error (.azureEmpty s)
      else
        .ok { provider := .azure, accountId, serviceToken, resource := ⟨type, id⟩, region := none }
  | _ => .error .azureParts

def codec : Codec := { token, service, encode, decode }

end TenantIam.Provider.Azure
