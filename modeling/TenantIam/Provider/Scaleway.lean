import TenantIam.Provider.Basic

/-!
# Identifiers at Scaleway

An identifier is `scw:ACCOUNT:SERVICE:TYPE/ID`; the region is not part of it. There is no service
of temporary credentials: they belong to the identities.
-/

namespace TenantIam.Provider.Scaleway

def token : Service → String
  | .iam | .sts => "iam"
  | .ssoAdmin => "sso"
  | .custom name => name

def service (token : String) : Service :=
  if token = "iam" then .iam
  else if token = "sso" then .ssoAdmin
  else .custom token

def encode (mapping : CloudMapping) (service : Service) (resource : Resource) : String :=
  Text.joinWith ':' ["scw", mapping.accountId, token service, resource.path]

def decode (s : String) : Except DecodeError Info :=
  match Text.pieces ':' s with
  | head :: accountId :: serviceToken :: part :: more =>
    if head = "scw" then
      let tail := Text.joinWith ':' (part :: more)
      match resourceTail? tail with
      | none => .error (.scalewayResource tail)
      | some resource =>
        .ok { provider := .scaleway, accountId, serviceToken, resource, region := none }
    else .error (.scalewayHead head)
  | parts => .error (.scalewayParts parts.length)

def codec : Codec := { token, service, encode, decode }

end TenantIam.Provider.Scaleway
