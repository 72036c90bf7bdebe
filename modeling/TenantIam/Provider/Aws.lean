import TenantIam.Provider.Basic

/-!
# Identifiers at AWS

An identifier is `arn:aws:SERVICE:REGION:ACCOUNT:TYPE/ID`, with an empty region for none.
-/

namespace TenantIam.Provider.Aws

def token : Service → String
  | .ssoAdmin => "sso"
  | service => service.token

def service (token : String) : Service :=
  if token = "iam" then .iam
  else if token = "sts" then .sts
  else if token = "sso" then .ssoAdmin
  else .custom token

def encode (mapping : CloudMapping) (service : Service) (resource : Resource) : String :=
  Text.joinWith ':'
    ["arn", "aws", token service, mapping.region.getD "", mapping.accountId, resource.path]

def decode (s : String) : Except DecodeError Info :=
  match Text.pieces ':' s with
  | head :: space :: serviceToken :: region :: accountId :: part :: more =>
    if head = "arn" ∧ space = "aws" then
      let tail := Text.joinWith ':' (part :: more)
      match resourceTail? tail with
      | none => .error (.awsResource tail)
      | some resource =>
        .ok
          { provider := .aws, accountId, serviceToken, resource
            region := if region = "" then none else some region }
    else .error (.awsHead head space)
  | parts => .error (.awsParts parts.length)

def codec : Codec := { token, service, encode, decode }

end TenantIam.Provider.Aws
