import TenantIam.Fault
import TenantIam.Hash.Sha256
import TenantIam.Pattern.Cache
import TenantIam.Text.Split

/-!
# Opaque resource names

An opaque resource name is `arn:wami:SERVICE:HASH:TYPE` followed by a slash and a name, or by a
path between slashes and a name. The hash stands for the account, so that the account itself does
not occur.
-/

namespace TenantIam

structure OpaqueArn where
  /-- The name space. -/
  provider : String
  /-- The owner of the resource. -/
  service : String
  /-- What stands for the account. -/
  hash : String
  /-- The type of the resource. -/
  type : String
  /-- The path between slashes, or nothing. -/
  path : String
  /-- The name of the resource. -/
  name : String
  deriving DecidableEq

namespace OpaqueArn

/-- The hash of an account: the first eight hexadecimal digits of the digest of the account
followed by the salt. -/
def accountHash (salt : Option String) (accountId : String) : String :=
  let first := (Sha256.digest (accountId ++ salt.getD "")).head?
  "tenant-" ++ String.ofList ((first.map Sha256.wordHex).getD [])

/-- The text of the given parts: a slash stands before the name where there is no path. -/
def render (provider service hash type path name : String) : String :=
  "arn:" ++ provider ++ ":" ++ service ++ ":" ++ hash ++ ":" ++ type ++
    (if path = "" then "/" else "") ++ path ++ name

def compose (salt : Option String) (service accountId type path name : String) : String :=
  render "wami" service (accountHash salt accountId) type path name

def text (a : OpaqueArn) : String :=
  render a.provider a.service a.hash a.type a.path a.name

/-- Whether the written form matches a glob, and the cache of globs afterwards. -/
def matchPattern (a : OpaqueArn) (pattern : String) (cache : GlobCache) : Bool × GlobCache :=
  cache.matchText pattern a.text

inductive ParseError where
  /-- There are fewer than five parts. -/
  | tooFewParts (given : String)
  /-- The first part is not the general mark. -/
  | wrongHead (given : String)
  /-- The second part is not the mark of this name space. -/
  | wrongProvider (given : String)
  /-- There is no slash before a name. -/
  | noName (given : String)
  deriving DecidableEq

instance : Reported ParseError where
  toFault
    | .tooFewParts given => .invalidParameter ("Invalid ARN format: " ++ given) none
    | .wrongHead given => .invalidParameter ("ARN must start with 'arn:', got: " ++ given) none
    | .wrongProvider given => .invalidParameter ("Expected 'wami' provider, got: " ++ given) none
    | .noName given => .invalidParameter ("Missing resource name in: " ++ given) none

/-- Type, path and name of the last part of an opaque resource name: the type ends at the first
slash, the name starts after the last one, and the path is what stands between them. -/
def splitResource? (s : String) : Option (String × String × String) :=
  match Text.cutFirst '/' s.toList with
  | none => none
  | some (type, rest) =>
    match Text.cutLast '/' rest with
    | none => some (String.ofList type, "", String.ofList rest)
    | some (path, name) =>
      some (String.ofList type, String.ofList ('/' :: path ++ ['/']), String.ofList name)

/-- The opaque resource name that a text denotes. What follows a fifth colon is ignored. -/
def parse (s : String) : Except ParseError OpaqueArn :=
  match Text.pieces ':' s with
  | head :: provider :: service :: hash :: resource :: _ =>
    if head ≠ "arn" then .error (.wrongHead s)
    else if provider ≠ "wami" then .error (.wrongProvider provider)
    else
      match splitResource? resource with
      | none => .error (.noName resource)
      | some (type, path, name) => .ok { provider, service, hash, type, path, name }
  | _ => .error (.tooFewParts s)

end OpaqueArn

end TenantIam
