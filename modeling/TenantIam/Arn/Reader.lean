import TenantIam.Arn.Basic

/-!
# Reading resource names

After the instance comes either the resource alone (native), or a provider, an account and a region
before it (regional), or a provider and an account before it (legacy). Which of them it is depends
on the number of colons and on where the first slash stands, so that every written resource name is
read back.
-/

namespace TenantIam

namespace Arn

/-- What is wrong with a text that should be a resource name. -/
inductive ParseError where
  /-- There are fewer than seven parts. -/
  | tooFewParts (count : Nat)
  /-- The first part is not the general mark. -/
  | wrongHead (given : String)
  /-- The second part is not the mark of this name space. -/
  | wrongSpace (given : String)
  | emptyService
  /-- The tenant path is malformed. -/
  | path (flaw : TenantPath.Flaw)
  /-- The part before the instance is not the mark. -/
  | wrongMarker (given : String)
  | emptyInstance
  /-- The provider, the account or the region is empty. -/
  | emptyMapping
  /-- The resource has no slash. -/
  | resourceWithoutSlash (given : String)
  /-- The type or the identifier is empty. -/
  | emptyResource
  /-- The type holds a colon. -/
  | colonInType (type : String)
  deriving DecidableEq

namespace ParseError

def flaw : ParseError → ArnFlaw
  | tooFewParts _ | wrongHead _ | wrongSpace _ | wrongMarker _ | resourceWithoutSlash _ => .format
  | emptyService | emptyInstance => .missing
  | path _ | emptyMapping | emptyResource | colonInType _ => .component

def reason : ParseError → String
  | tooFewParts count => "Expected at least 7 parts, got " ++ count.repr
  | wrongHead given => "Expected 'arn' prefix, got '" ++ given ++ "'"
  | wrongSpace given => "Expected 'wami' namespace, got '" ++ given ++ "'"
  | emptyService => "Service cannot be empty"
  | path flaw => flaw.reason
  | wrongMarker given => "Expected 'wami' marker at position 4, got '" ++ given ++ "'"
  | emptyInstance => "WAMI instance ID cannot be empty"
  | emptyMapping => "Provider, account ID, and region cannot be empty"
  | resourceWithoutSlash given => "Resource must be in format 'type/id', got '" ++ given ++ "'"
  | emptyResource => "Resource type and ID cannot be empty"
  | colonInType type => "Resource type cannot contain ':', got '" ++ type ++ "'"

end ParseError

instance : Reported ParseError := ⟨fun e => .arn e.flaw e.reason⟩

/-- Why no resource name is read from a text. -/
inductive ReadError where
  /-- The text is malformed. -/
  | malformed (error : ParseError)
  /-- The parts that were read are not admissible. -/
  | refused (defect : ArnParts.Defect)
  deriving DecidableEq

instance : Reported ReadError where
  toFault
    | .malformed error => Reported.toFault error
    | .refused defect => Reported.toFault defect

end Arn

/-- The ways in which a resource name can go on after the instance. -/
inductive ArnLayout where
  /-- Provider, account, region and resource. -/
  | regional
  /-- Provider, account and resource. -/
  | legacy
  /-- The resource alone. -/
  | native
  deriving DecidableEq

/-- What follows the instance. -/
structure ArnRest where
  layout : ArnLayout
  /-- The mapping, unless the layout is native. -/
  mapping : Option CloudMapping
  resourceText : String
  deriving DecidableEq

namespace ArnRest

/-- A rest with a mapping, whose parts may not be empty. -/
def mapped (layout : ArnLayout) (provider accountId : String) (region : Option String)
    (rest : List String) : Except Arn.ParseError ArnRest :=
  if provider = "" ∨ accountId = "" ∨ region = some "" then .error .emptyMapping
  else
    .ok
      { layout
        mapping := some (.of provider accountId region)
        resourceText := Text.joinWith ':' rest }

def native (rest : List String) : ArnRest where
  layout := .native
  mapping := none
  resourceText := Text.joinWith ':' rest

def noneHasSlash (l : List String) : Bool := l.all fun s => !s.toList.contains '/'

/-- The rest of a resource name, given the pieces after the instance. Four parts or more of which
the first three have no slash are regional, three parts of which the first two have no slash are
legacy, and everything else is native. -/
def ofPieces (rest : List String) : Except Arn.ParseError ArnRest :=
  match rest with
  | provider :: accountId :: region :: part :: more =>
    if noneHasSlash [provider, accountId, region] then
      mapped .regional provider accountId (some region) (part :: more)
    else .ok (native rest)
  | [provider, accountId, part] =>
    if noneHasSlash [provider, accountId] then mapped .legacy provider accountId none [part]
    else .ok (native rest)
  | _ => .ok (native rest)

def ofAllPieces (pieces : List String) : Except Arn.ParseError ArnRest :=
  ofPieces (pieces.drop 6)

end ArnRest

/-- The resource that a text denotes: type and identifier are told apart by the first slash. -/
def Resource.parse (s : String) : Except Arn.ParseError Resource :=
  match Text.cutFirst '/' s.toList with
  | none => .error (.resourceWithoutSlash s)
  | some (type, id) =>
    if type = [] ∨ id = [] then .error .emptyResource
    else if ':' ∈ type then .error (.colonInType (String.ofList type))
    else .ok ⟨String.ofList type, String.ofList id⟩

namespace Arn

def parseParts (s : String) : Except ParseError ArnParts :=
  match Text.pieces ':' s with
  | head :: space :: service :: path :: marker :: instanceId :: part :: more => do
    if head ≠ "arn" then throw (.wrongHead head)
    if space ≠ "wami" then throw (.wrongSpace space)
    if service = "" then throw .emptyService
    let tenantPath ← (TenantPath.parse path).mapError .path
    if marker ≠ "wami" then throw (.wrongMarker marker)
    if instanceId = "" then throw .emptyInstance
    let rest ← ArnRest.ofPieces (part :: more)
    let resource ← Resource.parse rest.resourceText
    return {
      service := .ofToken service, tenantPath, instanceId, mapping := rest.mapping, resource }
  | parts => .error (.tooFewParts parts.length)

def parse (s : String) : Except ReadError Arn := do
  let parts ← (parseParts s).mapError .malformed
  (ofParts parts).mapError .refused

/-- The resource name that a text denotes, if it is well formed. -/
def tryParse (s : String) : Except ArnParts.Defect (Option Arn) :=
  match parse s with
  | .ok a => .ok (some a)
  | .error (.malformed _) => .ok none
  | .error (.refused defect) => .error defect

end Arn

end TenantIam
