import TenantIam.Json.Basic

/-!
# Faults

What a caller is told when an operation is refused. Every part of the library has its own type of
causes; `Reported` turns a cause into the fault that is shown.
-/

namespace TenantIam

inductive FaultCode where
  | invalidFormat
  | missingComponent
  | invalidComponent
  | invalidParameter
  | resourceNotFound
  | resourceAlreadyExists
  | accessDenied
  | internalError
  deriving DecidableEq

def FaultCode.text : FaultCode → String
  | .invalidFormat => "INVALID_FORMAT"
  | .missingComponent => "MISSING_COMPONENT"
  | .invalidComponent => "INVALID_COMPONENT"
  | .invalidParameter => "INVALID_PARAMETER"
  | .resourceNotFound => "RESOURCE_NOT_FOUND"
  | .resourceAlreadyExists => "RESOURCE_ALREADY_EXISTS"
  | .accessDenied => "ACCESS_DENIED"
  | .internalError => "INTERNAL_ERROR"

def FaultCode.all : List FaultCode :=
  [.invalidFormat, .missingComponent, .invalidComponent, .invalidParameter, .resourceNotFound,
   .resourceAlreadyExists, .accessDenied, .internalError]

/-- What is wrong with the text of a resource name. -/
inductive ArnFlaw where
  /-- The text does not have the parts of a resource name. -/
  | format
  /-- A required component is empty. -/
  | missing
  /-- A component is not admissible. -/
  | component
  deriving DecidableEq

def ArnFlaw.all : List ArnFlaw := [.format, .missing, .component]

def ArnFlaw.code : ArnFlaw → FaultCode
  | .format => .invalidFormat
  | .missing => .missingComponent
  | .component => .invalidComponent

/-- The words that open the message of a flaw. -/
def ArnFlaw.heading : ArnFlaw → String
  | .format => "Invalid ARN format"
  | .missing => "Missing ARN component"
  | .component => "Invalid ARN component"

inductive Fault where
  /-- A refusal of no particular class. -/
  | general (code : FaultCode) (wording : String) (operational : Bool)
      (details : Option (Fields Json))
  /-- A flaw in the text of a resource name or of one of its components. -/
  | arn (flaw : ArnFlaw) (reason : String)
  /-- A parameter that the operation does not admit. -/
  | invalidParameter (wording : Utf16) (details : Option (Fields Json))
  /-- A resource that is not there. -/
  | notFound (resource : String)
  /-- A resource that is already there. -/
  | alreadyExists (resource : String)
  /-- A request that the caller is not allowed to make; an empty wording counts as none. -/
  | accessDenied (caller action resource : String) (wording : Option String)

namespace Fault

/-- The class of a fault. -/
def name : Fault → String
  | .general .. => "AppError"
  | .arn .. => "ArnParseError"
  | .invalidParameter .. => "InvalidParameterError"
  | .notFound .. => "ResourceNotFoundError"
  | .alreadyExists .. => "ResourceAlreadyExistsError"
  | .accessDenied .. => "AccessDeniedError"

def code : Fault → FaultCode
  | .general code .. => code
  | .arn flaw _ => flaw.code
  | .invalidParameter .. => .invalidParameter
  | .notFound _ => .resourceNotFound
  | .alreadyExists _ => .resourceAlreadyExists
  | .accessDenied .. => .accessDenied

def message : Fault → Utf16
  | .general _ wording _ _ => wording
  | .arn flaw reason => flaw.heading ++ ": " ++ reason
  | .invalidParameter wording _ => wording
  | .notFound resource => "Resource not found: " ++ resource
  | .alreadyExists resource => "Resource already exists: " ++ resource
  | .accessDenied caller action resource wording =>
    match wording.filter (· ≠ "") with
    | some wording => wording
    | none => "User " ++ caller ++ " is not authorized to perform " ++ action ++ " on " ++ resource

def details? : Fault → Option (Fields Json)
  | .general _ _ _ details => details
  | .invalidParameter _ details => details
  | .accessDenied caller action resource _ =>
    some [("callerArn", .str caller), ("action", .str action), ("resource", .str resource)]
  | _ => none

/-- Whether the fault belongs to normal operation. -/
def isExpected : Fault → Bool
  | .general _ _ operational _ => operational
  | _ => true

end Fault

/-- Why an operation did not succeed. -/
inductive Failure where
  /-- The request was refused. -/
  | fault (fault : Fault)
  /-- Something the operation relies on did not work. -/
  | outage (message : String)

def Failure.message : Failure → Utf16
  | .fault f => f.message
  | .outage message => message

/-- Types of causes that are reported as faults. -/
class Reported (ε : Type) where
  /-- The fault that reports a cause. -/
  toFault : ε → Fault

instance : Reported Fault := ⟨id⟩

/-- A result whose cause of failure is reported. -/
def reported {ε α : Type} [Reported ε] (result : Except ε α) : Except Failure α :=
  match result with
  | .ok value => .ok value
  | .error cause => .error (.fault (Reported.toFault cause))

end TenantIam
