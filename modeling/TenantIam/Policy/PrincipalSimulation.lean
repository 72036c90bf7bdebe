import TenantIam.Arn.Reader
import TenantIam.Log
import TenantIam.Policy.Simulation
import TenantIam.Policy.Store

/-!
# Simulation for a principal

The policies stored for a user, with any others that are given, are simulated. A malformed text
among them fails the simulation.
-/

namespace TenantIam.Policy

structure PrincipalRequest extends SimulationRequest where
  /-- The resource name of the principal. -/
  sourceArn : String
  /-- Texts of further policies. -/
  extra : List String := []

/-- Why there is no simulation for a principal. -/
inductive PrincipalError where
  /-- The resource name is malformed. -/
  | arn (error : Arn.ReadError)
  /-- The principal is no user. -/
  | notUser (type : String) (given : String)
  /-- A read did not work. -/
  | unavailable (message : String)
  /-- A text is malformed. -/
  | malformed (malformed : Malformed)

def PrincipalError.failure : PrincipalError → Failure
  | .arn error => .fault (Reported.toFault error)
  | .notUser type given =>
    .fault (.invalidParameter ("Policy source must be a user, got resource type '" ++ type ++ "'")
      (some [("policySourceArn", .str given)]))
  | .unavailable message => .outage message
  | .malformed m => .fault (Reported.toFault m)

/-- The documents of a list of reads, or the first thing that is in the way. -/
def documentsOf : List (Except String (Option StoredPolicy)) → Except PrincipalError (List Document)
  | [] => .ok []
  | .error message :: _ => .error (.unavailable message)
  | .ok none :: reads => documentsOf reads
  | .ok (some stored) :: reads => do
    let document ← (parse stored.text).mapError .malformed
    let documents ← documentsOf reads
    return document :: documents

/-- The user whose policies are simulated. -/
def sourceUser (sourceArn : String) : Except PrincipalError String := do
  let a ← (Arn.parse sourceArn).mapError .arn
  if a.resource.type = "user" then return a.resource.id
  else throw (.notUser a.resource.type sourceArn)

def principalDocuments (source : PolicySource) (request : PrincipalRequest) :
    Except PrincipalError (List Document) := do
  let principal ← sourceUser request.sourceArn
  let stored ← documentsOf (source.reads principal)
  let extra ← (parseAll request.extra).mapError .malformed
  return stored ++ extra

def simulationEntry (sourceArn : String) (count : Nat) : Log.Entry where
  level := .debug
  message := "Simulating principal policy"
  context :=
    { component := some "policy-simulation", action := some "simulatePrincipalPolicy"
      metadata := some [("policySourceArn", .str sourceArn), ("policyCount", .nat count)] }

/-- The results of every action on every resource under the policies of a principal. -/
def simulatePrincipal (source : PolicySource) (request : PrincipalRequest) :
    Logged (Except PrincipalError (List SimulationResult)) :=
  match principalDocuments source request with
  | .error error => ⟨.error error, []⟩
  | .ok documents =>
    ⟨.ok (simulate documents request.toSimulationRequest),
      [simulationEntry request.sourceArn documents.length]⟩

end TenantIam.Policy
