import TenantIam.Policy.Decision
import TenantIam.Policy.Reader

/-!
# Simulation

A simulation says for each of a list of actions, on each of a list of resources, whether policies
would allow it, and which statements have to do with it.
-/

namespace TenantIam.Policy

structure SimulationResult where
  /-- The action asked for. -/
  action : String
  /-- The resource it is to be performed on. -/
  resource : String
  /-- Whether it is allowed. -/
  allowed : Bool
  /-- How statements match it. -/
  matched : List Match
  deriving DecidableEq

structure SimulationRequest where
  actions : List String
  /-- The resources; without any given, every resource. -/
  resources : Option (List String) := none

def simulateOne (documents : List Document) (action resource : String) : SimulationResult where
  action
  resource
  allowed := allows documents action resource
  matched := matching documents action resource

/-- The results of every action on every resource. -/
def simulate (documents : List Document) (request : SimulationRequest) : List SimulationResult :=
  request.actions.flatMap fun action =>
    (request.resources.getD ["*"]).map fun resource => simulateOne documents action resource

/-- The documents of a list of texts, or what is wrong with the first that is malformed. -/
def parseAll (texts : List String) : Except Malformed (List Document) :=
  texts.mapM fun text : String => parse text

/-- The results of every action on every resource under policies given as texts. -/
def simulateTexts (texts : List String) (request : SimulationRequest) :
    Except Malformed (List SimulationResult) :=
  (parseAll texts).map fun documents => simulate documents request

end TenantIam.Policy
