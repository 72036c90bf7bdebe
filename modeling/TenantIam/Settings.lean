import TenantIam.Log
import TenantIam.Number.Shortest
import TenantIam.Text.Blank
import TenantIam.Text.Uppercase

/-!
# Settings

The settings are read from named variables; a variable that is unset or empty has its default.
-/

namespace TenantIam

/-- What happens to a stored policy that is malformed. -/
inductive MalformedHandling where
  /-- It counts as an empty policy, with a warning. -/
  | ignore
  /-- The request fails. -/
  | fail
  deriving DecidableEq

/-- How the policies of a caller are combined. -/
inductive CombiningRule where
  /-- A refusal anywhere wins. -/
  | denyOverrides
  /-- The first policy that decides is final. -/
  | firstMatch
  deriving DecidableEq

def MalformedHandling.ofText? : String → Option MalformedHandling
  | "ignore" => some .ignore
  | "fail" => some .fail
  | _ => none

def MalformedHandling.text : MalformedHandling → String
  | .ignore => "ignore"
  | .fail => "fail"

def CombiningRule.ofText? : String → Option CombiningRule
  | "deny-overrides" => some .denyOverrides
  | "first-match" => some .firstMatch
  | _ => none

def CombiningRule.text : CombiningRule → String
  | .denyOverrides => "deny-overrides"
  | .firstMatch => "first-match"

structure Environment where
  deployment : Option String := none
  logLevel : Option String := none
  jsonLog : Option String := none
  instanceId : Option String := none
  salt : Option String := none
  policyVersion : Option String := none
  onMalformed : Option String := none
  combining : Option String := none
  depthLimit : Option String := none

/-- The variables under their names. The kind of deployment has no name of its own: it is up to the
caller where it is read from. -/
def Environment.read (lookup : String → Option String) : Environment where
  logLevel := lookup "LOG_LEVEL"
  jsonLog := lookup "JSON_LOG_FORMAT"
  instanceId := lookup "WAMI_INSTANCE_ID"
  salt := lookup "WAMI_ARN_SALT"
  policyVersion := lookup "DEFAULT_POLICY_VERSION"
  onMalformed := lookup "MALFORMED_POLICY_MODE"
  combining := lookup "AUTHORIZATION_MODE"
  depthLimit := lookup "MAX_TENANT_DEPTH"

structure Settings where
  /-- The kind of deployment, such as development or production. -/
  deployment : String := "development"
  /-- The least level of the log. -/
  logLevel : Log.Level := .info
  /-- Whether log lines are JSON objects. -/
  jsonLog : Bool := true
  /-- The instance that resource names are made for. -/
  instanceId : String := "999888777"
  /-- The salt of account hashes. -/
  salt : Option String := none
  /-- The version of the policy that stands in for a malformed one. -/
  policyVersion : String := "2012-10-17"
  /-- What happens to malformed stored policies. -/
  onMalformed : MalformedHandling := .ignore
  /-- How policies are combined. -/
  combining : CombiningRule := .denyOverrides
  /-- The depth that no tenant exceeds. -/
  depthLimit : Number := 5

namespace Settings

/-- What is wrong with a variable. -/
inductive Problem where
  /-- The level is none of the four. -/
  | unknownLevel (given : String)
  /-- The mode is neither of the two. -/
  | unknownHandling (given : String)
  /-- The mode is neither of the two. -/
  | unknownCombining (given : String)
  /-- The depth does not start with an integer. -/
  | depthNotANumber
  /-- The depth is beyond every finite number. -/
  | depthNotAnInteger
  /-- The depth is below zero. -/
  | depthNegative
  deriving DecidableEq

def Problem.variableName : Problem → String
  | .unknownLevel _ => "LOG_LEVEL"
  | .unknownHandling _ => "MALFORMED_POLICY_MODE"
  | .unknownCombining _ => "AUTHORIZATION_MODE"
  | .depthNotANumber | .depthNotAnInteger | .depthNegative => "MAX_TENANT_DEPTH"

/-- The message about a value outside a list of words. -/
def notAmong (words : List String) (given : String) : String :=
  "Invalid enum value. Expected " ++ " | ".intercalate (words.map fun w => "'" ++ w ++ "'") ++
    ", received '" ++ given ++ "'"

def Problem.message : Problem → String
  | .unknownLevel given => notAmong (Log.Level.all.map Log.Level.name) given
  | .unknownHandling given => notAmong ["ignore", "fail"] given
  | .unknownCombining given => notAmong ["deny-overrides", "first-match"] given
  | .depthNotANumber => "Expected number, received nan"
  | .depthNotAnInteger => "Expected integer, received float"
  | .depthNegative => "Number must be greater than or equal to 0"

def problemsMessage (problems : List Problem) : String :=
  "Invalid environment configuration: " ++
    ", ".intercalate (problems.map fun p => p.variableName ++ " (" ++ p.message ++ ")")

/-- The value of a variable that is set and not empty. -/
def given? (value : Option String) : Option String := value.filter (· ≠ "")

def readLevel (environment : Environment) : Except Problem Log.Level :=
  match given? environment.logLevel with
  | none => .ok .info
  | some s =>
    match Log.Level.ofName? (Text.upper s) with
    | some level => .ok level
    | none => .error (.unknownLevel (Text.upper s))

def readHandling (environment : Environment) : Except Problem MalformedHandling :=
  match given? environment.onMalformed with
  | none => .ok .ignore
  | some s =>
    match MalformedHandling.ofText? s with
    | some mode => .ok mode
    | none => .error (.unknownHandling s)

def readCombining (environment : Environment) : Except Problem CombiningRule :=
  match given? environment.combining with
  | none => .ok .denyOverrides
  | some s =>
    match CombiningRule.ofText? s with
    | some mode => .ok mode
    | none => .error (.unknownCombining s)

/-- The depth limit, or what is wrong with it. -/
def readDepth (environment : Environment) : Except (List Problem) Number :=
  let s := (given? environment.depthLimit).getD "5"
  match Number.leadingInteger? (s.toList.dropWhile Text.isBlank) with
  | none => .error [.depthNotANumber]
  | some depth =>
    let problems :=
      (if depth.isInteger then [] else [.depthNotAnInteger]) ++
        (if depth < 0 then [.depthNegative] else [])
    if problems.isEmpty then .ok depth else .error problems

def problemsOf {α : Type} : Except Problem α → List Problem
  | .ok _ => []
  | .error problem => [problem]

/-- The settings of an environment, or all its problems in the order of the variables. -/
def load (environment : Environment) : Except (List Problem) Settings :=
  match readLevel environment, readHandling environment, readCombining environment,
    readDepth environment with
  | .ok logLevel, .ok onMalformed, .ok combining, .ok depthLimit =>
    .ok
      { deployment := (given? environment.deployment).getD "development"
        logLevel
        jsonLog := environment.jsonLog ≠ some "false"
        instanceId := (given? environment.instanceId).getD "999888777"
        salt := given? environment.salt
        policyVersion := (given? environment.policyVersion).getD "2012-10-17"
        onMalformed
        combining
        depthLimit }
  | level, malformed, mode, depth =>
    .error (problemsOf level ++ problemsOf malformed ++ problemsOf mode ++
      (match depth with
      | .ok _ => []
      | .error problems => problems))

def logFormat (settings : Settings) : Log.Format :=
  { threshold := settings.logLevel, json := settings.jsonLog }

end Settings

end TenantIam
