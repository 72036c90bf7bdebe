import TenantIam.Caller
import TenantIam.Policy.Decision
import TenantIam.Policy.Reader
import TenantIam.Policy.Store
import TenantIam.Settings

/-!
# Authorization

The root is allowed everything. For a user, the managed policies in attachment order and then the
inline policies are read; they allow a request or they do not. What happens to stored texts that
are malformed and how documents are combined is a matter of configuration.
-/

namespace TenantIam

structure Authorization where
  /-- How documents are combined. -/
  combining : CombiningRule
  /-- What happens to stored texts that are malformed. -/
  onMalformed : MalformedHandling
  /-- The version of the empty document that stands in for a malformed text. -/
  defaultVersion : String

namespace Authorization

def ofSettings (settings : Settings) : Authorization where
  combining := settings.combining
  onMalformed := settings.onMalformed
  defaultVersion := settings.policyVersion

/-- Why there is no answer to a request. -/
inductive Error where
  /-- The caller is no user. -/
  | callerNotUser (type : String) (caller : String)
  /-- A read did not work. -/
  | unavailable (message : String)
  /-- A stored text is malformed. -/
  | malformed (source : String) (issues : List Policy.Issue)

def Error.failure : Error → Failure
  | .callerNotUser type caller =>
    .fault (.invalidParameter ("Caller must be a user, got resource type '" ++ type ++ "'")
      (some [("callerArn", .str caller)]))
  | .unavailable message => .outage message
  | .malformed source issues =>
    .fault (.invalidParameter ("Malformed stored policy: " ++ source)
      (some [("source", .str source), ("errors", Policy.issuesJson issues)]))

/-- The entry about a stored text that is passed over. -/
def warning (stored : StoredPolicy) (issues : List Policy.Issue) : Log.Entry where
  level := .warn
  message := "Ignoring malformed stored policy"
  context :=
    { component := some "authorization", action := some "authorize"
      metadata := some [("source", .str stored.source), ("errors", Policy.issuesJson issues)] }

def prepend (document : Policy.Document) (rest : Logged (Except Error (List Policy.Document))) :
    Logged (Except Error (List Policy.Document)) :=
  rest.map fun result => result.map (document :: ·)

/-- The documents of a list of reads. The first read that does not work and, if malformed texts are
not passed over, the first malformed text end the loading. -/
def loadReads (config : Authorization) :
    List (Except String (Option StoredPolicy)) → Logged (Except Error (List Policy.Document))
  | [] => ⟨.ok [], []⟩
  | .error message :: _ => ⟨.error (.unavailable message), []⟩
  | .ok none :: reads => loadReads config reads
  | .ok (some stored) :: reads =>
    match Policy.checkText stored.text with
    | .ok document => prepend document (loadReads config reads)
    | .error issues =>
      match config.onMalformed with
      | .fail => ⟨.error (.malformed stored.source issues), []⟩
      | .ignore =>
        let rest := prepend (.empty config.defaultVersion) (loadReads config reads)
        ⟨rest.value, warning stored issues :: rest.entries⟩

def load (config : Authorization) (source : PolicySource) (principal : String) :
    Logged (Except Error (List Policy.Document)) :=
  config.loadReads (source.reads principal)

/-- What documents say about a request when they are gone through in order. The first one that
denies settles it, and so does the first one that allows if the first match is to count. -/
def settle (combining : CombiningRule) (action resource : String) :
    (allowed : Bool) → List Policy.Document → Bool
  | allowed, [] => allowed
  | allowed, d :: documents =>
    match d.decide action resource, combining with
    | some .deny, _ => false
    | some .allow, .firstMatch => true
    | some .allow, .denyOverrides => settle combining action resource true documents
    | none, _ => settle combining action resource allowed documents

def decide (config : Authorization) (documents : List Policy.Document) (action resource : String) :
    Bool :=
  settle config.combining action resource false documents

/-- The name of the user that a caller is. -/
def userOf (caller : Caller) : Except Error String :=
  let resource := caller.arn.resource
  if resource.type = "user" then .ok resource.id
  else .error (.callerNotUser resource.type caller.arn.text)

def entry (caller : Caller) (action resource : String) (allowed : Bool) (reason : Option String)
    (facts : Fields Json) : Log.Entry :=
  Log.decision action resource allowed (some caller.arn.text) (some caller.tenantPath.text) reason
    facts

def authorize (config : Authorization) (source : PolicySource) (caller : Caller)
    (action resource : String) : Logged (Except Error Bool) :=
  if caller.isRoot then ⟨.ok true, [entry caller action resource true (some "root") []]⟩
  else
    match userOf caller with
    | .error error => ⟨.error error, []⟩
    | .ok principal =>
      let loaded := config.load source principal
      match loaded.value with
      | .error error => ⟨.error error, loaded.entries⟩
      | .ok documents =>
        let allowed := config.decide documents action resource
        let facts : Fields Json :=
          [("mode", .str config.combining.text), ("policyCount", .nat documents.length)]
        ⟨.ok allowed, loaded.entries ++ [entry caller action resource allowed none facts]⟩

/-- Why a caller may not go on. -/
inductive Rejection where
  /-- There is no answer to the request. -/
  | unanswered (error : Error)
  /-- The request is not allowed. -/
  | denied (caller action resource : String)

def Rejection.failure : Rejection → Failure
  | .unanswered error => error.failure
  | .denied caller action resource => .fault (.accessDenied caller action resource none)

/-- Rejects a caller who may not perform an action on a resource. -/
def require (config : Authorization) (source : PolicySource) (caller : Caller)
    (action resource : String) : Logged (Except Rejection Unit) :=
  (config.authorize source caller action resource).map fun
    | .error error => .error (.unanswered error)
    | .ok true => .ok ()
    | .ok false => .error (.denied caller.arn.text action resource)

/-- The action of reaching a tenant. -/
def tenantAccess : String := "tenant:Access"

def accessTenant (caller : Caller) (target : TenantPath) : Logged Bool :=
  let allowed := caller.canAccess target
  let reason := if caller.isRoot then some "root" else none
  ⟨allowed, [entry caller tenantAccess target.text allowed reason []]⟩

/-- A caller's being turned away from a tenant. -/
structure TenantRejection where
  /-- The resource name of the caller. -/
  caller : String
  /-- The tenant of the caller. -/
  own : TenantPath
  /-- The tenant that was not reached. -/
  target : TenantPath

instance : Reported TenantRejection where
  toFault r :=
    .accessDenied r.caller tenantAccess r.target.text
      (some ("Tenant " ++ r.own.text ++ " cannot access tenant " ++ r.target.text))

/-- Rejects a caller who does not reach a tenant. -/
def requireTenant (caller : Caller) (target : TenantPath) : Logged (Except TenantRejection Unit) :=
  (accessTenant caller target).map fun allowed =>
    if allowed then .ok ()
    else .error { caller := caller.arn.text, own := caller.tenantPath, target }

end Authorization

end TenantIam
