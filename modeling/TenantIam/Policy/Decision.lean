import TenantIam.Pattern.Wildcard
import TenantIam.Policy.Document

/-!
# Decisions

A request is an action on a resource. A statement matches it when one of its action patterns
matches the action and one of its resource patterns matches the resource. Of the statements that
match, one that denies wins over any that allow; where none matches, the request is denied without
being mentioned.
-/

namespace TenantIam.Policy

structure Match where
  /-- The name of the statement. -/
  sid : Option Utf16
  /-- What the statement does. -/
  effect : Effect
  /-- The first of its action patterns that matches. -/
  action : Utf16
  /-- The first of its resource patterns that matches. -/
  resource : Utf16
  deriving DecidableEq

/-- What policies together say about a request. -/
inductive Decision where
  /-- Some statement allows it and none denies it. -/
  | allow
  /-- Some statement denies it. -/
  | deny
  /-- No statement mentions it. -/
  | implicitDeny
  deriving DecidableEq

def Decision.name : Decision → String
  | allow => "Allow"
  | deny => "Deny"
  | implicitDeny => "ImplicitDeny"

def Statement.match? (s : Statement) (action resource : Utf16) : Option Match :=
  match Wildcard.firstCovering? s.actions action, Wildcard.firstCovering? s.resources resource with
  | some matchedAction, some matchedResource =>
    some { sid := s.sid, effect := s.effect, action := matchedAction, resource := matchedResource }
  | _, _ => none

def Statement.applies (s : Statement) (action resource : Utf16) : Bool :=
  (s.match? action resource).isSome

/-- What a statement says about a request; `none` when it does not match. -/
def Statement.decide (s : Statement) (action resource : Utf16) : Option Effect :=
  if s.applies action resource then some s.effect else none

/-- What a document says about a request; `none` when no statement matches. -/
def Document.decide (d : Document) (action resource : Utf16) : Option Effect :=
  let effects := (d.statements.filter (·.applies action resource)).map (·.effect)
  if .deny ∈ effects then some .deny
  else if .allow ∈ effects then some .allow
  else none

/-- What documents say about a request when they are gone through in order. The first one that
denies ends it; that one has allowed is remembered. -/
def evaluateFrom (action resource : Utf16) : (allowed : Bool) → List Document → Decision
  | allowed, [] => if allowed then .allow else .implicitDeny
  | allowed, d :: documents =>
    match d.decide action resource with
    | some .deny => .deny
    | some .allow => evaluateFrom action resource true documents
    | none => evaluateFrom action resource allowed documents

def evaluate (documents : List Document) (action resource : Utf16) : Decision :=
  evaluateFrom action resource false documents

def allows (documents : List Document) (action resource : Utf16) : Bool :=
  evaluate documents action resource = .allow

/-- How the statements of documents match a request, in order. -/
def matching (documents : List Document) (action resource : Utf16) : List Match :=
  documents.flatMap fun d => d.statements.filterMap (·.match? action resource)

end TenantIam.Policy
