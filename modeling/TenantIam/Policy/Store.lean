import TenantIam.Fault

/-!
# The policy store

Managed policies are kept under their resource names and attached to principals; inline policies
belong to one principal each. Attachments and inline policies are listed in the order in which they
were made, and replacing an inline policy moves nothing.
-/

namespace TenantIam

structure ManagedPolicy where
  /-- Its resource name. -/
  arn : String
  name : String
  /-- The text of the policy, well formed or not. -/
  text : String
  deriving DecidableEq

structure InlinePolicy where
  /-- Whom it belongs to. -/
  principal : String
  name : String
  /-- The text of the policy, well formed or not. -/
  text : String
  deriving DecidableEq

structure Attachment where
  /-- Whom the policy is attached to. -/
  principal : String
  /-- The resource name of the policy, whether there is one or not. -/
  arn : String
  deriving DecidableEq

structure PolicyStore where
  /-- The managed policies. -/
  records : List ManagedPolicy := []
  /-- The attachments, in the order in which they were made. -/
  attachments : List Attachment := []
  /-- The inline policies, in the order in which they were made. -/
  inlined : List InlinePolicy := []
  deriving DecidableEq

namespace PolicyStore

def policy? (s : PolicyStore) (arn : String) : Option ManagedPolicy :=
  s.records.find? (·.arn = arn)

def attached (s : PolicyStore) (principal : String) : List String :=
  (s.attachments.filter (·.principal = principal)).map (·.arn)

def inlineNames (s : PolicyStore) (principal : String) : List String :=
  (s.inlined.filter (·.principal = principal)).map (·.name)

def inline? (s : PolicyStore) (principal name : String) : Option InlinePolicy :=
  s.inlined.find? fun p => p.principal = principal ∧ p.name = name

/-- Why a change is refused. -/
inductive Refusal where
  /-- There is a managed policy of that resource name. -/
  | policyExists (arn : String)
  /-- There is no managed policy of that resource name. -/
  | noPolicy (arn : String)
  /-- The policy is not attached to the principal. -/
  | notAttached (principal arn : String)
  /-- The principal has no inline policy of that name. -/
  | noInline (principal name : String)
  deriving DecidableEq

instance : Reported Refusal where
  toFault
    | .policyExists arn => .alreadyExists ("Policy: " ++ arn)
    | .noPolicy arn => .notFound ("Policy: " ++ arn)
    | .notAttached principal arn => .notFound ("Policy attachment: " ++ arn ++ " on " ++ principal)
    | .noInline principal name => .notFound ("Inline policy: " ++ name ++ " on " ++ principal)

inductive Operation where
  /-- Adds a managed policy. -/
  | create (record : ManagedPolicy)
  /-- Removes a managed policy. -/
  | delete (arn : String)
  /-- Attaches a policy; attaching it again changes nothing. -/
  | attach (attachment : Attachment)
  /-- Removes an attachment. -/
  | detach (attachment : Attachment)
  /-- Sets an inline policy. -/
  | putInline (policy : InlinePolicy)
  /-- Removes an inline policy. -/
  | deleteInline (principal name : String)

def withInline (policies : List InlinePolicy) (policy : InlinePolicy) : List InlinePolicy :=
  if policies.any fun p => p.principal = policy.principal ∧ p.name = policy.name then
    policies.map fun p =>
      if p.principal = policy.principal ∧ p.name = policy.name then policy else p
  else policies ++ [policy]

def perform (s : PolicyStore) : Operation → Except Refusal PolicyStore
  | .create record =>
    if (s.policy? record.arn).isSome then .error (.policyExists record.arn)
    else .ok { s with records := s.records ++ [record] }
  | .delete arn =>
    if (s.policy? arn).isSome then .ok { s with records := s.records.filter (·.arn ≠ arn) }
    else .error (.noPolicy arn)
  | .attach attachment =>
    if attachment ∈ s.attachments then .ok s
    else .ok { s with attachments := s.attachments ++ [attachment] }
  | .detach attachment =>
    if attachment ∈ s.attachments then
      .ok { s with attachments := s.attachments.filter (· ≠ attachment) }
    else .error (.notAttached attachment.principal attachment.arn)
  | .putInline policy => .ok { s with inlined := withInline s.inlined policy }
  | .deleteInline principal name =>
    if (s.inline? principal name).isSome then
      .ok { s with
        inlined := s.inlined.filter fun p => ¬ (p.principal = principal ∧ p.name = name) }
    else .error (.noInline principal name)

/-- The store after a change, which is the same store when the change is refused. -/
def after (s : PolicyStore) (operation : Operation) : PolicyStore :=
  match s.perform operation with
  | .ok t => t
  | .error _ => s

def run (s : PolicyStore) (operations : List Operation) : PolicyStore :=
  operations.foldl after s

end PolicyStore

/-- Where policies are read from. A read that does not work says so in a message. -/
structure PolicySource where
  /-- The resource names attached to a principal. -/
  attached : (principal : String) → Except String (List String)
  /-- The managed policy of a resource name, if there is one. -/
  policy : (arn : String) → Except String (Option ManagedPolicy)
  /-- The names of the inline policies of a principal. -/
  inlineNames : (principal : String) → Except String (List String)
  /-- The text of an inline policy, if there is one. -/
  inlineText : (principal name : String) → Except String (Option String)

/-- A store whose reads always work. -/
def PolicyStore.source (s : PolicyStore) : PolicySource where
  attached principal := .ok (s.attached principal)
  policy arn := .ok (s.policy? arn)
  inlineNames principal := .ok (s.inlineNames principal)
  inlineText principal name := .ok ((s.inline? principal name).map (·.text))

/-- A policy text with a mark of where it was found. -/
structure StoredPolicy where
  /-- Where it was found. -/
  source : String
  text : String
  deriving DecidableEq

namespace PolicySource

/-- The reads of the managed policies of a principal, in attachment order. -/
def managedReads (source : PolicySource) (principal : String) :
    List (Except String (Option StoredPolicy)) :=
  match source.attached principal with
  | .error message => [.error message]
  | .ok arns =>
    arns.map fun arn =>
      (source.policy arn).map fun record => record.map fun r => { source := arn, text := r.text }

/-- The reads of the inline policies of a principal, in listing order. -/
def inlineReads (source : PolicySource) (principal : String) :
    List (Except String (Option StoredPolicy)) :=
  match source.inlineNames principal with
  | .error message => [.error message]
  | .ok names =>
    names.map fun name =>
      (source.inlineText principal name).map fun text =>
        text.map fun text => { source := principal ++ "/" ++ name, text }

/-- The reads of all policies of a principal, in the order in which they are made. -/
def reads (source : PolicySource) (principal : String) :
    List (Except String (Option StoredPolicy)) :=
  source.managedReads principal ++ source.inlineReads principal

end PolicySource

end TenantIam
