import TenantIam.Json.Writer

/-!
# Policy documents

A policy document is a list of statements. A statement allows or denies the actions that match its
action patterns on the resources that match its resource patterns. Conditions are kept and not
evaluated.
-/

namespace TenantIam.Policy

/-- What a statement does with the requests that it matches. -/
inductive Effect where
  | allow
  | deny
  deriving DecidableEq

namespace Effect

def name : Effect → String
  | allow => "Allow"
  | deny => "Deny"

def ofName? (s : Utf16) : Option Effect := [allow, deny].find? fun e => e.name = s

@[simp] theorem ofName?_name (e : Effect) : ofName? e.name = some e := by
  cases e <;> rfl

end Effect

/-- Operators with the keys and values that they are to be applied to. -/
abbrev Condition := Fields (Fields Json)

def Condition.toJson (c : Condition) : Json :=
  .obj (c.map fun (operator, operands) => (operator, .obj operands))

structure Statement where
  /-- The name of the rule. -/
  sid : Option Utf16
  /-- What the rule does. -/
  effect : Effect
  /-- The patterns of the actions it is about. -/
  actions : List Utf16
  /-- The patterns of the resources it is about. -/
  resources : List Utf16
  /-- The condition of the rule. -/
  condition : Option Condition

structure Document where
  /-- The version of the policy language. -/
  version : Utf16
  /-- The rules. -/
  statements : List Statement

def Statement.toJson (s : Statement) : Json :=
  .obj
    ((match s.sid with
      | some sid => [("Sid", .str sid)]
      | none => []) ++
      ([("Effect", .str s.effect.name), ("Action", .strs s.actions),
        ("Resource", .strs s.resources)] : Fields Json) ++
      (match s.condition with
      | some condition => [("Condition", condition.toJson)]
      | none => []))

def Document.toJson (d : Document) : Json :=
  .obj [("Version", .str d.version), ("Statement", .arr (d.statements.map Statement.toJson))]

def Document.text (d : Document) : String := d.toJson.write

/-- The document without statements, which stands in for a malformed one. -/
def Document.empty (version : Utf16) : Document where
  version
  statements := []

end TenantIam.Policy
