import TenantIam.Fault

/-!
# What is wrong with a policy

A policy that is malformed is reported with all its offending positions, not only with the first.
-/

namespace TenantIam

def Json.kindName : Json → String
  | .null => "null"
  | .bool _ => "boolean"
  | .num .nan => "nan"
  | .num _ => "number"
  | .str _ => "string"
  | .arr _ => "array"
  | .obj _ => "object"

namespace Policy

/-- What is wrong at a position. -/
inductive Problem where
  /-- A field that has to be there is not. -/
  | missing
  /-- The value is of the wrong kind. -/
  | wrongKind (expected received : String)
  | emptyText
  /-- The effect is not a text. -/
  | effectKind (received : String)
  /-- The effect is neither of the two. -/
  | unknownEffect (received : Utf16)
  /-- The patterns are neither a text nor a list of texts. -/
  | notPatterns
  deriving DecidableEq

def Problem.message : Problem → Utf16
  | missing => "Required"
  | wrongKind expected received => "Expected " ++ expected ++ ", received " ++ received
  | emptyText => "String must contain at least 1 character(s)"
  | effectKind received => "Expected 'Allow' | 'Deny', received " ++ received
  | unknownEffect received =>
    "Invalid enum value. Expected 'Allow' | 'Deny', received '" ++ received ++ "'"
  | notPatterns => "Invalid input"

def Problem.code : Problem → String
  | missing | wrongKind .. | effectKind _ => "invalid_type"
  | emptyText => "too_small"
  | unknownEffect _ => "invalid_enum_value"
  | notPatterns => "invalid_union"

/-- A reason for which a text or a value is no policy. -/
inductive Issue where
  /-- The text is not JSON. -/
  | notJson
  /-- There is a problem at a position. -/
  | at (path : List Utf16) (problem : Problem)
  deriving DecidableEq

namespace Issue

/-- The last step of the path of an issue. -/
def field : Issue → Utf16
  | notJson => "json"
  | .at path _ => path.getLast?.getD "policy"

/-- The path of an issue with points between its steps. -/
def position : Issue → Utf16
  | notJson => "json"
  | .at path _ => if path = [] then "policy" else Utf16.intercalate "." path

def message : Issue → Utf16
  | notJson => "Failed to parse JSON: invalid JSON"
  | .at _ problem => problem.message

/-- The code of an issue; there is none for a text that is not JSON. -/
def code? : Issue → Option String
  | notJson => none
  | .at _ problem => some problem.code

def toJson (i : Issue) : Json :=
  .obj (([("field", .str i.field), ("message", .str i.message), ("path", .str i.position)] :
      Fields Json) ++
    (match i.code? with
    | some code => [("code", .str code)]
    | none => []))

def summary (i : Issue) : Utf16 := i.position ++ ": " ++ i.message

end Issue

def issuesJson (issues : List Issue) : Json := .arr (issues.map Issue.toJson)

/-- The refusal of a malformed policy. -/
structure Malformed where
  /-- What is wrong with it. -/
  issues : List Issue

instance : Reported Malformed where
  toFault m :=
    .invalidParameter
      ("Invalid policy document: " ++ Utf16.intercalate "; " (m.issues.map Issue.summary))
      (some [("errors", issuesJson m.issues)])

/-- A value, or the issues that prevent it. -/
abbrev Checked (α : Type) := Except (List Issue) α

namespace Checked

variable {α β : Type}

def issues : Checked α → List Issue
  | .ok _ => []
  | .error issues => issues

def fail (path : List Utf16) (problem : Problem) : Checked α :=
  .error [.at path problem]

/-- Two values that are checked independently. -/
def both (a : Checked α) (b : Checked β) : Checked (α × β) :=
  match a, b with
  | .ok a, .ok b => .ok (a, b)
  | .ok _, .error issues => .error issues
  | .error issues, .ok _ => .error issues
  | .error earlier, .error later => .error (earlier ++ later)

/-- Values that are checked independently. -/
def collect : List (Checked α) → Checked (List α)
  | [] => .ok []
  | a :: rest => (both a (collect rest)).map fun (a, rest) => a :: rest

@[simp] theorem issues_both (a : Checked α) (b : Checked β) :
    (both a b).issues = a.issues ++ b.issues := by
  cases a <;> cases b <;> simp [both, issues]

@[simp] theorem issues_map (f : α → β) (a : Checked α) : issues (Except.map f a) = issues a := by
  cases a <;> rfl

end Checked

end Policy

end TenantIam
