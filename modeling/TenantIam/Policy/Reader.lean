import TenantIam.Json.Reader
import TenantIam.Policy.Document
import TenantIam.Policy.Issue

/-!
# Reading policy documents

A policy is a JSON object with a version and statements. A lone statement stands for a list of one,
a lone pattern for a list of one; unknown fields are dropped.
-/

namespace TenantIam.Policy

def texts? (values : List Json) : Option (List Utf16) :=
  values.mapM fun
    | .str s => some s
    | _ => none

/-- Patterns: a text or a list of texts. -/
def checkPatterns (path : List Utf16) : Option Json → Checked (List Utf16)
  | some (.str s) => .ok [s]
  | some (.arr values) =>
    match texts? values with
    | some texts => .ok texts
    | none => .fail path .notPatterns
  | _ => .fail path .notPatterns

def checkVersion (path : List Utf16) : Option Json → Checked Utf16
  | none => .fail path .missing
  | some (.str s) => if s = "" then .fail path .emptyText else .ok s
  | some value => .fail path (.wrongKind "string" value.kindName)

def checkSid (path : List Utf16) : Option Json → Checked (Option Utf16)
  | none => .ok none
  | some (.str s) => .ok (some s)
  | some value => .fail path (.wrongKind "string" value.kindName)

def checkEffect (path : List Utf16) : Option Json → Checked Effect
  | none => .fail path .missing
  | some (.str s) =>
    match Effect.ofName? s with
    | some effect => .ok effect
    | none => .fail path (.unknownEffect s)
  | some value => .fail path (.effectKind value.kindName)

/-- The fields of an object without those under the one reserved key. -/
def withoutReserved {α : Type} (fields : Fields α) : Fields α :=
  fields.filter fun (key, _) => key ≠ "__proto__"

/-- An operator of a condition with its operands: an object. -/
def checkOperator (path : List Utf16) (operator : Utf16) :
    Json → Checked (Utf16 × Fields Json)
  | .obj operands => .ok (operator, withoutReserved operands)
  | value => .fail (path ++ [operator]) (.wrongKind "object" value.kindName)

/-- The condition of a statement: an object of objects, or nothing. -/
def checkCondition (path : List Utf16) : Option Json → Checked (Option Condition)
  | none => .ok none
  | some (.obj operators) =>
    (Checked.collect (operators.map fun (operator, value) => checkOperator path operator value)).map
      fun condition => some (withoutReserved condition)
  | some value => .fail path (.wrongKind "object" value.kindName)

/-- The field of an object under a key, checked at its position. -/
def checkField {α : Type} (check : List Utf16 → Option Json → Checked α) (path : List Utf16)
    (fields : Fields Json) (key : Utf16) : Checked α :=
  check (path ++ [key]) (Fields.get? fields key)

def checkStatement (path : List Utf16) : Json → Checked Statement
  | .obj fields =>
    (Checked.both (checkField checkSid path fields "Sid")
      (Checked.both (checkField checkEffect path fields "Effect")
        (Checked.both (checkField checkPatterns path fields "Action")
          (Checked.both (checkField checkPatterns path fields "Resource")
            (checkField checkCondition path fields "Condition"))))).map
      fun (sid, effect, actions, resources, condition) =>
        { sid, effect, actions, resources, condition }
  | value => .fail path (.wrongKind "object" value.kindName)

/-- Statements: a list, or a lone statement that counts as a list of one. -/
def checkStatements (path : List Utf16) : Option Json → Checked (List Statement)
  | none => .fail path .missing
  | some (.arr values) =>
    .collect (values.mapIdx fun i value => checkStatement (path ++ [(i.repr : Utf16)]) value)
  | some (.obj fields) => .collect [checkStatement (path ++ [("0" : Utf16)]) (.obj fields)]
  | some value => .fail path (.wrongKind "array" value.kindName)

def checkDocument : Json → Checked Document
  | .obj fields =>
    (Checked.both (checkField checkVersion [] fields "Version")
      (checkField checkStatements [] fields "Statement")).map
      fun (version, statements) => { version, statements }
  | value => .fail [] (.wrongKind "object" value.kindName)

def checkText (text : Utf16) : Checked Document :=
  match Json.read? text with
  | some value => checkDocument value
  | none => .error [.notJson]

/-- The document of a value; a value that is a text is read as JSON. -/
def checkValue : Json → Checked Document
  | .str text => checkText text
  | value => checkDocument value

/-- A checked value, refused as a whole when there are issues. -/
def accepted {α : Type} (checked : Checked α) : Except Malformed α :=
  checked.mapError Malformed.mk

def parse (text : Utf16) : Except Malformed Document := accepted (checkText text)

def read (value : Json) : Except Malformed Document := accepted (checkValue value)

end TenantIam.Policy
