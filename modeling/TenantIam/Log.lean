import TenantIam.Instant
import TenantIam.Json.Writer

/-!
# The log

Operations return the entries they write; a line is made of an entry only when its level reaches
the threshold. A line is either a JSON object or a heading followed by the remaining fields as a
JSON object.
-/

namespace TenantIam.Log

inductive Level where
  | debug
  | info
  | warn
  | error
  deriving DecidableEq

namespace Level

def rank : Level → Nat
  | .debug => 0
  | .info => 1
  | .warn => 2
  | .error => 3

def name : Level → String
  | .debug => "DEBUG"
  | .info => "INFO"
  | .warn => "WARN"
  | .error => "ERROR"

def all : List Level := [.debug, .info, .warn, .error]

def ofName? (s : String) : Option Level := all.find? (·.name = s)

/-- The console channel that takes the lines of a level. -/
def channel : Level → String
  | .debug => "debug"
  | .info => "log"
  | .warn => "warn"
  | .error => "error"

end Level

/-- What an entry is about. -/
structure Context where
  /-- The user concerned. -/
  userId : Option String := none
  /-- The tenant concerned. -/
  tenantId : Option String := none
  /-- The part of the library that writes the entry. -/
  component : Option String := none
  /-- The action concerned. -/
  action : Option String := none
  /-- Further facts. -/
  metadata : Option (Fields Json) := none

/-- The later context over the earlier one, field by field. -/
def Context.over (later earlier : Context) : Context where
  userId := later.userId.or earlier.userId
  tenantId := later.tenantId.or earlier.tenantId
  component := later.component.or earlier.component
  action := later.action.or earlier.action
  metadata := later.metadata.or earlier.metadata

/-- A failure that an entry reports. -/
structure Cause where
  /-- The class of the failure. -/
  name : String
  message : String
  /-- Where it arose, if known. -/
  stack : Option String := none

structure Entry where
  /-- How severe it is. -/
  level : Level
  /-- What happened. -/
  message : String
  /-- What it is about. -/
  context : Context := {}
  /-- The failure it reports, if any. -/
  cause : Option Cause := none

/-- A text field, absent when there is no text or an empty one. -/
def textField (key : Utf16) (value : Option String) : Fields Json :=
  match value with
  | some s => if s = "" then [] else [(key, .str s)]
  | none => []

def Cause.toJson (c : Cause) : Json :=
  .obj (([("name", .str c.name), ("message", .str c.message)] : Fields Json) ++
    (match c.stack with
    | some s => [("stack", .str s)]
    | none => []))

/-- The fields of an entry after time, level and message. -/
def Entry.details (e : Entry) : Fields Json :=
  textField "userId" e.context.userId ++ textField "tenantId" e.context.tenantId ++
    textField "module" e.context.component ++ textField "action" e.context.action ++
    (match e.context.metadata with
    | some metadata => [("metadata", .obj metadata)]
    | none => []) ++
    (match e.cause with
    | some cause => [("error", cause.toJson)]
    | none => [])

/-- Which entries become lines, and of which form. -/
structure Format where
  /-- The least level that is written. -/
  threshold : Level := .info
  /-- Whether lines are JSON objects. -/
  json : Bool := true

def Entry.text (e : Entry) (json : Bool) (now : Instant) : String :=
  if json then
    let heading : Fields Json :=
      [("timestamp", .str now.text), ("level", .str e.level.name), ("message", .str e.message)]
    Json.write (.obj (heading ++ e.details))
  else
    "[" ++ now.text ++ "] " ++ e.level.name ++ ": " ++ e.message ++
      (if e.details.isEmpty then "" else " " ++ Json.write (.obj e.details))

/-- The channel and the line of an entry that reaches the threshold. -/
def line? (format : Format) (now : Instant) (e : Entry) : Option (String × String) :=
  if format.threshold.rank ≤ e.level.rank then some (e.level.channel, e.text format.json now)
  else none

def lines (format : Format) (now : Instant) (entries : List Entry) : List (String × String) :=
  entries.filterMap (line? format now)

def outcome (allowed : Bool) : String := if allowed then "ALLOW" else "DENY"

/-- The entry of an authorization decision. The facts given override resource, outcome and reason
in their places; a reason that is absent holds its place. -/
def decision (action resource : String) (allowed : Bool) (userId tenantId : Option String)
    (reason : Option String) (facts : Fields Json) : Entry where
  level := .debug
  message := "Authorization " ++ action ++ " on " ++ resource ++ ": " ++ outcome allowed
  context :=
    { userId, tenantId, component := some "authorization", action := some action
      metadata :=
        let base : Fields (Option Json) :=
          [("resource", some (.str resource)), ("outcome", some (.str (outcome allowed))),
           ("reason", reason.map .str)]
        let all := Fields.merge base (facts.map fun (key, value) => (key, some value))
        some (all.filterMap fun (key, value) => value.map (key, ·)) }

end TenantIam.Log

namespace TenantIam

/-- A value with the entries that were logged on the way to it, in order. -/
structure Logged (α : Type) where
  value : α
  entries : List Log.Entry

def Logged.map {α β : Type} (f : α → β) (l : Logged α) : Logged β where
  value := f l.value
  entries := l.entries

end TenantIam
