import TenantIam.Number.Decimal
import TenantIam.Text.Units

/-!
# JSON values

Strings and keys are texts of 16-bit units. An object is a list of fields with distinct keys. Keys
that are array indices, that is canonical decimals below 2^32 - 1, come first and ascend; the other
keys follow in the order in which they were first written. Writing a key again replaces its value
and moves nothing.
-/

namespace TenantIam

/-- Named values in the order in which they are listed. -/
abbrev Fields (α : Type) := List (Utf16 × α)

inductive Json where
  | null
  | bool (b : Bool)
  | num (x : Number)
  | str (s : Utf16)
  | arr (items : List Json)
  | obj (fields : List (Utf16 × Json))

namespace Fields

variable {α : Type}

/-- The number that a key denotes when it is an array index: a decimal without leading zeros, below
2^32 - 1. -/
def index? (key : Utf16) : Option Nat :=
  let digits := key.units.map fun unit => Char.ofNat unit.toNat
  if digits.isEmpty || !digits.all Char.isDigit then none
  else
    let n := Nat.ofDigitChars 10 digits 0
    if Nat.toDigits 10 n = digits ∧ n < 4294967295 then some n else none

/-- Whether a new key goes before a present one: only an array index does, before greater indices
and before every other key. -/
def goesBefore (key present : Utf16) : Bool :=
  match index? key, index? present with
  | none, _ => false
  | some _, none => true
  | some m, some n => m < n

/-- Writes a field: in place when the key is present, otherwise where its order puts it. -/
def set (key : Utf16) (value : α) : Fields α → Fields α
  | [] => [(key, value)]
  | (k, v) :: rest =>
    if k = key then (key, value) :: rest
    else if goesBefore key k then (key, value) :: (k, v) :: rest
    else (k, v) :: set key value rest

def get? (fields : Fields α) (key : Utf16) : Option α :=
  fields.lookup key

@[simp] theorem get?_nil (key : Utf16) : get? ([] : Fields α) key = none := rfl

theorem get?_cons (name : Utf16) (value : α) (fields : Fields α) (key : Utf16) :
    get? ((name, value) :: fields) key = if key = name then some value else get? fields key := by
  unfold get?
  rw [List.lookup_cons]
  by_cases h : key = name
  · simp [h]
  · simp [h, beq_false_of_ne h]

/-- The object to which fields are written one after another. -/
def ofList (fields : List (Utf16 × α)) : Fields α :=
  fields.foldl (fun o (key, value) => set key value o) []

def merge (fields later : Fields α) : Fields α :=
  later.foldl (fun o (key, value) => set key value o) fields

end Fields

namespace Json

def nat (n : Nat) : Json := .num (.ofNat n)

def strs (l : List Utf16) : Json := .arr (l.map .str)

/-- The value of a field, if the value is an object that has it. -/
def field? (key : Utf16) : Json → Option Json
  | .obj fields => Fields.get? fields key
  | _ => none

end Json

end TenantIam
