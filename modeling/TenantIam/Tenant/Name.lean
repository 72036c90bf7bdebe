import TenantIam.Tenant.Id
import TenantIam.Text.Letter
import TenantIam.Text.Numeric

/-!
# Tenant names

The name of a new tenant is made of letters, numerals, hyphens and underscores, at most 64 of them.
-/

namespace TenantIam

namespace TenantName

inductive Flaw where
  /-- The name is empty. -/
  | empty
  /-- The name has too many characters. -/
  | tooLong
  /-- The name has a character that is not admitted. -/
  | badCharacter
  deriving DecidableEq

/-- The most characters that a name has. -/
def maxLength : Nat := 64

instance : Reported Flaw where
  toFault
    | .empty => .invalidParameter "Tenant name cannot be empty" none
    | .tooLong =>
      .invalidParameter ("Tenant name cannot exceed " ++ maxLength.repr ++ " characters") none
    | .badCharacter =>
      .invalidParameter
        "Tenant name can only contain alphanumeric characters, hyphens, and underscores" none

def admits (c : Char) : Bool :=
  Text.isLetter c || Text.isNumeric c || c = '_' || c = '-'

def flaw? (s : String) : Option Flaw :=
  if s = "" then some .empty
  else if maxLength < s.toList.length then some .tooLong
  else if s.toList.all admits then none
  else some .badCharacter

theorem flaw?_eq_none_iff {s : String} :
    flaw? s = none ↔ s ≠ "" ∧ s.toList.length ≤ maxLength ∧ ∀ c ∈ s.toList, admits c = true := by
  unfold flaw?
  split
  · simp [*]
  · split
    · next h => simp [*, Nat.not_le.2 h]
    · next h => simp [*, Nat.not_lt.1 h]

end TenantName

structure TenantName where
  /-- The name. -/
  text : String
  valid : TenantName.flaw? text = none
  deriving DecidableEq

namespace TenantName

def of (s : String) : Except Flaw TenantName :=
  match h : flaw? s with
  | none => .ok ⟨s, h⟩
  | some flaw => .error flaw

theorem not_admits_slash : admits '/' = false := by decide +kernel

/-- A name as a segment of an identifier. -/
def segment (name : TenantName) : TenantId.Segment where
  text := name.text
  nonempty := (flaw?_eq_none_iff.1 name.valid).1
  slash_free h := by
    have := (flaw?_eq_none_iff.1 name.valid).2.2 '/' h
    simp [not_admits_slash] at this

end TenantName

end TenantIam
