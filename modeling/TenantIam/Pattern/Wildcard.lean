import TenantIam.Text.Affix
import TenantIam.Text.Units

/-!
# Wildcards

A star in a pattern stands for any run of letters, the empty one included; every other letter
stands for itself. The pieces of the pattern between its stars have to be found in the text in
order: the first at the start, the last at the end, and each one in between at the leftmost place
after the one before it.
-/

namespace TenantIam

namespace Wildcard

variable {α : Type} [DecidableEq α]

/-- What follows the leftmost occurrence of `piece`. -/
def afterFirst? (piece : List α) : List α → Option (List α)
  | [] => if piece = [] then some [] else none
  | c :: s =>
    match Text.dropStart? piece (c :: s) with
    | some rest => some rest
    | none => afterFirst? piece s

/-- Whether the last of the pieces ends the text and the others stand before it in order. -/
def inOrder : List (List α) → List α → Bool
  | [], _ => false
  | [last], s => last.isSuffixOf s
  | piece :: pieces, s =>
    match afterFirst? piece s with
    | some rest => inOrder pieces rest
    | none => false

/-- Whether a text matches a pattern whose wildcard is `star`. -/
def accepts (star : α) (pattern text : List α) : Bool :=
  match pattern.splitOn star with
  | [] => false
  | [whole] => whole = text
  | head :: pieces =>
    match Text.dropStart? head text with
    | some rest => inOrder pieces rest
    | none => false

/-- The piece occurs in the text, and what is found follows it. -/
theorem afterFirst?_eq_some {piece s rest : List α} (h : afterFirst? piece s = some rest) :
    ∃ before, s = before ++ piece ++ rest := by
  induction s with
  | nil =>
    by_cases hp : piece = [] <;> simp_all [afterFirst?]
  | cons c s ih =>
    simp only [afterFirst?] at h
    split at h
    · next r hr =>
      cases h
      exact ⟨[], by simp [Text.dropStart?_eq_some_iff.1 hr]⟩
    · obtain ⟨before, hb⟩ := ih h
      exact ⟨c :: before, by simp [hb]⟩

def starUnit : UInt16 := 0x2A

/-- Whether a text matches a pattern in which stars are wildcards, unit by unit. -/
def covers (pattern text : Utf16) : Bool :=
  accepts starUnit pattern.units text.units

def firstCovering? (patterns : List Utf16) (text : Utf16) : Option Utf16 :=
  patterns.find? (covers · text)

def anyCovers (patterns : List Utf16) (text : Utf16) : Bool :=
  (firstCovering? patterns text).isSome

end Wildcard

end TenantIam
