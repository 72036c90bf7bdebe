/-!
# Beginnings and endings

A beginning or an ending is taken off a list that has it.
-/

namespace TenantIam.Text

variable {α : Type} [DecidableEq α]

/-- What follows `start`, if the list starts with it. -/
def dropStart? : (start s : List α) → Option (List α)
  | [], s => some s
  | _ :: _, [] => none
  | p :: start, c :: s => if p = c then dropStart? start s else none

def dropEnd? (ending s : List α) : Option (List α) :=
  (dropStart? ending.reverse s.reverse).map List.reverse

theorem dropStart?_eq_some_iff {start s rest : List α} :
    dropStart? start s = some rest ↔ s = start ++ rest := by
  induction start generalizing s with
  | nil => simp [dropStart?]
  | cons p start ih =>
    cases s with
    | nil => simp [dropStart?]
    | cons c s =>
      by_cases h : p = c
      · simp [dropStart?, h, ih]
      · simp [dropStart?, h, Ne.symm h]

theorem dropEnd?_eq_some_iff {ending s rest : List α} :
    dropEnd? ending s = some rest ↔ s = rest ++ ending := by
  simp only [dropEnd?, Option.map_eq_some_iff, dropStart?_eq_some_iff]
  constructor
  · rintro ⟨t, h, rfl⟩
    have := congrArg List.reverse h
    simpa using this
  · rintro rfl
    exact ⟨rest.reverse, by simp⟩

/-- The text before an ending, or the whole text if it ends otherwise. -/
def withoutEnding (ending s : String) : String :=
  match dropEnd? ending.toList s.toList with
  | some rest => String.ofList rest
  | none => s

/-- An ending that was added is taken away again. -/
theorem withoutEnding_append (ending s : String) : withoutEnding ending (s ++ ending) = s := by
  have h : dropEnd? ending.toList (s ++ ending).toList = some s.toList :=
    dropEnd?_eq_some_iff.2 String.toList_append
  rw [withoutEnding, h]
  exact String.ofList_toList

theorem withoutEnding_of_not_suffix {ending s : String} (h : ¬ ending.toList <:+ s.toList) :
    withoutEnding ending s = s := by
  cases hdrop : dropEnd? ending.toList s.toList with
  | none => simp [withoutEnding, hdrop]
  | some rest => exact absurd ⟨rest, (dropEnd?_eq_some_iff.1 hdrop).symm⟩ h

end TenantIam.Text
