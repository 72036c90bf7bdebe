import TenantIam.Policy.Decision

/-!
# Which statements decide

A statement matches a request when one of its action patterns covers the action and one of its
resource patterns covers the resource. What a document says about a request depends only on the
effects of the statements that match.
-/

namespace TenantIam

/-- One of the patterns is found exactly when one of them covers the text. -/
theorem Wildcard.firstCovering?_isSome_iff {patterns : List Utf16} {text : Utf16} :
    (firstCovering? patterns text).isSome = true ↔ ∃ p ∈ patterns, covers p text = true := by
  unfold firstCovering?
  rw [List.find?_isSome]

namespace Policy

variable {action resource : Utf16}

/-- The statement is about a request: it has a pattern for the action and one for the resource. -/
def Statement.Matches (s : Statement) (action resource : Utf16) : Prop :=
  (∃ p ∈ s.actions, Wildcard.covers p action = true) ∧
    ∃ p ∈ s.resources, Wildcard.covers p resource = true

theorem Statement.applies_iff {s : Statement} :
    s.applies action resource = true ↔ s.Matches action resource := by
  unfold Statement.applies Statement.match? Statement.Matches
  rw [← Wildcard.firstCovering?_isSome_iff, ← Wildcard.firstCovering?_isSome_iff]
  cases Wildcard.firstCovering? s.actions action with
  | none => simp
  | some p =>
      cases Wildcard.firstCovering? s.resources resource <;> simp

namespace Document

variable {d : Document}

/-- The effects that a decision looks at are those of the statements that match. -/
theorem mem_effects_iff {effect : Effect} :
    effect ∈ (d.statements.filter (·.applies action resource)).map (·.effect) ↔
      ∃ s ∈ d.statements, s.Matches action resource ∧ s.effect = effect := by
  simp only [List.mem_map, List.mem_filter, Statement.applies_iff, and_assoc]

theorem decide_eq_deny_iff :
    d.decide action resource = some .deny ↔
      ∃ s ∈ d.statements, s.Matches action resource ∧ s.effect = .deny := by
  unfold Document.decide
  rw [← mem_effects_iff]
  dsimp only
  split
  · next hdeny => simp [hdeny]
  · next hdeny =>
    -- the allow branch cannot answer `deny`
    split <;> simp [hdeny]

/-- A document that denies nothing about a request allows it as soon as one statement does. -/
theorem decide_eq_allow_iff :
    d.decide action resource = some .allow ↔
      (∃ s ∈ d.statements, s.Matches action resource ∧ s.effect = .allow) ∧
        ∀ s ∈ d.statements, s.Matches action resource → s.effect ≠ .deny := by
  have hnone : (∀ s ∈ d.statements, s.Matches action resource → s.effect ≠ .deny) ↔
      ¬ ∃ s ∈ d.statements, s.Matches action resource ∧ s.effect = .deny := by
    simp only [not_exists, not_and, ne_eq]
  rw [hnone, ← mem_effects_iff, ← mem_effects_iff]
  unfold Document.decide
  dsimp only
  split
  · next hdeny => simp [hdeny]
  · next hdeny =>
    split
    · next hallow => simp [hdeny, hallow]
    · next hallow => simp [hallow]

theorem decide_eq_none_iff :
    d.decide action resource = none ↔ ∀ s ∈ d.statements, ¬ s.Matches action resource := by
  constructor
  · intro hnone s hs hmatches
    unfold Document.decide at hnone
    dsimp only at hnone
    split at hnone
    · cases hnone
    · next hdeny =>
      split at hnone
      · cases hnone
      · next hallow =>
        cases heffect : s.effect with
        | allow => exact hallow (mem_effects_iff.2 ⟨s, hs, hmatches, heffect⟩)
        | deny => exact hdeny (mem_effects_iff.2 ⟨s, hs, hmatches, heffect⟩)
  · intro hnone
    cases hdecide : d.decide action resource with
    | none => rfl
    | some effect =>
        exfalso
        cases effect with
        | allow =>
            obtain ⟨⟨s, hs, hmatches, -⟩, -⟩ := decide_eq_allow_iff.1 hdecide
            exact hnone s hs hmatches
        | deny =>
            obtain ⟨s, hs, hmatches, -⟩ := decide_eq_deny_iff.1 hdecide
            exact hnone s hs hmatches

end Document

end Policy

end TenantIam
