import TenantIam.Pattern.Wildcard
import TenantIam.Proofs.Text.Units

/-!
# Patterns with one star or none

A pattern without a star matches itself alone, and a pattern that ends in its only star matches
whatever starts with the rest of it.
-/

namespace TenantIam.Wildcard

section Lists

variable {α : Type} [DecidableEq α] {star : α} {pattern head text : List α}

theorem accepts_iff_eq (hstar : star ∉ pattern) :
    accepts star pattern text = true ↔ pattern = text := by
  unfold accepts
  rw [List.splitOn_eq_singleton hstar]
  exact decide_eq_true_iff

theorem accepts_append_star_iff (hstar : star ∉ head) :
    accepts star (head ++ [star]) text = true ↔ head <+: text := by
  have hpieces : (head ++ [star]).splitOn star = [head, []] := by
    rw [List.splitOn_append_cons_self, List.splitOn_eq_singleton hstar, List.splitOn_nil]
    rfl
  unfold accepts
  rw [hpieces]
  dsimp only
  constructor
  · intro haccepts
    split at haccepts
    · next rest hrest => exact ⟨rest, (Text.dropStart?_eq_some_iff.1 hrest).symm⟩
    · cases haccepts
  · rintro ⟨rest, hrest⟩
    -- nothing has to follow the head
    rw [Text.dropStart?_eq_some_iff.2 hrest.symm]
    exact List.isSuffixOf_iff_suffix.2 List.nil_suffix

end Lists

theorem covers_iff_eq {pattern text : String} (hstar : '*' ∉ pattern.toList) :
    covers pattern text = true ↔ pattern = text := by
  have hunit : starUnit ∉ Text.units pattern :=
    mt (Text.unit_mem_flatMap_charUnits_iff (c := '*') (by decide)).1 hstar
  unfold covers
  rw [Utf16.units_ofString, Utf16.units_ofString, accepts_iff_eq hunit, Text.units_inj]

/-- A pattern that ends in its only star covers what starts with the rest of it. -/
theorem covers_append_star_iff {head text : String} (hstar : '*' ∉ head.toList) :
    covers (head ++ "*" : String) text = true ↔ head.toList <+: text.toList := by
  have hunit : starUnit ∉ Text.units head :=
    mt (Text.unit_mem_flatMap_charUnits_iff (c := '*') (by decide)).1 hstar
  have hend : Text.units "*" = [starUnit] := by decide
  unfold covers
  rw [Utf16.units_ofString, Text.units_append, Utf16.units_ofString, hend,
    accepts_append_star_iff hunit]
  exact Text.flatMap_charUnits_prefix_iff

end TenantIam.Wildcard
