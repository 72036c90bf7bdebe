import Mathlib.Data.List.Infix
import TenantIam.Proofs.Text.Pieces

/-!
# Beginnings that end in a separator

A text that goes on after a separator says what stands before it: two such texts agree up to the
separator when they start alike. So a comparison of beginnings, letter by letter, is one of whole
pieces.
-/

namespace TenantIam.Text

section Lists

variable {α : Type} {sep : α} {s t x y : List α}

/-- Of two texts the first separators are in one place when one text starts with the other. -/
theorem append_sep_prefix_iff [DecidableEq α] (hs : sep ∉ s) (ht : sep ∉ t) :
    s ++ sep :: x <+: t ++ sep :: y ↔ s = t ∧ x <+: y := by
  constructor
  · rintro ⟨rest, hrest⟩
    -- both are cut at the first separator
    have hcut : cutFirst sep (t ++ sep :: y) = some (t, y) := cutFirst_eq_some_iff.2 ⟨rfl, ht⟩
    have hcut' : cutFirst sep (t ++ sep :: y) = some (s, x ++ rest) :=
      cutFirst_eq_some_iff.2 ⟨by rw [← hrest, List.append_assoc, List.cons_append], hs⟩
    rw [hcut, Option.some.injEq, Prod.mk.injEq] at hcut'
    exact ⟨hcut'.1.symm, rest, hcut'.2.symm⟩
  · rintro ⟨rfl, rest, rfl⟩
    exact ⟨rest, by rw [List.append_assoc, List.cons_append]⟩

/-- A beginning without the separator is one of what stands before the separator. -/
theorem prefix_append_sep_iff (hx : sep ∉ x) : x <+: t ++ sep :: y ↔ x <+: t := by
  constructor
  · intro h
    have hfront : t ++ [sep] <+: t ++ sep :: y := ⟨y, by simp⟩
    rcases List.prefix_or_prefix_of_prefix h hfront with hshort | hlong
    · rcases List.prefix_concat_iff.1 hshort with rfl | hshort
      · exact absurd (by simp) hx
      · exact hshort
    · exact absurd (hlong.subset (by simp)) hx
  · intro h
    exact h.trans (List.prefix_append _ _)

end Lists

/-- A text starts with another and a separator when its pieces go on after those of the other. -/
theorem concat_sep_prefix_iff {sep : Char} {s t : String} :
    s.toList ++ [sep] <+: t.toList ↔ ∃ rest, rest ≠ [] ∧ pieces sep t = pieces sep s ++ rest := by
  constructor
  · rintro ⟨rest, hrest⟩
    have ht : t = s ++ String.singleton sep ++ String.ofList rest := by
      apply String.toList_inj.1
      simp [← hrest]
    refine ⟨pieces sep (String.ofList rest), pieces_ne_nil _ _, ?_⟩
    rw [ht, pieces_append_sep]
  · rintro ⟨rest, hne, hpieces⟩
    have ht : t = s ++ String.singleton sep ++ joinWith sep rest := by
      rw [← joinWith_pieces sep t, hpieces, joinWith_append_sep (pieces_ne_nil _ _) hne,
        joinWith_pieces]
    exact ⟨(joinWith sep rest).toList, by simp [ht]⟩

end TenantIam.Text
