import Mathlib.Data.List.Forall2
import TenantIam.Pattern.Glob
import TenantIam.Proofs.Pattern.Runs

/-!
# What globs take

A glob accepts a value that can be cut into parts, one for each unit of its pattern, so that every
unit takes its part. For patterns without a question mark the same can be said of the matching that
takes pieces at their leftmost places, only that there the stars may take the ends of lines. So the
two agree on every value that is one line, and the glob accepts nothing that the other does not.
-/

namespace TenantIam

section Cutting

variable {α β : Type}

/-- **Cutting.** The value can be cut into parts, one for each unit of the pattern, so that every
unit takes its part. -/
def IsCut (takes : α → List β → Prop) (pattern : List α) (value : List β) : Prop :=
  ∃ parts, List.Forall₂ takes pattern parts ∧ value = parts.flatten

variable {takes takes' : α → List β → Prop} {u : α} {pattern : List α} {value : List β}

theorem isCut_nil_iff : IsCut takes [] value ↔ value = [] := by
  simp only [IsCut, List.forall₂_nil_left_iff, exists_eq_left, List.flatten_nil]

theorem isCut_cons_iff :
    IsCut takes (u :: pattern) value ↔
      ∃ part rest, value = part ++ rest ∧ takes u part ∧ IsCut takes pattern rest := by
  constructor
  · rintro ⟨_, hall, rfl⟩
    obtain ⟨part, parts, hpart, hparts, rfl⟩ := List.forall₂_cons_left_iff.1 hall
    exact ⟨part, parts.flatten, rfl, hpart, parts, hparts, rfl⟩
  · rintro ⟨part, _, rfl, hpart, parts, hparts, rfl⟩
    exact ⟨part :: parts, .cons hpart hparts, rfl⟩

theorem IsCut.imp (h : IsCut takes pattern value)
    (himp : ∀ u ∈ pattern, ∀ part ⊆ value, takes u part → takes' u part) :
    IsCut takes' pattern value := by
  induction pattern generalizing value with
  | nil => exact isCut_nil_iff.2 (isCut_nil_iff.1 h)
  | cons u pattern ih =>
      obtain ⟨part, rest, rfl, hpart, hrest⟩ := isCut_cons_iff.1 h
      refine isCut_cons_iff.2 ⟨part, rest, rfl, ?_, ih hrest fun v hv part' hpart' => ?_⟩
      · exact himp u List.mem_cons_self part (List.subset_append_left _ _) hpart
      · exact himp v (List.mem_cons_of_mem _ hv) part' (List.subset_append_of_subset_right _ hpart')

end Cutting

namespace Glob

/-- **What a unit takes.** A star takes a run of units within a line, a question mark takes one unit
that does not end a line, and every other unit takes itself. -/
inductive Takes : UInt16 → List UInt16 → Prop
  | run {part : List UInt16} (hpart : ∀ u ∈ part, endsLine u = false) : Takes star part
  | one {u : UInt16} (hu : endsLine u = false) : Takes question [u]
  | itself {u : UInt16} (hstar : u ≠ star) (hquestion : u ≠ question) : Takes u [u]

variable {u : UInt16} {part value pattern : List UInt16} {tokens : List Token}

theorem takes_star_iff : Takes star part ↔ ∀ u ∈ part, endsLine u = false := by
  constructor
  · intro h
    cases h with
    | run hpart => exact hpart
    | itself hstar _ => exact absurd rfl hstar
  · exact .run

theorem takes_question_iff : Takes question part ↔ ∃ u, part = [u] ∧ endsLine u = false := by
  constructor
  · intro h
    cases h with
    | one hu => exact ⟨_, rfl, hu⟩
    | itself _ hquestion => exact absurd rfl hquestion
  · rintro ⟨u, rfl, hu⟩
    exact .one hu

theorem takes_iff_eq (hstar : u ≠ star) (hquestion : u ≠ question) :
    Takes u part ↔ part = [u] := by
  constructor
  · intro h
    cases h with
    | run _ => exact absurd rfl hstar
    | one _ => exact absurd rfl hquestion
    | itself _ _ => rfl
  · rintro rfl
    exact .itself hstar hquestion

/-- **One unit.** The token of a unit and those after it take what begins with a part that the unit
takes and goes on with what the others take. -/
theorem take_ofUnit_cons_iff :
    take (.ofUnit u :: tokens) value = true ↔
      ∃ part rest, value = part ++ rest ∧ Takes u part ∧ take tokens rest = true := by
  by_cases hstar : u = star
  · subst hstar
    simp only [takes_star_iff]
    exact runThen_iff
  by_cases hquestion : u = question
  · subst hquestion
    simp only [takes_question_iff]
    show take (.one :: tokens) value = true ↔ _
    constructor
    · intro h
      cases value with
      | nil => cases h
      | cons v rest =>
          simp only [take, Bool.and_eq_true, Bool.not_eq_true'] at h
          exact ⟨[v], rest, rfl, ⟨v, rfl, h.1⟩, h.2⟩
    · rintro ⟨_, rest, rfl, ⟨v, rfl, hv⟩, hrest⟩
      simp only [take, List.singleton_append, hv, hrest, Bool.not_false, Bool.and_true]
  · have htoken : Token.ofUnit u = .exactly u := by
      rw [Token.ofUnit, if_neg hstar, if_neg hquestion]
    simp only [takes_iff_eq hstar hquestion, htoken]
    constructor
    · intro h
      cases value with
      | nil => cases h
      | cons v rest =>
          simp only [take, Bool.and_eq_true, decide_eq_true_eq] at h
          exact ⟨[v], rest, rfl, by rw [h.1], h.2⟩
    · rintro ⟨_, rest, rfl, rfl, hrest⟩
      simp only [take, List.singleton_append, hrest, decide_true, Bool.and_true]

/-- Tokens take what can be cut into the parts that their units take. -/
theorem take_map_ofUnit_iff :
    take (pattern.map .ofUnit) value = true ↔ IsCut Takes pattern value := by
  induction pattern generalizing value with
  | nil => exact List.isEmpty_iff.trans isCut_nil_iff.symm
  | cons u pattern ih => simp only [List.map_cons, take_ofUnit_cons_iff, isCut_cons_iff, ih]

theorem accepts_ofUnits_iff :
    (ofUnits pattern).accepts value = true ↔ IsCut Takes pattern value := by
  rw [accepts_eq_take, tokens_ofUnits, take_map_ofUnit_iff]

end Glob

namespace Wildcard

section Filling

variable {α : Type} {c star : α} {pattern text : List α} {pieces : List (List α)}

/-- Before an empty piece nothing has to be found, so any run stands at the start. -/
theorem isFilled_nil_cons_iff (hpieces : pieces ≠ []) :
    IsFilled ([] :: pieces) text ↔ ∃ run rest, text = run ++ rest ∧ IsFilled pieces rest := by
  constructor
  · rintro ⟨_, _, runs, hsame, hlength, rfl⟩
    cases hsame
    cases runs with
    | nil => exact absurd (List.eq_nil_of_length_eq_zero hlength.symm) hpieces
    | cons run runs =>
        cases pieces with
        | nil => exact absurd rfl hpieces
        | cons piece pieces =>
            refine ⟨run, piece ++ inTurns runs pieces, by simp [inTurns], ?_⟩
            exact ⟨piece, pieces, runs, rfl, Nat.succ.inj hlength, rfl⟩
  · rintro ⟨run, _, rfl, piece, pieces, runs, rfl, hlength, rfl⟩
    exact ⟨[], piece :: pieces, run :: runs, rfl, by simp [hlength], by simp [inTurns]⟩

/-- One more letter in the first piece is one more letter at the start. -/
theorem isFilled_modifyHead_iff (hpieces : pieces ≠ []) :
    IsFilled (pieces.modifyHead (c :: ·)) text ↔
      ∃ rest, text = c :: rest ∧ IsFilled pieces rest := by
  cases pieces with
  | nil => exact absurd rfl hpieces
  | cons piece pieces =>
      constructor
      · rintro ⟨_, _, runs, hsame, hlength, rfl⟩
        cases hsame
        exact ⟨piece ++ inTurns runs pieces, rfl, piece, pieces, runs, rfl, hlength, rfl⟩
      · rintro ⟨_, rfl, _, _, runs, hsame, hlength, rfl⟩
        cases hsame
        exact ⟨c :: piece, pieces, runs, rfl, hlength, rfl⟩

variable [DecidableEq α]

/-- **Filling is cutting.** The pieces between stars are filled up to a text exactly when the text
can be cut into parts, any part for each star and the letter itself for every other letter. -/
theorem isFilled_splitOn_iff :
    IsFilled (pattern.splitOn star) text ↔
      IsCut (fun c part => c = star ∨ part = [c]) pattern text := by
  induction pattern generalizing text with
  | nil =>
      rw [List.splitOn_nil, isFilled_singleton_iff, isCut_nil_iff]
      exact eq_comm
  | cons c pattern ih =>
      have hne : pattern.splitOn star ≠ [] := List.splitOn_ne_nil star pattern
      rw [List.splitOn_cons_eq_if_modifyHead, isCut_cons_iff]
      simp only [← ih]
      by_cases hc : c = star
      · rw [if_pos (by simpa using hc), isFilled_nil_cons_iff hne]
        simp only [hc, true_or, true_and]
      · rw [if_neg (by simpa using hc), isFilled_modifyHead_iff hne]
        simp [hc]

end Filling

end Wildcard

namespace Glob

variable {pattern value : List UInt16}

/-- What a glob without question marks accepts is matched by taking pieces at their leftmost
places. -/
theorem accepts_of_accepts_ofUnits (hpattern : question ∉ pattern)
    (h : (ofUnits pattern).accepts value = true) : Wildcard.accepts star pattern value = true := by
  rw [Wildcard.accepts_iff_isFilled, Wildcard.isFilled_splitOn_iff]
  refine (accepts_ofUnits_iff.1 h).imp fun u hu part _ htakes => ?_
  cases htakes with
  | run _ => exact .inl rfl
  | one _ => exact absurd hu hpattern
  | itself _ _ => exact .inr rfl

theorem accepts_ofUnits_eq (hpattern : question ∉ pattern)
    (hvalue : ∀ u ∈ value, endsLine u = false) :
    (ofUnits pattern).accepts value = Wildcard.accepts star pattern value := by
  refine Bool.eq_iff_iff.2 ⟨accepts_of_accepts_ofUnits hpattern, fun h => ?_⟩
  rw [Wildcard.accepts_iff_isFilled, Wildcard.isFilled_splitOn_iff] at h
  refine accepts_ofUnits_iff.2 (h.imp fun u hu part hpart htakes => ?_)
  by_cases hstar : u = star
  · rw [hstar]
    exact .run fun v hv => hvalue v (hpart hv)
  · rw [htakes.resolve_left hstar]
    exact .itself hstar fun hquestion => hpattern (hquestion ▸ hu)

/-- **What a compiled pattern accepts.** The expression of every pattern can be read, and a value is
accepted exactly when it can be cut into parts that the units of the pattern take. Without question
marks in the pattern, what is accepted is matched by taking pieces at their leftmost places as well,
and on a value without the end of a line the two are the same. So it is with texts and their
units. -/
theorem accepts_iff_cut :
    (∀ pattern : List UInt16, read? (expression pattern) = some (ofUnits pattern).tokens) ∧
    (∀ pattern value : List UInt16,
      (ofUnits pattern).accepts value = true ↔ IsCut Takes pattern value) ∧
    (∀ pattern value : List UInt16, question ∉ pattern →
      ((ofUnits pattern).accepts value = true → Wildcard.accepts star pattern value = true) ∧
      ((∀ u ∈ value, endsLine u = false) →
        (ofUnits pattern).accepts value = Wildcard.accepts star pattern value)) ∧
    ∀ pattern text : String,
      ((compile pattern).acceptsText text = true ↔
        IsCut Takes (Text.units pattern) (Text.units text)) ∧
      (question ∉ Text.units pattern →
        ((compile pattern).acceptsText text = true → Wildcard.covers pattern text = true) ∧
        ((∀ u ∈ Text.units text, endsLine u = false) →
          (compile pattern).acceptsText text = Wildcard.covers pattern text)) := by
  refine ⟨fun pattern => ?_, fun _ _ => accepts_ofUnits_iff, fun pattern value hpattern =>
    ⟨accepts_of_accepts_ofUnits hpattern, accepts_ofUnits_eq hpattern⟩, fun pattern text =>
    ⟨accepts_ofUnits_iff, fun hpattern => ?_⟩⟩
  · rw [read?_expression, tokens_ofUnits]
  · exact ⟨accepts_of_accepts_ofUnits hpattern, accepts_ofUnits_eq hpattern⟩

/-- A backslash, brackets and dots stand for themselves; a star and a question mark do not take the
end of a line, which the star takes when pieces are looked for. -/
theorem accepts_iff_cut_lines :
    Wildcard.covers "\\d.[*]" "\\d.[a.b]" = true ∧
      (compile "\\d.[*]").acceptsText "\\d.[a.b]" = true ∧
      (compile "\\d.[*]").acceptsText "7x[a]" = false ∧
      ¬IsCut Takes (Text.units "a?c*") (Text.units "a\nc") ∧
      IsCut Takes (Text.units "a?c*") (Text.units "abcde") ∧
      (compile "a*c").acceptsText "a\nc" = false ∧ Wildcard.covers "a*c" "a\nc" = true := by
  have hpunctuation := (accepts_iff_cut.2.2.2 "\\d.[*]" "\\d.[a.b]").2 (by decide)
  have hline : (Text.units "\\d.[a.b]").all (!endsLine ·) = true := by decide
  have hcovers : Wildcard.covers "\\d.[*]" "\\d.[a.b]" = true := by decide
  have hends := (accepts_iff_cut.2.2.2 "a?c*" "a\nc").1
  have hone := (accepts_iff_cut.2.2.2 "a?c*" "abcde").1
  have hequal := hpunctuation.2 fun u hu => by simpa using List.all_eq_true.1 hline u hu
  refine ⟨hcovers, hequal.trans hcovers, by decide, ?_, ?_, by decide, by decide⟩
  · rw [← hends]
    decide
  · rw [← hone]
    decide

end Glob

end TenantIam
