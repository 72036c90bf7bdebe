import TenantIam.Pattern.Wildcard
import TenantIam.Proofs.Text.Pieces
import TenantIam.Proofs.Text.Units

/-!
# What stars stand for

A pattern matches a text when there are runs of letters, one for each star, that make the text out
of the pattern. Matching does not look for the runs: it takes the leftmost place for every piece
between two stars. That is enough, because what is left after the leftmost place is longest, and a
longer rest gives the next run more letters to take.
-/

namespace TenantIam.Wildcard

variable {α : Type}

/-- Runs and pieces by turns, a run first. -/
def inTurns : (runs pieces : List (List α)) → List α
  | run :: runs, piece :: pieces => run ++ piece ++ inTurns runs pieces
  | _, _ => []

/-- **Filling.** The text starts with the first of the pieces, and the others follow, each after a
run of letters of its own. -/
def IsFilled (pieces : List (List α)) (text : List α) : Prop :=
  ∃ head rest runs, pieces = head :: rest ∧ runs.length = rest.length ∧
    text = head ++ inTurns runs rest

theorem isFilled_singleton_iff {piece text : List α} : IsFilled [piece] text ↔ piece = text := by
  constructor
  · rintro ⟨head, rest, runs, hpieces, hlength, rfl⟩
    cases hpieces
    obtain rfl := List.eq_nil_of_length_eq_zero hlength
    exact (List.append_nil piece).symm
  · rintro rfl
    exact ⟨piece, [], [], rfl, rfl, (List.append_nil piece).symm⟩

/-- A run that is followed by a piece can take letters that come before it. -/
theorem exists_inTurns_append {runs pieces : List (List α)} (hlength : runs.length = pieces.length)
    (hpieces : pieces ≠ []) (before : List α) :
    ∃ longer : List (List α), longer.length = pieces.length ∧
      before ++ inTurns runs pieces = inTurns longer pieces := by
  cases runs with
  | nil => exact absurd (List.eq_nil_of_length_eq_zero hlength.symm) hpieces
  | cons run runs =>
      cases pieces with
      | nil => exact absurd rfl hpieces
      | cons piece pieces =>
          exact ⟨(before ++ run) :: runs, hlength, by simp [inTurns]⟩

variable [DecidableEq α]

/-- **The leftmost place.** Where a piece occurs, its leftmost place is found, and what is left
after it goes on at least as far as what follows the occurrence. -/
theorem exists_afterFirst?_eq (before piece after : List α) :
    ∃ skipped, afterFirst? piece (before ++ piece ++ after) = some (skipped ++ after) := by
  induction before with
  | nil =>
      rw [List.nil_append]
      cases hs : piece ++ after with
      | nil =>
          obtain ⟨rfl, rfl⟩ := List.append_eq_nil_iff.1 hs
          exact ⟨[], rfl⟩
      | cons c s =>
          have hdrop : Text.dropStart? piece (c :: s) = some after :=
            Text.dropStart?_eq_some_iff.2 hs.symm
          exact ⟨[], by rw [afterFirst?, hdrop]; rfl⟩
  | cons c before ih =>
      rw [List.cons_append, List.cons_append, afterFirst?]
      cases hdrop : Text.dropStart? piece (c :: (before ++ piece ++ after)) with
      | none => exact ih
      | some rest =>
          -- the piece is there already, so the rest is longer than what follows the occurrence
          have hwhole : c :: (before ++ piece ++ after) = piece ++ rest :=
            Text.dropStart?_eq_some_iff.1 hdrop
          have hrest : rest <:+ c :: (before ++ piece ++ after) := ⟨piece, hwhole.symm⟩
          have hafter : after <:+ c :: (before ++ piece ++ after) := ⟨c :: (before ++ piece), rfl⟩
          have hlength : after.length ≤ rest.length := by
            have := congrArg List.length hwhole
            simp only [List.length_cons, List.length_append] at this
            omega
          obtain ⟨skipped, hskipped⟩ := List.suffix_of_suffix_length_le hafter hrest hlength
          exact ⟨skipped, by rw [hskipped]⟩

/-- Every piece but the last is looked for, and the others are looked for after it. -/
theorem inOrder_cons_cons (piece next : List α) (pieces : List (List α)) (s : List α) :
    inOrder (piece :: next :: pieces) s = (afterFirst? piece s).any (inOrder (next :: pieces)) := by
  cases hfound : afterFirst? piece s <;> simp [inOrder, hfound]

/-- **The scan loses no match.** The pieces are found one after another exactly when there are runs
to stand before them. -/
theorem inOrder_iff {pieces : List (List α)} (hpieces : pieces ≠ []) {s : List α} :
    inOrder pieces s = true ↔
      ∃ runs : List (List α), runs.length = pieces.length ∧ s = inTurns runs pieces := by
  induction pieces generalizing s with
  | nil => exact absurd rfl hpieces
  | cons piece pieces ih =>
      cases pieces with
      | nil =>
          rw [inOrder, List.isSuffixOf_iff_suffix]
          constructor
          · rintro ⟨run, rfl⟩
            exact ⟨[run], rfl, by simp [inTurns]⟩
          · rintro ⟨runs, hlength, rfl⟩
            obtain ⟨run, rfl⟩ := List.length_eq_one_iff.1 hlength
            exact ⟨run, by simp [inTurns]⟩
      | cons next pieces =>
          have hnext : next :: pieces ≠ [] := List.cons_ne_nil next pieces
          rw [inOrder_cons_cons, Option.any_eq_true]
          constructor
          · rintro ⟨rest, hrest, hfound⟩
            obtain ⟨before, rfl⟩ := afterFirst?_eq_some hrest
            obtain ⟨runs, hlength, rfl⟩ := (ih hnext).1 hfound
            exact ⟨before :: runs, by simp [hlength], rfl⟩
          · rintro ⟨runs, hlength, rfl⟩
            cases runs with
            | nil => cases hlength
            | cons run runs =>
                -- the piece is found no later than after its run; what is in between goes
                -- to the next run
                have hothers : runs.length = (next :: pieces).length := Nat.succ.inj hlength
                obtain ⟨skipped, hskipped⟩ :=
                  exists_afterFirst?_eq run piece (inTurns runs (next :: pieces))
                obtain ⟨longer, hlonger, hrest⟩ := exists_inTurns_append hothers hnext skipped
                rw [inTurns]
                exact ⟨_, hskipped, (ih hnext).2 ⟨longer, hlonger, hrest⟩⟩

/-- **Stars stand for runs.** A text is matched exactly when the pieces of the pattern between its
stars make it up with runs of letters between them. -/
theorem accepts_iff_isFilled (star : α) (pattern text : List α) :
    accepts star pattern text = true ↔ IsFilled (pattern.splitOn star) text := by
  unfold accepts
  cases hpieces : pattern.splitOn star with
  | nil => exact absurd hpieces (List.splitOn_ne_nil star pattern)
  | cons head pieces =>
      cases pieces with
      | nil =>
          rw [isFilled_singleton_iff]
          exact decide_eq_true_iff
      | cons piece pieces =>
          have hne : piece :: pieces ≠ [] := List.cons_ne_nil piece pieces
          dsimp only
          constructor
          · intro haccepts
            split at haccepts
            · next rest hrest =>
              obtain ⟨runs, hlength, hturns⟩ := (inOrder_iff hne).1 haccepts
              rw [Text.dropStart?_eq_some_iff] at hrest
              exact ⟨head, piece :: pieces, runs, rfl, hlength, by rw [hrest, hturns]⟩
            · cases haccepts
          · rintro ⟨_, _, runs, hsame, hlength, rfl⟩
            cases hsame
            rw [Text.dropStart?_eq_some_iff.2 rfl]
            exact (inOrder_iff hne).2 ⟨runs, hlength, rfl⟩

/-! ## Letters and units -/

def unitsOf (s : List Char) : List UInt16 := s.flatMap Text.charUnits

theorem starUnit_mem_unitsOf_iff {s : List Char} : starUnit ∈ unitsOf s ↔ '*' ∈ s :=
  Text.unit_mem_flatMap_charUnits_iff (c := '*') (by decide)

theorem unitsOf_intercalate (pieces : List (List Char)) :
    unitsOf (['*'].intercalate pieces) = [starUnit].intercalate (pieces.map unitsOf) := by
  induction pieces with
  | nil => rfl
  | cons piece pieces ih =>
      cases pieces with
      | nil => simp
      | cons next pieces =>
          have hstar : unitsOf ['*'] = [starUnit] := by decide
          rw [List.intercalate_cons_cons, List.map_cons, List.map_cons, List.intercalate_cons_cons,
            ← List.map_cons, ← ih, ← hstar]
          simp [unitsOf]

theorem splitOn_unitsOf (pattern : List Char) :
    (unitsOf pattern).splitOn starUnit = (pattern.splitOn '*').map unitsOf := by
  have hfree : ∀ units ∈ (pattern.splitOn '*').map unitsOf, starUnit ∉ units := by
    intro units hunits
    obtain ⟨piece, hpiece, rfl⟩ := List.mem_map.1 hunits
    rw [starUnit_mem_unitsOf_iff]
    exact Text.not_mem_of_mem_splitOn piece hpiece
  have hne : (pattern.splitOn '*').map unitsOf ≠ [] := by simp [List.splitOn_ne_nil]
  rw [← List.splitOn_intercalate starUnit hfree hne, ← unitsOf_intercalate,
    List.intercalate_splitOn]

theorem unitsOf_inTurns {runs pieces : List (List Char)} :
    unitsOf (inTurns runs pieces) = inTurns (runs.map unitsOf) (pieces.map unitsOf) := by
  induction runs generalizing pieces with
  | nil => rfl
  | cons run runs ih =>
      cases pieces with
      | nil => rfl
      | cons piece pieces =>
          rw [inTurns, List.map_cons, List.map_cons, inTurns, ← ih]
          simp [unitsOf]

/-- Runs of units between pieces can be replaced by runs of letters. Only a piece without letters
can stand between the two units of a letter, and such a piece can stand elsewhere. -/
theorem exists_inTurns_unitsOf {pieces : List (List Char)} {runs : List (List UInt16)}
    (hlength : runs.length = pieces.length) {s : List Char}
    (hs : unitsOf s = inTurns runs (pieces.map unitsOf)) :
    ∃ runs : List (List Char), runs.length = pieces.length ∧ s = inTurns runs pieces := by
  induction pieces generalizing runs s with
  | nil =>
      obtain rfl := List.eq_nil_of_length_eq_zero hlength
      refine ⟨[], rfl, ?_⟩
      cases s with
      | nil => rfl
      | cons c s =>
          have hnil : Text.charUnits c = [] := by
            rw [unitsOf, List.flatMap_cons] at hs
            exact (List.append_eq_nil_iff.1 hs).1
          exact absurd hnil (Text.charUnits_ne_nil c)
  | cons piece pieces ih =>
      cases runs with
      | nil => cases hlength
      | cons run runs =>
          have hothers : runs.length = pieces.length := Nat.succ.inj hlength
          rw [List.map_cons, inTurns, List.append_assoc] at hs
          by_cases hpiece : piece = []
          · subst hpiece
            by_cases hlast : pieces = []
            · subst hlast
              exact ⟨[s], rfl, by simp [inTurns]⟩
            · -- the run before the empty piece is taken by the run after it
              obtain ⟨longer, hlonger, hrest⟩ := exists_inTurns_append
                (hothers.trans (List.length_map unitsOf).symm) (by simpa using hlast) run
              rw [List.length_map] at hlonger
              obtain ⟨letters, hletters, rfl⟩ := ih hlonger (hs.trans hrest)
              exact ⟨[] :: letters, by simp [hletters], rfl⟩
          · obtain ⟨before, after, rfl, hafter⟩ :=
              Text.exists_of_append_flatMap_append hpiece hs.symm
            obtain ⟨letters, hletters, rfl⟩ := ih hothers hafter.symm
            exact ⟨before :: letters, by simp [hletters], by rw [inTurns, List.append_assoc]⟩

/-- It makes no difference whether texts are filled by letters or by units. -/
theorem isFilled_unitsOf_iff {pieces : List (List Char)} {text : List Char} :
    IsFilled (pieces.map unitsOf) (unitsOf text) ↔ IsFilled pieces text := by
  constructor
  · rintro ⟨head, rest, runs, hpieces, hlength, htext⟩
    obtain ⟨head, rest, rfl, rfl, rfl⟩ := List.map_eq_cons_iff.1 hpieces
    obtain ⟨letters, rfl, hletters⟩ := Text.exists_of_flatMap_append htext.symm
    rw [List.length_map] at hlength
    obtain ⟨runs, hruns, rfl⟩ := exists_inTurns_unitsOf hlength hletters.symm
    exact ⟨head, rest, runs, rfl, hruns, rfl⟩
  · rintro ⟨head, rest, runs, rfl, hlength, rfl⟩
    refine ⟨unitsOf head, rest.map unitsOf, runs.map unitsOf, rfl, by simp [hlength], ?_⟩
    rw [← unitsOf_inTurns]
    simp [unitsOf]

/-- Characters are matched as their units are. -/
theorem covers_eq_accepts (pattern text : String) :
    covers pattern text = accepts '*' pattern.toList text.toList := by
  rw [Bool.eq_iff_iff, accepts_iff_isFilled, ← isFilled_unitsOf_iff, ← splitOn_unitsOf]
  exact accepts_iff_isFilled _ _ _

/-- **Matching is filling.** Over any alphabet, a text is matched exactly when each star of the
pattern stands for a run of letters: the pieces between the stars follow each other in the text with
a run between neighbours, the first piece at its start and the last at its end, and a pattern
without a star is the text. Texts are matched by their 16-bit units, and where no surrogate stands
alone this is the same in characters. -/
theorem covers_iff_isFilled :
    (∀ {α : Type} [DecidableEq α] (star : α) (pattern text : List α),
      accepts star pattern text = true ↔
        ∃ head rest runs, pattern.splitOn star = head :: rest ∧ runs.length = rest.length ∧
          text = head ++ inTurns runs rest) ∧
    (∀ pattern text : Utf16, covers pattern text = true ↔
      IsFilled (pattern.units.splitOn starUnit) text.units) ∧
    (∀ pattern text : String, covers pattern text = true ↔
      IsFilled (pattern.toList.splitOn '*') text.toList) ∧
    ∀ pattern text : String,
      covers pattern text = accepts starUnit (Text.units pattern) (Text.units text) ∧
        covers pattern text = accepts '*' pattern.toList text.toList := by
  refine ⟨accepts_iff_isFilled, fun pattern text => accepts_iff_isFilled _ _ _,
    fun pattern text => ?_, fun pattern text => ⟨rfl, covers_eq_accepts pattern text⟩⟩
  rw [covers_eq_accepts]
  exact accepts_iff_isFilled _ _ _

/-- Overlapping ends, an interior piece that needs its second place, and an empty piece that could
stand between the halves of a letter. -/
example : covers "ab*ba" "aba" = false ∧ covers "a*bc*c" "abbcxc" = true ∧
    covers "**" "😀" = true := by decide

end TenantIam.Wildcard
