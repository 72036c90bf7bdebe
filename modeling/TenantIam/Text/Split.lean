/-!
# Texts cut at separators

Identifiers of this library are texts whose parts are told apart by a separator. The two views of
such a text are its pieces (`pieces`, undone by `joinWith`) and a single cut, at the first or at
the last separator (`cutFirst`, `cutLast`).
-/

namespace TenantIam.Text

/-- The stretches of `s` between occurrences of `sep`, empty ones included. -/
def pieces (sep : Char) (s : String) : List String :=
  (s.toList.splitOn sep).map String.ofList

/-- The texts of `l` with one `sep` between neighbours. -/
def joinWith (sep : Char) (l : List String) : String :=
  (String.singleton sep).intercalate l

theorem pieces_ne_nil (sep : Char) (s : String) : pieces sep s ≠ [] := by
  simp [pieces, List.splitOn_ne_nil]

theorem toList_joinWith (sep : Char) (l : List String) :
    (joinWith sep l).toList = [sep].intercalate (l.map String.toList) := by
  simp [joinWith, String.toList_intercalate]

theorem joinWith_pieces (sep : Char) (s : String) : joinWith sep (pieces sep s) = s := by
  apply String.toList_inj.1
  simp [toList_joinWith, pieces, Function.comp_def, List.intercalate_splitOn]

/-- Pieces free of the separator are found again in their join. -/
theorem pieces_joinWith (sep : Char) (l : List String) (hl : l ≠ [])
    (h : ∀ s ∈ l, sep ∉ s.toList) : pieces sep (joinWith sep l) = l := by
  rw [pieces, toList_joinWith, List.splitOn_intercalate]
  · simp [Function.comp_def]
  · simpa using h
  · simpa using hl

/-- A text without the separator is its only piece. -/
theorem pieces_of_not_mem {sep : Char} {s : String} (h : sep ∉ s.toList) : pieces sep s = [s] := by
  simp [pieces, List.splitOn_eq_singleton h]

theorem pieces_append (sep : Char) (s t : List Char) :
    pieces sep (String.ofList (s ++ sep :: t)) =
      pieces sep (String.ofList s) ++ pieces sep (String.ofList t) := by
  simp [pieces, List.splitOn_append_cons_self]

section Cuts

variable {α : Type} [DecidableEq α]

/-- What stands before and after the first `sep`. -/
def cutFirst (sep : α) : List α → Option (List α × List α)
  | [] => none
  | c :: s =>
    if c = sep then some ([], s)
    else (cutFirst sep s).map fun (before, after) => (c :: before, after)

/-- What stands before and after the last `sep`. -/
def cutLast (sep : α) : List α → Option (List α × List α)
  | [] => none
  | c :: s =>
    match cutLast sep s with
    | some (before, after) => some (c :: before, after)
    | none => if c = sep then some ([], s) else none

theorem cutFirst_eq_none_iff {sep : α} {s : List α} : cutFirst sep s = none ↔ sep ∉ s := by
  induction s with
  | nil => simp [cutFirst]
  | cons c s ih =>
    by_cases h : c = sep
    · simp [cutFirst, h]
    · simp [cutFirst, h, ih, Ne.symm h]

/-- The first cut leaves no separator before it. -/
theorem cutFirst_eq_some_iff {sep : α} {s before after : List α} :
    cutFirst sep s = some (before, after) ↔ s = before ++ sep :: after ∧ sep ∉ before := by
  induction s generalizing before with
  | nil => simp [cutFirst]
  | cons c s ih =>
    by_cases h : c = sep
    · subst h
      cases before with
      | nil => simp [cutFirst, eq_comm]
      | cons b before => simp +contextual [cutFirst, eq_comm]
    · cases before with
      | nil => simp [cutFirst, h]
      | cons b before =>
        simp only [cutFirst, h, if_false, Option.map_eq_some_iff, Prod.mk.injEq, List.cons.injEq,
          Prod.exists, List.cons_append, List.mem_cons, not_or]
        constructor
        · rintro ⟨p, q, hpq, ⟨rfl, rfl⟩, rfl⟩
          obtain ⟨hs, hp⟩ := ih.1 hpq
          exact ⟨⟨rfl, hs⟩, Ne.symm h, hp⟩
        · rintro ⟨⟨rfl, hs⟩, _, hp⟩
          exact ⟨before, after, ih.2 ⟨hs, hp⟩, ⟨rfl, rfl⟩, rfl⟩

theorem cutLast_eq_none_iff {sep : α} {s : List α} : cutLast sep s = none ↔ sep ∉ s := by
  induction s with
  | nil => simp [cutLast]
  | cons c s ih =>
    simp only [cutLast, List.mem_cons, not_or]
    split
    · next p q hs =>
      have : sep ∈ s := Decidable.not_not.1 fun h => by simp [ih.2 h] at hs
      simp [this]
    · next hs =>
      have := ih.1 hs
      by_cases h : c = sep
      · simp [h]
      · simp [h, Ne.symm h, this]

theorem cutLast_append {sep : α} {after : List α} (h : sep ∉ after) (before : List α) :
    cutLast sep (before ++ sep :: after) = some (before, after) := by
  induction before with
  | nil => rw [List.nil_append, cutLast, cutLast_eq_none_iff.2 h, if_pos rfl]
  | cons b before ih => rw [List.cons_append, cutLast, ih]

/-- The last cut leaves no separator after it. -/
theorem cutLast_eq_some_iff {sep : α} {s before after : List α} :
    cutLast sep s = some (before, after) ↔ s = before ++ sep :: after ∧ sep ∉ after := by
  constructor
  · intro h
    induction s generalizing before with
    | nil => cases h
    | cons c s ih =>
      rw [cutLast] at h
      split at h
      · next earlier later hs =>
        cases h
        obtain ⟨htext, hfree⟩ := ih hs
        exact ⟨congrArg (c :: ·) htext, hfree⟩
      · next hs =>
        split at h
        · next hc =>
          cases h
          exact ⟨by rw [hc, List.nil_append], cutLast_eq_none_iff.1 hs⟩
        · cases h
  · intro ⟨htext, hfree⟩
    rw [htext, cutLast_append hfree]

theorem length_cutLast {sep : α} {s before after : List α}
    (h : cutLast sep s = some (before, after)) :
    before.length < s.length := by
  rw [(cutLast_eq_some_iff.1 h).1, List.length_append, List.length_cons]
  omega

end Cuts

end TenantIam.Text
