import TenantIam.Text.Split

/-!
# Pieces of texts that are put together

A text that is put together from parts with separators between them has the pieces of its parts,
and a part that is free of the separator is a piece of its own. Readers take texts apart at every
separator and put the rest together again; the lemmas here say that nothing is lost on that way.
-/

namespace TenantIam.Text

theorem pieces_append_sep (sep : Char) (s t : String) :
    pieces sep (s ++ String.singleton sep ++ t) = pieces sep s ++ pieces sep t := by
  have htext : s ++ String.singleton sep ++ t = String.ofList (s.toList ++ sep :: t.toList) := by
    apply String.toList_inj.1
    simp
  rw [htext, pieces_append]
  simp

/-- A part free of the separator is the first piece of what it starts. -/
theorem pieces_cons_sep {sep : Char} {s : String} (hs : sep ∉ s.toList) (t : String) :
    pieces sep (s ++ String.singleton sep ++ t) = s :: pieces sep t := by
  rw [pieces_append_sep, pieces_of_not_mem hs]
  rfl

theorem not_mem_of_mem_splitOn {sep : Char} {letters : List Char} :
    ∀ piece ∈ letters.splitOn sep, sep ∉ piece := by
  induction letters with
  | nil => simp
  | cons c letters ih =>
      rw [List.splitOn_cons_eq_if_modifyHead]
      by_cases hc : c = sep
      · simpa [hc] using ih
      · cases hrest : letters.splitOn sep with
        | nil => exact absurd hrest (List.splitOn_ne_nil sep letters)
        | cons head rest =>
            rw [hrest] at ih
            simpa [hc, Ne.symm hc] using ih

theorem not_mem_of_mem_pieces {sep : Char} {s piece : String} (h : piece ∈ pieces sep s) :
    sep ∉ piece.toList := by
  obtain ⟨letters, hletters, rfl⟩ := List.mem_map.1 h
  rw [String.toList_ofList]
  exact not_mem_of_mem_splitOn letters hletters

@[simp] theorem joinWith_singleton (sep : Char) (s : String) : joinWith sep [s] = s := by
  simp [joinWith]

theorem joinWith_cons {sep : Char} {l : List String} (hl : l ≠ []) (s : String) :
    joinWith sep (s :: l) = s ++ String.singleton sep ++ joinWith sep l := by
  cases l with
  | nil => exact absurd rfl hl
  | cons t l => simp [joinWith]

/-- The last parts may be joined first. -/
theorem joinWith_append {sep : Char} {last : List String} (hlast : last ≠ []) (l : List String) :
    joinWith sep (l ++ last) = joinWith sep (l ++ [joinWith sep last]) := by
  induction l with
  | nil => simp
  | cons s l ih =>
      rw [List.cons_append, joinWith_cons (by simp [hlast]), ih, ← joinWith_cons (by simp)]
      rfl

theorem joinWith_concat {sep : Char} {l : List String} (hl : l ≠ []) (s : String) :
    joinWith sep (l ++ [s]) = joinWith sep l ++ String.singleton sep ++ s := by
  induction l with
  | nil => exact absurd rfl hl
  | cons t l ih =>
      by_cases hrest : l = []
      · rw [hrest]
        simpa using joinWith_cons (List.cons_ne_nil s []) t
      · rw [List.cons_append, joinWith_cons (by simp), ih hrest, joinWith_cons hrest]
        simp only [String.append_assoc]

/-- The join of two lists of parts has a separator between their joins. -/
theorem joinWith_append_sep {sep : Char} {l last : List String} (hl : l ≠ []) (hlast : last ≠ []) :
    joinWith sep (l ++ last) = joinWith sep l ++ String.singleton sep ++ joinWith sep last := by
  rw [joinWith_append hlast, joinWith_concat hl]

/-- Parts free of the separator are pieces, and the last part is taken apart further. -/
theorem pieces_joinWith_concat {sep : Char} {l : List String} (hl : ∀ s ∈ l, sep ∉ s.toList)
    (last : String) : pieces sep (joinWith sep (l ++ [last])) = l ++ pieces sep last := by
  induction l with
  | nil => simp
  | cons s l ih =>
      rw [List.forall_mem_cons] at hl
      rw [List.cons_append, joinWith_cons (by simp), pieces_cons_sep hl.1, ih hl.2]
      rfl

/-- The pieces of a join are those of its parts. -/
theorem pieces_joinWith_flatMap {sep : Char} {l : List String} (hl : l ≠ []) :
    pieces sep (joinWith sep l) = l.flatMap (pieces sep) := by
  induction l with
  | nil => exact absurd rfl hl
  | cons s l ih =>
      by_cases hrest : l = []
      · simp [hrest]
      · rw [joinWith_cons hrest, pieces_append_sep, ih hrest, List.flatMap_cons]

theorem exists_pieces_of_mem {sep : Char} {s : String} (h : sep ∈ s.toList) :
    ∃ first second more, pieces sep s = first :: second :: more := by
  match hpieces : pieces sep s with
  | [] => exact absurd hpieces (pieces_ne_nil sep s)
  | [only] =>
      -- a text with one piece is that piece
      have hs : only = s := by simpa [hpieces] using joinWith_pieces sep s
      exact absurd (hs ▸ h) (not_mem_of_mem_pieces (hpieces ▸ List.mem_cons_self))
  | first :: second :: more => exact ⟨first, second, more, rfl⟩

/-- With more parts before its pieces a text is not put together again. -/
theorem joinWith_append_pieces_ne {sep : Char} {l : List String} (hl : l ≠ []) (s : String) :
    joinWith sep (l ++ pieces sep s) ≠ s := by
  intro h
  rw [joinWith_append_sep hl (pieces_ne_nil sep s), joinWith_pieces] at h
  have hlength := congrArg String.length h
  simp [String.length_append] at hlength

/-- A letter that is neither in the parts nor the separator is not in their join. -/
theorem not_mem_joinWith {sep c : Char} (hc : c ≠ sep) {l : List String}
    (hl : ∀ s ∈ l, c ∉ s.toList) : c ∉ (joinWith sep l).toList := by
  induction l with
  | nil => simp [joinWith]
  | cons s l ih =>
      rw [List.forall_mem_cons] at hl
      by_cases hrest : l = []
      · simpa [hrest] using hl.1
      · simp [joinWith_cons hrest, hl.1, hc, ih hl.2]

/-- What is put before a text without a separator joins its first piece. -/
theorem pieces_append_of_not_mem {sep : Char} {s t first : String} {more : List String}
    (hs : sep ∉ s.toList) (ht : pieces sep t = first :: more) :
    pieces sep (s ++ t) = (s ++ first) :: more := by
  have hfirst : sep ∉ first.toList := not_mem_of_mem_pieces (ht ▸ List.mem_cons_self)
  have hjoin : s ++ t = joinWith sep ((s ++ first) :: more) := by
    rw [← joinWith_pieces sep t, ht]
    by_cases hmore : more = []
    · simp [hmore]
    · rw [joinWith_cons hmore, joinWith_cons hmore]
      simp only [String.append_assoc]
  rw [hjoin, pieces_joinWith sep _ (by simp)]
  rw [List.forall_mem_cons]
  refine ⟨by simp [hs, hfirst], fun piece hpiece => ?_⟩
  exact not_mem_of_mem_pieces (ht ▸ List.mem_cons_of_mem _ hpiece)

end TenantIam.Text
