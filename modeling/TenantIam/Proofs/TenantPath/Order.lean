import TenantIam.Proofs.Text.Beginnings
import TenantIam.Proofs.TenantPath.Reading

/-!
# Above and below on paths

A path is below another one when its segments go on after those of the other. Segments are written
without leading zeros, so this can be seen from the written forms: the text of the one starts with
the text of the other and a slash.
-/

namespace TenantIam.TenantPath

variable {path other third : TenantPath}

theorem segmentText_injective : Function.Injective segmentText := by
  intro segment segment' h
  have hread : readDecimal (segmentText segment') = .ok segment :=
    h ▸ readDecimal_segmentText segment
  rw [readDecimal_segmentText] at hread
  exact (Except.ok.inj hread).symm

theorem eq_of_text_eq (h : path.text = other.text) : path = other := by
  have hread : parse other.text = .ok path := h ▸ parse_text path
  rw [parse_text] at hread
  exact (Except.ok.inj hread).symm

theorem eq_of_segments_eq (h : path.segments = other.segments) : path = other := by
  cases path
  cases other
  cases h
  rfl

/-- A letter that is neither a digit nor the slash is not in the text of a path. -/
theorem not_mem_text {c : Char} (hdigit : c.isDigit = false) (hslash : c ≠ '/')
    (path : TenantPath) : c ∉ path.text.toList :=
  Text.not_mem_joinWith hslash fun _ hs => (isSegmentText_of_mem_segmentTexts hs).not_mem hdigit

/-- A path is below another one when its segments go on after those of the other. -/
theorem isBelow_iff_segments :
    path.isBelow other = true ↔ ∃ rest, rest ≠ [] ∧ path.segments = other.segments ++ rest := by
  unfold isBelow depth
  rw [Bool.and_eq_true, decide_eq_true_iff, startsWith_iff]
  constructor
  · rintro ⟨hlength, rest, hrest⟩
    refine ⟨rest, fun hnil => ?_, hrest.symm⟩
    rw [hnil, List.append_nil] at hrest
    exact absurd hlength (by rw [hrest]; exact Nat.lt_irrefl _)
  · rintro ⟨rest, hne, hsegments⟩
    refine ⟨?_, rest, hsegments.symm⟩
    rw [hsegments, List.length_append]
    exact Nat.lt_add_of_pos_right (List.length_pos_iff.2 hne)

/-- Being at or below a path is being the path or below it. -/
theorem startsWith_iff_eq_or_isBelow :
    path.startsWith other = true ↔ path = other ∨ path.isBelow other = true := by
  rw [startsWith_iff, isBelow_iff_segments]
  constructor
  · rintro ⟨rest, hrest⟩
    by_cases hnil : rest = []
    · rw [hnil, List.append_nil] at hrest
      exact .inl (eq_of_segments_eq hrest.symm)
    · exact .inr ⟨rest, hnil, hrest.symm⟩
  · rintro (rfl | ⟨rest, -, hsegments⟩)
    · exact List.prefix_refl _
    · exact ⟨rest, hsegments.symm⟩

/-! ## The order -/

theorem startsWith_refl (path : TenantPath) : path.startsWith path = true :=
  startsWith_iff.2 (List.prefix_refl path.segments)

theorem startsWith_antisymm (h : path.startsWith other = true) (h' : other.startsWith path = true) :
    path = other := by
  rw [startsWith_iff] at h h'
  exact eq_of_segments_eq (h'.eq_of_length_le h.length_le)

theorem startsWith_trans (h : path.startsWith other = true) (h' : other.startsWith third = true) :
    path.startsWith third = true := by
  rw [startsWith_iff] at h h' ⊢
  exact h'.trans h

/-- Of two paths at or above one path, one is at or above the other. -/
theorem startsWith_or_startsWith (h : path.startsWith other = true)
    (h' : path.startsWith third = true) :
    other.startsWith third = true ∨ third.startsWith other = true := by
  simp only [startsWith_iff] at *
  exact (List.prefix_or_prefix_of_prefix h h').symm

theorem exists_of_child {given : SegmentInput} {child : TenantPath}
    (h : path.child given = .ok child) :
    ∃ segment, readSegment given = .ok segment ∧ child.segments = path.segments ++ [segment] := by
  unfold TenantPath.child at h
  cases hread : readSegment given with
  | error flaw => rw [hread] at h; cases h
  | ok segment =>
      rw [hread] at h
      cases h
      exact ⟨segment, rfl, rfl⟩

theorem startsWith_of_child {given : SegmentInput} {child : TenantPath}
    (h : path.child given = .ok child) : child.startsWith path = true := by
  obtain ⟨segment, -, hsegments⟩ := exists_of_child h
  rw [startsWith_iff, hsegments]
  exact List.prefix_append path.segments [segment]

theorem parent?_of_child {given : SegmentInput} {child : TenantPath}
    (h : path.child given = .ok child) : child.parent? = some path := by
  obtain ⟨segment, -, hsegments⟩ := exists_of_child h
  simp [parent?, hsegments, path.nonempty]

/-- There is a child for every decimal below 2^64. -/
theorem exists_child (path : TenantPath) {given : SegmentInput} (h : IsSegmentText given.toText) :
    ∃ child, path.child given = .ok child := by
  obtain ⟨segment, hread⟩ := readDecimal_isOk_iff.2 h
  exact ⟨_, by rw [TenantPath.child, readSegment, hread]; rfl⟩

/-! ## The order in writing -/

/-- **Below in writing.** A path is below another one when its text starts with that of the other
and a slash. -/
theorem isBelow_iff_text :
    path.isBelow other = true ↔ other.text.toList ++ ['/'] <+: path.text.toList := by
  rw [Text.concat_sep_prefix_iff, pieces_text, pieces_text, isBelow_iff_segments]
  constructor
  · rintro ⟨rest, hne, hsegments⟩
    exact ⟨rest.map segmentText, by simpa using hne, by simp [segmentTexts, hsegments]⟩
  · rintro ⟨rest, hne, htexts⟩
    obtain ⟨front, back, hsegments, hfront, rfl⟩ := List.map_eq_append_iff.1 htexts
    rw [(List.map_injective_iff.2 segmentText_injective) hfront] at hsegments
    exact ⟨back, by simpa using hne, hsegments⟩

/-- A path is at or below another one when their texts are equal, or its text starts with that of
the other and a slash. -/
theorem startsWith_iff_text :
    path.startsWith other = true ↔
      path.text = other.text ∨ other.text.toList ++ ['/'] <+: path.text.toList := by
  rw [startsWith_iff_eq_or_isBelow, isBelow_iff_text]
  constructor
  · rintro (rfl | hbelow)
    · exact .inl rfl
    · exact .inr hbelow
  · rintro (htext | hbelow)
    · exact .inl (eq_of_text_eq htext)
    · exact .inr hbelow

end TenantIam.TenantPath
