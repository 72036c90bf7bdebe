import TenantIam.Proofs.Success
import TenantIam.Proofs.Tenant.Segments
import TenantIam.Proofs.TenantPath.Canonical

/-!
# Identifiers as paths

An identifier whose segments are decimals below 2^64 is the identifier of a path, which holds the
values of the segments. Both hierarchies agree then: the path goes up and down with the identifier,
and it is below the paths of the identifiers that the identifier is below. Zeros in front of a
segment are lost on the way, so a path may be below another one though the identifiers are not in
order; without such zeros the path is written as the identifier, and the orders are the same.
-/

namespace TenantIam

/-- All segments of an identifier are decimals below 2^64. -/
def TenantId.IsNumeric (id : TenantId) : Prop :=
  ∀ s ∈ id.segments, TenantPath.IsSegmentText s

instance (id : TenantId) : Decidable id.IsNumeric :=
  inferInstanceAs (Decidable (∀ s ∈ id.segments, TenantPath.IsSegmentText s))

/-- All segments of an identifier are decimals without zeros in front. -/
def TenantId.IsCanonical (id : TenantId) : Prop :=
  ∀ s ∈ id.segments, TenantPath.IsCanonical s

instance (id : TenantId) : Decidable id.IsCanonical :=
  inferInstanceAs (Decidable (∀ s ∈ id.segments, TenantPath.IsCanonical s))

namespace TenantPath

variable {id other : TenantId} {path path' : TenantPath}

/-! ## The path of an identifier -/

/-- The path of an identifier whose segments are decimals. -/
def ofId (id : TenantId) : Except Flaw TenantPath := ofTexts id.segments

/-- The path of an identifier holds the values of its segments. -/
theorem ofId_eq_ok_iff :
    ofId id = .ok path ↔
      id.IsNumeric ∧ id.segments.map decimalValue = path.segments.map UInt64.toNat :=
  ofTexts_eq_ok_iff

/-- An identifier has no path on account of its first segment that is not a decimal below 2^64. -/
theorem ofId_eq_error_iff {flaw : Flaw} :
    ofId id = .error flaw ↔
      ∃ bad, id.segments.find? (¬ IsSegmentText ·) = some bad ∧ readDecimal bad = .error flaw :=
  ofTexts_eq_error_iff id.segments_ne_nil

theorem exists_ofId_iff : (∃ path, ofId id = .ok path) ↔ id.IsNumeric := by
  simp only [ofId_eq_ok_iff]
  constructor
  · rintro ⟨path, hnumeric, -⟩
    exact hnumeric
  · intro hnumeric
    obtain ⟨path, hvalues⟩ := exists_of_isSegmentText id.segments_ne_nil hnumeric
    exact ⟨path, hnumeric, hvalues⟩

theorem ofId_child (id : TenantId) (segment : TenantId.Segment) :
    ofId (id.child segment) = ofId id >>= fun path => path.child (.text segment.text) := by
  rw [ofId, TenantId.segments_child]
  exact ofTexts_concat id.segments_ne_nil segment.text

/-- Identifiers count the tenants above, paths count themselves, too. -/
theorem depth_ofId (h : ofId id = .ok path) : path.depth = id.depth + 1 := by
  have hlength := congrArg List.length (ofId_eq_ok_iff.1 h).2
  rw [List.length_map, List.length_map, id.length_segments] at hlength
  exact hlength.symm

theorem parent?_ofId (h : ofId id = .ok path) : path.parent?.map .ok = id.parent?.map ofId := by
  cases hparent : id.parent? with
  | none =>
      have hlength : path.segments.length = 1 := by
        have hdepth := depth_ofId h
        rwa [TenantId.depth_eq_zero_iff.2 hparent] at hdepth
      obtain ⟨segment, hsegment⟩ := List.length_eq_one_iff.1 hlength
      simp [parent?, hsegment]
  | some above =>
      obtain ⟨segment, rfl⟩ := TenantId.parent?_eq_some_iff.1 hparent
      rw [ofId_child] at h
      obtain ⟨up, hup, hchild⟩ := bind_eq_ok_iff.1 h
      rw [parent?_of_child hchild, Option.map_some, Option.map_some, hup]

/-! ## The orders -/

/-- **The order of paths.** The path of an identifier is below that of another one when the values
of its segments go on after those of the other. -/
theorem isBelow_ofId_iff (h : ofId id = .ok path) (h' : ofId other = .ok path') :
    path.isBelow path' = true ↔
      ∃ rest, rest ≠ [] ∧
        id.segments.map decimalValue = other.segments.map decimalValue ++ rest := by
  rw [isBelow_iff_segments, (ofId_eq_ok_iff.1 h).2, (ofId_eq_ok_iff.1 h').2]
  constructor
  · intro ⟨rest, hne, hsegments⟩
    exact ⟨rest.map UInt64.toNat, by simpa using hne, by rw [hsegments, List.map_append]⟩
  · intro ⟨rest, hne, hvalues⟩
    obtain ⟨front, back, hsegments, hfront, rfl⟩ := List.map_eq_append_iff.1 hvalues
    have hinjective := List.map_injective_iff.2 fun _ _ => UInt64.toNat_inj.1
    rw [hinjective hfront] at hsegments
    exact ⟨back, by simpa using hne, hsegments⟩

/-- What is below as an identifier is below as a path. -/
theorem isBelow_of_isBelow (h : ofId id = .ok path) (h' : ofId other = .ok path')
    (hbelow : id.isBelow other = true) : path.isBelow path' = true := by
  obtain ⟨rest, hne, hsegments⟩ := TenantId.isBelow_iff_segments.1 hbelow
  rw [isBelow_ofId_iff h h']
  exact ⟨rest.map decimalValue, by simpa using hne, by rw [hsegments, List.map_append]⟩

/-- The identifiers that are written as their paths are those without zeros in front. -/
theorem text_ofId_iff (h : ofId id = .ok path) : path.text = id.text ↔ id.IsCanonical := by
  constructor
  · intro htext s hs
    have hpieces : id.segments = path.segmentTexts := by
      rw [← pieces_text, htext]
      rfl
    rw [hpieces] at hs
    obtain ⟨segment, -, rfl⟩ := List.mem_map.1 hs
    exact isCanonical_repr segment.toNat
  · intro hcanonical
    have hsame : (id.segments.map fun s => (decimalValue s).repr) = id.segments :=
      (List.map_congr_left fun s hs => (hcanonical s hs).eq_repr.symm).trans (List.map_id' _)
    rw [text, segmentTexts_eq_iff.2 (ofId_eq_ok_iff.1 h).2, hsame, id.joinWith_segments]

/-- Without zeros in front, the order of the identifiers is that of the paths: both can be seen from
the texts, which are the same. -/
theorem isBelow_iff_of_isCanonical (h : ofId id = .ok path) (h' : ofId other = .ok path')
    (hcanonical : id.IsCanonical) (hcanonical' : other.IsCanonical) :
    path.isBelow path' = true ↔ id.isBelow other = true := by
  rw [isBelow_iff_text, (text_ofId_iff h).2 hcanonical, (text_ofId_iff h').2 hcanonical',
    TenantId.isBelow, List.isPrefixOf_iff_prefix, String.toList_append]
  rfl

/-- **The two hierarchies agree.** An identifier all of whose segments are decimals below 2^64 has a
path, one level deeper by count, and going up and going down by a decimal lead from the one to the
other. What is below as an identifier is below as a path. Without zeros in front of the segments the
converse holds, too, and these are the identifiers that are written as their paths. Every other
identifier has no path, on account of its first segment that is not such a decimal. -/
theorem ofId_agrees (id other : TenantId) :
    (id.IsNumeric → ∃ path, ofId id = .ok path ∧
      path.depth = id.depth + 1 ∧ path.parent?.map .ok = id.parent?.map ofId ∧
      (∀ name, IsSegmentText name → ∃ segment below, TenantId.Segment.of name = .ok segment ∧
        ofId (id.child segment) = .ok below ∧ path.child (.text name) = .ok below) ∧
      (path.text = id.text ↔ id.IsCanonical)) ∧
    (id.IsNumeric → other.IsNumeric → ∃ path path', ofId id = .ok path ∧ ofId other = .ok path' ∧
      (id.isBelow other = true → path.isBelow path' = true) ∧
      (id.IsCanonical → other.IsCanonical →
        (path.isBelow path' = true → id.isBelow other = true))) ∧
    (¬ id.IsNumeric → ∃ bad flaw, id.segments.find? (¬ IsSegmentText ·) = some bad ∧
      readDecimal bad = .error flaw ∧ ofId id = .error flaw ∧
      (Reported.toFault flaw).name = "ArnParseError") := by
  refine ⟨?_, ?_, ?_⟩
  · intro hnumeric
    obtain ⟨path, hpath⟩ := exists_ofId_iff.2 hnumeric
    refine ⟨path, hpath, depth_ofId hpath, parent?_ofId hpath, ?_, text_ofId_iff hpath⟩
    intro name hname
    obtain ⟨segment, hsegment⟩ := TenantId.Segment.exists_of_eq_ok_iff.2
      ⟨(isDecimal_iff.1 hname.1).1, hname.not_mem (by decide)⟩
    have hgiven : IsSegmentText (SegmentInput.text name).toText := hname
    obtain ⟨below, hbelow⟩ := path.exists_child hgiven
    refine ⟨segment, below, hsegment, ?_, hbelow⟩
    rw [ofId_child, hpath, TenantId.Segment.of_eq_ok_iff.1 hsegment]
    exact hbelow
  · intro hnumeric hnumeric'
    obtain ⟨path, hpath⟩ := exists_ofId_iff.2 hnumeric
    obtain ⟨path', hpath'⟩ := exists_ofId_iff.2 hnumeric'
    refine ⟨path, path', hpath, hpath', isBelow_of_isBelow hpath hpath', ?_⟩
    intro hcanonical hcanonical'
    exact (isBelow_iff_of_isCanonical hpath hpath' hcanonical hcanonical').1
  · intro hother
    rw [← exists_ofId_iff, ← exists_error_iff] at hother
    obtain ⟨flaw, hflaw⟩ := hother
    obtain ⟨bad, hfind, hbad⟩ := ofId_eq_error_iff.1 hflaw
    exact ⟨bad, flaw, hfind, hbad, hflaw, rfl⟩

/-- Two identifiers in order, one that is above the first of them as a path only, since it has zeros
in front, and one with a segment that is too large. -/
theorem ofId_agrees_zeros :
    let two : TenantId := ⟨"7/1/2", by decide +kernel⟩
    let one : TenantId := ⟨"7/1", by decide +kernel⟩
    let zeros : TenantId := ⟨"007/1", by decide +kernel⟩
    let large : TenantId := ⟨"7/18446744073709551616/x", by decide +kernel⟩
    let path : TenantPath := ⟨[7, 1, 2], by decide⟩
    let above : TenantPath := ⟨[7, 1], by decide⟩
    ofId two = .ok path ∧ path.depth = two.depth + 1 ∧ path.parent?.map .ok = two.parent?.map ofId ∧
      path.text = two.text ∧
      (∃ segment, TenantId.Segment.of "02" = .ok segment ∧ ofId (one.child segment) = .ok path) ∧
      (ofId one = .ok above ∧ two.isBelow one = true ∧ path.isBelow above = true) ∧
      (ofId zeros = .ok above ∧ two.isBelow zeros = false) ∧
      ofId large = .error (.tooLarge "18446744073709551616") := by
  intro two one zeros large path above
  have hpath : ofId two = .ok path := toOption_eq_some_iff.1 (by decide +kernel)
  have habove : ofId one = .ok above := toOption_eq_some_iff.1 (by decide +kernel)
  have hzeros : ofId zeros = .ok above := toOption_eq_some_iff.1 (by decide +kernel)
  obtain ⟨htwo, horder, -⟩ := ofId_agrees two one
  obtain ⟨_, hread, hdepth, hparent, -, htext⟩ := htwo (by decide +kernel)
  rw [hpath] at hread
  cases hread
  obtain ⟨_, _, hread, hread', hforward, hback⟩ := horder (by decide +kernel) (by decide +kernel)
  rw [hpath] at hread
  rw [habove] at hread'
  cases hread
  cases hread'
  have hbelow : path.isBelow above = true := hforward (by decide +kernel)
  refine ⟨hpath, hdepth, hparent, htext.2 (by decide +kernel), ?_, ?_, ?_, ?_⟩
  · obtain ⟨_, hread, -, -, hchild, -⟩ := (ofId_agrees one one).1 (by decide +kernel)
    rw [habove] at hread
    cases hread
    obtain ⟨segment, below, hsegment, hboth, hbelow⟩ := hchild "02" (by decide +kernel)
    refine ⟨segment, hsegment, ?_⟩
    rw [hboth, ← hbelow]
    exact toOption_eq_some_iff.1 (by decide +kernel)
  · exact ⟨habove, hback (by decide +kernel) (by decide +kernel) hbelow, hbelow⟩
  · exact ⟨hzeros, by decide +kernel⟩
  · obtain ⟨bad, flaw, hfind, hbad, hflaw, -⟩ := (ofId_agrees large large).2.2 (by decide +kernel)
    have hfirst : large.segments.find? (¬ IsSegmentText ·) = some "18446744073709551616" := by
      decide +kernel
    have hlarge : readDecimal "18446744073709551616" =
        .error (.tooLarge "18446744073709551616") := rfl
    rw [hfirst] at hfind
    cases hfind
    rw [hlarge] at hbad
    cases hbad
    exact hflaw

end TenantPath

end TenantIam
