import Mathlib.Data.List.Infix
import TenantIam.Proofs.Tenant.Lineage

/-!
# Identifiers as lists of segments

An identifier is one text, and the operations work on it letter by letter: they test its beginning,
cut it at its last slash and count its slashes. Here each of them is read as an operation on the
list of segments. An identifier is below those whose segments come first in its own, its ancestors
are its beginnings in order of length, and its parent is the longest of them.
-/

namespace TenantIam.TenantId

variable {id other third : TenantId}

/-! ## Segments of what is returned -/

theorem of_eq_ok_iff {s : String} : of s = .ok id ↔ s = id.text := by
  unfold of
  split
  · next hpieces =>
    rw [Except.ok.injEq]
    constructor
    · rintro rfl
      rfl
    · rintro rfl
      rfl
  · next hempty =>
    refine iff_of_false (by simp) ?_
    rintro rfl
    exact hempty id.segments_ne

theorem Segment.of_eq_ok_iff {name : String} {segment : Segment} :
    Segment.of name = .ok segment ↔ segment.text = name := by
  obtain ⟨text, hne, hslash⟩ := segment
  unfold Segment.of
  split
  · simp [eq_comm]
  · next hname =>
    refine iff_of_false (by simp) ?_
    rintro rfl
    exact hname ⟨hne, hslash⟩

theorem Segment.exists_of_eq_ok_iff {name : String} :
    (∃ segment, Segment.of name = .ok segment) ↔ name ≠ "" ∧ '/' ∉ name.toList := by
  constructor
  · rintro ⟨segment, hsegment⟩
    rw [← Segment.of_eq_ok_iff.1 hsegment]
    exact ⟨segment.nonempty, segment.slash_free⟩
  · rintro ⟨hne, hslash⟩
    exact ⟨⟨name, hne, hslash⟩, Segment.of_eq_ok_iff.2 rfl⟩

theorem segments_root (segment : Segment) : (root segment).segments = [segment.text] :=
  Text.pieces_of_not_mem segment.slash_free

/-- The parent has all segments but the last, unless there is one only. -/
theorem segments_parent? (id : TenantId) :
    id.parent?.map segments = if id.depth = 0 then none else some id.segments.dropLast := by
  cases hparent : id.parent? with
  | none => rw [if_pos (depth_eq_zero_iff.2 hparent)]; rfl
  | some parent =>
      obtain ⟨segment, rfl⟩ := parent?_eq_some_iff.1 hparent
      rw [if_neg (by rw [depth_child]; exact Nat.succ_ne_zero _), segments_child,
        List.dropLast_concat]
      rfl

theorem length_segments (id : TenantId) : id.segments.length = id.depth + 1 := by
  have hpos : 0 < id.segments.length := List.length_pos_iff.2 id.segments_ne_nil
  unfold depth
  omega

/-- The ancestors are the beginnings, from the first segment alone to all but the last. -/
theorem segments_ancestors (id : TenantId) :
    id.ancestors.map segments = (List.range id.depth).map fun i => id.segments.take (i + 1) := by
  induction id using childInduction with
  | root id hnone => rw [ancestors_of_parent?_eq_none hnone, depth_eq_zero_iff.2 hnone]; rfl
  | child id segment ih =>
      -- The ancestors are those of the parent, whose segments come first here, and the parent.
      have hshort : ∀ i ∈ List.range id.depth,
          (id.child segment).segments.take (i + 1) = id.segments.take (i + 1) := by
        intro i hi
        have hlength : i + 1 ≤ id.segments.length := by
          rw [length_segments]
          exact Nat.succ_le_succ (List.mem_range.1 hi).le
        rw [segments_child, List.take_append_of_le_length hlength]
      have hall : (id.child segment).segments.take (id.depth + 1) = id.segments := by
        rw [segments_child, ← length_segments, List.take_left]
      rw [ancestors_child, depth_child, List.range_succ, List.map_append, List.map_append, ih,
        List.map_congr_left hshort, List.map_singleton, List.map_singleton, hall]

/-! ## Depths and ends -/

/-- The depths of the ancestors count up from zero. -/
theorem depths_ancestors (id : TenantId) : id.ancestors.map depth = List.range id.depth := by
  induction id using childInduction with
  | root id hnone => rw [ancestors_of_parent?_eq_none hnone, depth_eq_zero_iff.2 hnone]; rfl
  | child id segment ih =>
      rw [ancestors_child, depth_child, List.range_succ, List.map_append, ih, List.map_singleton]

theorem getLast?_ancestors (id : TenantId) : id.ancestors.getLast? = id.parent? := by
  induction id using childInduction with
  | root id hnone => rw [ancestors_of_parent?_eq_none hnone, hnone]; rfl
  | child id segment _ => rw [ancestors_child, parent?_child, List.getLast?_concat]

theorem parent?_eq_none_iff : id.parent? = none ↔ id.isRoot = true := by
  unfold isRoot
  rw [decide_eq_true_iff, ← Text.cutLast_eq_none_iff]
  unfold parent?
  split
  · next hcut => simp [hcut]
  · next hcut => simp [hcut]

/-! ## The order -/

/-- Being below is having all segments of the other one first, and more. -/
theorem isBelow_iff_prefix_ne :
    id.isBelow other = true ↔ other.segments <+: id.segments ∧ other.segments ≠ id.segments := by
  rw [isBelow_iff_segments]
  constructor
  · rintro ⟨rest, hne, hsegments⟩
    refine ⟨⟨rest, hsegments.symm⟩, fun heq => hne ?_⟩
    rw [heq] at hsegments
    exact List.self_eq_append_right.1 hsegments
  · rintro ⟨⟨rest, hsegments⟩, hne⟩
    refine ⟨rest, fun hnil => hne ?_, hsegments.symm⟩
    rw [← hsegments, hnil, List.append_nil]

theorem not_isBelow_self (id : TenantId) : id.isBelow id = false := by
  rw [Bool.eq_false_iff]
  exact fun h => (isBelow_iff_prefix_ne.1 h).2 rfl

/-- Of two ancestors one is the other or above it. -/
theorem comparable_of_isBelow (h : id.isBelow other = true) (h' : id.isBelow third = true) :
    other = third ∨ other.isBelow third = true ∨ third.isBelow other = true := by
  have hprefix := eq_or_isBelow_iff.1 (.inr h)
  have hprefix' := eq_or_isBelow_iff.1 (.inr h')
  rcases List.prefix_or_prefix_of_prefix hprefix hprefix' with habove | habove
  · rcases eq_or_isBelow_iff.2 habove with heq | hbelow
    · exact .inl heq
    · exact .inr (.inr hbelow)
  · rcases eq_or_isBelow_iff.2 habove with heq | hbelow
    · exact .inl heq.symm
    · exact .inr (.inl hbelow)

/-- **Identifiers are lists of segments.** An identifier is read from its text and from no other;
it has segments, which are not empty, have no slash and make up the text, and every operation on
identifiers is one on their segments. So being below is a strict order in which the ancestors of an
identifier are in a row, from depth zero up to its parent. -/
theorem operations_segments (id other : TenantId) :
    ((∀ s, of s = .ok id ↔ s = id.text) ∧ id.segments ≠ [] ∧
      (∀ s ∈ id.segments, s ≠ "" ∧ '/' ∉ s.toList) ∧ Text.joinWith '/' id.segments = id.text) ∧
    ((∀ segment, (root segment).segments = [segment.text]) ∧
      id.parent?.map segments = (if id.depth = 0 then none else some id.segments.dropLast) ∧
      id.ancestors.map segments = (List.range id.depth).map fun i => id.segments.take (i + 1)) ∧
    ((id.isBelow other = true ↔ other.segments <+: id.segments ∧ other.segments ≠ id.segments) ∧
      (id.isBelow other = true ↔ other ∈ id.ancestors)) ∧
    (id.ancestors.length = id.depth ∧ id.ancestors.map depth = List.range id.depth ∧
      id.ancestors.getLast? = id.parent? ∧ (id.parent? = none ↔ id.isRoot = true)) ∧
    (∀ name, ((∃ segment, Segment.of name = .ok segment) ↔ name ≠ "" ∧ '/' ∉ name.toList) ∧
      ∀ segment, Segment.of name = .ok segment →
        (id.child segment).segments = id.segments ++ [name] ∧
          (id.child segment).parent? = some id) ∧
    id.isBelow id = false ∧
    ∀ third, (id.isBelow other = true → other.isBelow third = true → id.isBelow third = true) ∧
      (id.isBelow other = true → id.isBelow third = true →
        other = third ∨ other.isBelow third = true ∨ third.isBelow other = true) := by
  refine ⟨⟨fun s => of_eq_ok_iff, id.segments_ne_nil, fun s hs => ?_, id.joinWith_segments⟩,
    ⟨segments_root, id.segments_parent?, id.segments_ancestors⟩,
    ⟨isBelow_iff_prefix_ne, mem_ancestors_iff.symm⟩,
    ⟨?_, id.depths_ancestors, id.getLast?_ancestors, parent?_eq_none_iff⟩,
    fun name =>
      ⟨Segment.exists_of_eq_ok_iff, fun segment hsegment => ⟨?_, parent?_child id segment⟩⟩,
    id.not_isBelow_self, fun third => ⟨isBelow_trans, comparable_of_isBelow⟩⟩
  · exact ⟨id.segments_ne s hs, Text.not_mem_of_mem_pieces hs⟩
  · rw [← List.length_map depth, id.depths_ancestors, List.length_range]
  · rw [segments_child, Segment.of_eq_ok_iff.1 hsegment]

/-- Three tenants, each below the next, and a name that starts like one of theirs. -/
theorem operations_segments_row :
    let acme : TenantId := root ⟨"acme", by decide, by decide⟩
    let eng : TenantId := acme.child ⟨"eng", by decide, by decide⟩
    let web : TenantId := eng.child ⟨"web", by decide, by decide⟩
    Segment.of "web" = .ok ⟨"web", by decide, by decide⟩ ∧ web.parent? = some eng ∧
      web.isBelow eng = true ∧ eng.isBelow acme = true ∧ web.isBelow acme = true ∧
      web.ancestors.map depth = [0, 1] ∧ of "acme/eng/web" = .ok web ∧
      web.isBelow (root ⟨"ac", by decide, by decide⟩) = false := by
  intro acme eng web
  have hname : Segment.of "web" = .ok ⟨"web", by decide, by decide⟩ := Segment.of_eq_ok_iff.2 rfl
  have hweb : web.isBelow eng = true := by decide +kernel
  have heng : eng.isBelow acme = true := by decide +kernel
  obtain ⟨⟨hof, -⟩, -, -, ⟨-, hdepths, -⟩, -, -, horder⟩ := operations_segments web eng
  obtain ⟨-, -, -, -, hchild, -⟩ := operations_segments eng acme
  exact ⟨hname, ((hchild "web").2 _ hname).2, hweb, heng, (horder acme).1 hweb heng,
    hdepths.trans (by decide +kernel), (hof "acme/eng/web").2 (by decide +kernel),
    by decide +kernel⟩

end TenantIam.TenantId
