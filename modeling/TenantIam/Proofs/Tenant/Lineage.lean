import TenantIam.Proofs.Text.Beginnings
import TenantIam.Tenant.Id

/-!
# Above and below

The operations on identifiers work on texts. Here they are read as operations on the tree of
tenants: an identifier is that of a root or of a child, and what holds of roots and passes from a
tenant to its children holds of every tenant.
-/

namespace TenantIam

namespace TenantId

theorem eq_of_text_eq {a b : TenantId} (h : a.text = b.text) : a = b := by
  cases a
  cases b
  cases h
  rfl

theorem segments_ne_nil (id : TenantId) : id.segments ≠ [] :=
  Text.pieces_ne_nil '/' id.text

theorem joinWith_segments (id : TenantId) : Text.joinWith '/' id.segments = id.text :=
  Text.joinWith_pieces '/' id.text

theorem eq_of_segments_eq {a b : TenantId} (h : a.segments = b.segments) : a = b := by
  apply eq_of_text_eq
  rw [← joinWith_segments a, ← joinWith_segments b, h]

@[simp] theorem parent?_child (id : TenantId) (segment : Segment) :
    (id.child segment).parent? = some id := by
  have hcut : Text.cutLast '/' (id.child segment).text.toList =
      some (id.text.toList, segment.text.toList) := by
    rw [Text.cutLast_eq_some_iff]
    exact ⟨by simp [child], segment.slash_free⟩
  unfold parent?
  split
  · next hnone =>
    rw [hcut] at hnone
    cases hnone
  · next before after hsome =>
    rw [hcut] at hsome
    cases hsome
    rw [Option.some.injEq]
    exact eq_of_text_eq (String.ofList_toList ..)

theorem parent?_eq_some_iff {id parent : TenantId} :
    id.parent? = some parent ↔ ∃ segment, id = parent.child segment := by
  constructor
  · intro hparent
    unfold parent? at hparent
    split at hparent
    · cases hparent
    · next before after hcut =>
      cases hparent
      obtain ⟨htext, hfree⟩ := Text.cutLast_eq_some_iff.1 hcut
      have hid : id.text = String.ofList before ++ "/" ++ String.ofList after := by
        apply String.toList_inj.1
        simp [htext]
      have hlast : String.ofList after ≠ "" := by
        apply id.segments_ne
        rw [hid, pieces_extend]
        apply List.mem_append_right
        rw [Text.pieces_of_not_mem (by simpa using hfree)]
        exact List.mem_singleton_self _
      exact ⟨⟨String.ofList after, hlast, by simpa using hfree⟩, eq_of_text_eq hid⟩
  · rintro ⟨segment, rfl⟩
    exact parent?_child parent segment

/-- **Induction down the tree.** What holds of the identifiers without a parent and passes from an
identifier to its children holds of all. -/
@[elab_as_elim]
theorem childInduction {motive : TenantId → Prop}
    (root : ∀ id : TenantId, id.parent? = none → motive id)
    (child : ∀ (id : TenantId) (segment : Segment), motive id → motive (id.child segment))
    (id : TenantId) : motive id := by
  -- the parent is a shorter text, so the induction is on the length
  induction hlength : id.text.length using Nat.strongRecOn generalizing id with
  | _ length ih =>
      cases hparent : id.parent? with
      | none => exact root id hparent
      | some parent =>
          have hshorter : parent.text.length < length := by
            rw [← hlength]
            exact parent?_eq_some hparent
          have hmotive : motive parent := ih parent.text.length hshorter parent rfl
          obtain ⟨segment, rfl⟩ := parent?_eq_some_iff.1 hparent
          exact child parent segment hmotive

@[simp] theorem depth_child (id : TenantId) (segment : Segment) :
    (id.child segment).depth = id.depth + 1 := by
  have hpos : 0 < id.segments.length := List.length_pos_iff.2 id.segments_ne_nil
  unfold depth
  rw [segments_child, List.length_append, List.length_singleton]
  omega

theorem depth_eq_zero_iff {id : TenantId} : id.depth = 0 ↔ id.parent? = none := by
  constructor
  · intro hdepth
    cases hparent : id.parent? with
    | none => rfl
    | some parent =>
        obtain ⟨segment, rfl⟩ := parent?_eq_some_iff.1 hparent
        rw [depth_child] at hdepth
        omega
  · intro hnone
    unfold parent? at hnone
    split at hnone
    · next hcut =>
      have hsegments : id.segments = [id.text] :=
        Text.pieces_of_not_mem (Text.cutLast_eq_none_iff.1 hcut)
      rw [depth, hsegments]
      rfl
    · cases hnone

/-- A tenant is below another one when its segments go on after those of the other. -/
theorem isBelow_iff_segments {id other : TenantId} :
    id.isBelow other = true ↔ ∃ rest, rest ≠ [] ∧ id.segments = other.segments ++ rest := by
  unfold isBelow
  rw [List.isPrefixOf_iff_prefix, String.toList_append]
  exact Text.concat_sep_prefix_iff

/-- A tenant is another one or below it when the segments of the other come first in its own. -/
theorem eq_or_isBelow_iff {id other : TenantId} :
    other = id ∨ id.isBelow other = true ↔ other.segments <+: id.segments := by
  rw [isBelow_iff_segments]
  constructor
  · rintro (rfl | ⟨rest, -, hsegments⟩)
    · exact List.prefix_refl _
    · exact ⟨rest, hsegments.symm⟩
  · rintro ⟨rest, hsegments⟩
    by_cases hrest : rest = []
    · rw [hrest, List.append_nil] at hsegments
      exact .inl (eq_of_segments_eq hsegments)
    · exact .inr ⟨rest, hrest, hsegments.symm⟩

/-- Being below has one step at least, and the last step may be taken off. -/
theorem isBelow_child_iff {id other : TenantId} {segment : Segment} :
    (id.child segment).isBelow other = true ↔ other = id ∨ id.isBelow other = true := by
  rw [isBelow_iff_segments, isBelow_iff_segments, segments_child]
  constructor
  · rintro ⟨rest, hne, hsegments⟩
    -- the last segment is that of the child on both sides
    rw [← List.dropLast_concat_getLast hne, ← List.append_assoc] at hsegments
    obtain ⟨hfront, -⟩ := List.append_inj' hsegments rfl
    by_cases hlone : rest.dropLast = []
    · rw [hlone, List.append_nil] at hfront
      exact .inl (eq_of_segments_eq hfront.symm)
    · exact .inr ⟨rest.dropLast, hlone, hfront⟩
  · rintro (rfl | ⟨rest, hne, hsegments⟩)
    · exact ⟨[segment.text], List.cons_ne_nil _ _, rfl⟩
    · exact ⟨rest ++ [segment.text], by simp, by rw [hsegments, List.append_assoc]⟩

theorem isBelow_trans {a b c : TenantId} (hab : a.isBelow b = true) (hbc : b.isBelow c = true) :
    a.isBelow c = true := by
  obtain ⟨rest, -, ha⟩ := isBelow_iff_segments.1 hab
  obtain ⟨rest', hne, hb⟩ := isBelow_iff_segments.1 hbc
  refine isBelow_iff_segments.2 ⟨rest' ++ rest, by simp [hne], ?_⟩
  rw [ha, hb, List.append_assoc]

theorem isBelow_of_parent?_eq_none {id other : TenantId} (hnone : id.parent? = none) :
    id.isBelow other = false := by
  rw [← Bool.not_eq_true, isBelow_iff_segments]
  rintro ⟨rest, hne, hsegments⟩
  have hdepth : id.segments.length - 1 = 0 := depth_eq_zero_iff.2 hnone
  have hother : 0 < other.segments.length := List.length_pos_iff.2 other.segments_ne_nil
  have hrest : 0 < rest.length := List.length_pos_iff.2 hne
  rw [hsegments, List.length_append] at hdepth
  omega

theorem ancestors_of_parent?_eq_none {id : TenantId} (hnone : id.parent? = none) :
    id.ancestors = [] := by
  rw [ancestors]
  split
  · rfl
  · next parent hsome =>
    rw [hnone] at hsome
    cases hsome

@[simp] theorem ancestors_child (id : TenantId) (segment : Segment) :
    (id.child segment).ancestors = id.ancestors ++ [id] := by
  rw [ancestors]
  split
  · next hnone =>
    rw [parent?_child] at hnone
    cases hnone
  · next parent hsome =>
    rw [parent?_child] at hsome
    cases hsome
    rfl

theorem mem_ancestors_iff {id other : TenantId} :
    other ∈ id.ancestors ↔ id.isBelow other = true := by
  induction id using childInduction with
  | root id hnone =>
      rw [ancestors_of_parent?_eq_none hnone, isBelow_of_parent?_eq_none hnone]
      simp
  | child id segment ih =>
      rw [ancestors_child, isBelow_child_iff, List.mem_append, List.mem_singleton, ih]
      exact Or.comm

theorem depth_lt_of_isBelow {id other : TenantId} (h : id.isBelow other = true) :
    other.depth < id.depth := by
  obtain ⟨rest, hne, hsegments⟩ := isBelow_iff_segments.1 h
  have hother : 0 < other.segments.length := List.length_pos_iff.2 other.segments_ne_nil
  have hrest : 0 < rest.length := List.length_pos_iff.2 hne
  unfold depth
  rw [hsegments, List.length_append]
  omega

end TenantId

end TenantIam
