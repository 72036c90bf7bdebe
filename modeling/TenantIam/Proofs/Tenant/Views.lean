import TenantIam.Proofs.Tenant.Growth
import TenantIam.Proofs.Tenant.Keys

/-!
# The hierarchy seen twice

The tenants below a tenant are found in two ways: the tree is grown along the parents that are
named, and the list is made by comparing identifiers. In a forest the two agree, and so do the
tenants above with the parents, the parents of the parents, and so on. Runs of creations keep it
that way.
-/

namespace TenantIam

namespace TenantStore

variable {s : TenantStore} {t : Tenant} {id other : TenantId}

/-- **The parents above.** A tenant that names no parent has none; above one that names a parent are
the parent, which is stored, and the parents above that one. The list goes from the root down. -/
inductive ParentChain (s : TenantStore) : Tenant → List Tenant → Prop
  | root {t : Tenant} (hnone : t.parentId = none) : ParentChain s t []
  | link {t parent : Tenant} {parentId : TenantId} {above : List Tenant}
      (hparent : t.parentId = some parentId) (hget : s.get? parentId = some parent)
      (habove : ParentChain s parent above) : ParentChain s t (above ++ [parent])

theorem ParentChain.unique {above above' : List Tenant} (h : s.ParentChain t above)
    (h' : s.ParentChain t above') : above = above' := by
  induction h generalizing above' with
  | root hnone =>
      cases h' with
      | root => rfl
      | link hparent _ _ =>
          rw [hnone] at hparent
          cases hparent
  | link hparent hget _ ih =>
      cases h' with
      | root hnone =>
          rw [hnone] at hparent
          cases hparent
      | link hparent' hget' habove' =>
          cases hparent.symm.trans hparent'
          cases hget.symm.trans hget'
          rw [ih habove']

theorem mem_descendants_iff :
    other ∈ s.descendants id ↔ (∃ u ∈ s.tenants, u.id = other) ∧ other.isBelow id = true := by
  unfold descendants
  simp only [List.mem_map, List.mem_filter]
  constructor
  · rintro ⟨u, ⟨hu, hbelow⟩, rfl⟩
    exact ⟨⟨u, hu, rfl⟩, hbelow⟩
  · rintro ⟨⟨u, hu, rfl⟩, hbelow⟩
    exact ⟨u, ⟨hu, hbelow⟩, rfl⟩

theorem Keyed.nodup_descendants (h : s.Keyed) (id : TenantId) : (s.descendants id).Nodup :=
  h.nodup_filter _

/-- The tree of a stored tenant is grown from the other tenants. -/
theorem exists_tree_eq (hget : s.get? id = some t) :
    ∃ trees left, s.tree id = .ok (.node t trees) ∧
      TenantTree.Grows id (s.tenants.filter (·.id ≠ id)) trees left := by
  obtain ⟨trees, left, hbuild, hgrows⟩ := TenantTree.exists_build_eq_node hget
  refine ⟨trees, left, ?_, hgrows⟩
  unfold tree
  rw [hbuild]

namespace IsForest

theorem isBelow_parent (h : s.IsForest) (ht : t ∈ s.tenants) (hparent : t.parentId = some id) :
    t.id.isBelow id = true := by
  obtain ⟨habove, -⟩ := h.of_parentId ht hparent
  obtain ⟨segment, hchild⟩ := TenantId.parent?_eq_some_iff.1 habove
  rw [hchild]
  exact TenantId.isBelow_child_iff.2 (.inl rfl)

section Grown

variable {trees : List TenantTree} {left : List Tenant}

theorem mem_descendants_of_mem (h : s.IsForest) (hkeyed : s.Keyed)
    (hgrows : TenantTree.Grows id (s.tenants.filter (·.id ≠ id)) trees left)
    (hother : other ∈ TenantTree.descendantsOfAll trees) : other ∈ s.descendants id := by
  obtain ⟨u, hu, hid⟩ := (hgrows.mem_or_left_iff (hkeyed.nodup_filter _)).1 (.inl hother)
  refine mem_descendants_iff.2 ⟨⟨u, List.mem_of_mem_filter hu, hid⟩, ?_⟩
  exact hgrows.isBelow (fun v hv _ => h.isBelow_parent (List.mem_of_mem_filter hv)) other hother

/-- A tenant that is left would have its parent on the tree, so all below the top are taken. -/
theorem mem_of_mem_descendants (h : s.IsForest) (hkeyed : s.Keyed)
    (hgrows : TenantTree.Grows id (s.tenants.filter (·.id ≠ id)) trees left)
    (hother : other ∈ s.descendants id) : other ∈ TenantTree.descendantsOfAll trees := by
  rw [mem_descendants_iff] at hother
  obtain ⟨hstored, hbelow⟩ := hother
  -- the induction is down the tree
  induction other using TenantId.childInduction with
  | root other hnone =>
      rw [TenantId.isBelow_of_parent?_eq_none hnone] at hbelow
      cases hbelow
  | child above segment ih =>
      obtain ⟨u, hu, hid⟩ := hstored
      have hne : u.id ≠ id := by
        rintro rfl
        rw [hid] at hbelow
        exact absurd (TenantId.depth_lt_of_isBelow hbelow) (Nat.lt_irrefl _)
      have hfree : u ∈ s.tenants.filter (·.id ≠ id) :=
        List.mem_filter.2 ⟨hu, decide_eq_true hne⟩
      rcases (hgrows.mem_or_left_iff (hkeyed.nodup_filter _)).2 ⟨u, hfree, hid⟩ with
        htaken | ⟨v, hv, hvid⟩
      · exact htaken
      · exfalso
        obtain ⟨hself, hunder⟩ := hgrows.closed hv
        have hdepth : v.id.depth ≠ 0 := by
          rw [hvid, TenantId.depth_child]
          omega
        obtain ⟨parent, hparent, hnamed, hget⟩ :=
          h.linked v (List.mem_of_mem_filter (hgrows.left_subset hv)) hdepth
        rw [hvid, TenantId.parent?_child] at hparent
        cases hparent
        rcases TenantId.isBelow_child_iff.1 hbelow with rfl | habove
        · exact hself hnamed
        · obtain ⟨p, hp⟩ := Option.isSome_iff_exists.1 hget
          exact hunder above (ih ⟨p, mem_of_get? hp, id_of_get? hp⟩ habove) hnamed

/-- **What is grown is what is below.** -/
theorem mem_descendantsOfAll_iff (h : s.IsForest) (hkeyed : s.Keyed)
    (hgrows : TenantTree.Grows id (s.tenants.filter (·.id ≠ id)) trees left) :
    other ∈ TenantTree.descendantsOfAll trees ↔ other ∈ s.descendants id :=
  ⟨h.mem_descendants_of_mem hkeyed hgrows, h.mem_of_mem_descendants hkeyed hgrows⟩

end Grown

/-- **The tenants above are the parents above**, from the root down. -/
theorem parentChain (h : s.IsForest) (ht : t ∈ s.tenants) :
    s.ParentChain t (s.ancestors t.id) := by
  generalize hid : t.id = id
  induction id using TenantId.childInduction generalizing t with
  | root id hnone =>
      have hdepth : t.id.depth = 0 := by rw [hid, TenantId.depth_eq_zero_iff.2 hnone]
      rw [ancestors, TenantId.ancestors_of_parent?_eq_none hnone]
      exact .root (h.roots t ht hdepth)
  | child id segment ih =>
      have hdepth : t.id.depth ≠ 0 := by
        rw [hid, TenantId.depth_child]
        omega
      obtain ⟨above, habove, hnamed, hstored⟩ := h.linked t ht hdepth
      rw [hid, TenantId.parent?_child] at habove
      cases habove
      obtain ⟨parent, hget⟩ := Option.isSome_iff_exists.1 hstored
      have hchain : s.ancestors (id.child segment) = s.ancestors id ++ [parent] := by
        unfold ancestors
        rw [TenantId.ancestors_child, List.filterMap_append]
        simp [hget]
      rw [hchain]
      exact .link hnamed hget (ih (mem_of_get? hget) (id_of_get? hget))

end IsForest

end TenantStore

namespace Creation

/-- **Two views of the hierarchy.** Whatever store was made of a list and any changes: if it is a
forest, then after any creations the tree of a stored tenant and the list of the identifiers below
it hold the same identifiers, each once, and as many as the tree counts; and the tenants above a
stored one are the parents above it, from the root down. -/
theorem run_views (initial : List Tenant) (changes : List TenantStore.Operation)
    (maxDepth : Number) (calls : List Call)
    (hforest : ((TenantStore.ofList initial).run changes).IsForest) :
    let s := run maxDepth ((TenantStore.ofList initial).run changes) calls
    ∀ t ∈ s.tenants,
      (∃ tree, s.tree t.id = .ok tree ∧
        tree.descendants.Nodup ∧ (s.descendants t.id).Nodup ∧
        (∀ id, id ∈ tree.descendants ↔ id ∈ s.descendants t.id) ∧
        tree.count = tree.descendants.length ∧ tree.count = (s.descendants t.id).length) ∧
      (s.ParentChain t (s.ancestors t.id) ∧
        ∀ above, s.ParentChain t above → above = s.ancestors t.id) := by
  intro s t ht
  have hs : s.IsForest := run_isForest hforest maxDepth calls
  have hkeyed : s.Keyed := run_keyed ((TenantStore.keyed_ofList initial).run changes) maxDepth calls
  have hchain := hs.parentChain ht
  refine ⟨?_, hchain, fun above habove => habove.unique hchain⟩
  obtain ⟨trees, left, htree, hgrows⟩ := TenantStore.exists_tree_eq (hkeyed.get?_eq ht)
  have hmem (id : TenantId) :
      id ∈ TenantTree.descendantsOfAll trees ↔ id ∈ s.descendants t.id :=
    hs.mem_descendantsOfAll_iff hkeyed hgrows
  have hnodup : (TenantTree.descendantsOfAll trees).Nodup := hgrows.nodup (hkeyed.nodup_filter _)
  have hlist := hkeyed.nodup_descendants t.id
  have hcount := TenantTree.count_eq_length (.node t trees)
  refine ⟨_, htree, hnodup, hlist, hmem, hcount, hcount.trans ?_⟩
  exact ((List.perm_ext_iff_of_nodup hnodup hlist).2 hmem).length_eq

/-- A department that is listed before its root and a second root whose identifier starts like the
first: after a detour over a tenant that is removed again, three creations, of which one fails,
leave two tenants on the tree of the root, and two tenants above the deepest one. -/
theorem run_views_department :
    let acme : TenantId := .root ⟨"acme", by decide, by decide⟩
    let sales : TenantId := acme.child ⟨"sales", by decide, by decide⟩
    let east : TenantId := sales.child ⟨"east", by decide, by decide⟩
    let other : TenantId := .root ⟨"acme2", by decide, by decide⟩
    let root (id : TenantId) : Tenant := .fresh id id.text none none ⟨0⟩
    let department : Tenant := .fresh sales "sales" (some acme) none ⟨0⟩
    let call (parentId : TenantId) (name : String) : Call :=
      { now := ⟨1⟩, parentId, name, options := {} }
    let s := run 5
      ((TenantStore.ofList [department, root acme, root other]).run
        [.create (.fresh east "east" none none ⟨0⟩), .delete east])
      [call sales "east", call other "sales", call sales "east"]
    s.tenants.map (·.id.text) = ["acme/sales", "acme", "acme2", "acme/sales/east", "acme2/sales"] ∧
      (∃ tree, s.tree acme = .ok tree ∧ tree.count = 2 ∧ tree.descendants.Nodup ∧
        ∀ id, id ∈ tree.descendants ↔ id = sales ∨ id = east) ∧
      ∃ t ∈ s.tenants, t.id = east ∧ s.ParentChain t [root acme, department] := by
  intro acme sales east other root department call s
  let initial : List Tenant := [department, root acme, root other]
  let changes : List TenantStore.Operation :=
    [.create (.fresh east "east" none none ⟨0⟩), .delete east]
  have hstart : (TenantStore.ofList initial).run changes = ⟨initial⟩ := by decide +kernel
  have hforest : ((TenantStore.ofList initial).run changes).IsForest := by
    rw [hstart]
    refine ⟨by decide +kernel, fun t ht hdepth => ?_⟩
    have ht' : t = department ∨ t = root acme ∨ t = root other := by simpa [initial] using ht
    rcases ht' with rfl | rfl | rfl
    · exact ⟨acme, TenantId.parent?_child _ _, rfl, by decide +kernel⟩
    · exact absurd (by decide +kernel) hdepth
    · exact absurd (by decide +kernel) hdepth
  have hviews (t : Tenant) (ht : t ∈ s.tenants) :=
    run_views initial changes 5
      [call sales "east", call other "sales", call sales "east"] hforest t ht
  have hlist : s.descendants acme = [sales, east] := by decide +kernel
  refine ⟨by decide +kernel, ?_, ?_⟩
  · obtain ⟨⟨tree, htree, hnodup, -, hmem, -, hcount⟩, -⟩ := hviews (root acme) (by decide +kernel)
    refine ⟨tree, htree, hcount.trans ?_, hnodup, fun id => (hmem id).trans ?_⟩
    · show (s.descendants acme).length = 2
      rw [hlist]
      rfl
    · show id ∈ s.descendants acme ↔ _
      rw [hlist]
      simp
  · obtain ⟨t, ht, hid⟩ : ∃ t ∈ s.tenants, t.id = east := by decide +kernel
    obtain ⟨-, hchain, -⟩ := hviews t ht
    have habove : s.ancestors t.id = [root acme, department] := by
      rw [hid]
      decide +kernel
    rw [habove] at hchain
    exact ⟨t, ht, hid, hchain⟩

end Creation

end TenantIam
