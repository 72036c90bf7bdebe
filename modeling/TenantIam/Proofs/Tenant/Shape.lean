import TenantIam.Proofs.Tenant.Growth
import TenantIam.Proofs.Tenant.Positions

/-!
# The shape of a tree

Where no two tenants of a list have one identifier, the tree below one of them is determined by the
parents that they name, whatever these are: parents that the list does not have, tenants that name
themselves, and circles. At every position below the top stands a tenant with all those of the list
that name it, in the order of the list; the top alone is not attached to the tenant that it names.

That a tenant at a position gets all who name it does not follow from its own growth, which sees
only the tenants that are free by then. The invariant is that nobody outside the free ones names one
of them: what is taken off the list with a tenant names a tenant that is taken off as well.
-/

namespace TenantIam

namespace TenantTree

/-- Leaving out what a test refuses changes nothing that passes it. -/
theorem filter_eq_of_sublist {α : Type*} {p : α → Bool} {l₁ l₂ : List α} (h : l₁.Sublist l₂)
    (hnodup : l₂.Nodup) (hall : ∀ a ∈ l₂, p a → a ∈ l₁) : l₁.filter p = l₂.filter p := by
  induction h with
  | slnil => rfl
  | @cons l₁ l₂ a hsub ih =>
      obtain ⟨ha, hnodup⟩ := List.nodup_cons.1 hnodup
      have hrefused : ¬p a := fun hp => ha (hsub.subset (hall a List.mem_cons_self hp))
      rw [List.filter_cons_of_neg hrefused]
      exact ih hnodup fun b hb => hall b (List.mem_cons_of_mem _ hb)
  | @cons_cons l₁ l₂ a hsub ih =>
      obtain ⟨ha, hnodup⟩ := List.nodup_cons.1 hnodup
      have hrest : l₁.filter p = l₂.filter p := by
        refine ih hnodup fun b hb hp => ?_
        rcases List.mem_cons.1 (hall b (List.mem_cons_of_mem _ hb) hp) with rfl | hb'
        · exact absurd hb ha
        · exact hb'
      rw [List.filter_cons, List.filter_cons, hrest]

section Keyed

variable {p : Tenant → Bool} {free : List Tenant} {t u w : Tenant}

theorem mem_filter_ne_iff {id : TenantId} :
    u ∈ free.filter (·.id ≠ id) ↔ u ∈ free ∧ u.id ≠ id := by
  rw [List.mem_filter, decide_eq_true_iff]

theorem nodup_filter_ids (hkeys : (free.map (·.id)).Nodup) (p : Tenant → Bool) :
    ((free.filter p).map (·.id)).Nodup :=
  hkeys.sublist (List.filter_sublist.map _)

/-- What passes a test is the first that does and the others. -/
theorem filter_eq_cons_of_find? (hkeys : (free.map (·.id)).Nodup) (hfind : free.find? p = some t) :
    free.filter p = t :: (free.filter (·.id ≠ t.id)).filter p := by
  have hhead : (free.filter p).head? = some t := by rw [List.head?_filter, hfind]
  obtain ⟨others, hothers⟩ := List.head?_eq_some_iff.1 hhead
  have hnodup := nodup_filter_ids hkeys p
  rw [hothers] at hnodup
  have hne : ∀ u ∈ others, u.id ≠ t.id := fun u hu hid =>
    (List.nodup_cons.1 hnodup).1 (List.mem_map.2 ⟨u, hu, hid⟩)
  rw [List.filter_comm, hothers, List.filter_cons_of_neg (by simp), List.filter_eq_self.2]
  simpa using hne

theorem eq_of_id_eq (hkeys : (free.map (·.id)).Nodup) (hu : u ∈ free) (hw : w ∈ free)
    (hid : u.id = w.id) : u = w :=
  List.inj_on_of_nodup_map hkeys hu hw hid

end Keyed

namespace Grows

variable {parent : TenantId} {free left : List Tenant} {trees : List TenantTree} {u : Tenant}

theorem nodup_left (h : Grows parent free trees left) (hkeys : (free.map (·.id)).Nodup) :
    (left.map (·.id)).Nodup :=
  hkeys.sublist (h.left_sublist.map _)

theorem mem_left (h : Grows parent free trees left) (hkeys : (free.map (·.id)).Nodup)
    (hu : u ∈ free) (hnot : u.id ∉ descendantsOfAll trees) : u ∈ left := by
  obtain hmem | ⟨w, hw, hid⟩ := (h.mem_or_left_iff hkeys).2 ⟨u, hu, rfl⟩
  · exact absurd hmem hnot
  · rwa [eq_of_id_eq hkeys hu (h.left_subset hw) hid.symm]

theorem notMem_of_mem_left (h : Grows parent free trees left) (hkeys : (free.map (·.id)).Nodup)
    (hu : u ∈ left) : u.id ∉ descendantsOfAll trees := fun hmem =>
  List.disjoint_of_nodup_append ((h.perm hkeys).nodup_iff.2 hkeys) hmem (List.mem_map_of_mem hu)

/-- The tenants on the trees name the top or one another. -/
theorem named (h : Grows parent free trees left) (hkeys : (free.map (·.id)).Nodup) (hu : u ∈ free)
    (hmem : u.id ∈ descendantsOfAll trees) :
    u.parentId = some parent ∨ ∃ id ∈ descendantsOfAll trees, u.parentId = some id := by
  induction h with
  | done hnone => cases hmem
  | @attach parent free rest left t below siblings hfind hbelow hsiblings ihbelow ihsiblings =>
      have hfiltered := nodup_filter_ids hkeys (·.id ≠ t.id)
      simp only [mem_descendantsOfAll_cons_iff] at hmem ⊢
      by_cases hid : u.id = t.id
      · -- the first tenant on the trees names the top
        rw [eq_of_id_eq hkeys hu (List.mem_of_find?_eq_some hfind) hid]
        exact .inl (by simpa using List.find?_some hfind)
      · have hu' : u ∈ free.filter (·.id ≠ t.id) := mem_filter_ne_iff.2 ⟨hu, hid⟩
        by_cases hunder : u.id ∈ descendantsOfAll below
        · obtain hnamed | ⟨id, hid', hnamed⟩ := ihbelow hfiltered hu' hunder
          · exact .inr ⟨t.id, .inl rfl, hnamed⟩
          · exact .inr ⟨id, .inr (.inl hid'), hnamed⟩
        · have hlater := (hmem.resolve_left hid).resolve_left hunder
          have hrest := hbelow.mem_left hfiltered hu' hunder
          obtain hnamed | ⟨id, hid', hnamed⟩ :=
            ihsiblings (hbelow.nodup_left hfiltered) hrest hlater
          · exact .inl hnamed
          · exact .inr ⟨id, .inr (.inr hid'), hnamed⟩

/-- **The tenants right below the top** are those of the list that name it, in their order. -/
theorem children_eq (h : Grows parent free trees left) (hkeys : (free.map (·.id)).Nodup)
    (hparent : ∀ u ∈ free, u.id ≠ parent) :
    trees.map tenant = free.filter (·.parentId = some parent) := by
  induction h with
  | done hnone =>
      exact (List.filter_eq_nil_iff.2 (List.find?_eq_none.1 hnone)).symm
  | @attach parent free rest left t below siblings hfind hbelow hsiblings ihbelow ihsiblings =>
      have hfiltered := nodup_filter_ids hkeys (·.id ≠ t.id)
      have hrest : rest ⊆ free := fun u hu => List.mem_of_mem_filter (hbelow.left_subset hu)
      -- who names the top names nobody below it, so it is still free after the first tenant
      have hfree : ∀ u ∈ free.filter (·.id ≠ t.id), u.parentId = some parent → u ∈ rest := by
        intro u hu hnamed
        refine hbelow.mem_left hfiltered hu fun hmem => ?_
        obtain htop | ⟨id, hid, hunder⟩ := hbelow.named hfiltered hu hmem
        · have hid : t.id = parent := Option.some.inj (htop.symm.trans hnamed)
          exact hparent t (List.mem_of_find?_eq_some hfind) hid
        · cases hunder.symm.trans hnamed
          obtain ⟨w, hw, hid⟩ := (hbelow.mem_or_left_iff hfiltered).1 (.inl hid)
          exact hparent w (List.mem_of_mem_filter hw) hid
      have hothers : rest.filter (·.parentId = some parent) =
          (free.filter (·.id ≠ t.id)).filter (·.parentId = some parent) :=
        filter_eq_of_sublist hbelow.left_sublist hfiltered.of_map fun u hu hnamed =>
          hfree u hu (by simpa using hnamed)
      rw [filter_eq_cons_of_find? hkeys hfind, ← hothers,
        ← ihsiblings (hbelow.nodup_left hfiltered) fun u hu => hparent u (hrest hu)]
      rfl

end Grows

/-- **The invariant of growth.** Nobody on the whole list names a tenant that is free without being
free as well. -/
def NamedWithin (all free : List Tenant) : Prop :=
  ∀ u ∈ all, ∀ w ∈ free, u.parentId = some w.id → u ∈ free

section NamedWithin

variable {parent : TenantId} {free left all : List Tenant} {trees : List TenantTree} {t : Tenant}

/-- A tenant that names nobody who is free may be taken off. -/
theorem NamedWithin.filter_ne (h : NamedWithin all free) (hkeys : (all.map (·.id)).Nodup)
    (hsub : free ⊆ all) (ht : t ∈ free) (hnames : ∀ w ∈ free, t.parentId ≠ some w.id) {u w : Tenant}
    (hu : u ∈ all) (hw : w ∈ free) (hnamed : u.parentId = some w.id) :
    u ∈ free.filter (·.id ≠ t.id) := by
  refine mem_filter_ne_iff.2 ⟨h u hu w hw hnamed, fun hid => ?_⟩
  rw [eq_of_id_eq hkeys hu (hsub ht) hid] at hnamed
  exact hnames w hw hnamed

/-- The trees below a tenant may be taken off: who is on them names the tenant or one another. -/
theorem NamedWithin.grows (h : NamedWithin all free) (hgrows : Grows parent free trees left)
    (hkeys : (free.map (·.id)).Nodup) (hparent : ∀ u ∈ free, u.id ≠ parent) :
    NamedWithin all left := by
  intro u hu w hw hnamed
  have hfree := h u hu w (hgrows.left_subset hw) hnamed
  refine hgrows.mem_left hkeys hfree fun hmem => ?_
  obtain htop | ⟨id, hid, hunder⟩ := hgrows.named hkeys hfree hmem
  · have hid : w.id = parent := Option.some.inj (hnamed.symm.trans htop)
    exact hparent w (hgrows.left_subset hw) hid
  · cases hnamed.symm.trans hunder
    exact hgrows.notMem_of_mem_left hkeys hw hid

/-- **The tenants right below another position** are those of the whole list that name the tenant
there, in their order. -/
theorem Grows.children_at {top : Tenant} {p : List Nat} {v : TenantTree}
    (h : Grows parent free trees left) (hkeys : (all.map (·.id)).Nodup) (hfree : free.Sublist all)
    (hparent : ∀ u ∈ free, u.id ≠ parent) (hwithin : NamedWithin all free) (hp : p ≠ [])
    (hat : (node top trees).at? p = some v) :
    v.tenant ∈ free ∧ v.children.map tenant = all.filter (·.parentId = some v.tenant.id) := by
  induction h generalizing top p with
  | done hnone =>
      cases p with
      | nil => exact absurd rfl hp
      | cons i p => cases hat
  | @attach parent free rest left t below siblings hfind hbelow hsiblings ihbelow ihsiblings =>
      have hfiltered := nodup_filter_ids (hkeys.sublist (hfree.map _)) (·.id ≠ t.id)
      have ht : t ∈ free := List.mem_of_find?_eq_some hfind
      have hnames : ∀ w ∈ free, t.parentId ≠ some w.id := by
        intro w hw hnamed
        have htop : t.parentId = some parent := by simpa using List.find?_some hfind
        exact hparent w hw (Option.some.inj (hnamed.symm.trans htop))
      have hne : ∀ u ∈ free.filter (·.id ≠ t.id), u.id ≠ t.id := fun u hu =>
        (mem_filter_ne_iff.1 hu).2
      have hinner : NamedWithin all (free.filter (·.id ≠ t.id)) := fun u hu w hw =>
        hwithin.filter_ne hkeys hfree.subset ht hnames hu (List.mem_of_mem_filter hw)
      rcases p with _ | ⟨_ | i, p⟩
      · exact absurd rfl hp
      · cases p with
        | nil =>
            -- the first tenant: its growth gets all who name it, since they are all free
            cases hat
            refine ⟨ht, (hbelow.children_eq hfiltered hne).trans (filter_eq_of_sublist ?_ ?_ ?_)⟩
            · exact List.filter_sublist.trans hfree
            · exact hkeys.of_map
            · exact fun u hu hnamed =>
                hwithin.filter_ne hkeys hfree.subset ht hnames hu ht (of_decide_eq_true hnamed)
        | cons j p =>
            obtain ⟨hv, hchildren⟩ := ihbelow (List.filter_sublist.trans hfree) hne hinner
              (List.cons_ne_nil j p) hat
            exact ⟨List.mem_of_mem_filter hv, hchildren⟩
      · have hrest : rest.Sublist free := hbelow.left_sublist.trans List.filter_sublist
        have hat' : (node top siblings).at? (i :: p) = some v := hat
        obtain ⟨hv, hchildren⟩ := ihsiblings (hrest.trans hfree)
          (fun u hu => hparent u (hrest.subset hu)) (hinner.grows hbelow hfiltered hne)
          (List.cons_ne_nil i p) hat'
        exact ⟨hrest.subset hv, hchildren⟩

end NamedWithin

/-- **The tree that the parents of a list determine.** -/
structure IsShape (tenants : List Tenant) (root : TenantId) (tree : TenantTree) : Prop where
  /-- The root is at the top. -/
  top : tree.tenant.id = root
  /-- At every position stands a tenant of the list. -/
  tenant_mem : ∀ p v, tree.at? p = some v → v.tenant ∈ tenants
  /-- Every tenant but the top one names the one above it. -/
  parentId_child : ∀ p v, tree.at? p = some v → ∀ child ∈ v.children,
    child.tenant.parentId = some v.tenant.id
  /-- Right below a tenant are all those that name it but the root, in the order of the list. -/
  children_eq : ∀ p v, tree.at? p = some v →
    v.children.map tenant = tenants.filter fun u => u.parentId = some v.tenant.id ∧ u.id ≠ root
  /-- No identifier is there twice. -/
  nodup : (root :: tree.descendants).Nodup
  /-- Those that are there are those from which the parents lead to the root. -/
  mem_iff : ∀ id, id ∈ root :: tree.descendants ↔
    (∃ u ∈ tenants, u.id = id) ∧ Relation.ReflTransGen (Names tenants) id root
  /-- They are counted. -/
  count_eq : tree.count = tree.descendants.length
  /-- They are listed in the order of their positions, which is that of words: all positions but
  that of the top, once each. -/
  descendants_eq : ∃ positions : List (List Nat),
    positions.Pairwise (· < ·) ∧ (∀ p, p ∈ positions ↔ p ≠ [] ∧ (tree.at? p).isSome) ∧
    tree.descendants.map some = positions.map fun p => (tree.at? p).map (·.tenant.id)

section Build

variable {tenants left : List Tenant} {root id : TenantId} {trees : List TenantTree}

/-- Who is on the tree are those from which the parents lead to the top. -/
theorem Grows.mem_iff (h : Grows root (tenants.filter (·.id ≠ root)) trees left)
    (hkeys : (tenants.map (·.id)).Nodup) (hroot : ∃ t ∈ tenants, t.id = root) :
    id ∈ root :: descendantsOfAll trees ↔
      (∃ u ∈ tenants, u.id = id) ∧ Relation.ReflTransGen (Names tenants) id root := by
  have hfiltered := nodup_filter_ids hkeys (·.id ≠ root)
  constructor
  · intro hid
    rcases List.mem_cons.1 hid with rfl | hid
    · exact ⟨hroot, .refl⟩
    · obtain ⟨u, hu, rfl⟩ := (h.mem_or_left_iff hfiltered).1 (.inl hid)
      have hchain := h.transGen u.id hid
      exact ⟨⟨u, List.mem_of_mem_filter hu, rfl⟩, Relation.TransGen.to_reflTransGen
        (Relation.TransGen.mono (fun _ _ => Names.mono (List.filter_subset_self _)) _ _ hchain)⟩
  · rintro ⟨-, hchain⟩
    -- from the top down: who names a tenant on the tree is not left
    induction hchain using Relation.ReflTransGen.head_induction_on with
    | refl => exact List.mem_cons_self
    | @head id above hnames _ ih =>
        obtain ⟨u, hu, rfl, hnamed⟩ := hnames
        by_cases htop : u.id = root
        · exact htop ▸ List.mem_cons_self
        · have hfree : u ∈ tenants.filter (·.id ≠ root) :=
            mem_filter_ne_iff.2 ⟨hu, htop⟩
          by_contra hnot
          have hleft := h.mem_left hfiltered hfree fun hmem => hnot (List.mem_cons_of_mem _ hmem)
          obtain ⟨hnotroot, hnotbelow⟩ := h.closed hleft
          rcases List.mem_cons.1 ih with rfl | ih
          · exact hnotroot hnamed
          · exact hnotbelow above ih hnamed

/-- Everywhere on the tree, right below a tenant are all others that name it but the root. -/
theorem Grows.children_of_at {t : Tenant} {p : List Nat} {v : TenantTree}
    (h : Grows root (tenants.filter (·.id ≠ root)) trees left) (hkeys : (tenants.map (·.id)).Nodup)
    (ht : t ∈ tenants) (htop : t.id = root) (hat : (node t trees).at? p = some v) :
    v.tenant ∈ tenants ∧ v.children.map tenant =
      tenants.filter fun u => u.parentId = some v.tenant.id ∧ u.id ≠ root := by
  have hfiltered := nodup_filter_ids hkeys (·.id ≠ root)
  have hne : ∀ u ∈ tenants.filter (·.id ≠ root), u.id ≠ root := fun u hu =>
    (mem_filter_ne_iff.1 hu).2
  have hboth (id : TenantId) : (tenants.filter (·.id ≠ root)).filter (·.parentId = some id) =
      tenants.filter fun u => u.parentId = some id ∧ u.id ≠ root := by
    simp only [List.filter_filter, Bool.decide_and]
  rw [← hboth]
  cases p with
  | nil =>
      cases hat
      subst htop
      exact ⟨ht, h.children_eq hfiltered hne⟩
  | cons i p =>
      obtain ⟨hv, hchildren⟩ := h.children_at hfiltered (.refl _) hne (fun u hu _ _ _ => hu)
        (List.cons_ne_nil i p) hat
      exact ⟨List.mem_of_mem_filter hv, hchildren⟩

theorem Grows.isShape {t : Tenant} (h : Grows root (tenants.filter (·.id ≠ root)) trees left)
    (hkeys : (tenants.map (·.id)).Nodup) (ht : t ∈ tenants) (htop : t.id = root) :
    IsShape tenants root (node t trees) where
  top := htop
  tenant_mem p v hat := (h.children_of_at hkeys ht htop hat).1
  parentId_child p v hat child hchild := by
    have hmem : child.tenant ∈ v.children.map tenant := List.mem_map_of_mem hchild
    rw [(h.children_of_at hkeys ht htop hat).2] at hmem
    exact (of_decide_eq_true (List.mem_filter.1 hmem).2).1
  children_eq p v hat := (h.children_of_at hkeys ht htop hat).2
  nodup := by
    have hfiltered := nodup_filter_ids hkeys (·.id ≠ root)
    refine List.nodup_cons.2 ⟨fun hroot => ?_, h.nodup hfiltered⟩
    obtain ⟨u, hu, hid⟩ := (h.mem_or_left_iff hfiltered).1 (.inl hroot)
    exact (mem_filter_ne_iff.1 hu).2 hid
  mem_iff id := h.mem_iff hkeys ⟨t, ht, htop⟩
  count_eq := count_eq_length _
  descendants_eq :=
    ⟨positionsOfAll trees, pairwise_positionsOfAll trees, fun _ => mem_positionsOfAll_iff,
      map_positionsOfAll.symm⟩

theorem exists_of_map_tenant_eq_cons {t : Tenant} {ts : List Tenant}
    (h : trees.map tenant = t :: ts) :
    ∃ below siblings, trees = node t below :: siblings ∧ siblings.map tenant = ts := by
  obtain ⟨⟨t, below⟩, siblings, rfl, rfl, hsiblings⟩ := List.map_eq_cons_iff.1 h
  exact ⟨below, siblings, rfl, hsiblings⟩

/-- **The tree that is built.** Whatever parents the tenants of a list name, if no two of them have
one identifier, then below one of them the tree that the parents determine is built. -/
theorem exists_build_eq (tenants : List Tenant) (root : TenantId)
    (hkeys : (tenants.map (·.id)).Nodup) (hroot : ∃ t ∈ tenants, t.id = root) :
    ∃ tree, build tenants root = some tree ∧ IsShape tenants root tree := by
  obtain ⟨t, hfind⟩ : ∃ t, tenants.find? (·.id = root) = some t := by
    obtain ⟨t, ht, hid⟩ := hroot
    exact Option.isSome_iff_exists.1 (List.find?_isSome.2 ⟨t, ht, decide_eq_true hid⟩)
  obtain ⟨trees, left, hbuild, hgrows⟩ := exists_build_eq_node hfind
  have htop : t.id = root := by simpa using List.find?_some hfind
  exact ⟨_, hbuild, hgrows.isShape hkeys (List.mem_of_find?_eq_some hfind) htop⟩

/-- A root in a circle with two others, and a second tenant that names it: the circle is cut above
the root. A tenant that names itself and one whose parent is not on the list are not on the tree. -/
theorem exists_build_eq_circle :
    let root : TenantId := .root ⟨"root", by decide, by decide⟩
    let a : TenantId := .root ⟨"a", by decide, by decide⟩
    let b : TenantId := .root ⟨"b", by decide, by decide⟩
    let c : TenantId := .root ⟨"c", by decide, by decide⟩
    let self : TenantId := .root ⟨"self", by decide, by decide⟩
    let lost : TenantId := .root ⟨"lost", by decide, by decide⟩
    let gone : TenantId := .root ⟨"gone", by decide, by decide⟩
    let child (id parent : TenantId) : Tenant := .fresh id id.text (some parent) none ⟨0⟩
    let tenants :=
      [child b a, child root b, child a root, child self self, child lost gone, child c root]
    build tenants root =
      some (node (child root b)
        [node (child a root) [node (child b a) []], node (child c root) []]) := by
  intro root a b c self lost gone child tenants
  obtain ⟨⟨top, trees⟩, hbuild, hshape⟩ :=
    exists_build_eq tenants root (by decide +kernel) (by decide +kernel)
  have hchildren (p : List Nat) (t : Tenant) (below : List TenantTree)
      (hat : (node top trees).at? p = some (node t below)) : below.map tenant =
        tenants.filter fun u => u.parentId = some t.id ∧ u.id ≠ root :=
    hshape.children_eq p (node t below) hat
  have htop : top = child root b := by
    have hall : ∀ t ∈ tenants, t.id = root → t = child root b := by decide +kernel
    exact hall top (hshape.tenant_mem [] _ rfl) hshape.top
  -- level by level, the children are those of the list that name the tenant
  have hroot : trees.map tenant = [child a root, child c root] :=
    (hchildren [] top trees rfl).trans (by rw [htop]; decide +kernel)
  obtain ⟨undera, _, rfl, hothers⟩ := exists_of_map_tenant_eq_cons hroot
  obtain ⟨underc, _, rfl, hnone⟩ := exists_of_map_tenant_eq_cons hothers
  cases List.map_eq_nil_iff.1 hnone
  have ha : undera.map tenant = [child b a] :=
    (hchildren [0] _ undera rfl).trans (by decide +kernel)
  obtain ⟨underb, _, rfl, hnone⟩ := exists_of_map_tenant_eq_cons ha
  cases List.map_eq_nil_iff.1 hnone
  have hb : underb.map tenant = [] := (hchildren [0, 0] _ underb rfl).trans (by decide +kernel)
  have hc : underc.map tenant = [] := (hchildren [1] _ underc rfl).trans (by decide +kernel)
  rw [hbuild, htop, List.map_eq_nil_iff.1 hb, List.map_eq_nil_iff.1 hc]

end Build

end TenantTree

end TenantIam
