import Mathlib.Data.List.Nodup
import Mathlib.Logic.Relation
import TenantIam.Proofs.Tenant.Lineage
import TenantIam.Tenant.Tree

/-!
# How trees grow

Those of a list who have not been visited are free, and a tree takes tenants of them as it grows: a
tenant that is attached has been visited from then on. What the tree takes and what it leaves make
up the list; it leaves nobody who names one of its tenants as the parent, and it takes nobody from
whom the parents do not lead to its top.
-/

namespace TenantIam

namespace TenantTree

/-- **Parents.** A tenant of the list names a parent. -/
def Names (tenants : List Tenant) (id above : TenantId) : Prop :=
  ∃ u ∈ tenants, u.id = id ∧ u.parentId = some above

theorem Names.mono {tenants more : List Tenant} {id above : TenantId} (hsub : tenants ⊆ more)
    (h : Names tenants id above) : Names more id above := by
  obtain ⟨u, hu, hid, hnamed⟩ := h
  exact ⟨u, hsub hu, hid, hnamed⟩

theorem mem_descendantsOfAll_cons_iff {t : Tenant} {below siblings : List TenantTree}
    {id : TenantId} : id ∈ descendantsOfAll (node t below :: siblings) ↔
      id = t.id ∨ id ∈ descendantsOfAll below ∨ id ∈ descendantsOfAll siblings := by
  simp only [descendantsOfAll, descendants, tenant, List.cons_append, List.mem_cons,
    List.mem_append]

/-- **Growth.** From a list of tenants the trees below a tenant are grown, and some of the list are
left: as long as one of them names the tenant as the parent, the first such is taken off with the
trees below it. -/
inductive Grows : TenantId → List Tenant → List TenantTree → List Tenant → Prop
  | done {parent : TenantId} {free : List Tenant}
      (hnone : free.find? (·.parentId = some parent) = none) : Grows parent free [] free
  | attach {parent : TenantId} {free rest left : List Tenant} {t : Tenant}
      {below siblings : List TenantTree}
      (hfind : free.find? (·.parentId = some parent) = some t)
      (hbelow : Grows t.id (free.filter (·.id ≠ t.id)) below rest)
      (hsiblings : Grows parent rest siblings left) :
      Grows parent free (node t below :: siblings) left

/-- Whoever is looked for among those who have not been visited is not among those who have been
passed. -/
theorem find?_unvisited_append {passed : List Tenant} {parent : TenantId}
    {visited : List TenantId} (todo : List Tenant)
    (hpassed : ∀ u ∈ passed, u.parentId = some parent → u.id ∈ visited) :
    (unvisited (passed ++ todo) visited).find? (·.parentId = some parent) =
      (unvisited todo visited).find? (·.parentId = some parent) := by
  have hnone : (unvisited passed visited).find? (·.parentId = some parent) = none := by
    refine List.find?_eq_none.2 fun u hu hnamed => ?_
    obtain ⟨hmem, hnew⟩ := List.mem_filter.1 hu
    exact of_decide_eq_true hnew (hpassed u hmem (of_decide_eq_true hnamed))
  have happend : unvisited (passed ++ todo) visited =
      unvisited passed visited ++ unvisited todo visited := List.filter_append ..
  rw [happend, List.find?_append, hnone, Option.none_or]

/-- Whoever has been passed and names the tenant has been visited, the next one as well if that is
so of it. -/
theorem forall_mem_concat {passed : List Tenant} {parent : TenantId} {visited more : List TenantId}
    {t : Tenant} (hpassed : ∀ u ∈ passed, u.parentId = some parent → u.id ∈ visited)
    (hsub : visited ⊆ more) (ht : t.parentId = some parent → t.id ∈ more) :
    ∀ u ∈ passed ++ [t], u.parentId = some parent → u.id ∈ more := by
  intro u hu hnamed
  rcases List.mem_append.1 hu with hu | hu
  · exact hsub (hpassed u hu hnamed)
  · obtain rfl := List.mem_singleton.1 hu
    exact ht hnamed

/-- **One way through the list grows trees.** As long as those of the list who have been passed and
name the tenant have been visited, those who have not been visited are the free ones, before it and
after it. -/
theorem grows_attach {tenants passed : List Tenant} (parent : TenantId) (todo : List Tenant)
    (visited : List TenantId) (htenants : tenants = passed ++ todo) (htodo : todo ⊆ tenants)
    (hpassed : ∀ u ∈ passed, u.parentId = some parent → u.id ∈ visited) :
    Grows parent (unvisited tenants visited) (attach tenants parent todo htodo visited).val.1
      (unvisited tenants (attach tenants parent todo htodo visited).val.2) := by
  have hfind := find?_unvisited_append todo hpassed
  rw [← htenants] at hfind
  match todo with
  | [] =>
      rw [attach]
      exact .done hfind
  | t :: todo =>
      have hnext : tenants = (passed ++ [t]) ++ todo := by rw [htenants, List.append_assoc]; rfl
      have hrest : todo ⊆ tenants := List.Subset.trans (List.subset_cons_self t todo) htodo
      rw [attach]
      by_cases h : t.parentId = some parent ∧ t.id ∉ visited
      · -- the trees below the tenant go through the whole list anew, the next ones go on from here
        obtain ⟨hnamed, hnew⟩ := h
        have hfewer := length_unvisited_cons_lt (htodo List.mem_cons_self) hnew
        have hbelow := grows_attach t.id tenants (t.id :: visited) (List.nil_append tenants).symm
          (List.Subset.refl tenants) (fun u hu => by cases hu)
        rw [dif_pos ⟨hnamed, hnew⟩]
        rcases hattach : attach tenants t.id tenants (List.Subset.refl tenants) (t.id :: visited)
          with ⟨⟨below, seen⟩, hseen⟩
        rw [hattach, unvisited_cons] at hbelow
        have hvisited : visited ⊆ seen :=
          List.Subset.trans (List.subset_cons_self t.id visited) hseen
        have hsiblings := grows_attach parent todo seen hnext hrest
          (forall_mem_concat hpassed hvisited fun _ => hseen List.mem_cons_self)
        refine .attach (hfind.trans ?_) hbelow hsiblings
        simp [unvisited, hnamed, hnew]
      · rw [dif_neg h]
        refine grows_attach parent todo visited hnext hrest
          (forall_mem_concat hpassed (List.Subset.refl _) fun hnamed => ?_)
        by_contra hnew
        exact h ⟨hnamed, hnew⟩
termination_by ((unvisited tenants visited).length, todo.length)
decreasing_by
  · exact Prod.Lex.left _ _ hfewer
  · exact Prod.Lex.left _ _ (Nat.lt_of_le_of_lt (length_unvisited_le hseen) hfewer)
  · exact Prod.Lex.right _ (Nat.lt_succ_self _)

/-- The tree that is built below a tenant is grown from the others. -/
theorem exists_build_eq_node {tenants : List Tenant} {root : TenantId} {t : Tenant}
    (hfind : tenants.find? (·.id = root) = some t) :
    ∃ trees left, build tenants root = some (node t trees) ∧
      Grows root (tenants.filter (·.id ≠ root)) trees left := by
  have hothers : unvisited tenants [root] = tenants.filter (·.id ≠ root) := by
    rw [unvisited_cons]
    simp [unvisited]
  have hgrows := grows_attach root tenants [root] (List.nil_append tenants).symm
    (List.Subset.refl tenants) (fun u hu => by cases hu)
  rw [hothers] at hgrows
  refine ⟨_, _, ?_, hgrows⟩
  rw [build, hfind, Option.map_some]

namespace Grows

open scoped List

variable {parent : TenantId} {free left : List Tenant} {trees : List TenantTree}

theorem left_sublist (h : Grows parent free trees left) : left.Sublist free := by
  induction h with
  | done hnone => exact .refl _
  | attach _ _ _ hrest hleft => exact (hleft.trans hrest).trans List.filter_sublist

theorem left_subset (h : Grows parent free trees left) : left ⊆ free := h.left_sublist.subset

/-- Without the one tenant of an identifier a list has one identifier less. -/
theorem perm_filter_ne {t : Tenant} (hkeys : (free.map (·.id)).Nodup) (ht : t ∈ free) :
    (free.map (·.id)).Perm (t.id :: (free.filter (·.id ≠ t.id)).map (·.id)) := by
  have hfilter : (free.filter (·.id ≠ t.id)).map (·.id) = (free.map (·.id)).erase t.id := by
    rw [hkeys.erase_eq_filter, List.filter_map]
    congr 1
    apply List.filter_congr
    intro u _
    by_cases hid : u.id = t.id <;> simp [hid]
  rw [hfilter]
  exact List.perm_cons_erase (List.mem_map_of_mem ht)

/-- **Nothing is lost or taken twice.** The identifiers on the trees and those that are left are the
identifiers of the list. -/
theorem perm (h : Grows parent free trees left) (hkeys : (free.map (·.id)).Nodup) :
    (descendantsOfAll trees ++ left.map (·.id)).Perm (free.map (·.id)) := by
  induction h with
  | done hnone => exact .refl _
  | @attach parent free rest left t below siblings hfind _ _ ihbelow ihsiblings =>
      have hfree := perm_filter_ne hkeys (List.mem_of_find?_eq_some hfind)
      have hfiltered : ((free.filter (·.id ≠ t.id)).map (·.id)).Nodup :=
        hkeys.sublist (List.filter_sublist.map _)
      have htaken := ihbelow hfiltered
      have hrest : (rest.map (·.id)).Nodup :=
        (List.nodup_append.1 (htaken.nodup_iff.2 hfiltered)).2.1
      calc descendantsOfAll (node t below :: siblings) ++ left.map (·.id)
          = t.id :: (descendantsOfAll below ++
              (descendantsOfAll siblings ++ left.map (·.id))) := by
            simp [descendantsOfAll, descendants, tenant]
        _ ~ t.id :: (descendantsOfAll below ++ rest.map (·.id)) :=
            ((ihsiblings hrest).append_left _).cons _
        _ ~ t.id :: (free.filter (·.id ≠ t.id)).map (·.id) := htaken.cons _
        _ ~ free.map (·.id) := hfree.symm

theorem nodup (h : Grows parent free trees left) (hkeys : (free.map (·.id)).Nodup) :
    (descendantsOfAll trees).Nodup :=
  (List.nodup_append.1 ((h.perm hkeys).nodup_iff.2 hkeys)).1

theorem mem_or_left_iff (h : Grows parent free trees left) (hkeys : (free.map (·.id)).Nodup)
    {id : TenantId} :
    (id ∈ descendantsOfAll trees ∨ ∃ u ∈ left, u.id = id) ↔ ∃ u ∈ free, u.id = id := by
  have hmem := (h.perm hkeys).mem_iff (a := id)
  simpa only [List.mem_append, List.mem_map] using hmem

/-- Nobody who is left names the tenant or one of those on the trees as the parent. -/
theorem closed (h : Grows parent free trees left) {u : Tenant} (hu : u ∈ left) :
    u.parentId ≠ some parent ∧ ∀ id ∈ descendantsOfAll trees, u.parentId ≠ some id := by
  induction h with
  | done hnone =>
      have hfree := List.find?_eq_none.1 hnone u hu
      exact ⟨by simpa using hfree, by simp [descendantsOfAll]⟩
  | @attach parent free rest left t below siblings _ _ hsiblings ihbelow ihsiblings =>
      obtain ⟨hparent, hlater⟩ := ihsiblings hu
      obtain ⟨hself, hunder⟩ := ihbelow (hsiblings.left_subset hu)
      refine ⟨hparent, fun id hid => ?_⟩
      rw [mem_descendantsOfAll_cons_iff] at hid
      rcases hid with rfl | hid | hid
      · exact hself
      · exact hunder id hid
      · exact hlater id hid

/-- The parents that are named lead from every tenant on the trees to the top. -/
theorem transGen (h : Grows parent free trees left) :
    ∀ id ∈ descendantsOfAll trees, Relation.TransGen (Names free) id parent := by
  induction h with
  | done hnone => simp [descendantsOfAll]
  | @attach parent free rest left t below siblings hfind hbelow _ ihbelow ihsiblings =>
      have ht : Names free t.id parent :=
        ⟨t, List.mem_of_find?_eq_some hfind, rfl, by simpa using List.find?_some hfind⟩
      have hfiltered : free.filter (·.id ≠ t.id) ⊆ free := List.filter_subset_self _
      intro id hid
      rw [mem_descendantsOfAll_cons_iff] at hid
      rcases hid with rfl | hid | hid
      · exact .single ht
      · have hunder := ihbelow id hid
        exact .tail (Relation.TransGen.mono (fun _ _ => Names.mono hfiltered) _ _ hunder) ht
      · have hrest : rest ⊆ free := List.Subset.trans hbelow.left_subset hfiltered
        exact Relation.TransGen.mono (fun _ _ => Names.mono hrest) _ _ (ihsiblings id hid)

/-- Where a tenant is below the parent that it names, those on the trees are below the top. -/
theorem isBelow (h : Grows parent free trees left)
    (hlinked : ∀ u ∈ free, ∀ above, u.parentId = some above → u.id.isBelow above = true) :
    ∀ id ∈ descendantsOfAll trees, id.isBelow parent = true := by
  have hstep : ∀ id above, Names free id above → id.isBelow above = true := by
    rintro _ above ⟨u, hu, rfl, hnamed⟩
    exact hlinked u hu above hnamed
  intro id hid
  have hchain := h.transGen id hid
  clear h hid
  induction hchain with
  | single hnames => exact hstep _ _ hnames
  | tail _ hnames ih => exact TenantId.isBelow_trans ih (hstep _ _ hnames)

end Grows

mutual

/-- The number of tenants below the top is that of their identifiers. -/
theorem count_eq_length (tree : TenantTree) : tree.count = tree.descendants.length := by
  cases tree with
  | node t trees => rw [count, descendants, countOfAll_eq_length]

theorem countOfAll_eq_length (trees : List TenantTree) :
    trees.length + countOfAll trees = (descendantsOfAll trees).length := by
  cases trees with
  | nil => rfl
  | cons tree trees =>
      rw [countOfAll, descendantsOfAll, List.length_cons, List.length_append, List.length_cons,
        ← countOfAll_eq_length trees, count_eq_length tree]
      omega

end

end TenantTree

end TenantIam
