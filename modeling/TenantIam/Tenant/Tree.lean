import TenantIam.Tenant.Basic

/-!
# Trees of tenants

A tree is grown from a list of tenants by following their parents downwards. For every tenant on the
tree the whole list is gone through. A tenant that is on the tree is not attached again, so tenants
that are above each other in a circle do no harm.
-/

namespace TenantIam

/-- A tenant with the trees below it. -/
inductive TenantTree where
  | node (tenant : Tenant) (children : List TenantTree)

namespace TenantTree

def tenant : TenantTree → Tenant
  | node tenant _ => tenant

def children : TenantTree → List TenantTree
  | node _ children => children

mutual

/-- The identifiers of all tenants below the top, each one before those below it. -/
def descendants : TenantTree → List TenantId
  | node _ children => descendantsOfAll children

def descendantsOfAll : List TenantTree → List TenantId
  | [] => []
  | tree :: trees => tree.tenant.id :: descendants tree ++ descendantsOfAll trees

end

mutual

/-- The number of tenants below the top. -/
def count : TenantTree → Nat
  | node _ children => children.length + countOfAll children

def countOfAll : List TenantTree → Nat
  | [] => 0
  | tree :: trees => count tree + countOfAll trees

end

def unvisited (tenants : List Tenant) (visited : List TenantId) : List Tenant :=
  tenants.filter (·.id ∉ visited)

section Visiting

variable {tenants : List Tenant} {visited more : List TenantId} {t : Tenant}

/-- Who has not been visited later on had not been visited before. -/
theorem unvisited_of_subset (h : visited ⊆ more) :
    unvisited tenants more = (unvisited tenants visited).filter (·.id ∉ more) := by
  unfold unvisited
  rw [List.filter_filter]
  refine List.filter_congr fun u _ => ?_
  by_cases hmore : u.id ∈ more
  · simp [hmore]
  · have hvisited : u.id ∉ visited := fun hmem => hmore (h hmem)
    simp [hmore, hvisited]

theorem unvisited_cons (tenants : List Tenant) (id : TenantId) (visited : List TenantId) :
    unvisited tenants (id :: visited) = (unvisited tenants visited).filter (·.id ≠ id) := by
  unfold unvisited
  rw [List.filter_filter]
  refine List.filter_congr fun u _ => ?_
  by_cases hid : u.id = id <;> simp [hid]

theorem length_unvisited_le (h : visited ⊆ more) :
    (unvisited tenants more).length ≤ (unvisited tenants visited).length := by
  rw [unvisited_of_subset h]
  exact List.length_filter_le _ _

theorem length_unvisited_cons_lt (ht : t ∈ tenants) (hnew : t.id ∉ visited) :
    (unvisited tenants (t.id :: visited)).length < (unvisited tenants visited).length := by
  rw [unvisited_cons]
  refine List.length_filter_lt_length_iff_exists.2 ⟨t, ?_, by simp⟩
  exact List.mem_filter.2 ⟨ht, decide_eq_true hnew⟩

end Visiting

/-- Trees, and all that have been visited when they stand, with those that had been before. -/
abbrev Attached (visited : List TenantId) :=
  { result : List TenantTree × List TenantId // visited ⊆ result.2 }

/-- The trees below a tenant, from what is still to do of the list: a tenant that names it as its
parent and has not been visited is visited and attached, with the trees below it that the whole list
gives, before the next one is looked at. -/
def attach (tenants : List Tenant) (parent : TenantId) (todo : List Tenant) (htodo : todo ⊆ tenants)
    (visited : List TenantId) : Attached visited :=
  match todo with
  | [] => ⟨([], visited), List.Subset.refl _⟩
  | t :: todo =>
    have hrest : todo ⊆ tenants := List.Subset.trans (List.subset_cons_self t todo) htodo
    if h : t.parentId = some parent ∧ t.id ∉ visited then
      have _ := length_unvisited_cons_lt (htodo List.mem_cons_self) h.2
      let ⟨(below, seen), hseen⟩ :=
        attach tenants t.id tenants (List.Subset.refl _) (t.id :: visited)
      let ⟨(siblings, all), hall⟩ := attach tenants parent todo hrest seen
      ⟨(node t below :: siblings, all),
        List.Subset.trans (List.subset_cons_self t.id visited) (List.Subset.trans hseen hall)⟩
    else attach tenants parent todo hrest visited
termination_by ((unvisited tenants visited).length, todo.length)
decreasing_by
  · exact Prod.Lex.left _ _ (by assumption)
  · exact Prod.Lex.left _ _ (Nat.lt_of_le_of_lt (length_unvisited_le hseen) (by assumption))
  · exact Prod.Lex.right _ (Nat.lt_succ_self _)

/-- The tree below a tenant of a list; `none` if the list does not have it. -/
def build (tenants : List Tenant) (root : TenantId) : Option TenantTree :=
  (tenants.find? (·.id = root)).map fun t =>
    node t (attach tenants root tenants (List.Subset.refl _) [root]).val.1

end TenantTree

end TenantIam
