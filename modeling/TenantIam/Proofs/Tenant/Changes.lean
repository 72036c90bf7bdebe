import Mathlib.Logic.Basic
import TenantIam.Proofs.Tenant.Inheritance

/-!
# One change of the store

A change is about one identifier. It adds a tenant at the end of the list, puts one in the place of
the tenant of its identifier, or takes that tenant away, and it is refused when there is a tenant to
be created already, or none to be updated or deleted. That is all a change can do, so what changes
preserve follows from what these three preserve.
-/

namespace TenantIam.TenantStore

variable {s : TenantStore} {t : Tenant} {id : TenantId} {operation : Operation}

/-! ## Identifiers -/

def ids (s : TenantStore) : List TenantId := s.tenants.map (·.id)

def without (s : TenantStore) (x : TenantId) : TenantStore := ⟨s.tenants.filter (·.id ≠ x)⟩

theorem get?_eq_none_iff : s.get? id = none ↔ id ∉ s.ids := by
  simp [get?, ids, List.find?_eq_none]

theorem isSome_get?_iff : (s.get? id).isSome = true ↔ id ∈ s.ids := by
  rw [Option.isSome_iff_ne_none, Ne, get?_eq_none_iff, not_not]

theorem ids_add (s : TenantStore) (t : Tenant) : (s.add t).ids = s.ids ++ [t.id] := by
  simp [ids, add]

theorem id_replaced (t u : Tenant) : (if u.id = t.id then t else u).id = u.id := by
  split
  · next hid => exact hid.symm
  · rfl

theorem ids_replace (s : TenantStore) (t : Tenant) : (s.replace t).ids = s.ids := by
  unfold ids replace
  rw [List.map_map]
  exact List.map_congr_left fun u _ => id_replaced t u

theorem ids_without (s : TenantStore) (x : TenantId) :
    (s.without x).ids = s.ids.filter (· ≠ x) := by
  simp [ids, without, List.filter_map, Function.comp_def]

theorem notMem_ids_without (s : TenantStore) (x : TenantId) : x ∉ (s.without x).ids := by
  simp [ids_without]

/-! ## Changes -/

def Operation.subject : Operation → TenantId
  | .create t => t.id
  | .update t => t.id
  | .delete id => id

/-- The store admits a change: a tenant to be created is not there, and any other is. -/
def Admits (s : TenantStore) : Operation → Prop
  | .create t => t.id ∉ s.ids
  | .update t => t.id ∈ s.ids
  | .delete id => id ∈ s.ids

instance : DecidablePred s.Admits
  | .create t => inferInstanceAs (Decidable (t.id ∉ s.ids))
  | .update t => inferInstanceAs (Decidable (t.id ∈ s.ids))
  | .delete id => inferInstanceAs (Decidable (id ∈ s.ids))

/-- What a change makes of the store when it is admitted. -/
def changed (s : TenantStore) : Operation → TenantStore
  | .create t => s.add t
  | .update t => s.replace t
  | .delete id => s.without id

/-- Why a change is refused where it is not admitted. -/
def Operation.refusal : Operation → Refusal
  | .create t => .tenantExists t.id
  | .update t => .noTenant t.id
  | .delete id => .noTenant id

/-- **One change.** A change is performed when it is admitted, and refused otherwise. -/
theorem perform_eq (s : TenantStore) (operation : Operation) :
    s.perform operation =
      if s.Admits operation then .ok (s.changed operation) else .error operation.refusal := by
  cases operation with
  | create t =>
      show (if (s.get? t.id).isSome = true then _ else _) = if t.id ∉ s.ids then _ else _
      rw [ite_not]
      exact if_congr isSome_get?_iff rfl rfl
  | update t => exact if_congr isSome_get?_iff rfl rfl
  | delete id => exact if_congr isSome_get?_iff rfl rfl

theorem perform_of_admits (hadmits : s.Admits operation) :
    s.perform operation = .ok (s.changed operation) := by
  rw [perform_eq, if_pos hadmits]

theorem perform_eq_error_iff {refusal : Refusal} :
    s.perform operation = .error refusal ↔ ¬ s.Admits operation ∧ operation.refusal = refusal := by
  rw [perform_eq]
  by_cases hadmits : s.Admits operation
  · simp [hadmits]
  · simp [hadmits]

theorem after_eq (s : TenantStore) (operation : Operation) :
    s.after operation = if s.Admits operation then s.changed operation else s := by
  rw [TenantStore.after, perform_eq]
  by_cases hadmits : s.Admits operation
  · rw [if_pos hadmits, if_pos hadmits]
  · rw [if_neg hadmits, if_neg hadmits]

end TenantIam.TenantStore
