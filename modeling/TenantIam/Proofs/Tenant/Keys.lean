import Mathlib.Data.List.Nodup
import TenantIam.Proofs.Tenant.Changes
import TenantIam.Proofs.Tenant.Forest

/-!
# One tenant for each identifier

A store looks before it adds a tenant, so no two stored tenants have one identifier.
-/

namespace TenantIam

namespace TenantStore

variable {s : TenantStore} {t : Tenant} {id : TenantId}

/-- No two stored tenants have one identifier. -/
def Keyed (s : TenantStore) : Prop := s.ids.Nodup

namespace Keyed

theorem nodup_filter (h : s.Keyed) (p : Tenant → Bool) :
    ((s.tenants.filter p).map (·.id)).Nodup :=
  h.sublist (List.filter_sublist.map _)

theorem add (h : s.Keyed) (hfree : s.get? t.id = none) : (s.add t).Keyed := by
  unfold Keyed
  rw [ids_add]
  refine List.nodup_append.2 ⟨h, List.nodup_singleton _, fun id hid other hother => ?_⟩
  rw [List.mem_singleton.1 hother]
  rintro rfl
  exact get?_eq_none_iff.1 hfree hid

theorem replace (h : s.Keyed) (t : Tenant) : (s.replace t).Keyed := by
  unfold Keyed
  rw [ids_replace]
  exact h

theorem put (h : s.Keyed) (t : Tenant) : (s.put t).Keyed := by
  unfold TenantStore.put
  split
  · exact h.replace t
  · next hfree => exact h.add (by simpa using hfree)

theorem without (h : s.Keyed) (id : TenantId) : (s.without id).Keyed :=
  h.nodup_filter _

/-- Any change, performed or refused, leaves a keyed store keyed. -/
theorem after (h : s.Keyed) (operation : Operation) : (s.after operation).Keyed := by
  rw [after_eq]
  split
  · next hadmits =>
    cases operation with
    | create t => exact h.add (get?_eq_none_iff.2 hadmits)
    | update t => exact h.replace t
    | delete id => exact h.without id
  · exact h

end Keyed

theorem keyed_ofList (tenants : List Tenant) : (ofList tenants).Keyed := by
  have hfold (s : TenantStore) (h : s.Keyed) : (tenants.foldl put s).Keyed := by
    induction tenants generalizing s with
    | nil => exact h
    | cons t tenants ih => exact ih (s.put t) (h.put t)
  exact hfold {} List.nodup_nil

theorem Keyed.run (h : s.Keyed) (operations : List Operation) : (s.run operations).Keyed := by
  induction operations generalizing s with
  | nil => exact h
  | cons operation operations ih => exact ih (h.after operation)

/-- In a keyed store every stored tenant is found under its identifier. -/
theorem Keyed.get?_eq (h : s.Keyed) (ht : t ∈ s.tenants) : s.get? t.id = some t := by
  obtain ⟨found, hget⟩ := Option.isSome_iff_exists.1 (isSome_get?_of_mem ht)
  rw [hget, List.inj_on_of_nodup_map h (mem_of_get? hget) ht (id_of_get? hget)]

/-- In a keyed store exactly the stored tenants are found under their identifiers. -/
theorem Keyed.get?_eq_some_iff (h : s.Keyed) : s.get? id = some t ↔ t ∈ s.tenants ∧ t.id = id := by
  constructor
  · intro hget
    exact ⟨mem_of_get? hget, id_of_get? hget⟩
  · rintro ⟨ht, rfl⟩
    exact h.get?_eq ht

end TenantStore

/-- Creations look before they add, too. -/
theorem Creation.run_keyed {s : TenantStore} (h : s.Keyed) (maxDepth : Number) (calls : List Call) :
    (run maxDepth s calls).Keyed :=
  run_induction (fun _ _ _ _ _ hs _ _ hadmits => hs.add hadmits.free) h

end TenantIam
