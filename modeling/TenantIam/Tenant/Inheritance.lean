import TenantIam.Tenant.Store

/-!
# Quotas in force

The quotas in force for a tenant are its own if it overrides or has no parent, and otherwise those
in force for its parent.
-/

namespace TenantIam

/-- The tenant whose quotas a tenant inherits, if it inherits any. -/
def Tenant.inheritsFrom? (t : Tenant) : Option TenantId :=
  match t.quotaMode with
  | .override => none
  | .inherited => t.parentId

namespace TenantStore

inductive QuotaError where
  /-- A tenant on the way up is not there. -/
  | missing (id : TenantId)
  /-- The way up comes back to a tenant. -/
  | cycle (start repeated : TenantId)
  deriving DecidableEq

instance : Reported QuotaError where
  toFault
    | .missing id => Reported.toFault (Refusal.noTenant id)
    | .cycle start repeated =>
      .invalidParameter ("Tenant parent cycle at " ++ repeated.text)
        (some [("tenantId", .str start.text)])

def unvisited (s : TenantStore) (visited : List TenantId) : List Tenant :=
  s.tenants.filter (·.id ∉ visited)

theorem length_unvisited_lt {s : TenantStore} {visited : List TenantId} {id : TenantId} {t : Tenant}
    (hid : id ∉ visited) (ht : s.get? id = some t) :
    (s.unvisited (id :: visited)).length < (s.unvisited visited).length := by
  have hmem : t ∈ s.tenants := List.mem_of_find?_eq_some ht
  have htid : t.id = id := by simpa using List.find?_some ht
  have heq : s.unvisited (id :: visited) = (s.unvisited visited).filter (·.id ≠ id) := by
    simp only [unvisited, List.filter_filter]
    congr 1
    funext u
    simp [not_or]
  rw [heq]
  refine List.length_filter_lt_length_iff_exists.2 ⟨t, ?_, by simp [htid]⟩
  simp [unvisited, hmem, htid, hid]

/-- The quotas in force for `id`, looked up on the way from `start` upwards. -/
def quotasFrom (s : TenantStore) (start : TenantId) (visited : List TenantId) (id : TenantId) :
    Except QuotaError Quotas :=
  if _ : id ∈ visited then .error (.cycle start id)
  else
    match _ : s.get? id with
    | none => .error (.missing id)
    | some t =>
      match t.inheritsFrom? with
      | none => .ok t.quotas
      | some parent => quotasFrom s start (id :: visited) parent
termination_by (s.unvisited visited).length
decreasing_by exact length_unvisited_lt (by assumption) (by assumption)

def effectiveQuotas (s : TenantStore) (id : TenantId) : Except QuotaError Quotas :=
  quotasFrom s id [] id

end TenantStore

end TenantIam
