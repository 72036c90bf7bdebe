import TenantIam.Proofs.Tenant.Forest

/-!
# Bounds that every creation keeps

Each bound is checked once, when a sub-tenant is created, and against the tenants that are there at
that time: the depth against the settings and all tenants above, the number of siblings and the
quotas that are given against the quotas in force for the parent. Nothing is checked again later.
The bounds hold all the same after every run, since a new tenant is a leaf and changes the quotas in
force for nobody else.
-/

namespace TenantIam

namespace Creation

variable {config : Creation} {s : TenantStore} {r : Request} {parent : Tenant} {limits : Quotas}

theorem inheritsFrom?_subTenant :
    (config.subTenant r parent).inheritsFrom? =
      if r.options.quotas.isSome then none else some r.parentId := by
  unfold Tenant.inheritsFrom? subTenant
  cases r.options.quotas <;> rfl

/-- A new sub-tenant is subject to the quotas it is given, or else to those in force above. -/
theorem effectiveQuotas_subTenant (hadmits : config.Admits s r parent limits) :
    (s.add (config.subTenant r parent)).effectiveQuotas r.childId =
      .ok (r.options.quotas.getD limits) := by
  have hget : (s.add (config.subTenant r parent)).get? r.childId =
      some (config.subTenant r parent) := TenantStore.get?_add_self hadmits.free
  have hinherits : (config.subTenant r parent).inheritsFrom? =
      if r.options.quotas.isSome then none else some r.parentId := inheritsFrom?_subTenant
  cases hquotas : r.options.quotas with
  | none =>
      rw [hquotas] at hinherits
      exact TenantStore.effectiveQuotas_of_inherits hget hinherits
        (TenantStore.effectiveQuotas_add hadmits.inForce _)
  | some quotas =>
      rw [hquotas] at hinherits
      have hown : (config.subTenant r parent).quotas = quotas := by
        unfold subTenant
        rw [hquotas]
        rfl
      rw [TenantStore.effectiveQuotas_of_own hget hinherits, hown]
      rfl

/-- The quotas in force for a new sub-tenant do not exceed those in force above. -/
theorem value_getD_le (hadmits : config.Admits s r parent limits) (hlimits : limits.IsIntegral)
    (hintegral : ∀ quotas, r.options.quotas = some quotas → quotas.IsIntegral)
    (q : Quotas.Bounded) : q.value (r.options.quotas.getD limits) ≤ q.value limits := by
  have hbound := hlimits.value_ne_nan q
  cases hquotas : r.options.quotas with
  | none => exact Number.le_refl hbound
  | some quotas =>
      have hgiven := (hintegral quotas hquotas).value_ne_nan q
      exact ⟨hgiven, hbound, hadmits.granted quotas hquotas q⟩

theorem isIntegral_subTenant
    (hintegral : ∀ quotas, r.options.quotas = some quotas → quotas.IsIntegral) :
    (config.subTenant r parent).quotas.IsIntegral := by
  show (r.options.quotas.getD {}).IsIntegral
  cases hquotas : r.options.quotas with
  | none => exact Quotas.isIntegral_default
  | some quotas => exact hintegral quotas hquotas

end Creation

namespace TenantStore

/-- No stored tenant is more levels below another one than that one admits; nothing is more than a
NaN. -/
def WithinLevels (s : TenantStore) : Prop :=
  ∀ t ∈ s.tenants, ∀ above a, s.get? above = some a → t.id.isBelow above = true →
    a.maxChildDepth = .nan ∨ a.maxChildDepth.isAtLeast (t.id.depth - above.depth) = true

/-- A stored tenant that has sub-tenants has at most as many as the quotas in force admit. -/
def WithinRoom (s : TenantStore) : Prop :=
  ∀ t ∈ s.tenants, ∀ limits, s.effectiveQuotas t.id = .ok limits → s.children t.id ≠ [] →
    limits.maxSubTenants.isAtLeast (s.children t.id).length = true

/-- The quotas in force for a stored tenant are at most those in force for its parent. -/
def WithinQuotas (s : TenantStore) : Prop :=
  ∀ t ∈ s.tenants, ∀ parent, t.parentId = some parent → ∀ quotas limits,
    s.effectiveQuotas t.id = .ok quotas → s.effectiveQuotas parent = .ok limits →
      ∀ q : Quotas.Bounded, q.value quotas ≤ q.value limits

/-- **Well-formed stores.** A forest with integral quotas in which no tenant is deeper than the
settings admit, and which keeps the three bounds between tenants. -/
structure WellFormed (maxDepth : Number) (s : TenantStore) : Prop where
  forest : s.IsForest
  integral : ∀ t ∈ s.tenants, t.quotas.IsIntegral
  shallow : ∀ t ∈ s.tenants, maxDepth.isAtLeast t.id.depth = true
  levels : s.WithinLevels
  room : s.WithinRoom
  quotas : s.WithinQuotas

namespace WellFormed

variable {config : Creation} {s : TenantStore} {r : Creation.Request} {parent : Tenant}
variable {limits : Quotas}

/-- The levels between a new sub-tenant and the stored tenants above it were checked; nobody is
below the new one. -/
theorem levels_add (h : s.WellFormed config.maxDepth)
    (hadmits : config.Admits s r parent limits) :
    (s.add (config.subTenant r parent)).WithinLevels := by
  intro t ht above a hget hbelow
  rcases mem_add_iff.1 ht with ht | rfl
  · rcases get?_add_eq_some hget with hget | ⟨rfl, -⟩
    · exact h.levels t ht above a hget hbelow
    · rw [Creation.subTenant_id, h.forest.not_isBelow_of_free hadmits.free ht] at hbelow
      cases hbelow
  · rcases get?_add_eq_some hget with hget | ⟨rfl, -⟩
    · -- the chain that was checked holds every stored tenant above
      have hchain : a ∈ s.ancestors r.parentId ++ [parent] := by
        rcases TenantId.isBelow_child_iff.1 hbelow with rfl | habove
        · rw [hadmits.stored] at hget
          cases hget
          exact List.mem_append_right _ (List.mem_singleton_self _)
        · apply List.mem_append_left
          exact List.mem_filterMap.2 ⟨above, TenantId.mem_ancestors_iff.2 habove, hget⟩
      have hlevels := Number.isBelow_eq_false_iff.1 (hadmits.levels a hchain)
      rw [id_of_get? hget] at hlevels
      exact hlevels
    · exact absurd (TenantId.depth_lt_of_isBelow hbelow) (Nat.lt_irrefl _)

/-- The parent of a new sub-tenant had room for one more; the others have as many as before. -/
theorem room_add (h : s.WellFormed config.maxDepth) (hadmits : config.Admits s r parent limits) :
    (s.add (config.subTenant r parent)).WithinRoom := by
  -- the limit that was checked is an integer, so room was left for one more
  obtain ⟨source, hsource, rfl⟩ := exists_mem_of_effectiveQuotas hadmits.inForce
  have hinteger : source.quotas.maxSubTenants.isInteger = true :=
    (h.integral source hsource).maxSubTenants
  have hroom : (s.add (config.subTenant r parent)).BoundsParents fun quotas n =>
      quotas.maxSubTenants.isAtLeast n = true :=
    h.forest.parentsAbove.boundsParents_add_leaf hadmits.free rfl rfl hadmits.inForce
      (Number.isAtLeast_succ hinteger hadmits.room) h.room
  exact hroom

/-- The quotas of a new sub-tenant were checked; those of the others stay in force. -/
theorem quotas_add (h : s.WellFormed config.maxDepth)
    (hadmits : config.Admits s r parent limits)
    (hintegral : ∀ quotas, r.options.quotas = some quotas → quotas.IsIntegral) :
    (s.add (config.subTenant r parent)).WithinQuotas := by
  intro t ht above habove quotas bounds hquotas hbounds
  rcases mem_add_iff.1 ht with ht | rfl
  · have hstored := (h.forest.of_parentId ht habove).2
    rw [h.forest.effectiveQuotas_add_eq (isSome_get?_of_mem ht)] at hquotas
    rw [h.forest.effectiveQuotas_add_eq hstored] at hbounds
    exact h.quotas t ht above habove quotas bounds hquotas hbounds
  · rw [Creation.subTenant_parentId] at habove
    cases habove
    rw [Creation.subTenant_id, Creation.effectiveQuotas_subTenant hadmits] at hquotas
    rw [effectiveQuotas_add hadmits.inForce] at hbounds
    cases hquotas
    cases hbounds
    obtain ⟨source, hsource, rfl⟩ := exists_mem_of_effectiveQuotas hadmits.inForce
    exact Creation.value_getD_le hadmits (h.integral source hsource) hintegral

/-- **One creation.** A sub-tenant that is admitted keeps all bounds. -/
theorem add_subTenant (h : s.WellFormed config.maxDepth)
    (hadmits : config.Admits s r parent limits)
    (hintegral : ∀ quotas, r.options.quotas = some quotas → quotas.IsIntegral) :
    (s.add (config.subTenant r parent)).WellFormed config.maxDepth where
  forest := h.forest.add_subTenant hadmits
  integral := by
    intro t ht
    rcases mem_add_iff.1 ht with ht | rfl
    · exact h.integral t ht
    · exact Creation.isIntegral_subTenant hintegral
  shallow := by
    intro t ht
    rcases mem_add_iff.1 ht with ht | rfl
    · exact h.shallow t ht
    · exact hadmits.shallow
  levels := h.levels_add hadmits
  room := h.room_add hadmits
  quotas := h.quotas_add hadmits hintegral

end WellFormed

end TenantStore

namespace Creation

end Creation

end TenantIam
