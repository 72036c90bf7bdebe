import TenantIam.Proofs.Tenant.Lineage
import TenantIam.Proofs.Tenant.Steps

/-!
# All or nothing

A call asks for a sub-tenant by a parent, a name and options. What it needs is stated here over the
store as it is found, whatever its parents look like: with all of it the call adds one tenant and
changes no other, and without any of it the call changes nothing, at no step on its way.
-/

namespace TenantIam

theorem TenantName.of_eq_ok_iff {s : String} {name : TenantName} :
    of s = .ok name ↔ name.text = s := by
  unfold of
  split
  · rw [Except.ok.injEq]
    constructor
    · rintro rfl
      rfl
    · rintro rfl
      rfl
  · next flaw hflaw =>
    constructor
    · intro h
      cases h
    · rintro rfl
      rw [name.valid] at hflaw
      cases hflaw

namespace Creation

variable {config : Creation} {s : TenantStore} {parentId : TenantId} {name : String}
variable {options : Options} {parent : Tenant} {limits : Quotas}

/-- **What a call needs.** A name of 1 to 64 letters, numerals, underscores and hyphens; a stored
parent that is active and may get sub-tenants; a depth within that of the settings and within the
levels that the parent and every stored tenant above it admit; an identifier that is free; known
quotas for the parent, fewer sub-tenants than they admit, and, if quotas are given, none of the five
bounded ones above them. No number exceeds a limit of levels or of sub-tenants that is NaN, while no
depth is within a depth of the settings that is NaN. -/
structure MayCreate (config : Creation) (s : TenantStore) (parentId : TenantId) (name : String)
    (options : Options) (parent : Tenant) (limits : Quotas) : Prop where
  named : name ≠ ""
  short : name.toList.length ≤ 64
  letters : ∀ c ∈ name.toList,
    Text.isLetter c = true ∨ Text.isNumeric c = true ∨ c = '_' ∨ c = '-'
  stored : s.get? parentId = some parent
  active : parent.status = .active
  allowed : parent.canCreateSubTenants = true
  shallow : config.maxDepth.isAtLeast (parentId.depth + 1) = true
  levels : ∀ a, (a = parent ∨ ∃ above, parentId.isBelow above = true ∧ s.get? above = some a) →
    a.maxChildDepth = .nan ∨ a.maxChildDepth.isAtLeast (parentId.depth + 1 - a.id.depth) = true
  free : ∀ t ∈ s.tenants, t.id.text ≠ parentId.text ++ "/" ++ name
  inForce : s.effectiveQuotas parentId = .ok limits
  room : limits.maxSubTenants = .nan ∨
    limits.maxSubTenants.isAbove (s.tenants.countP (·.parentId = some parentId)) = true
  granted : ∀ quotas, options.quotas = some quotas →
    ¬ limits.maxUsers < quotas.maxUsers ∧ ¬ limits.maxRoles < quotas.maxRoles ∧
      ¬ limits.maxPolicies < quotas.maxPolicies ∧ ¬ limits.maxGroups < quotas.maxGroups ∧
      ¬ limits.maxSubTenants < quotas.maxSubTenants

theorem exists_name_iff :
    (∃ n : TenantName, n.text = name) ↔ name ≠ "" ∧ name.toList.length ≤ 64 ∧
      ∀ c ∈ name.toList, Text.isLetter c = true ∨ Text.isNumeric c = true ∨ c = '_' ∨ c = '-' := by
  have hadmits (c : Char) : TenantName.admits c = true ↔
      Text.isLetter c = true ∨ Text.isNumeric c = true ∨ c = '_' ∨ c = '-' := by
    simp [TenantName.admits, or_assoc]
  have hvalid := TenantName.flaw?_eq_none_iff (s := name)
  simp only [hadmits] at hvalid
  constructor
  · rintro ⟨n, rfl⟩
    exact hvalid.1 n.valid
  · intro h
    exact ⟨⟨name, hvalid.2 h⟩, rfl⟩

/-- The tenants above a stored one are those that are stored under the identifiers above. -/
theorem mem_chain_iff {a : Tenant} :
    a ∈ s.ancestors parentId ++ [parent] ↔
      a = parent ∨ ∃ above, parentId.isBelow above = true ∧ s.get? above = some a := by
  unfold TenantStore.ancestors
  rw [List.mem_append, List.mem_singleton, Or.comm, List.mem_filterMap]
  simp only [TenantId.mem_ancestors_iff]

theorem get?_childId_eq_none_iff {r : Request} :
    s.get? r.childId = none ↔
      ∀ t ∈ s.tenants, t.id.text ≠ r.parentId.text ++ "/" ++ r.name.text := by
  unfold TenantStore.get?
  rw [List.find?_eq_none]
  refine forall_congr' fun t => forall_congr' fun _ => ?_
  rw [decide_eq_true_eq]
  refine not_congr ⟨fun hid => by rw [hid]; rfl, fun htext => TenantId.eq_of_text_eq htext⟩

theorem granted_iff {quotas : Quotas} :
    (∀ q : Quotas.Bounded, ¬ q.value limits < q.value quotas) ↔
      ¬ limits.maxUsers < quotas.maxUsers ∧ ¬ limits.maxRoles < quotas.maxRoles ∧
        ¬ limits.maxPolicies < quotas.maxPolicies ∧ ¬ limits.maxGroups < quotas.maxGroups ∧
        ¬ limits.maxSubTenants < quotas.maxSubTenants := by
  constructor
  · intro h
    exact ⟨h .users, h .roles, h .policies, h .groups, h .subTenants⟩
  · rintro ⟨husers, hroles, hpolicies, hgroups, hsubTenants⟩ q
    cases q with
    | users => exact husers
    | roles => exact hroles
    | policies => exact hpolicies
    | groups => exact hgroups
    | subTenants => exact hsubTenants

/-- A call has what it needs when its name is valid and its request is admitted. -/
theorem mayCreate_iff :
    config.MayCreate s parentId name options parent limits ↔
      ∃ n : TenantName, n.text = name ∧
        config.Admits s { parentId, name := n, options } parent limits := by
  constructor
  · intro h
    obtain ⟨n, rfl⟩ := exists_name_iff.2 ⟨h.named, h.short, h.letters⟩
    refine ⟨n, rfl, h.stored, by simp [Tenant.admitsChildren, h.active, h.allowed], ?_, ?_, ?_,
      h.inForce, ?_, ?_⟩
    · rw [Request.childId, TenantId.depth_child]
      exact h.shallow
    · intro a ha
      rw [Request.childId, TenantId.depth_child, Number.isBelow_eq_false_iff]
      exact h.levels a (mem_chain_iff.1 ha)
    · exact get?_childId_eq_none_iff.2 h.free
    · rw [TenantStore.children, ← List.countP_eq_length_filter, Number.isAtMost_eq_false_iff]
      exact h.room
    · intro quotas hquotas
      exact granted_iff.2 (h.granted quotas hquotas)
  · rintro ⟨n, rfl, h⟩
    obtain ⟨hnamed, hshort, hletters⟩ := exists_name_iff.1 ⟨n, rfl⟩
    have hallowed : parent.canCreateSubTenants = true ∧ parent.status = .active := by
      simpa [Tenant.admitsChildren] using h.allowed
    have hdepth : (Request.childId { parentId, name := n, options }).depth = parentId.depth + 1 :=
      TenantId.depth_child _ _
    refine ⟨hnamed, hshort, hletters, h.stored, hallowed.2, hallowed.1, ?_, ?_, ?_, h.inForce, ?_,
      ?_⟩
    · rw [← hdepth]
      exact h.shallow
    · intro a ha
      rw [← hdepth, ← Number.isBelow_eq_false_iff]
      exact h.levels a (mem_chain_iff.2 ha)
    · exact get?_childId_eq_none_iff.1 h.free
    · rw [List.countP_eq_length_filter, ← Number.isAtMost_eq_false_iff]
      exact h.room
    · intro quotas hquotas
      exact granted_iff.1 (h.granted quotas hquotas)

/-- A call with a valid name does what its request does. -/
theorem create_eq_createRequested (n : TenantName) :
    config.create s parentId n.text options =
      config.createRequested s { parentId, name := n, options } := by
  unfold create
  rw [TenantName.of_eq_ok_iff.2 rfl]

/-- **When a call succeeds, and what it gives.** -/
theorem create_eq_ok_iff {created : Created} :
    (config.create s parentId name options).value = .ok created ↔
      ∃ (n : TenantName) (parent : Tenant) (limits : Quotas), n.text = name ∧
        config.Admits s { parentId, name := n, options } parent limits ∧
        created =
          { tenant := config.subTenant { parentId, name := n, options } parent
            store := s.add (config.subTenant { parentId, name := n, options } parent) } := by
  constructor
  · intro hcreated
    cases hname : TenantName.of name with
    | error flaw =>
        rw [create, hname] at hcreated
        cases hcreated
    | ok n =>
        obtain rfl := TenantName.of_eq_ok_iff.1 hname
        rw [create_eq_createRequested, createRequested_eq_ok_iff] at hcreated
        obtain ⟨parent, limits, hadmits, hcreated⟩ := hcreated
        exact ⟨n, parent, limits, rfl, hadmits, hcreated⟩
  · rintro ⟨n, parent, limits, rfl, hadmits, hcreated⟩
    rw [create_eq_createRequested, createRequested_eq_ok_iff]
    exact ⟨parent, limits, hadmits, hcreated⟩

end Creation

end TenantIam
