import TenantIam.Proofs.Success
import TenantIam.Proofs.Tenant.Inheritance
import TenantIam.Proofs.Tenant.Quotas
import TenantIam.Tenant.Creation

/-!
# When sub-tenants are created

A creation succeeds exactly when all its checks do, and then it adds one tenant to the store; when
it fails, the store is what it was.
-/

namespace TenantIam

namespace Creation

variable {config : Creation} {s : TenantStore} {r : Request} {parent : Tenant} {limits : Quotas}

/-- **What a request needs.** The tenant above is stored, active and allowed to have sub-tenants;
the sub-tenant is neither deeper than the settings admit nor too many levels below a stored tenant;
its identifier is free; and it fits into the quotas in force above. -/
structure Admits (config : Creation) (s : TenantStore) (r : Request) (parent : Tenant)
    (limits : Quotas) : Prop where
  stored : s.get? r.parentId = some parent
  allowed : parent.admitsChildren = true
  shallow : config.maxDepth.isAtLeast r.childId.depth = true
  levels : ∀ a ∈ s.ancestors r.parentId ++ [parent],
    a.maxChildDepth.isBelow (r.childId.depth - a.id.depth) = false
  free : s.get? r.childId = none
  inForce : s.effectiveQuotas r.parentId = .ok limits
  room : limits.maxSubTenants.isAtMost (s.children r.parentId).length = false
  granted : ∀ quotas, r.options.quotas = some quotas →
    ∀ q : Quotas.Bounded, ¬ q.value limits < q.value quotas

theorem checkParent_eq_ok_iff {found : Option Tenant} :
    config.checkParent r found = .ok parent ↔
      found = some parent ∧ parent.admitsChildren = true ∧
        config.maxDepth.isAtLeast r.childId.depth = true := by
  unfold checkParent TenantId.isWithinDepth
  cases found with
  | none => simp
  | some other =>
      dsimp only
      rw [Option.some.injEq]
      by_cases hallowed : other.admitsChildren = true
      · rw [if_neg (by simp [hallowed])]
        cases hdepth : config.maxDepth.isAtLeast r.childId.depth with
        | false => simp
        | true =>
            rw [if_pos rfl, Except.ok.injEq]
            constructor
            · rintro rfl
              exact ⟨rfl, hallowed, rfl⟩
            · exact fun h => h.1
      · rw [if_pos (by simpa using hallowed)]
        constructor
        · intro h
          cases h
        · rintro ⟨rfl, h, -⟩
          exact absurd h hallowed

theorem checkLevels_eq_ok_iff {chain : List Tenant} {u : Unit} :
    checkLevels r chain = .ok u ↔
      ∀ a ∈ chain, a.maxChildDepth.isBelow (r.childId.depth - a.id.depth) = false := by
  have hnone : (chain.find? fun a => !admitsLevels a r.childId) = none ↔
      ∀ a ∈ chain, a.maxChildDepth.isBelow (r.childId.depth - a.id.depth) = false := by
    simp [List.find?_eq_none, admitsLevels]
  rw [← hnone]
  unfold checkLevels
  cases chain.find? fun a => !admitsLevels a r.childId <;> simp

theorem checkFree_eq_ok_iff {found : Option Tenant} {u : Unit} :
    checkFree r found = .ok u ↔ found = none := by
  unfold checkFree
  cases found <;> simp

theorem checkRoom_eq_ok_iff {siblings : List Tenant} {u : Unit} :
    checkRoom r limits siblings = .ok u ↔
      limits.maxSubTenants.isAtMost siblings.length = false := by
  unfold checkRoom
  cases limits.maxSubTenants.isAtMost siblings.length <;> simp

theorem checkGrant_eq_ok_iff {u : Unit} :
    checkGrant r limits = .ok u ↔
      ∀ quotas, r.options.quotas = some quotas →
        ∀ q : Quotas.Bounded, ¬ q.value limits < q.value quotas := by
  unfold checkGrant
  cases r.options.quotas with
  | none => simp
  | some quotas =>
      dsimp only
      rw [mapError_eq_ok_iff, Quotas.within_eq_ok_iff]
      simp

/-- A sub-tenant is planned exactly when the request is admitted. -/
theorem plan_eq_ok_iff {t : Tenant} :
    config.plan s r = .ok t ↔
      ∃ parent limits, config.Admits s r parent limits ∧ t = config.subTenant r parent := by
  -- one check after another, in the order in which they are made
  simp only [plan, bind_eq_ok_iff, pure_eq_ok_iff, mapError_eq_ok_iff, checkParent_eq_ok_iff,
    checkLevels_eq_ok_iff, checkFree_eq_ok_iff, checkRoom_eq_ok_iff, checkGrant_eq_ok_iff]
  constructor
  · rintro ⟨parent, ⟨hstored, hallowed, hshallow⟩, _, hlevels, _, hfree, limits, hinForce, _, hroom,
      _, hgranted, rfl⟩
    exact ⟨parent, limits,
      ⟨hstored, hallowed, hshallow, hlevels, hfree, hinForce, hroom, hgranted⟩, rfl⟩
  · rintro ⟨parent, limits, h, rfl⟩
    exact ⟨parent, ⟨h.stored, h.allowed, h.shallow⟩, (), h.levels, (), h.free, limits, h.inForce,
      (), h.room, (), h.granted, rfl⟩

@[simp] theorem subTenant_id : (config.subTenant r parent).id = r.childId := rfl

@[simp] theorem subTenant_parentId : (config.subTenant r parent).parentId = some r.parentId := rfl

theorem maxChildDepth_subTenant_ne_nan : (config.subTenant r parent).maxChildDepth ≠ .nan := by
  show (3 : Number) ≠ .nan
  decide +kernel

theorem insert_of_free {t : Tenant} (hfree : s.get? t.id = none) :
    insert s t = .ok { tenant := t, store := s.add t } := by
  unfold insert TenantStore.perform
  dsimp only
  rw [hfree]
  rfl

/-- A request succeeds exactly when it is admitted, and it adds the sub-tenant. -/
theorem createRequested_eq_ok_iff {created : Created} :
    (config.createRequested s r).value = .ok created ↔
      ∃ parent limits, config.Admits s r parent limits ∧
        created =
          { tenant := config.subTenant r parent, store := s.add (config.subTenant r parent) } := by
  have hvalue : (config.createRequested s r).value = (config.plan s r).bind (insert s) := by
    unfold createRequested
    cases (config.plan s r).bind (insert s) <;> rfl
  rw [hvalue]
  show (config.plan s r >>= insert s) = .ok created ↔ _
  rw [bind_eq_ok_iff]
  constructor
  · rintro ⟨t, hplan, hinsert⟩
    obtain ⟨parent, limits, hadmits, rfl⟩ := plan_eq_ok_iff.1 hplan
    -- the identifier was found free on the way, so the store does not refuse it
    rw [insert_of_free hadmits.free] at hinsert
    cases hinsert
    exact ⟨parent, limits, hadmits, rfl⟩
  · rintro ⟨parent, limits, hadmits, rfl⟩
    exact ⟨_, plan_eq_ok_iff.2 ⟨parent, limits, hadmits, rfl⟩, insert_of_free hadmits.free⟩

/-- **All that a creation can do.** It leaves the store as it is or adds the sub-tenant of a request
that is admitted. -/
theorem after_eq_or (config : Creation) (s : TenantStore) (parentId : TenantId) (name : String)
    (options : Options) :
    config.after s parentId name options = s ∨
      ∃ r parent limits, r.options = options ∧ config.Admits s r parent limits ∧
        config.after s parentId name options = s.add (config.subTenant r parent) := by
  unfold after create
  cases TenantName.of name with
  | error flaw => exact .inl rfl
  | ok name =>
      dsimp only
      cases hcreated : (config.createRequested s { parentId, name, options }).value with
      | error error => exact .inl rfl
      | ok created =>
          obtain ⟨parent, limits, hadmits, rfl⟩ := createRequested_eq_ok_iff.1 hcreated
          exact .inr ⟨_, parent, limits, rfl, hadmits, rfl⟩

end Creation

end TenantIam
