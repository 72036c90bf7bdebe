import TenantIam.Authorization
import TenantIam.Proofs.TenantPath.Order

/-!
# Access to tenants

A caller who is not the root reaches the own tenant and what is below it. The paths above one path
are in a row, so two callers of whom neither is at or above the other have no tenant in common.
-/

namespace TenantIam

namespace Caller

variable {caller caller' : Caller} {target other : TenantPath}

theorem canAccess_iff_startsWith (hroot : caller.isRoot = false) :
    caller.canAccess target = true ↔ target.startsWith caller.tenantPath = true := by
  rw [canAccess, hroot, Bool.false_or]

/-- Somebody who is not the root reaches the own tenant and those below it. -/
theorem canAccess_iff_eq_or_isBelow (hroot : caller.isRoot = false) :
    caller.canAccess target = true ↔
      target = caller.tenantPath ∨ target.isBelow caller.tenantPath = true := by
  rw [canAccess_iff_startsWith hroot, TenantPath.startsWith_iff_eq_or_isBelow]

/-- Whoever reaches a tenant reaches what is below it. -/
theorem canAccess_of_startsWith (h : caller.canAccess target = true)
    (hother : other.startsWith target = true) : caller.canAccess other = true := by
  cases hroot : caller.isRoot with
  | true => rw [canAccess, hroot, Bool.true_or]
  | false =>
      rw [canAccess_iff_startsWith hroot] at h ⊢
      exact TenantPath.startsWith_trans hother h

/-- No tenant above the own one is reached. -/
theorem canAccess_of_isBelow (hroot : caller.isRoot = false)
    (habove : caller.tenantPath.isBelow target = true) : caller.canAccess target = false := by
  rw [Bool.eq_false_iff]
  intro haccess
  rw [canAccess_iff_startsWith hroot] at haccess
  have hback : caller.tenantPath.startsWith target = true :=
    TenantPath.startsWith_iff_eq_or_isBelow.2 (.inr habove)
  rw [TenantPath.startsWith_antisymm haccess hback, TenantPath.isBelow_iff_segments] at habove
  obtain ⟨rest, hne, hrest⟩ := habove
  exact hne (List.self_eq_append_right.1 hrest)

/-- Of two callers who reach one tenant, one is at or above the other. -/
theorem startsWith_of_canAccess (hroot : caller.isRoot = false) (hroot' : caller'.isRoot = false)
    (h : caller.canAccess target = true) (h' : caller'.canAccess target = true) :
    caller.tenantPath.startsWith caller'.tenantPath = true ∨
      caller'.tenantPath.startsWith caller.tenantPath = true := by
  rw [canAccess_iff_startsWith hroot] at h
  rw [canAccess_iff_startsWith hroot'] at h'
  exact TenantPath.startsWith_or_startsWith h h'

end Caller

namespace Authorization

/-- A request for a tenant is let pass for those who reach it. -/
theorem value_requireTenant_eq_ok_iff {caller : Caller} {target : TenantPath} :
    (requireTenant caller target).value = .ok () ↔ caller.canAccess target = true := by
  show (if caller.canAccess target = true then (.ok () : Except TenantRejection Unit)
    else .error { caller := caller.arn.text, own := caller.tenantPath, target }) = .ok () ↔ _
  split
  · next haccess => simp [haccess]
  · next haccess => simp [haccess]

/-- **Tenants are isolated.** A caller who is not the root reaches the own tenant, every child of a
tenant that is reached, no tenant above the own one and nothing else that is not below it. Two such
callers reach no tenant in common unless one is at or above the other. Being at or above is a
partial order on paths, and it can be seen from their texts. -/
theorem access_isolated :
    (∀ caller : Caller, caller.isRoot = false →
      caller.canAccess caller.tenantPath = true ∧
      (∀ target given, caller.canAccess target = true →
        TenantPath.IsSegmentText given.toText →
        ∃ child, target.child given = .ok child ∧ caller.canAccess child = true) ∧
      (∀ target, caller.tenantPath.isBelow target = true → caller.canAccess target = false) ∧
      ∀ target,
        (caller.canAccess target = true ↔
          target = caller.tenantPath ∨ target.isBelow caller.tenantPath = true) ∧
        ((requireTenant caller target).value = .ok () ↔ caller.canAccess target = true)) ∧
    (∀ caller caller' : Caller, caller.isRoot = false → caller'.isRoot = false →
      ¬ caller.tenantPath.startsWith caller'.tenantPath = true →
      ¬ caller'.tenantPath.startsWith caller.tenantPath = true →
      ∀ target, ¬ (caller.canAccess target = true ∧ caller'.canAccess target = true)) ∧
    (∀ path : TenantPath, path.startsWith path = true) ∧
    (∀ path other : TenantPath, path.startsWith other = true → other.startsWith path = true →
      path = other) ∧
    (∀ path other third : TenantPath, path.startsWith other = true → other.startsWith third = true →
      path.startsWith third = true) ∧
    ∀ path other : TenantPath, path.startsWith other = true ↔
      path.text = other.text ∨ other.text.toList ++ ['/'] <+: path.text.toList := by
  refine ⟨?_, ?_, TenantPath.startsWith_refl, fun _ _ => TenantPath.startsWith_antisymm,
    fun _ _ _ => TenantPath.startsWith_trans, fun _ _ => TenantPath.startsWith_iff_text⟩
  · intro caller hroot
    refine ⟨(Caller.canAccess_iff_startsWith hroot).2 (TenantPath.startsWith_refl _), ?_,
      fun target => Caller.canAccess_of_isBelow hroot,
      fun target => ⟨Caller.canAccess_iff_eq_or_isBelow hroot, value_requireTenant_eq_ok_iff⟩⟩
    intro target given haccess hgiven
    obtain ⟨child, hchild⟩ := target.exists_child hgiven
    exact ⟨child, hchild,
      Caller.canAccess_of_startsWith haccess (TenantPath.startsWith_of_child hchild)⟩
  · rintro caller caller' hroot hroot' hapart hapart' target ⟨haccess, haccess'⟩
    rcases Caller.startsWith_of_canAccess hroot hroot' haccess haccess' with h | h
    · exact hapart h
    · exact hapart' h

/-- Callers of two tenants of which the text of one starts with that of the other: `ann` reaches a
child given with leading zeros, not the tenant above, and what she reaches `bob` does not. -/
theorem access_isolated_siblings :
    let parts (segments : List UInt64) (hne : segments ≠ []) (id : String) : ArnParts :=
      { service := .iam, tenantPath := ⟨segments, hne⟩, instanceId := "i", mapping := none
        resource := { type := "user", id } }
    let caller (arn : Arn) : Caller :=
      { tenantPath := arn.tenantPath, instanceId := arn.instanceId, arn, isRoot := false
        region := none, session := none }
    let ann : Caller := caller ⟨parts [1, 2] (by decide) "ann", by decide⟩
    let bob : Caller := caller ⟨parts [1, 23] (by decide) "bob", by decide⟩
    let given : SegmentInput := .text "007"
    ∃ child, ann.tenantPath.child given = .ok child ∧
      ann.canAccess child = true ∧ bob.canAccess child = false ∧
      ann.canAccess ⟨[1], by decide⟩ = false ∧
      child.startsWith ann.tenantPath = true ∧ ann.tenantPath.startsWith ⟨[1], by decide⟩ = true ∧
      child.startsWith ⟨[1], by decide⟩ = true := by
  intro parts caller ann bob given
  obtain ⟨hreach, hapart, -, -, htrans, -⟩ := access_isolated
  obtain ⟨hown, hchildren, habove, -⟩ := hreach ann rfl
  obtain ⟨child, hchild, haccess⟩ :=
    hchildren ann.tenantPath given hown (by decide)
  have hbelow : child.startsWith ann.tenantPath = true := TenantPath.startsWith_of_child hchild
  have hann : ann.tenantPath.startsWith ⟨[1], by decide⟩ = true := by decide
  refine ⟨child, hchild, haccess, ?_, habove _ (by decide), hbelow, hann,
    htrans _ _ _ hbelow hann⟩
  rw [Bool.eq_false_iff]
  intro hbob
  exact hapart ann bob rfl rfl (by decide) (by decide) child ⟨haccess, hbob⟩

end Authorization

end TenantIam
