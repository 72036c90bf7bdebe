import TenantIam.Tenant.Quotas

/-!
# Limits and counts

Limits are binary64 values and counts are natural numbers. A count that exceeds no limit is at most
the limit, unless the limit is NaN. Where a limit is an integer, one that a count has not reached
leaves room for one more.
-/

namespace TenantIam

namespace Number

/-- Whether `x` is strictly above the count `n`. -/
def isAbove (x : Number) (n : Nat) : Bool :=
  match x with
  | .finite units _ => n * unitsPerOne < units
  | .infinite negative => !negative
  | .nan => false

/-- What is not below a count is at least the count, or NaN. -/
theorem isBelow_eq_false_iff {x : Number} {n : Nat} :
    x.isBelow n = false ↔ x = .nan ∨ x.isAtLeast n = true := by
  cases x with
  | finite units fits => simp [isBelow, isAtLeast]
  | infinite negative => simp [isBelow, isAtLeast]
  | nan => simp [isBelow]

/-- What is not at most a count is above the count, or NaN. -/
theorem isAtMost_eq_false_iff {x : Number} {n : Nat} :
    x.isAtMost n = false ↔ x = .nan ∨ x.isAbove n = true := by
  cases x with
  | finite units fits => simp [isAtMost, isAbove]
  | infinite negative => simp [isAtMost, isAbove]
  | nan => simp [isAtMost]

theorem ne_nan_of_isInteger {x : Number} (h : x.isInteger = true) : x ≠ .nan := by
  rintro rfl
  cases h

theorem le_refl {x : Number} (h : x ≠ .nan) : x ≤ x := by
  refine ⟨h, h, ?_⟩
  show ¬ x.isLess x = true
  cases x with
  | finite units fits => simp [isLess]
  | infinite negative => cases negative <;> simp [isLess]
  | nan => exact absurd rfl h

/-- An integer that is not at most a count is at least the next one. -/
theorem isAtLeast_succ {x : Number} {n : Nat} (hinteger : x.isInteger = true)
    (habove : x.isAtMost n = false) : x.isAtLeast (n + 1) = true := by
  cases x with
  | infinite negative => cases hinteger
  | nan => cases hinteger
  | finite units fits =>
      have hmultiple : units % (unitsPerOne : Int) = 0 := by simpa [isInteger] using hinteger
      have hless : (n : Int) * unitsPerOne < units := by simpa [isAtMost] using habove
      have hpos : 0 < (unitsPerOne : Int) := by exact_mod_cast one_shiftLeft_pos 1074
      -- the limit is a whole multiple of the unit, so it is compared without fractions
      obtain ⟨whole, hwhole⟩ := Int.dvd_of_emod_eq_zero hmultiple
      rw [hwhole, Int.mul_comm (unitsPerOne : Int)] at hless
      have hcount : (n : Int) < whole := Int.lt_of_mul_lt_mul_right hless (Int.le_of_lt hpos)
      have hnext : ((n + 1 : Nat) : Int) * unitsPerOne ≤ units := by
        rw [hwhole, Int.mul_comm (unitsPerOne : Int)]
        exact Int.mul_le_mul_of_nonneg_right (by omega) (Int.le_of_lt hpos)
      simpa [isAtLeast] using hnext

/-- What is at least a count is not at most the count before it. -/
theorem not_isAtMost_pred {x : Number} {n : Nat} (hpos : 0 < n)
    (hbound : x.isAtLeast n = true) : x.isAtMost (n - 1) = false := by
  cases x with
  | infinite negative => simpa [isAtMost, isAtLeast] using hbound
  | nan => rfl
  | finite units fits =>
      have hle : (n : Int) * unitsPerOne ≤ units := by simpa [isAtLeast] using hbound
      have hunit : 0 < (unitsPerOne : Int) := by exact_mod_cast one_shiftLeft_pos 1074
      have hstep : ((n - 1 : Nat) : Int) * unitsPerOne < n * unitsPerOne :=
        Int.mul_lt_mul_of_pos_right (by omega) hunit
      have hless : ((n - 1 : Nat) : Int) * unitsPerOne < units := by omega
      simpa [isAtMost] using hless

end Number

namespace Quotas

def IsIntegral (q : Quotas) : Prop :=
  ∀ limit ∈ [q.maxUsers, q.maxRoles, q.maxPolicies, q.maxGroups, q.maxAccessKeys, q.maxSubTenants,
    q.apiRateLimit], limit.isInteger = true

instance (q : Quotas) : Decidable q.IsIntegral :=
  inferInstanceAs (Decidable (∀ limit ∈ [_, _, _, _, _, _, _], Number.isInteger limit = true))

theorem isIntegral_default : IsIntegral {} := by
  decide +kernel

theorem IsIntegral.maxSubTenants {q : Quotas} (h : q.IsIntegral) :
    q.maxSubTenants.isInteger = true :=
  h _ (by simp)

theorem IsIntegral.value_ne_nan {q : Quotas} (h : q.IsIntegral) (b : Bounded) :
    b.value q ≠ .nan := by
  apply Number.ne_nan_of_isInteger
  cases b <;> exact h _ (by simp [Bounded.value])

theorem Bounded.mem_all (q : Bounded) : q ∈ Bounded.all := by
  cases q <;> decide

/-- Quotas are within others when no bounded limit is above that of the others. -/
theorem within_eq_ok_iff {quotas bound : Quotas} :
    quotas.within bound = .ok () ↔ ∀ q : Bounded, ¬ q.value bound < q.value quotas := by
  have hexcess : quotas.excess? bound = none ↔
      ∀ q : Bounded, ¬ q.value bound < q.value quotas := by
    simp [excess?, List.find?_eq_none, Bounded.mem_all]
  rw [← hexcess]
  unfold within
  cases quotas.excess? bound <;> simp

end Quotas

end TenantIam
