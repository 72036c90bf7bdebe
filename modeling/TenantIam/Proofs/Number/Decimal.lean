import Mathlib.Data.List.Basic
import Mathlib.Tactic.Ring
import TenantIam.Number.Shortest

/-!
# Decimals and the values they stand for

Rounding depends on a quotient alone and leaves what binary64 can hold as it is. So a decimal may
get zeros at its end without standing for anything else, and the digits that are chosen for a value
stand for it.
-/

namespace TenantIam

theorem nearestInteger_mul {k : Nat} (hk : 0 < k) (num den : Nat) :
    nearestInteger (num * k) (den * k) = nearestInteger num den := by
  have htwice : 2 * (num % den * k) = 2 * (num % den) * k := (Nat.mul_assoc _ _ _).symm
  simp only [nearestInteger, Nat.mul_div_mul_right _ _ hk, Nat.mul_mod_mul_right, htwice,
    Nat.mul_lt_mul_right hk, Nat.mul_right_cancel_iff hk]

theorem roundUnits_mul {k : Nat} (hk : 0 < k) (num den : Nat) :
    roundUnits (num * k) (den * k) = roundUnits num den := by
  have hshift (s : Nat) : (den * k) <<< s = den <<< s * k := by
    rw [Nat.shiftLeft_eq, Nat.shiftLeft_eq, Nat.mul_right_comm]
  simp only [roundUnits, Nat.mul_div_mul_right _ _ hk, hshift, nearestInteger_mul hk]

theorem roundUnits_congr {num den num' den' : Nat} (hden : 0 < den) (hden' : 0 < den')
    (h : num * den' = num' * den) : roundUnits num den = roundUnits num' den' :=
  calc roundUnits num den
    _ = roundUnits (num * den') (den * den') := (roundUnits_mul hden' num den).symm
    _ = roundUnits (num' * den) (den' * den) := by rw [h, Nat.mul_comm den den']
    _ = roundUnits num' den' := roundUnits_mul hden num' den'

theorem nearestInteger_of_dvd {num den : Nat} (hden : 0 < den) (h : den ∣ num) :
    nearestInteger num den = num / den := by
  simp [nearestInteger, Nat.mod_eq_zero_of_dvd h, hden]

theorem roundUnits_of_fits {units : Nat} (h : FitsBinary64 units) : roundUnits units 1 = units := by
  obtain ⟨-, mantissa, exponent, hmantissa, rfl⟩ := h
  rw [Nat.shiftLeft_eq]
  rcases Nat.eq_zero_or_pos mantissa with rfl | hpos
  · simp [roundUnits, nearestInteger]
  · have hne : mantissa * 2 ^ exponent ≠ 0 := (Nat.mul_pos hpos (Nat.two_pow_pos _)).ne'
    have hlog : (mantissa * 2 ^ exponent).log2 < 53 + exponent := by
      rw [Nat.log2_lt hne, Nat.pow_add]
      exact Nat.mul_lt_mul_of_pos_right hmantissa (Nat.two_pow_pos _)
    simp only [roundUnits, Nat.div_one, Nat.shiftLeft_eq, Nat.one_mul]
    have hdvd : 2 ^ ((mantissa * 2 ^ exponent).log2 - 52) ∣ mantissa * 2 ^ exponent :=
      Nat.dvd_mul_left_of_dvd (Nat.pow_dvd_pow 2 (by omega)) mantissa
    rw [nearestInteger_of_dvd (Nat.two_pow_pos _) hdvd, Nat.div_mul_cancel hdvd]

namespace Number

theorem ofRatio_congr {num den num' den' : Nat} (hden : 0 < den) (hden' : 0 < den')
    (h : num * den' = num' * den) (negative : Bool) :
    ofRatio negative num den = ofRatio negative num' den' := by
  simp only [ofRatio, roundUnits_congr hden hden' h]

theorem ofRatio_of_fits {units : Nat} (h : FitsBinary64 units) :
    ofRatio false units 1 = .finite units h := by
  simp [ofRatio, roundUnits_of_fits h, h.1]

theorem zero_eq_finite_iff {units : Int} {fits} : zero = .finite units fits ↔ units = 0 := by
  constructor
  · intro h
    cases h
    rfl
  · rintro rfl
    rfl

theorem unitsPerOne_eq : unitsPerOne = 2 ^ 1074 := Nat.one_shiftLeft 1074

theorem decimalLength_mul_ten {n : Nat} (h : 0 < n) :
    decimalLength (n * 10) = decimalLength n + 1 := by
  have hdigits := Nat.toDigits_append_toDigits (d := 0) (by decide : 1 < 10) h (by decide)
  rw [Nat.add_zero, Nat.mul_comm] at hdigits
  rw [decimalLength, ← hdigits, Nat.toDigits_zero]
  simp [decimalLength]

theorem decimalLength_mul_pow {n : Nat} (h : 0 < n) (k : Nat) :
    decimalLength (n * 10 ^ k) = decimalLength n + k := by
  induction k with
  | zero => simp
  | succ k ih =>
      have hpos : 0 < n * 10 ^ k := Nat.mul_pos h (Nat.pow_pos (by decide))
      rw [Nat.pow_succ, ← Nat.mul_assoc, decimalLength_mul_ten hpos, ih]
      omega

/-- Zeros at the end of a decimal do not change its value. -/
theorem ofDecimal_mul_pow (negative : Bool) (digits k : Nat) (exponent : Int) :
    ofDecimal negative (digits * 10 ^ k) (exponent - k) = ofDecimal negative digits exponent := by
  rcases Nat.eq_zero_or_pos digits with rfl | hpos
  · simp [ofDecimal]
  · have hlength : (decimalLength (digits * 10 ^ k) : Int) + (exponent - k) =
        decimalLength digits + exponent := by
      rw [decimalLength_mul_pow hpos]
      omega
    have hzero : digits * 10 ^ k = 0 ↔ digits = 0 := by simp
    have hpowers : k + (exponent - k).toNat + (-exponent).toNat =
        exponent.toNat + (-(exponent - k)).toNat := by omega
    have hratio (negative : Bool) :
        ofRatio negative (digits * 10 ^ k * Nat.pow 10 (exponent - k).toNat * unitsPerOne)
            (Nat.pow 10 (-(exponent - k)).toNat) =
          ofRatio negative (digits * Nat.pow 10 exponent.toNat * unitsPerOne)
            (Nat.pow 10 (-exponent).toNat) := by
      apply ofRatio_congr (Nat.pow_pos (by decide)) (Nat.pow_pos (by decide))
      simp only [Nat.pow_eq]
      calc digits * 10 ^ k * 10 ^ (exponent - k).toNat * unitsPerOne * 10 ^ (-exponent).toNat
        _ = digits * unitsPerOne * 10 ^ (k + (exponent - k).toNat + (-exponent).toNat) := by
            rw [Nat.pow_add, Nat.pow_add]
            ring
        _ = digits * unitsPerOne * 10 ^ (exponent.toNat + (-(exponent - k)).toNat) := by
            rw [hpowers]
        _ = digits * 10 ^ exponent.toNat * unitsPerOne * 10 ^ (-(exponent - k)).toNat := by
            rw [Nat.pow_add]
            ring
    simp only [ofDecimal, hlength, hzero, hratio]

theorem Decimal.standsFor_iff {d : Decimal} {units : Nat} :
    d.standsFor units = true ↔
      ∃ fits, ofDecimal false d.digits d.exponent = .finite units fits := by
  rw [Decimal.standsFor]
  cases ofDecimal false d.digits d.exponent with
  | finite u fits =>
      simp only [decide_eq_true_eq, finite.injEq]
      constructor
      · rintro rfl
        exact ⟨fits, rfl⟩
      · rintro ⟨-, h⟩
        exact h
  | infinite negative => simp
  | nan => simp

/-- A sign before a decimal is the sign of its value. -/
theorem ofDecimal_true_of_finite {digits : Nat} {exponent units : Int} {fits}
    (h : ofDecimal false digits exponent = .finite units fits) :
    ofDecimal true digits exponent = .finite (-units) (by simpa using fits) := by
  simp only [ofDecimal] at h ⊢
  split at h
  · rename_i hsmall
    rw [if_pos hsmall, zero_eq_finite_iff, zero_eq_finite_iff.1 h, Int.neg_zero]
  · rename_i hsmall
    rw [if_neg hsmall]
    split at h
    · cases h
    · rename_i hgreat
      rw [if_neg hgreat]
      simp only [ofRatio] at h ⊢
      split at h
      · rename_i hbelow
        rw [dif_pos hbelow]
        simp only [Bool.false_eq_true, if_false, if_true, finite.injEq] at h ⊢
        omega
      · cases h

/-- The value of a signed decimal that stands for the absolute value. -/
theorem ofDecimal_of_standsFor {d : Decimal} {units : Int} (fits : FitsBinary64 units.natAbs)
    (h : d.standsFor units.natAbs = true) :
    ofDecimal (units < 0) d.digits d.exponent = .finite units fits := by
  obtain ⟨_, hvalue⟩ := Decimal.standsFor_iff.1 h
  by_cases hsign : units < 0
  · simp only [hsign, decide_true, ofDecimal_true_of_finite hvalue, finite.injEq]
    omega
  · simp only [hsign, decide_false, hvalue, finite.injEq]
    omega

theorem Decimal.digits_pos_of_standsFor {d : Decimal} {units : Nat} (hpos : 0 < units)
    (h : d.standsFor units = true) : 0 < d.digits := by
  obtain ⟨_, hvalue⟩ := Decimal.standsFor_iff.1 h
  rcases Nat.eq_zero_or_pos d.digits with hzero | hdigits
  · simp [ofDecimal, hzero, zero_eq_finite_iff] at hvalue
    omega
  · exact hdigits

theorem standsFor_of_nearer? {units : Nat} {low high d : Decimal} {lowIsNearer : Bool}
    (h : nearer? units low high lowIsNearer = some d) : d.standsFor units = true := by
  simp only [nearer?] at h
  split at h
  case h_1 => cases h
  case h_2 hlow _ =>
      cases h
      exact hlow
  case h_3 _ hhigh =>
      cases h
      exact hhigh
  case h_4 hlow hhigh =>
      split at h <;> cases h
      · exact hlow
      · exact hhigh

theorem standsFor_of_candidate? {units : Nat} {top : Int} {n : Nat} {d : Decimal}
    (h : candidate? units top n = some d) : d.standsFor units = true :=
  standsFor_of_nearer? h

/-- The decimal of a positive number does not begin with a zero. -/
theorem head?_toDigits_ne {n : Nat} (h : 0 < n) : (Nat.toDigits 10 n).head? ≠ some '0' := by
  have hdigit : ∀ d < 10, 0 < d → Nat.digitChar d ≠ '0' := by decide
  induction n using Nat.strongRecOn with
  | ind n ih =>
      rw [Nat.toDigits_eq_if (by decide)]
      split
      · rename_i hlt
        simpa using hdigit n hlt h
      · rw [List.head?_append_of_ne_nil _ Nat.toDigits_ne_nil]
        exact ih (n / 10) (by omega) (by omega)

theorem le_decimalLength {n k : Nat} (h : 10 ^ k ≤ n) : k < decimalLength n := by
  rcases Nat.eq_zero_or_pos k with rfl | hk
  · exact Nat.length_toDigits_pos
  · rw [decimalLength, ← Nat.not_le, Nat.length_toDigits_le_iff (by decide) hk]
    omega

theorem decimalLength_le {n k : Nat} (hk : 0 < k) (h : n < 10 ^ k) : decimalLength n ≤ k :=
  (Nat.length_toDigits_le_iff (by decide) hk).2 h

/-- Powers of ten around the exact decimal of every value. -/
theorem exactDecimal_bounds {units : Nat} (hpos : 0 < units) (hlimit : units < unitLimit) :
    10 ^ 700 ≤ units * 5 ^ 1074 ∧ units * 5 ^ 1074 < 10 ^ 1400 := by
  constructor
  · calc 10 ^ 700
      _ ≤ 5 ^ 1074 := by decide +kernel
      _ ≤ units * 5 ^ 1074 := Nat.le_mul_of_pos_left _ hpos
  · calc units * 5 ^ 1074
      _ < unitLimit * 5 ^ 1074 := Nat.mul_lt_mul_of_pos_right hlimit (Nat.pow_pos (by decide))
      _ ≤ 10 ^ 1400 := by decide +kernel

theorem exactDecimal_standsFor {units : Nat} (hpos : 0 < units) (fits : FitsBinary64 units) :
    (exactDecimal units).standsFor units = true := by
  obtain ⟨hlow, hhigh⟩ := exactDecimal_bounds hpos fits.1
  have hshortest := le_decimalLength hlow
  have hlongest := decimalLength_le (by decide) hhigh
  have hratio : ofRatio false (units * 5 ^ 1074 * 1 * unitsPerOne) (10 ^ 1074) =
      .finite units fits := by
    rw [← ofRatio_of_fits fits]
    apply ofRatio_congr (Nat.pow_pos (by decide)) (by decide)
    rw [unitsPerOne_eq, Nat.mul_one, Nat.mul_one, Nat.mul_assoc, ← Nat.mul_pow]
  refine Decimal.standsFor_iff.2 ⟨fits, ?_⟩
  rw [exactDecimal, ofDecimal, if_neg (by simp only [Nat.pow_eq]; omega),
    if_neg (by simp only [Nat.pow_eq]; omega)]
  exact hratio

/-- The digits that are chosen for a value stand for it. -/
theorem shortest_standsFor {units : Nat} (hpos : 0 < units) (fits : FitsBinary64 units) :
    (shortest units).standsFor units = true := by
  simp only [shortest]
  cases hfound : (List.range 17).findSome? fun n => candidate? units (magnitude units) (n + 1) with
  | none => exact exactDecimal_standsFor hpos fits
  | some d =>
      obtain ⟨n, -, hn⟩ := List.exists_of_findSome?_eq_some hfound
      exact standsFor_of_candidate? hn

end Number

end TenantIam
