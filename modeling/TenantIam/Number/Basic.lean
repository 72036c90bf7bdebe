/-!
# Numbers

A number is a binary64 value: an integer multiple of 2^-1074 that needs at most 53 significant
bits and lies below 2^1024 in absolute value, one of the two infinities, or NaN, of which every
comparison is false. Zero has one sign.
-/

namespace TenantIam

/-- The number of units in 2^1024, which no finite value reaches. -/
def unitLimit : Nat := 1 <<< 2098

theorem one_shiftLeft_pos (n : Nat) : 0 < 1 <<< n := by
  rw [Nat.shiftLeft_eq, Nat.one_mul]
  exact Nat.two_pow_pos n

theorem unitLimit_pos : 0 < unitLimit := one_shiftLeft_pos _

/-- The number 2^53, from which on a number needs more than 53 bits. -/
def mantissaLimit : Nat := 9007199254740992

/-- A number of units that 53 significant bits can hold and that lies below 2^1024. -/
def FitsBinary64 (units : Nat) : Prop :=
  units < unitLimit ∧
    ∃ mantissa exponent, mantissa < mantissaLimit ∧ units = mantissa <<< exponent

/-- A binary64 value. -/
inductive Number where
  /-- The value `units` · 2^-1074. -/
  | finite (units : Int) (fits : FitsBinary64 units.natAbs)
  /-- An infinity of either sign. -/
  | infinite (negative : Bool)
  /-- What is not a number, and is neither above, below nor equal to anything. -/
  | nan
  deriving DecidableEq

/-- The nearest integer to `num / den`, a half going to the even neighbour. -/
def nearestInteger (num den : Nat) : Nat :=
  let low := num / den
  let rest := num % den
  if 2 * rest < den ∨ (2 * rest = den ∧ low % 2 = 0) then low else low + 1

/-- The nearest integer to `num / den` that has at most 53 significant bits. -/
def roundUnits (num den : Nat) : Nat :=
  let shift := (num / den).log2 - 52
  nearestInteger num (den <<< shift) <<< shift

theorem nearestInteger_le (num den : Nat) : nearestInteger num den ≤ num / den + 1 := by
  simp only [nearestInteger]
  split <;> omega

/-- Rounding leaves at most 53 significant bits. -/
theorem roundUnits_fits (num den : Nat) :
    ∃ mantissa exponent, mantissa < mantissaLimit ∧
      roundUnits num den = mantissa <<< exponent := by
  simp only [roundUnits]
  generalize hs : (num / den).log2 - 52 = shift
  have hlog : num / den < 2 ^ (53 + shift) :=
    Nat.lt_of_lt_of_le Nat.lt_log2_self (Nat.pow_le_pow_right (by decide) (by omega))
  have hquot : num / (den <<< shift) < mantissaLimit := by
    rw [Nat.shiftLeft_eq, ← Nat.div_div_eq_div_mul]
    apply Nat.div_lt_of_lt_mul
    rw [Nat.mul_comm]
    rwa [Nat.pow_add] at hlog
  have hnear := nearestInteger_le num (den <<< shift)
  by_cases h : nearestInteger num (den <<< shift) < mantissaLimit
  · exact ⟨_, shift, h, rfl⟩
  · have heq : nearestInteger num (den <<< shift) = mantissaLimit := by omega
    refine ⟨mantissaLimit / 2, shift + 1, by decide, ?_⟩
    rw [heq, Nat.shiftLeft_eq, Nat.shiftLeft_eq, Nat.pow_succ, Nat.mul_comm _ 2, ← Nat.mul_assoc]
    rfl

namespace Number

def unitsPerOne : Nat := 1 <<< 1074

/-- The value nearest to `num / den` units; an infinity from 2^1024 on. -/
def ofRatio (negative : Bool) (num den : Nat) : Number :=
  if h : roundUnits num den < unitLimit then
    .finite (if negative then -(roundUnits num den : Int) else roundUnits num den)
      (by split <;> simpa using ⟨h, roundUnits_fits num den⟩)
  else .infinite negative

def zero : Number := .finite 0 ⟨unitLimit_pos, 0, 0, by decide, rfl⟩

def ofNat (n : Nat) : Number := ofRatio false (n * unitsPerOne) 1

instance (n : Nat) : OfNat Number n := ⟨ofNat n⟩

def ofInt (i : Int) : Number := ofRatio (i < 0) (i.natAbs * unitsPerOne) 1

/-- Whether `x` is strictly below `y`. -/
def isLess : Number → Number → Bool
  | .finite a _, .finite b _ => a < b
  | .infinite negative, .finite .. => negative
  | .finite .., .infinite negative => !negative
  | .infinite a, .infinite b => a && !b
  | .nan, _ | _, .nan => false

instance : LT Number where
  lt x y := x.isLess y = true

instance (x y : Number) : Decidable (x < y) :=
  inferInstanceAs (Decidable (x.isLess y = true))

instance : LE Number where
  le x y := x ≠ nan ∧ y ≠ nan ∧ ¬ y < x

instance (x y : Number) : Decidable (x ≤ y) :=
  inferInstanceAs (Decidable (x ≠ nan ∧ y ≠ nan ∧ ¬ y < x))

/-- Whether `x` is strictly below the count `n`. -/
def isBelow (x : Number) (n : Nat) : Bool :=
  match x with
  | .finite units _ => units < n * unitsPerOne
  | .infinite negative => negative
  | .nan => false

def isAtMost (x : Number) (n : Nat) : Bool :=
  match x with
  | .finite units _ => units ≤ n * unitsPerOne
  | .infinite negative => negative
  | .nan => false

def isAtLeast (x : Number) (n : Nat) : Bool :=
  match x with
  | .finite units _ => n * unitsPerOne ≤ units
  | .infinite negative => !negative
  | .nan => false

def isInteger : Number → Bool
  | .finite units _ => units % unitsPerOne = 0
  | .infinite _ | .nan => false

/-- The integer nearest to `x` toward zero, if there is one. -/
def truncate? : Number → Option Int
  | .finite units _ => some (units.tdiv unitsPerOne)
  | .infinite _ | .nan => none

end Number

end TenantIam
