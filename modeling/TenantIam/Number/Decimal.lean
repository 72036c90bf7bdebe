import TenantIam.Number.Basic

/-!
# Decimals

A decimal `digits · 10^exponent` stands for the nearest binary64 value, a half going to the value
with the even mantissa.
-/

namespace TenantIam.Number

def decimalLength (n : Nat) : Nat :=
  (Nat.toDigits 10 n).length

/-- The value nearest to `digits · 10^exponent`. Decimals of at least 10^400 are infinite and
decimals below 10^-400 are zero, without computing the power. -/
def ofDecimal (negative : Bool) (digits : Nat) (exponent : Int) : Number :=
  if digits = 0 ∨ decimalLength digits + exponent < -400 then zero
  else if 400 < decimalLength digits + exponent then .infinite negative
  else
    ofRatio negative (digits * Nat.pow 10 exponent.toNat * unitsPerOne)
      (Nat.pow 10 (-exponent).toNat)

/-- The value of the optional sign and the decimal digits at the start of a text, or `none` if it
does not start so. What follows the digits is ignored. -/
def leadingInteger? (s : List Char) : Option Number :=
  let (negative, rest) :=
    match s with
    | '-' :: t => (true, t)
    | '+' :: t => (false, t)
    | _ => (false, s)
  let digits := rest.takeWhile Char.isDigit
  if digits.isEmpty then none else some (ofDecimal negative (Nat.ofDigitChars 10 digits 0) 0)

end TenantIam.Number
