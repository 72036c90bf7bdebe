/-!
# Hexadecimal digits

Lower-case hexadecimal digits and the two-digit form of a byte.
-/

namespace TenantIam.Text

def hexDigit (n : Nat) : Char :=
  if n < 10 then Char.ofNat ('0'.toNat + n) else Char.ofNat ('a'.toNat + (n - 10))

/-- The two hexadecimal digits of a value below 256, the greater place first. -/
def hexByte (n : Nat) : List Char :=
  [hexDigit (n / 16), hexDigit (n % 16)]

example : hexByte 0x0f = ['0', 'f'] ∧ hexByte 0xb0 = ['b', '0'] := by decide

end TenantIam.Text
