import TenantIam.Number.Decimal

/-!
# The shortest decimal of a number

A number is written with the fewest significant digits that stand for it and for no other number;
of several decimals with that many digits the nearest is taken, and of two equally near ones the
even. It is written positionally from 10^-6 to below 10^21 and with a signed exponent elsewhere,
without a point when it is an integer.
-/

namespace TenantIam.Number

/-- A positive decimal `digits · 10^exponent`. -/
structure Decimal where
  /-- The significant digits. -/
  digits : Nat
  /-- The power of ten of the last digit. -/
  exponent : Int
  deriving DecidableEq

/-- Whether a decimal stands for the positive number of `units` units. -/
def Decimal.standsFor (d : Decimal) (units : Nat) : Bool :=
  match ofDecimal false d.digits d.exponent with
  | .finite u _ => u = units
  | .infinite _ | .nan => false

/-- Ten to this power is a common denominator of every decimal that is tried. -/
def decimalScale : Nat := 400

/-- The least power of ten above `units` units. -/
def magnitude (units : Nat) : Int :=
  (decimalLength (units * Nat.pow 10 decimalScale / unitsPerOne) : Int) - decimalScale

/-- Of two decimals one that stands for `units` units, if there is one: the nearer when both do. -/
def nearer? (units : Nat) (low high : Decimal) (lowIsNearer : Bool) : Option Decimal :=
  match low.standsFor units, high.standsFor units with
  | false, false => none
  | true, false => some low
  | false, true => some high
  | true, true => if lowIsNearer then some low else some high

/-- A decimal of `n` significant digits that stands for `units` units, which are below the power
`top` of ten, if there is one: the neighbours on the grid of `n` digits are tried, and of two
equally near ones the even wins. -/
def candidate? (units : Nat) (top : Int) (n : Nat) : Option Decimal :=
  let exponent := top - n
  let grid := unitsPerOne * Nat.pow 10 (exponent + decimalScale).toNat
  let scaled := units * Nat.pow 10 decimalScale
  let low := scaled / grid
  let middle := (2 * low + 1) * grid
  nearer? units ⟨low, exponent⟩ ⟨low + 1, exponent⟩
    (2 * scaled < middle ∨ (2 * scaled = middle ∧ low % 2 = 0))

def exactDecimal (units : Nat) : Decimal :=
  ⟨units * Nat.pow 5 1074, -1074⟩

/-- The shortest decimal that stands for `units` units, for positive `units`. -/
def shortest (units : Nat) : Decimal :=
  let top := magnitude units
  ((List.range 17).findSome? fun n => candidate? units top (n + 1)).getD (exactDecimal units)

/-- Digits with a point behind the first when there are more. -/
def mantissa : List Char → List Char
  | d :: e :: rest => d :: '.' :: e :: rest
  | digits => digits

/-- Digits without trailing zeros, read as a fraction below one times a power of ten, written
positionally or with an exponent. -/
def layOut (digits : List Char) (point : Int) : List Char :=
  let size := digits.length
  if size ≤ point ∧ point ≤ 21 then
    digits ++ List.replicate (point - size).toNat '0'
  else if 0 < point ∧ point ≤ 21 then
    digits.take point.toNat ++ '.' :: digits.drop point.toNat
  else if -6 < point ∧ point ≤ 0 then
    '0' :: '.' :: List.replicate (-point).toNat '0' ++ digits
  else
    let exponent := point - 1
    mantissa digits ++
      'e' :: (if exponent < 0 then '-' else '+') :: Nat.toDigits 10 exponent.natAbs

def stripZeros (digits : List Char) : List Char :=
  (digits.reverse.dropWhile (· = '0')).reverse

def Decimal.chars (d : Decimal) : List Char :=
  let digits := Nat.toDigits 10 d.digits
  layOut (stripZeros digits) (digits.length + d.exponent)

def chars : Number → List Char
  | .finite units _ =>
    if units = 0 then ['0']
    else if units < 0 then '-' :: (shortest units.natAbs).chars
    else (shortest units.natAbs).chars
  | .infinite true => "-Infinity".toList
  | .infinite false => "Infinity".toList
  | .nan => "NaN".toList

def text (x : Number) : String := String.ofList x.chars

example : (ofDecimal false 12 (-1)).text = "1.2" ∧ (ofDecimal false 1 21).text = "1e+21" ∧
    (ofDecimal true 15 (-8)).text = "-1.5e-7" ∧ (ofDecimal false 9007199254740993 0).text =
      "9007199254740992" := by decide +kernel

end TenantIam.Number
