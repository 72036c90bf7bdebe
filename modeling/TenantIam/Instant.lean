import TenantIam.Number.Basic

/-!
# Instants

Points in time, counted in milliseconds from the start of 1970 in universal time, within a hundred
million days of it.
-/

namespace TenantIam

structure Instant where
  /-- Milliseconds since the start of 1970. -/
  millis : Int
  deriving DecidableEq

namespace Instant

/-- The number of milliseconds in a hundred million days. -/
def range : Nat := 8640000000000000

/-- The instant of a number of milliseconds, fractions dropped; `none` out of range. -/
def ofNumber? (x : Number) : Option Instant :=
  match x.truncate? with
  | some millis => if millis.natAbs ≤ range then some ⟨millis⟩ else none
  | none => none

def seconds (t : Instant) : Int := t.millis / 1000

/-- Year, month and day of a day counted from the start of 1970, in the Gregorian calendar. Years
are counted from March so that a leap day ends one. -/
def civil (day : Int) : Int × Nat × Nat :=
  let shifted := day + 719468
  let era := shifted / 146097
  let dayOfEra := (shifted % 146097).toNat
  let yearOfEra :=
    (dayOfEra - dayOfEra / 1460 + dayOfEra / 36524 - dayOfEra / 146096) / 365
  let dayOfYear := dayOfEra - (365 * yearOfEra + yearOfEra / 4 - yearOfEra / 100)
  let monthFromMarch := (5 * dayOfYear + 2) / 153
  let dayOfMonth := dayOfYear - (153 * monthFromMarch + 2) / 5 + 1
  let month := if monthFromMarch < 10 then monthFromMarch + 3 else monthFromMarch - 9
  (yearOfEra + era * 400 + (if month ≤ 2 then 1 else 0), month, dayOfMonth)

/-- The decimal of `n`, filled up with zeros to `width` digits. -/
def padded (width n : Nat) : String :=
  let digits := Nat.toDigits 10 n
  String.ofList (List.replicate (width - digits.length) '0' ++ digits)

/-- A year in four digits, or with a sign and six digits outside 0 to 9999. -/
def yearText (year : Int) : String :=
  if 0 ≤ year ∧ year ≤ 9999 then padded 4 year.natAbs
  else (if year < 0 then "-" else "+") ++ padded 6 year.natAbs

/-- Date and time in the international form, to the millisecond. -/
def text (t : Instant) : String :=
  let (year, month, day) := civil (t.millis / 86400000)
  let ofDay := (t.millis % 86400000).toNat
  yearText year ++ "-" ++ padded 2 month ++ "-" ++ padded 2 day ++ "T" ++
    padded 2 (ofDay / 3600000) ++ ":" ++ padded 2 (ofDay / 60000 % 60) ++ ":" ++
    padded 2 (ofDay / 1000 % 60) ++ "." ++ padded 3 (ofDay % 1000) ++ "Z"

example : (Instant.mk 1704164645678).text = "2024-01-02T03:04:05.678Z" := by decide +kernel

end Instant

end TenantIam
