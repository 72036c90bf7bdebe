/-!
# Sixteen-bit units

A character takes one 16-bit unit below U+10000 and two, a high and a low surrogate, from there on.
A text that comes from elsewhere is a sequence of units, in which a surrogate may stand without its
partner.
-/

namespace TenantIam

namespace Text

/-- The one or two 16-bit units of a character. -/
def charUnits (c : Char) : List UInt16 :=
  if c.toNat < 0x10000 then [c.toNat.toUInt16]
  else
    [(0xD800 + (c.toNat - 0x10000) / 0x400).toUInt16,
     (0xDC00 + (c.toNat - 0x10000) % 0x400).toUInt16]

def units (s : String) : List UInt16 :=
  s.toList.flatMap charUnits

@[simp] theorem units_empty : units "" = [] := rfl

@[simp] theorem units_append (s t : String) : units (s ++ t) = units s ++ units t := by
  simp [units]

example : units "a😀" = [0x61, 0xD83D, 0xDE00] := by decide

/-- Whether a unit is the first of a pair. -/
def isHigh (unit : UInt16) : Bool := 0xD800 ≤ unit && unit < 0xDC00

def isLow (unit : UInt16) : Bool := 0xDC00 ≤ unit && unit < 0xE000

/-- The character that a pair of surrogates stands for. -/
def pairChar (high low : UInt16) : Char :=
  Char.ofNat (0x10000 + (high.toNat - 0xD800) * 0x400 + (low.toNat - 0xDC00))

/-- A character, or a surrogate that stands alone. -/
inductive Letter where
  | char (c : Char)
  | lone (unit : UInt16)
  deriving DecidableEq

namespace Letter

instance : Coe Char Letter := ⟨char⟩

def units : Letter → List UInt16
  | char c => charUnits c
  | lone unit => [unit]

/-- The letter of a unit that is not part of a pair. -/
def ofUnit (unit : UInt16) : Letter :=
  if isHigh unit || isLow unit then lone unit else char (Char.ofNat unit.toNat)

/-- What is shown for a letter: a surrogate alone has a replacement. -/
def shown : Letter → Char
  | char c => c
  | lone _ => '\uFFFD'

def isDigit (l : Letter) : Bool := l.shown.isDigit

@[simp] theorem isDigit_char (c : Char) : (char c).isDigit = c.isDigit := rfl

end Letter

def letters : List UInt16 → List Letter
  | [] => []
  | [unit] => [.ofUnit unit]
  | high :: low :: rest =>
    if isHigh high && isLow low then .char (pairChar high low) :: letters rest
    else .ofUnit high :: letters (low :: rest)

end Text

/-- A text of 16-bit units. -/
structure Utf16 where
  units : List UInt16
  deriving DecidableEq

namespace Utf16

def ofString (s : String) : Utf16 := ⟨Text.units s⟩

instance : Coe String Utf16 := ⟨ofString⟩

instance : Append Utf16 := ⟨fun s t => ⟨s.units ++ t.units⟩⟩

@[simp] theorem units_ofString (s : String) : (ofString s).units = Text.units s := rfl

@[simp] theorem units_append (s t : Utf16) : (s ++ t).units = s.units ++ t.units := rfl

def letters (s : Utf16) : List Text.Letter := Text.letters s.units

def intercalate (separator : Utf16) (texts : List Utf16) : Utf16 :=
  ⟨separator.units.intercalate (texts.map Utf16.units)⟩

end Utf16

/-- A pair is one letter; each of its halves is a letter of its own without the other. -/
example : Text.letters [0xDE00, 0x61, 0xD83D, 0xDE00, 0xD83D] =
    [.lone 0xDE00, .char 'a', .char '😀', .lone 0xD83D] := by decide

end TenantIam
