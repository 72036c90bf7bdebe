import TenantIam.Json.Basic
import TenantIam.Number.Shortest
import TenantIam.Text.Hex
import TenantIam.Text.Units

/-!
# Writing JSON texts

A value is written without blanks, the fields of an object in their order. In strings the quote,
the backslash, the code points below U+0020 and the surrogates that stand alone are escaped, by a
letter where there is one and by four lower-case hexadecimal digits otherwise; all else stands for
itself. Numbers are written by their shortest decimal, infinities and NaN as `null`.
-/

namespace TenantIam.Json

/-- The escape of a 16-bit unit: four hexadecimal digits. -/
def unitEscape (unit : UInt16) : List Char :=
  '\\' :: 'u' :: (Text.hexByte (unit.toNat / 0x100) ++ Text.hexByte (unit.toNat % 0x100))

/-- A character as it stands between the quotes of a string. -/
def escape (c : Char) : List Char :=
  match c with
  | '"' => ['\\', '"']
  | '\\' => ['\\', '\\']
  | '\u0008' => ['\\', 'b']
  | '\u000C' => ['\\', 'f']
  | '\n' => ['\\', 'n']
  | '\r' => ['\\', 'r']
  | '\t' => ['\\', 't']
  | c => if c.toNat < 0x20 then unitEscape c.toNat.toUInt16 else [c]

def escapeLetter : Text.Letter → List Char
  | .char c => escape c
  | .lone unit => unitEscape unit

def quote (s : Utf16) : List Char :=
  '"' :: s.letters.flatMap escapeLetter ++ ['"']

/-- The text of a number; infinities and NaN have none. -/
def numberChars : Number → List Char
  | .infinite _ | .nan => "null".toList
  | x => x.chars

mutual

def chars : Json → List Char
  | .null => "null".toList
  | .bool true => "true".toList
  | .bool false => "false".toList
  | .num x => numberChars x
  | .str s => quote s
  | .arr [] => ['[', ']']
  | .arr (item :: items) => '[' :: chars item ++ itemChars items
  | .obj [] => ['{', '}']
  | .obj ((key, value) :: fields) =>
    '{' :: quote key ++ ':' :: chars value ++ fieldChars fields

/-- The further items of an array, each after a comma, and the closing bracket. -/
def itemChars : List Json → List Char
  | [] => [']']
  | item :: items => ',' :: chars item ++ itemChars items

def fieldChars : List (Utf16 × Json) → List Char
  | [] => ['}']
  | (key, value) :: fields => ',' :: quote key ++ ':' :: chars value ++ fieldChars fields

end

def write (value : Json) : String := String.ofList value.chars

/-- The text of a value in ASCII. Other characters occur in strings only, where their units can be
escaped. -/
def writeAscii (value : Json) : String :=
  String.ofList (value.chars.flatMap fun c =>
    if c.toNat < 0x80 then [c] else (Text.charUnits c).flatMap unitEscape)

end TenantIam.Json
