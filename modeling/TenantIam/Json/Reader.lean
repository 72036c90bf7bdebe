import TenantIam.Json.Basic

/-!
# Reading JSON texts

The grammar is that of RFC 8259, without extensions: no comments, no trailing commas, no byte
order mark. A key that occurs twice keeps its first place and its last value. An escape with four
digits is one unit of a string, whether or not it makes a pair with its neighbour.
-/

namespace TenantIam.Json

open Text (Letter)

def skipBlanks : List Letter → List Letter
  | [] => []
  | c :: s => if c = ' ' ∨ c = '\t' ∨ c = '\n' ∨ c = '\r' then skipBlanks s else c :: s

def hexValue? (c : Char) : Option Nat :=
  if '0' ≤ c ∧ c ≤ '9' then some (c.toNat - '0'.toNat)
  else if 'a' ≤ c ∧ c ≤ 'f' then some (c.toNat - 'a'.toNat + 10)
  else if 'A' ≤ c ∧ c ≤ 'F' then some (c.toNat - 'A'.toNat + 10)
  else none

def hexUnit? (a b c d : Char) : Option UInt16 := do
  let a ← hexValue? a
  let b ← hexValue? b
  let c ← hexValue? c
  let d ← hexValue? d
  return (((a * 16 + b) * 16 + c) * 16 + d).toUInt16

/-- The unit that a letter after a backslash stands for. -/
def unescape? : Char → Option UInt16
  | '"' => some 0x22
  | '\\' => some 0x5C
  | '/' => some 0x2F
  | 'b' => some 0x08
  | 'f' => some 0x0C
  | 'n' => some 0x0A
  | 'r' => some 0x0D
  | 't' => some 0x09
  | _ => none

/-- The units of a string up to its closing quote, and what follows the quote. An escape gives one
unit, every other letter its own. -/
def stringUnits : List Letter → Option (List UInt16 × List Letter)
  | [] => none
  | .lone unit :: s => (stringUnits s).map fun (units, rest) => (unit :: units, rest)
  | .char c :: s =>
    if c = '"' then some ([], s)
    else if c = '\\' then
      match s with
      | .char 'u' :: .char a :: .char b :: .char c :: .char d :: rest =>
        match hexUnit? a b c d, stringUnits rest with
        | some unit, some (units, rest) => some (unit :: units, rest)
        | _, _ => none
      | .char e :: rest =>
        match unescape? e, stringUnits rest with
        | some unit, some (units, rest) => some (unit :: units, rest)
        | _, _ => none
      | _ => none
    else if c.toNat < 0x20 then none
    else (stringUnits s).map fun (units, rest) => (Text.charUnits c ++ units, rest)

def string? (s : List Letter) : Option (Utf16 × List Letter) :=
  (stringUnits s).map fun (units, rest) => (⟨units⟩, rest)

/-- The digits at the start of a text, at least one, and what follows them. -/
def digits? (s : List Letter) : Option (List Char × List Letter) :=
  let digits := s.takeWhile Letter.isDigit
  if digits.isEmpty then none else some (digits.map Letter.shown, s.dropWhile Letter.isDigit)

/-- The integer part of a number: a zero alone, or digits without a leading zero. -/
def wholePart? (s : List Letter) : Option (List Char × List Letter) :=
  match digits? s with
  | some (digits, rest) => if digits.head? = some '0' ∧ digits.length ≠ 1 then none
      else some (digits, rest)
  | none => none

/-- The digits after a point; none when there is no point. -/
def fractionPart? : List Letter → Option (List Char × List Letter)
  | .char '.' :: s => digits? s
  | s => some ([], s)

/-- The exponent after an `e` of either case; zero when there is none. -/
def exponentPart? : List Letter → Option (Int × List Letter)
  | [] => some (0, [])
  | c :: s =>
    if c = 'e' ∨ c = 'E' then
      let (negative, s) :=
        match s with
        | .char '-' :: t => (true, t)
        | .char '+' :: t => (false, t)
        | _ => (false, s)
      match digits? s with
      | some (digits, rest) =>
        let n : Int := Nat.ofDigitChars 10 digits 0
        some (if negative then -n else n, rest)
      | none => none
    else some (0, c :: s)

def number? (s : List Letter) : Option (Number × List Letter) :=
  let (negative, s) :=
    match s with
    | .char '-' :: t => (true, t)
    | _ => (false, s)
  match wholePart? s with
  | none => none
  | some (whole, s) =>
    match fractionPart? s with
    | none => none
    | some (fraction, s) =>
      match exponentPart? s with
      | none => none
      | some (exponent, s) =>
        some (.ofDecimal negative (Nat.ofDigitChars 10 (whole ++ fraction) 0)
          (exponent - fraction.length), s)

mutual

/-- The value at the start of a text that begins with no blank, and what follows it. The first
argument bounds the nesting and the length of what is read. -/
def value? : Nat → List Letter → Option (Json × List Letter)
  | 0, _ => none
  | n + 1, s =>
    match s with
    | .char '{' :: t =>
      match skipBlanks t with
      | .char '}' :: rest => some (.obj [], rest)
      | t => (members? n t).map fun (fields, rest) => (.obj (Fields.ofList fields), rest)
    | .char '[' :: t =>
      match skipBlanks t with
      | .char ']' :: rest => some (.arr [], rest)
      | t => (items? n t).map fun (items, rest) => (.arr items, rest)
    | .char '"' :: t => (string? t).map fun (s, rest) => (.str s, rest)
    | .char 't' :: .char 'r' :: .char 'u' :: .char 'e' :: rest => some (.bool true, rest)
    | .char 'f' :: .char 'a' :: .char 'l' :: .char 's' :: .char 'e' :: rest =>
      some (.bool false, rest)
    | .char 'n' :: .char 'u' :: .char 'l' :: .char 'l' :: rest => some (.null, rest)
    | _ => (number? s).map fun (x, rest) => (.num x, rest)

def items? : Nat → List Letter → Option (List Json × List Letter)
  | 0, _ => none
  | n + 1, s =>
    match value? n s with
    | none => none
    | some (item, s) =>
      match skipBlanks s with
      | .char ',' :: t => (items? n (skipBlanks t)).map fun (items, rest) => (item :: items, rest)
      | .char ']' :: rest => some ([item], rest)
      | _ => none

/-- The fields of an object up to its closing brace, as they are written. -/
def members? : Nat → List Letter → Option (List (Utf16 × Json) × List Letter)
  | 0, _ => none
  | n + 1, s =>
    match s with
    | .char '"' :: t =>
      match string? t with
      | none => none
      | some (key, s) =>
        match skipBlanks s with
        | .char ':' :: t =>
          match value? n (skipBlanks t) with
          | none => none
          | some (value, s) =>
            match skipBlanks s with
            | .char ',' :: t =>
              (members? n (skipBlanks t)).map fun (fields, rest) => ((key, value) :: fields, rest)
            | .char '}' :: rest => some ([(key, value)], rest)
            | _ => none
        | _ => none
    | _ => none

end

/-- The value of a JSON text; `none` when the text is not JSON. -/
def read? (text : Utf16) : Option Json :=
  let s := text.letters
  match value? (2 * s.length + 2) (skipBlanks s) with
  | some (value, rest) => if (skipBlanks rest).isEmpty then some value else none
  | none => none

end TenantIam.Json
