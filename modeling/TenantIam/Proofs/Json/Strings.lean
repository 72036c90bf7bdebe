import TenantIam.Json.Reader
import TenantIam.Json.Writer
import TenantIam.Proofs.Text.Units

/-!
# Reading strings that were written

Each letter of a string is written as itself or as an escape, and either way it is read as its own
units. Halves of a pair that are escaped one by one make the pair again, so nothing is asked of
what stands next to a letter.
-/

namespace TenantIam.Json

open Text (Letter plain)

theorem hexValue?_hexDigit {n : Nat} (h : n < 16) : hexValue? (Text.hexDigit n) = some n := by
  have hall : ∀ n < 16, hexValue? (Text.hexDigit n) = some n := by decide
  exact hall n h

theorem hexUnit?_hexDigit (unit : UInt16) :
    hexUnit? (Text.hexDigit (unit.toNat / 0x100 / 16)) (Text.hexDigit (unit.toNat / 0x100 % 16))
      (Text.hexDigit (unit.toNat % 0x100 / 16)) (Text.hexDigit (unit.toNat % 0x100 % 16)) =
      some unit := by
  have hlt : unit.toNat < 0x10000 := unit.toNat_lt
  have hfirst := hexValue?_hexDigit (show unit.toNat / 0x100 / 16 < 16 by omega)
  have hsecond := hexValue?_hexDigit (show unit.toNat / 0x100 % 16 < 16 by omega)
  have hthird := hexValue?_hexDigit (show unit.toNat % 0x100 / 16 < 16 by omega)
  have hfourth := hexValue?_hexDigit (show unit.toNat % 0x100 % 16 < 16 by omega)
  have hvalue : ((unit.toNat / 0x100 / 16 * 16 + unit.toNat / 0x100 % 16) * 16 +
      unit.toNat % 0x100 / 16) * 16 + unit.toNat % 0x100 % 16 = unit.toNat := by omega
  simp only [hexUnit?, hfirst, hsecond, hthird, hfourth, Option.bind_eq_bind, Option.bind_some,
    Option.pure_def, hvalue, Nat.toUInt16_eq, UInt16.ofNat_toNat]

/-- Units before those of a string that is read. -/
def withUnits (units : List UInt16) (read : Option (List UInt16 × List Letter)) :
    Option (List UInt16 × List Letter) :=
  read.map fun (more, rest) => (units ++ more, rest)

variable (s : List Letter)

theorem stringUnits_quote : stringUnits (.char '"' :: s) = some ([], s) := by
  rw [stringUnits.eq_def]
  rfl

theorem stringUnits_letter {e : Char} {unit : UInt16} (h : unescape? e = some unit) :
    stringUnits (.char '\\' :: .char e :: s) = withUnits [unit] (stringUnits s) := by
  have hne : e ≠ 'u' := by
    rintro rfl
    cases h
  rw [stringUnits.eq_def]
  simp only [show ¬ '\\' = '"' by decide, if_false, if_true]
  split
  case h_1 heq =>
    cases heq
    exact absurd rfl hne
  case h_2 heq =>
    cases heq
    rw [h]
    cases stringUnits s <;> rfl
  case h_3 hnone => exact absurd rfl (hnone e s)

theorem stringUnits_unitEscape (unit : UInt16) :
    stringUnits (plain (unitEscape unit) ++ s) = withUnits [unit] (stringUnits s) := by
  have hunit := hexUnit?_hexDigit unit
  simp only [unitEscape, Text.hexByte, plain, List.map_cons, List.map_nil, List.cons_append,
    List.nil_append]
  rw [stringUnits.eq_def]
  simp only [show ¬ '\\' = '"' by decide, if_false, if_true, hunit]
  cases stringUnits s <;> rfl

theorem stringUnits_plain {c : Char} (hquote : c ≠ '"') (hbackslash : c ≠ '\\')
    (hcontrol : ¬ c.toNat < 0x20) :
    stringUnits (.char c :: s) = withUnits (Text.charUnits c) (stringUnits s) := by
  rw [stringUnits.eq_def]
  simp only [if_neg hquote, if_neg hbackslash, if_neg hcontrol]
  rfl

/-- A character is written so that it is read as its units. -/
theorem stringUnits_escape (c : Char) :
    stringUnits (plain (escape c) ++ s) = withUnits (Text.charUnits c) (stringUnits s) := by
  unfold escape
  split
  -- a character without a short escape: four digits for a control character, else itself
  case h_8 hquote hbackslash _ _ _ _ _ =>
    split
    case isTrue hcontrol =>
      have hunits : Text.charUnits c = [c.toNat.toUInt16] := if_pos (by omega)
      rw [hunits]
      exact stringUnits_unitEscape s _
    case isFalse hcontrol => exact stringUnits_plain s hquote hbackslash hcontrol
  all_goals exact stringUnits_letter s rfl

/-- A letter is written so that it is read as its units. -/
theorem stringUnits_escapeLetter (l : Letter) :
    stringUnits (plain (escapeLetter l) ++ s) = withUnits l.units (stringUnits s) := by
  cases l with
  | char c => exact stringUnits_escape s c
  | lone unit => exact stringUnits_unitEscape s unit

theorem stringUnits_flatMap_escapeLetter (l : List Letter) :
    stringUnits (plain (l.flatMap escapeLetter) ++ .char '"' :: s) =
      some (l.flatMap Letter.units, s) := by
  induction l with
  | nil => exact stringUnits_quote s
  | cons letter l ih =>
      rw [List.flatMap_cons, Text.plain_append, List.append_assoc, stringUnits_escapeLetter, ih]
      rfl

theorem string?_escapeLetter (text : Utf16) :
    string? (plain (text.letters.flatMap escapeLetter) ++ .char '"' :: s) = some (text, s) := by
  rw [string?, stringUnits_flatMap_escapeLetter, Utf16.flatMap_units_letters]
  rfl

/-- Halves of a pair are kept when they stand alone, and are written as escapes. -/
example : string? (plain "\\ud83d\\ude00\\ud83d\"".toList) =
      some (⟨[0xD83D, 0xDE00, 0xD83D]⟩, []) ∧
    quote ⟨[0xD83D, 0xDE00, 0xD83D]⟩ = "\"😀\\ud83d\"".toList := by decide +kernel

end TenantIam.Json
