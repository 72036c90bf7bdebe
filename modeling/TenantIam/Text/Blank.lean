import TenantIam.Text.Ranges

/-!
# Blanks

White space and line ends: the Unicode space separators, the byte order mark, tabulators, form
feed and the four line terminators. U+0085, U+180E and U+200B are not blank.
-/

namespace TenantIam.Text

/-- The 25 blank code points. -/
def blankRanges : List (Nat × Nat) :=
  [(0x09, 0x0D), (0x20, 0x20), (0xA0, 0xA0), (0x1680, 0x1680), (0x2000, 0x200A), (0x2028, 0x2029),
   (0x202F, 0x202F), (0x205F, 0x205F), (0x3000, 0x3000), (0xFEFF, 0xFEFF)]

/-- Whether a character is white space or a line end. -/
def isBlank (c : Char) : Bool :=
  inRanges blankRanges c

def isAllBlank (s : String) : Bool :=
  s.toList.all isBlank

/-- Every character that counts as white space in core is blank. -/
theorem isBlank_of_isWhitespace {c : Char} (h : c.isWhitespace = true) : isBlank c = true := by
  simp [Char.isWhitespace] at h
  rcases h with ((h | h) | h) | h <;> subst h <;> decide

example : ascending blankRanges = true ∧ sizeOfRanges blankRanges = 25 := by decide

end TenantIam.Text
