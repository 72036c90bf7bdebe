import TenantIam.Text.Units

/-!
# The expressions of globs

A glob is compiled by way of a regular expression. Three replacements, one after another, make it of
the pattern: a backslash is put before all punctuation that has a meaning in expressions, every `*`
becomes `.*`, and every `?` becomes `.`; the whole is anchored at both ends. The expression is then
read, and only what such an expression may say is understood: escaped punctuation, the dot, the dot
with a star after it, and units without a meaning of their own.

A later replacement sees what the earlier ones have put in. It does no harm: they put in only
backslashes and dots, and the stars that they put in stand right after a dot.
-/

namespace TenantIam.Glob

/-- What a place in an expression takes. -/
inductive Token where
  /-- Any run of units within a line. -/
  | run
  /-- Any one unit that does not end a line. -/
  | one
  /-- The unit itself. -/
  | exactly (unit : UInt16)
  deriving DecidableEq

/-- The unit of a character below U+10000. -/
def unit (c : Char) : UInt16 := c.toNat.toUInt16

def star : UInt16 := unit '*'

def question : UInt16 := unit '?'

def dot : UInt16 := unit '.'

def backslash : UInt16 := unit '\\'

def caret : UInt16 := unit '^'

def dollar : UInt16 := unit '$'

/-- What a unit of a pattern takes. -/
def Token.ofUnit (u : UInt16) : Token :=
  if u = star then .run
  else if u = question then .one
  else .exactly u

def escaped : List UInt16 := ".+^$\x7b\x7d()|[]\\".toList.map unit

/-- Whether a unit has a meaning of its own in expressions. -/
def isSyntax (u : UInt16) : Bool := u ∈ escaped || u = star || u = question

def replaceEach (test : UInt16 → Bool) (new : UInt16 → List UInt16) (s : List UInt16) :
    List UInt16 :=
  s.flatMap fun u => if test u then new u else [u]

/-- The pattern with its punctuation escaped and its wildcards written as those of expressions. -/
def replaced (pattern : List UInt16) : List UInt16 :=
  let quoted := replaceEach (· ∈ escaped) ([backslash, ·]) pattern
  let starred := replaceEach (· = star) (fun _ => [dot, star]) quoted
  replaceEach (· = question) (fun _ => [dot]) starred

def expression (pattern : List UInt16) : List UInt16 := caret :: (replaced pattern ++ [dollar])

/-- The tokens up to the dollar sign at the end. -/
def readTokens? : List UInt16 → Option (List Token)
  | [] => none
  | [u] => if u = dollar then some [] else none
  | u :: v :: rest =>
    if u = backslash then
      if isSyntax v then (readTokens? rest).map (.exactly v :: ·) else none
    else if u = dot then
      if v = star then (readTokens? rest).map (.run :: ·)
      else (readTokens? (v :: rest)).map (.one :: ·)
    else if isSyntax u then none
    else (readTokens? (v :: rest)).map (.exactly u :: ·)

/-- The tokens of an expression; `none` if it says something else. -/
def read? : List UInt16 → Option (List Token)
  | [] => none
  | u :: rest => if u = caret then readTokens? rest else none

section Reading

variable {u v : UInt16} {rest pattern : List UInt16}

theorem readTokens?_escaped (hv : isSyntax v = true) :
    readTokens? (backslash :: v :: rest) = (readTokens? rest).map (.exactly v :: ·) := by
  rw [readTokens?, if_pos rfl, if_pos hv]

theorem readTokens?_run :
    readTokens? (dot :: star :: rest) = (readTokens? rest).map (.run :: ·) := by
  rw [readTokens?, if_neg (by decide), if_pos rfl, if_pos rfl]

theorem readTokens?_one (hv : v ≠ star) :
    readTokens? (dot :: v :: rest) = (readTokens? (v :: rest)).map (.one :: ·) := by
  rw [readTokens?, if_neg (by decide), if_pos rfl, if_neg hv]

theorem readTokens?_plain (hu : isSyntax u = false) :
    readTokens? (u :: v :: rest) = (readTokens? (v :: rest)).map (.exactly u :: ·) := by
  have hne : ∀ w, isSyntax w = true → u ≠ w := by
    rintro w hw rfl
    rw [hw] at hu
    cases hu
  rw [readTokens?, if_neg (hne backslash (by decide)), if_neg (hne dot (by decide)),
    if_neg (by rw [hu]; exact Bool.false_ne_true)]

/-- The replacements work unit by unit. -/
theorem replaced_cons (u : UInt16) (pattern : List UInt16) :
    replaced (u :: pattern) = replaced [u] ++ replaced pattern := by
  simp [replaced, replaceEach]

theorem replaced_of_mem_escaped (hu : u ∈ escaped) : replaced [u] = [backslash, u] := by
  have hall : escaped.all (fun u => replaced [u] = [backslash, u]) = true := by decide
  exact of_decide_eq_true (List.all_eq_true.1 hall u hu)

theorem ofUnit_of_mem_escaped (hu : u ∈ escaped) : Token.ofUnit u = .exactly u := by
  have hall : escaped.all (fun u => Token.ofUnit u = .exactly u) = true := by decide
  exact of_decide_eq_true (List.all_eq_true.1 hall u hu)

theorem replaced_of_isSyntax_eq_false (hu : isSyntax u = false) : replaced [u] = [u] := by
  simp only [isSyntax, Bool.or_eq_false_iff, decide_eq_false_iff_not] at hu
  obtain ⟨⟨hescaped, hstar⟩, hquestion⟩ := hu
  simp [replaced, replaceEach, hescaped, hstar, hquestion]

theorem ofUnit_of_isSyntax_eq_false (hu : isSyntax u = false) :
    Token.ofUnit u = .exactly u := by
  simp only [isSyntax, Bool.or_eq_false_iff, decide_eq_false_iff_not] at hu
  rw [Token.ofUnit, if_neg hu.1.2, if_neg hu.2]

/-- A unit of a pattern is escaped punctuation, a star, a question mark, or without a meaning. -/
theorem unit_cases (u : UInt16) :
    u ∈ escaped ∨ u = star ∨ u = question ∨ isSyntax u = false := by
  by_cases hsyntax : isSyntax u = true
  · simp only [isSyntax, Bool.or_eq_true, decide_eq_true_eq] at hsyntax
    rcases hsyntax with (hescaped | hstar) | hquestion
    · exact .inl hescaped
    · exact .inr (.inl hstar)
    · exact .inr (.inr (.inl hquestion))
  · exact .inr (.inr (.inr (Bool.eq_false_iff.2 hsyntax)))

/-- No star stands where a token begins, so a dot is never taken for the first half of a run. -/
theorem exists_replaced_append (pattern : List UInt16) :
    ∃ v rest, replaced pattern ++ [dollar] = v :: rest ∧ v ≠ star := by
  cases pattern with
  | nil => exact ⟨dollar, [], rfl, by decide⟩
  | cons u pattern =>
      rw [replaced_cons, List.append_assoc]
      rcases unit_cases u with hescaped | rfl | rfl | hplain
      · rw [replaced_of_mem_escaped hescaped]
        exact ⟨backslash, _, rfl, by decide⟩
      · exact ⟨dot, _, rfl, by decide⟩
      · exact ⟨dot, _, rfl, by decide⟩
      · rw [replaced_of_isSyntax_eq_false hplain]
        refine ⟨u, _, rfl, ?_⟩
        rintro rfl
        exact absurd hplain (by decide)

theorem readTokens?_replaced (pattern : List UInt16) :
    readTokens? (replaced pattern ++ [dollar]) = some (pattern.map Token.ofUnit) := by
  induction pattern with
  | nil => rfl
  | cons u pattern ih =>
      obtain ⟨v, rest, hrest, hv⟩ := exists_replaced_append pattern
      rw [replaced_cons, List.append_assoc, List.map_cons]
      rcases unit_cases u with hescaped | rfl | rfl | hplain
      · rw [replaced_of_mem_escaped hescaped, ofUnit_of_mem_escaped hescaped]
        show readTokens? (backslash :: u :: (replaced pattern ++ [dollar])) = _
        rw [readTokens?_escaped (by simp [isSyntax, hescaped]), ih]
        rfl
      · show readTokens? (dot :: star :: (replaced pattern ++ [dollar])) = _
        rw [readTokens?_run, ih]
        rfl
      · show readTokens? (dot :: (replaced pattern ++ [dollar])) = _
        rw [hrest, readTokens?_one hv, ← hrest, ih]
        rfl
      · rw [replaced_of_isSyntax_eq_false hplain, ofUnit_of_isSyntax_eq_false hplain]
        show readTokens? (u :: (replaced pattern ++ [dollar])) = _
        rw [hrest, readTokens?_plain hplain, ← hrest, ih]
        rfl

/-- **Nothing is read amiss.** The expression of a pattern reads as one token for each unit. -/
theorem read?_expression (pattern : List UInt16) :
    read? (expression pattern) = some (pattern.map Token.ofUnit) := by
  rw [expression, read?, if_pos rfl, readTokens?_replaced]

end Reading

/-- A backslash before a star, and a question mark before one. -/
example : expression (Text.units "a\\*.?*") = Text.units "^a\\\\.*\\...*$" := by decide

end TenantIam.Glob
