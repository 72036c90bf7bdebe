import TenantIam.Pattern.Expression

/-!
# Globs

A glob is matched unit by unit against the 16-bit units of a text: `*` takes a run of units and `?`
takes one unit, neither of them across the end of a line, and every other unit takes itself. It is
compiled by way of the regular expression of its pattern.
-/

namespace TenantIam

structure Glob where
  /-- What is taken, from the start of a text to its end. -/
  tokens : List Glob.Token
  deriving DecidableEq

namespace Glob

/-- Whether a unit ends a line. -/
def endsLine (unit : UInt16) : Bool :=
  unit = 0x0A || unit = 0x0D || unit = 0x2028 || unit = 0x2029

/-- The compiled form of a pattern: what its expression says. -/
def ofUnits (pattern : List UInt16) : Glob :=
  ⟨(read? (expression pattern)).get (by rw [read?_expression]; rfl)⟩

theorem tokens_ofUnits (pattern : List UInt16) :
    (ofUnits pattern).tokens = pattern.map Token.ofUnit := by
  simp only [ofUnits, read?_expression, Option.get_some]

def compile (pattern : String) : Glob := ofUnits (Text.units pattern)

/-- Whether some run of units within a line can be taken off so that `rest` accepts what follows
it. -/
def runThen (rest : List UInt16 → Bool) : List UInt16 → Bool
  | [] => rest []
  | u :: s => rest (u :: s) || (!endsLine u && runThen rest s)

/-- Whether the tokens take all the units. -/
def take : List Token → List UInt16 → Bool
  | [], s => s.isEmpty
  | .run :: tokens, s => runThen (take tokens) s
  | .one :: tokens, s =>
    match s with
    | [] => false
    | u :: s => !endsLine u && take tokens s
  | .exactly unit :: tokens, s =>
    match s with
    | [] => false
    | u :: s => u = unit && take tokens s

/-- Whether a token followed by others takes a text, by its first unit: `here` and `next` say what
the others make of the text and of the text without that unit, `later` says what all the tokens
make of the latter. -/
def Token.verdict (token : Token) (u : UInt16) (here next later : Bool) : Bool :=
  match token with
  | .run => here || (!endsLine u && later)
  | .one => !endsLine u && next
  | .exactly unit => u = unit && next

/-- The verdicts of a token followed by others on every end of a text, longest first, from the
verdicts of the others. -/
def Token.verdicts (token : Token) : List UInt16 → List Bool → List Bool
  | u :: s, here :: after =>
    let later := token.verdicts s after
    token.verdict u here (after.headD false) (later.headD false) :: later
  | _, after => [token = .run && after.headD false]

/-- The verdicts of tokens on every end of a text, longest first. -/
def verdicts : List Token → List UInt16 → List Bool
  | [], s => s.foldr (fun _ after => false :: after) [true]
  | token :: tokens, s => token.verdicts s (verdicts tokens s)

def accepts (glob : Glob) (s : List UInt16) : Bool := (verdicts glob.tokens s).headD false

def acceptsText (glob : Glob) (text : String) : Bool := glob.accepts (Text.units text)

/-- A wildcard accepts what some cut leaves to the tokens after it, as long as it stays within a
line. -/
theorem runThen_iff {rest : List UInt16 → Bool} {s : List UInt16} :
    runThen rest s = true ↔
      ∃ a b, s = a ++ b ∧ (∀ u ∈ a, endsLine u = false) ∧ rest b = true := by
  induction s with
  | nil =>
    constructor
    · intro h
      exact ⟨[], [], rfl, by simp, h⟩
    · rintro ⟨a, b, hs, -, h⟩
      obtain ⟨-, rfl⟩ := List.append_eq_nil_iff.1 hs.symm
      exact h
  | cons u s ih =>
    simp only [runThen, Bool.or_eq_true, Bool.and_eq_true, Bool.not_eq_true', ih]
    constructor
    · rintro (h | ⟨hu, a, b, rfl, ha, hb⟩)
      · exact ⟨[], u :: s, rfl, by simp, h⟩
      · exact ⟨u :: a, b, rfl, by simpa [hu] using ha, hb⟩
    · rintro ⟨a, b, hs, ha, hb⟩
      cases a with
      | nil => exact .inl (by simpa [hs] using hb)
      | cons v a =>
        simp only [List.cons_append, List.cons.injEq] at hs
        obtain ⟨rfl, rfl⟩ := hs
        exact .inr ⟨ha u (by simp), a, b, rfl, fun w hw => ha w (by simp [hw]), hb⟩

/-- The verdicts on a text without its first unit follow the verdict on the text. -/
theorem verdicts_cons (tokens : List Token) (u : UInt16) (s : List UInt16) :
    ∃ first, verdicts tokens (u :: s) = first :: verdicts tokens s := by
  induction tokens generalizing u s with
  | nil => exact ⟨false, rfl⟩
  | cons token tokens ih =>
    obtain ⟨first, h⟩ := ih u s
    exact ⟨_, by simp only [verdicts, h, Token.verdicts]; rfl⟩

theorem headD_verdicts (tokens : List Token) (s : List UInt16) :
    (verdicts tokens s).headD false = take tokens s := by
  induction tokens generalizing s with
  | nil => cases s <;> rfl
  | cons token tokens ih =>
    induction s with
    | nil =>
      have h : verdicts (token :: tokens) [] =
          [token = .run && (verdicts tokens []).headD false] := by
        simp [verdicts, Token.verdicts]
      rw [h, ih]
      cases token <;> simp [take, runThen]
    | cons u s ihs =>
      obtain ⟨first, h⟩ := verdicts_cons tokens u s
      have hfirst := ih (u :: s)
      rw [h] at hfirst
      have hlater : (token.verdicts s (verdicts tokens s)).headD false = take (token :: tokens) s :=
        ihs
      simp only [verdicts, h, Token.verdicts, ih, hlater, List.headD_cons] at hfirst ⊢
      cases token <;> simp [Token.verdict, take, runThen, hfirst]

/-- A glob accepts what its tokens take. -/
theorem accepts_eq_take (glob : Glob) (s : List UInt16) : glob.accepts s = take glob.tokens s :=
  headD_verdicts glob.tokens s

end Glob

end TenantIam
