import Mathlib.Data.List.Basic
import Mathlib.Data.List.TakeWhile
import TenantIam.Json.Reader
import TenantIam.Json.Writer
import TenantIam.Proofs.Number.Decimal
import TenantIam.Proofs.Text.Units

/-!
# Reading numbers that were written

A finite number is written in one of four layouts of its shortest digits. Each is a sequence of a
whole part, a fraction and an exponent that the reader puts together to the same decimal, up to
zeros at its end. What follows a number in a text neither extends its digits nor starts a fraction
or an exponent.
-/

namespace TenantIam

namespace Number

theorem chars_finite {units : Int} (fits : FitsBinary64 units.natAbs) :
    (finite units fits).chars =
      if units = 0 then ['0']
      else if units < 0 then '-' :: (shortest units.natAbs).chars
      else (shortest units.natAbs).chars := rfl

/-- Digits of a positive number, without a zero in front. -/
structure Significant (digits : List Char) : Prop where
  isDigit : ∀ c ∈ digits, c.isDigit = true
  ne_nil : digits ≠ []
  head?_ne : digits.head? ≠ some '0'

theorem ofDigitChars_append_zeros (digits : List Char) (k : Nat) :
    Nat.ofDigitChars 10 (digits ++ List.replicate k '0') 0 =
      Nat.ofDigitChars 10 digits 0 * 10 ^ k := by
  rw [Nat.ofDigitChars_append, Nat.ofDigitChars_replicate_zero, Nat.mul_comm]

/-- Only zeros are lost when the zeros at the end are. -/
theorem exists_eq_stripZeros_append (digits : List Char) :
    ∃ k, digits = stripZeros digits ++ List.replicate k '0' := by
  let zeros := digits.reverse.takeWhile (· = '0')
  have hzeros : zeros = List.replicate zeros.length '0' := by
    refine List.eq_replicate_of_mem fun c hc => ?_
    simpa using List.mem_takeWhile_imp hc
  refine ⟨zeros.length, ?_⟩
  calc digits
    _ = (zeros ++ digits.reverse.dropWhile (· = '0')).reverse := by
        rw [List.takeWhile_append_dropWhile, List.reverse_reverse]
    _ = stripZeros digits ++ zeros.reverse := List.reverse_append
    _ = stripZeros digits ++ List.replicate zeros.length '0' := by
        rw [hzeros, List.reverse_replicate, List.length_replicate]

/-- The digits that are laid out for a positive decimal. -/
theorem significant_stripZeros {n : Nat} (h : 0 < n) :
    Significant (stripZeros (Nat.toDigits 10 n)) := by
  obtain ⟨k, hk⟩ := exists_eq_stripZeros_append (Nat.toDigits 10 n)
  have hhead := head?_toDigits_ne h
  have hne : stripZeros (Nat.toDigits 10 n) ≠ [] := by
    intro hnil
    rw [hnil, List.nil_append] at hk
    cases k with
    | zero => exact Nat.toDigits_ne_nil hk
    | succ k => exact hhead (by rw [hk]; rfl)
  constructor
  · intro c hc
    refine Nat.isDigit_of_mem_toDigits (by decide : 0 < 10) (by decide) (n := n) ?_
    rw [hk]
    exact List.mem_append_left _ hc
  · exact hne
  · rwa [hk, List.head?_append_of_ne_nil _ hne] at hhead

end Number

namespace Json

open Number (ofDecimal ofDecimal_mul_pow layOut mantissa Significant)
open Text (Letter plain)

/-- Whether a number ends before a text. -/
def EndsNumber (rest : List Letter) : Prop :=
  ∀ c ∈ rest.head?, c.isDigit = false ∧ c ≠ '.' ∧ c ≠ 'e' ∧ c ≠ 'E'

@[simp] theorem endsNumber_nil : EndsNumber [] := by simp [EndsNumber]

@[simp] theorem endsNumber_cons {c : Letter} {s : List Letter} :
    EndsNumber (c :: s) ↔ c.isDigit = false ∧ c ≠ '.' ∧ c ≠ 'e' ∧ c ≠ 'E' := by
  simp [EndsNumber]

theorem EndsNumber.isDigit_eq_false {rest : List Letter} (h : EndsNumber rest) :
    ∀ c ∈ rest.head?, c.isDigit = false := fun c hc => (h c hc).1

theorem EndsNumber.ne_point {rest : List Letter} (h : EndsNumber rest) :
    ∀ c ∈ rest.head?, c ≠ .char '.' := fun c hc => (h c hc).2.1

theorem isDigit_of_mem_zeros {k : Nat} : ∀ c ∈ List.replicate k '0', c.isDigit = true := by
  intro c hc
  rw [List.eq_of_mem_replicate hc]
  rfl

theorem digits?_append {digits : List Char} {rest : List Letter} (hne : digits ≠ [])
    (hdigits : ∀ c ∈ digits, c.isDigit = true) (hrest : ∀ c ∈ rest.head?, c.isDigit = false) :
    digits? (plain digits ++ rest) = some (digits, rest) := by
  have hplain : ∀ c ∈ plain digits, c.isDigit = true := List.forall_mem_map.2 hdigits
  have htake : rest.takeWhile Letter.isDigit = [] := by
    cases rest with
    | nil => rfl
    | cons c rest => simp [hrest c rfl]
  have hdrop : rest.dropWhile Letter.isDigit = rest := by
    cases rest with
    | nil => rfl
    | cons c rest => simp [hrest c rfl]
  have hempty : (plain digits).isEmpty = false := by simpa [plain] using hne
  have hshown : (plain digits).map Letter.shown = digits := by
    rw [plain, List.map_map]
    exact List.map_id digits
  simp only [digits?, List.takeWhile_append_of_pos hplain, List.dropWhile_append_of_pos hplain,
    htake, hdrop, List.append_nil, hempty, hshown, Bool.false_eq_true, if_false]

theorem wholePart?_append {digits : List Char} {rest : List Letter} (hne : digits ≠ [])
    (hdigits : ∀ c ∈ digits, c.isDigit = true)
    (hlead : digits.head? = some '0' → digits.length = 1)
    (hrest : ∀ c ∈ rest.head?, c.isDigit = false) :
    wholePart? (plain digits ++ rest) = some (digits, rest) := by
  have hnot : ¬ (digits.head? = some '0' ∧ digits.length ≠ 1) := fun h => h.2 (hlead h.1)
  simp only [wholePart?, digits?_append hne hdigits hrest, if_neg hnot]

theorem fractionPart?_of_ends {rest : List Letter} (h : ∀ c ∈ rest.head?, c ≠ .char '.') :
    fractionPart? rest = some ([], rest) := by
  unfold fractionPart?
  split
  · exact absurd rfl (h (.char '.') rfl)
  · rfl

theorem exponentPart?_of_ends {rest : List Letter} (h : EndsNumber rest) :
    exponentPart? rest = some (0, rest) := by
  cases rest with
  | nil => rfl
  | cons c rest =>
      obtain ⟨-, -, he, hE⟩ := endsNumber_cons.1 h
      simp [exponentPart?, he, hE]

theorem exponentPart?_append (exponent : Int) {rest : List Letter} (h : EndsNumber rest) :
    exponentPart? (plain ('e' :: (if exponent < 0 then '-' else '+') ::
      Nat.toDigits 10 exponent.natAbs) ++ rest) = some (exponent, rest) := by
  have hdigits := digits?_append (Nat.toDigits_ne_nil (n := exponent.natAbs) (b := 10))
    (fun c => Nat.isDigit_of_mem_toDigits (by decide) (by decide)) h.isDigit_eq_false
  by_cases hneg : exponent < 0
  · have habs : -(exponent.natAbs : Int) = exponent := by omega
    simp only [exponentPart?, if_pos hneg, Text.plain_cons, List.cons_append, hdigits,
      Nat.ofDigitChars_ten_toDigits, true_or, if_true, habs]
  · have habs : (exponent.natAbs : Int) = exponent := by omega
    simp only [exponentPart?, if_neg hneg, Text.plain_cons, List.cons_append, hdigits,
      Nat.ofDigitChars_ten_toDigits, true_or, if_true, Bool.false_eq_true, if_false, habs]

/-- A text is read, after either sign, as a decimal that is followed by `rest`. -/
def ReadsAs (s : List Letter) (digits : Nat) (exponent : Int) (rest : List Letter) : Prop :=
  number? (.char '-' :: s) = some (ofDecimal true digits exponent, rest) ∧
    number? s = some (ofDecimal false digits exponent, rest)

theorem readsAs_of_parts {s t u rest : List Letter} {whole fraction : List Char} {exponent : Int}
    (hwhole : wholePart? s = some (whole, t)) (hfraction : fractionPart? t = some (fraction, u))
    (hexponent : exponentPart? u = some (exponent, rest)) :
    ReadsAs s (Nat.ofDigitChars 10 (whole ++ fraction) 0) (exponent - fraction.length) rest := by
  constructor
  · unfold number?
    split
    rename_i negative tail hsign
    obtain ⟨rfl, rfl⟩ := Prod.mk.inj hsign
    simp only [hwhole, hfraction, hexponent]
  · unfold number?
    split
    rename_i negative tail hsign
    split at hsign
    · simp [wholePart?, digits?] at hwhole
    · obtain ⟨rfl, rfl⟩ := Prod.mk.inj hsign
      simp only [hwhole, hfraction, hexponent]

theorem readsAs_mul_pow {s rest : List Letter} {digits k : Nat} {exponent : Int} :
    ReadsAs s (digits * 10 ^ k) (exponent - k) rest ↔ ReadsAs s digits exponent rest := by
  rw [ReadsAs, ofDecimal_mul_pow, ofDecimal_mul_pow, ReadsAs]

section Layouts

variable {digits : List Char} {rest : List Letter}

/-- An integer: the digits and more zeros are the whole part. -/
theorem readsAs_integer (h : Significant digits) (hrest : EndsNumber rest) (k : Nat) :
    ReadsAs (plain (digits ++ List.replicate k '0') ++ rest)
      (Nat.ofDigitChars 10 digits 0 * 10 ^ k) 0 rest := by
  have hwhole : wholePart? (plain (digits ++ List.replicate k '0') ++ rest) =
      some (digits ++ List.replicate k '0', rest) := by
    refine wholePart?_append (by simp [h.ne_nil])
      (List.forall_mem_append.2 ⟨h.isDigit, isDigit_of_mem_zeros⟩) ?_ hrest.isDigit_eq_false
    rw [List.head?_append_of_ne_nil _ h.ne_nil]
    exact fun hzero => absurd hzero h.head?_ne
  have hfraction := fractionPart?_of_ends hrest.ne_point
  have hreads := readsAs_of_parts hwhole hfraction (exponentPart?_of_ends hrest)
  rwa [List.append_nil, Number.ofDigitChars_append_zeros, List.length_nil] at hreads

/-- A point between the digits: those behind it are the fraction. -/
theorem readsAs_point (h : Significant digits) (hrest : EndsNumber rest) {k : Nat} (hpos : 0 < k)
    (hlt : k < digits.length) :
    ReadsAs (plain (digits.take k ++ '.' :: digits.drop k) ++ rest) (Nat.ofDigitChars 10 digits 0)
      (k - digits.length) rest := by
  have htake : digits.take k ≠ [] := by
    rw [ne_eq, List.take_eq_nil_iff]
    simp [h.ne_nil]
    omega
  have hdrop : digits.drop k ≠ [] := by
    rw [ne_eq, List.drop_eq_nil_iff]
    omega
  have hwhole : wholePart? (plain (digits.take k) ++ .char '.' :: (plain (digits.drop k) ++ rest)) =
      some (digits.take k, .char '.' :: (plain (digits.drop k) ++ rest)) := by
    refine wholePart?_append htake (fun c hc => h.isDigit c (List.mem_of_mem_take hc)) ?_ (by simp)
    intro hzero
    rw [List.head?_take, if_neg (by omega)] at hzero
    exact absurd hzero h.head?_ne
  have hfraction : fractionPart? (.char '.' :: (plain (digits.drop k) ++ rest)) =
      some (digits.drop k, rest) :=
    digits?_append hdrop (fun c hc => h.isDigit c (List.mem_of_mem_drop hc))
      hrest.isDigit_eq_false
  have hreads := readsAs_of_parts hwhole hfraction (exponentPart?_of_ends hrest)
  have hexponent : (0 : Int) - (digits.drop k).length = k - digits.length := by
    rw [List.length_drop]
    omega
  rw [List.take_append_drop, hexponent] at hreads
  simpa using hreads

/-- A zero before the point: the digits end the fraction. -/
theorem readsAs_small (h : Significant digits) (hrest : EndsNumber rest) (k : Nat) :
    ReadsAs (plain ('0' :: '.' :: List.replicate k '0' ++ digits) ++ rest)
      (Nat.ofDigitChars 10 digits 0) (-k - digits.length) rest := by
  have hwhole : wholePart?
        (plain ['0'] ++ .char '.' :: (plain (List.replicate k '0' ++ digits) ++ rest)) =
      some (['0'], .char '.' :: (plain (List.replicate k '0' ++ digits) ++ rest)) :=
    wholePart?_append (by simp) (by simp) (fun _ => rfl) (by simp)
  have hfraction : fractionPart? (.char '.' :: (plain (List.replicate k '0' ++ digits) ++ rest)) =
      some (List.replicate k '0' ++ digits, rest) :=
    digits?_append (by simp [h.ne_nil])
      (List.forall_mem_append.2 ⟨isDigit_of_mem_zeros, h.isDigit⟩) hrest.isDigit_eq_false
  have hvalue : Nat.ofDigitChars 10 (['0'] ++ (List.replicate k '0' ++ digits)) 0 =
      Nat.ofDigitChars 10 digits 0 := by
    rw [← List.append_assoc, ← List.replicate_one, List.replicate_append_replicate,
      Nat.ofDigitChars_append, Nat.ofDigitChars_replicate_zero, Nat.mul_zero]
  have hreads := readsAs_of_parts hwhole hfraction (exponentPart?_of_ends hrest)
  have hexponent : (0 : Int) - (List.replicate k '0' ++ digits).length = -k - digits.length := by
    rw [List.length_append, List.length_replicate]
    omega
  rw [hvalue, hexponent] at hreads
  simpa using hreads

theorem readsAs_exponent (h : Significant digits) (hrest : EndsNumber rest) (exponent : Int) :
    ReadsAs (plain (mantissa digits ++ 'e' :: (if exponent < 0 then '-' else '+') ::
      Nat.toDigits 10 exponent.natAbs) ++ rest) (Nat.ofDigitChars 10 digits 0)
      (exponent - (digits.length - 1)) rest := by
  obtain ⟨tail, htail⟩ : ∃ tail, plain ('e' :: (if exponent < 0 then '-' else '+') ::
      Nat.toDigits 10 exponent.natAbs) ++ rest = .char 'e' :: tail := ⟨_, rfl⟩
  have hexponent : exponentPart? (.char 'e' :: tail) = some (exponent, rest) := by
    rw [← htail]
    exact exponentPart?_append exponent hrest
  have hends : ∀ c ∈ (Letter.char 'e' :: tail).head?, c.isDigit = false := by simp
  rw [Text.plain_append, List.append_assoc, htail]
  match digits, h with
  | [], h => exact absurd rfl h.ne_nil
  | [d], h =>
      -- after a single digit there is no point
      have hwhole : wholePart? (plain [d] ++ .char 'e' :: tail) = some ([d], .char 'e' :: tail) :=
        wholePart?_append h.ne_nil h.isDigit (fun _ => rfl) hends
      have hfraction : fractionPart? (.char 'e' :: tail) = some ([], .char 'e' :: tail) :=
        fractionPart?_of_ends (by simp)
      have hreads := readsAs_of_parts hwhole hfraction hexponent
      simpa [mantissa] using hreads
  | d :: e :: more, h =>
      have hwhole : wholePart?
            (plain [d] ++ .char '.' :: (plain (e :: more) ++ .char 'e' :: tail)) =
          some ([d], .char '.' :: (plain (e :: more) ++ .char 'e' :: tail)) :=
        wholePart?_append (by simp) (by simp [h.isDigit]) (fun _ => rfl) (by simp)
      have hfraction : fractionPart? (.char '.' :: (plain (e :: more) ++ .char 'e' :: tail)) =
          some (e :: more, .char 'e' :: tail) :=
        digits?_append (by simp) (fun c hc => h.isDigit c (List.mem_cons_of_mem d hc)) hends
      have hreads := readsAs_of_parts hwhole hfraction hexponent
      simpa [mantissa] using hreads

/-- Digits in any layout are read as the decimal that they are the digits of. -/
theorem readsAs_layOut (h : Significant digits) (hrest : EndsNumber rest) (point : Int) :
    ReadsAs (plain (layOut digits point) ++ rest) (Nat.ofDigitChars 10 digits 0)
      (point - digits.length) rest := by
  simp only [layOut]
  split
  case isTrue hinteger =>
    obtain ⟨k, hk⟩ : ∃ k : Nat, point - digits.length = k := Int.eq_ofNat_of_zero_le (by omega)
    -- the zeros that are written out belong to the digits that are read
    rw [hk, Int.toNat_natCast, ← readsAs_mul_pow (k := k), Int.sub_self]
    exact readsAs_integer h hrest k
  case isFalse hinteger =>
    split
    case isTrue hinside =>
      obtain ⟨k, rfl⟩ : ∃ k : Nat, point = k := Int.eq_ofNat_of_zero_le (by omega)
      rw [Int.toNat_natCast]
      exact readsAs_point h hrest (by omega) (by omega)
    case isFalse houtside =>
      split
      case isTrue hsmall =>
        obtain ⟨k, hk⟩ : ∃ k : Nat, -point = k := Int.eq_ofNat_of_zero_le (by omega)
        have hpoint : point = -k := by omega
        rw [hk, Int.toNat_natCast, hpoint]
        exact readsAs_small h hrest k
      case isFalse hfar =>
        have hexponent : point - digits.length = point - 1 - (digits.length - 1) := by omega
        rw [hexponent]
        exact readsAs_exponent h hrest (point - 1)

end Layouts

theorem readsAs_decimalChars {d : Number.Decimal} (hpos : 0 < d.digits) {rest : List Letter}
    (hrest : EndsNumber rest) : ReadsAs (plain d.chars ++ rest) d.digits d.exponent rest := by
  obtain ⟨k, hk⟩ := Number.exists_eq_stripZeros_append (Nat.toDigits 10 d.digits)
  have hreads : ReadsAs (plain d.chars ++ rest) _ _ rest :=
    readsAs_layOut (Number.significant_stripZeros hpos) hrest _
  have hdigits : d.digits =
      Nat.ofDigitChars 10 (Number.stripZeros (Nat.toDigits 10 d.digits)) 0 * 10 ^ k := by
    conv_lhs => rw [← Nat.ofDigitChars_ten_toDigits (n := d.digits), hk]
    exact Number.ofDigitChars_append_zeros _ k
  have hexponent : ((Nat.toDigits 10 d.digits).length : Int) + d.exponent -
      (Number.stripZeros (Nat.toDigits 10 d.digits)).length = d.exponent + k := by
    have hlength := congrArg List.length hk
    rw [List.length_append, List.length_replicate] at hlength
    omega
  -- the zeros that were stripped come back as a power of ten
  rw [hexponent, ← readsAs_mul_pow (k := k), ← hdigits, Int.add_sub_cancel] at hreads
  exact hreads

-- Stated for any decimal: with `shortest` in its place the digits would be computed to check it.
theorem number?_signed {d : Number.Decimal} {units : Int} (fits : FitsBinary64 units.natAbs)
    (hne : units ≠ 0) (hstands : d.standsFor units.natAbs = true) {rest : List Letter}
    (hrest : EndsNumber rest) :
    number? (plain (if units < 0 then '-' :: d.chars else d.chars) ++ rest) =
      some (.finite units fits, rest) := by
  have hvalue := Number.ofDecimal_of_standsFor fits hstands
  have hreads := readsAs_decimalChars
    (Number.Decimal.digits_pos_of_standsFor (Int.natAbs_pos.2 hne) hstands) hrest
  by_cases hneg : units < 0
  · rw [if_pos hneg, ← hvalue, decide_eq_true hneg]
    exact hreads.1
  · rw [if_neg hneg, ← hvalue, decide_eq_false hneg]
    exact hreads.2

theorem number?_chars {units : Int} (fits : FitsBinary64 units.natAbs) {rest : List Letter}
    (hrest : EndsNumber rest) :
    number? (plain (Number.finite units fits).chars ++ rest) = some (.finite units fits, rest) := by
  rw [Number.chars_finite]
  by_cases hzero : units = 0
  · have hwhole : wholePart? (plain ['0'] ++ rest) = some (['0'], rest) :=
      wholePart?_append (by simp) (by simp) (fun _ => rfl) hrest.isDigit_eq_false
    have hfraction := fractionPart?_of_ends hrest.ne_point
    have hreads := readsAs_of_parts hwhole hfraction (exponentPart?_of_ends hrest)
    have hvalue : ofDecimal false 0 0 = .finite units fits := by
      simp [ofDecimal, Number.zero_eq_finite_iff, hzero]
    rw [if_pos hzero, ← hvalue]
    exact hreads.2
  · rw [if_neg hzero]
    exact number?_signed fits hzero (Number.shortest_standsFor (Int.natAbs_pos.2 hzero) fits) hrest

theorem wholePart?_start {s : List Letter} {r : List Char × List Letter}
    (h : wholePart? s = some r) : ∃ c t, s = c :: t ∧ c.isDigit = true := by
  cases s with
  | nil => cases h
  | cons c t =>
      by_cases hdigit : c.isDigit = true
      · exact ⟨c, t, rfl, hdigit⟩
      · simp [wholePart?, digits?, hdigit] at h

/-- What is read as a number starts with a digit or with the sign. -/
theorem number?_start {s : List Letter} {r : Number × List Letter} (h : number? s = some r) :
    ∃ c t, s = c :: t ∧ (c = .char '-' ∨ c.isDigit = true) := by
  unfold number? at h
  split at h
  rename_i negative tail hsign
  split at hsign
  · exact ⟨_, _, rfl, .inl rfl⟩
  · obtain ⟨rfl, rfl⟩ := Prod.mk.inj hsign
    cases hwhole : wholePart? s with
    | none =>
        rw [hwhole] at h
        cases h
    | some r =>
        obtain ⟨c, t, hs, hdigit⟩ := wholePart?_start hwhole
        exact ⟨c, t, hs, .inr hdigit⟩

end Json

end TenantIam
