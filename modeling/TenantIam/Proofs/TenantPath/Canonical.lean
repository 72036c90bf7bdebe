import TenantIam.Proofs.Number.Decimal
import TenantIam.Proofs.TenantPath.Order

/-!
# The canonical form of tenant paths

Many texts denote one path, because a decimal may have any number of zeros in front. One of them is
canonical, the one without such zeros. A segment that is given is replaced by its canonical decimal
at once, so that paths can be compared as texts afterwards.
-/

namespace TenantIam.TenantPath

/-- A segment that is given, as it is written from then on. -/
def normalized (given : SegmentInput) : Except Flaw String :=
  (readSegment given).map segmentText

/-- A decimal without zeros in front, unless it is the one zero. -/
def IsCanonical (s : String) : Prop :=
  isDecimal s = true ∧ (s.toList.head? = some '0' → s = "0")

instance (s : String) : Decidable (IsCanonical s) :=
  inferInstanceAs (Decidable (isDecimal s = true ∧ (s.toList.head? = some '0' → s = "0")))

/-! ## Decimals without zeros in front -/

theorem digitChar_of_isDigit {c : Char} (h : c.isDigit = true) :
    c.toNat - '0'.toNat < 10 ∧ Nat.digitChar (c.toNat - '0'.toNat) = c := by
  simp only [Char.isDigit_iff_toNat, Char.reduceToNat] at h ⊢
  have hlt : c.toNat - 48 < 10 := by omega
  refine ⟨hlt, Char.toNat_inj.1 ?_⟩
  rw [Nat.toNat_digitChar_of_lt_ten hlt]
  omega

/-- Digits without a zero in front are the digits of their value. -/
theorem toDigits_ofDigitChars {digits : List Char} (hdigits : ∀ c ∈ digits, c.isDigit = true)
    (hne : digits ≠ []) (hhead : digits.head? ≠ some '0') :
    Nat.toDigits 10 (Nat.ofDigitChars 10 digits 0) = digits := by
  induction digits using List.reverseRecOn with
  | nil => exact absurd rfl hne
  | append_singleton front last ih =>
      obtain ⟨hlast, hchar⟩ := digitChar_of_isDigit (hdigits last (by simp))
      rw [Nat.ofDigitChars_append, Nat.ofDigitChars_cons, Nat.ofDigitChars_nil]
      by_cases hfront : front = []
      · subst hfront
        rw [List.nil_append, Nat.ofDigitChars_nil, Nat.mul_zero, Nat.zero_add,
          Nat.toDigits_of_lt_base hlast, hchar]
      · -- The digits before the last one begin alike, so they do not have the value zero.
        rw [List.head?_append_of_ne_nil _ hfront] at hhead
        have hvalue := ih (fun c hc => hdigits c (by simp [hc])) hfront hhead
        have hpos : 0 < Nat.ofDigitChars 10 front 0 := by
          apply Nat.pos_of_ne_zero
          intro hzero
          rw [hzero] at hvalue
          exact hhead (by rw [← hvalue]; rfl)
        have happend := Nat.toDigits_append_toDigits (by decide : 1 < 10) hpos hlast
        rw [hvalue, Nat.toDigits_of_lt_base hlast, hchar] at happend
        exact happend.symm

theorem isDecimal_iff {s : String} :
    isDecimal s = true ↔ s ≠ "" ∧ ∀ c ∈ s.toList, c.isDigit = true := by
  simp [isDecimal]

/-- A canonical decimal is determined by its value. -/
theorem IsCanonical.eq_repr {s : String} (h : IsCanonical s) : s = (decimalValue s).repr := by
  obtain ⟨hdecimal, hzero⟩ := h
  obtain ⟨hne, hdigits⟩ := isDecimal_iff.1 hdecimal
  by_cases hhead : s.toList.head? = some '0'
  · -- The one zero is the only canonical decimal that begins with one.
    rw [hzero hhead]
    rfl
  · apply String.toList_inj.1
    rw [Nat.toList_repr, decimalValue, toDigits_ofDigitChars hdigits (by simpa using hne) hhead]

theorem isCanonical_repr (n : Nat) : IsCanonical n.repr := by
  refine ⟨isDecimal_repr n, fun hhead => ?_⟩
  rcases Nat.eq_zero_or_pos n with rfl | hpos
  · rfl
  · rw [Nat.toList_repr] at hhead
    exact absurd hhead (Number.head?_toDigits_ne hpos)

/-- Zeros in front of a decimal do not change its value. -/
theorem isSegmentText_zeros_append {s : String} (h : IsSegmentText s) (k : Nat) :
    IsSegmentText (String.ofList (List.replicate k '0') ++ s) ∧
      decimalValue (String.ofList (List.replicate k '0') ++ s) = decimalValue s := by
  obtain ⟨hne, hdigits⟩ := isDecimal_iff.1 h.1
  have hvalue : decimalValue (String.ofList (List.replicate k '0') ++ s) = decimalValue s := by
    simp [decimalValue, Nat.ofDigitChars_append, Nat.ofDigitChars_replicate_zero]
  refine ⟨⟨isDecimal_iff.2 ⟨by simp [hne], ?_⟩, hvalue ▸ h.2⟩, hvalue⟩
  intro c hc
  rw [String.toList_append, List.mem_append, String.toList_ofList, List.mem_replicate] at hc
  rcases hc with ⟨-, rfl⟩ | hc
  · rfl
  · exact hdigits c hc

/-! ## Segments -/

/-- **Normalizing a segment.** The canonical decimal of the same value is returned. -/
theorem normalized_eq_ok_iff {given : SegmentInput} {s : String} :
    normalized given = .ok s ↔
      IsSegmentText given.toText ∧ IsCanonical s ∧ decimalValue s = decimalValue given.toText := by
  rw [normalized, readSegment]
  constructor
  · intro h
    cases hread : readDecimal given.toText with
    | error flaw => rw [hread] at h; cases h
    | ok segment =>
        rw [hread] at h
        cases h
        refine ⟨readDecimal_isOk_iff.1 ⟨segment, hread⟩, isCanonical_repr _, ?_⟩
        rw [decimalValue_segmentText, (readDecimal_eq_ok_iff.1 hread).2]
  · rintro ⟨hgiven, hcanonical, hvalue⟩
    obtain ⟨segment, hread⟩ := readDecimal_isOk_iff.2 hgiven
    rw [hread, hcanonical.eq_repr, hvalue, (readDecimal_eq_ok_iff.1 hread).2]
    rfl

/-- The segments that are accepted are the decimals below 2^64. -/
theorem normalized_isOk_iff {given : SegmentInput} :
    (∃ s, normalized given = .ok s) ↔ IsSegmentText given.toText := by
  simp only [normalized_eq_ok_iff]
  constructor
  · rintro ⟨s, hgiven, -⟩
    exact hgiven
  · intro hgiven
    exact ⟨(decimalValue given.toText).repr, hgiven, isCanonical_repr _, decimalValue_repr _⟩

/-- The integers of 64 bits are written as they are, and no other integer is accepted. -/
theorem normalized_integer_eq_ok_iff {i : Int} {s : String} :
    normalized (.integer i) = .ok s ↔ 0 ≤ i ∧ i < UInt64.size ∧ s = toString i := by
  rw [normalized_eq_ok_iff, SegmentInput.toText]
  cases i with
  | ofNat n =>
      have htext : toString (Int.ofNat n) = n.repr := rfl
      rw [htext, IsSegmentText, decimalValue_repr]
      constructor
      · rintro ⟨⟨-, hlt⟩, hcanonical, hvalue⟩
        exact ⟨Int.natCast_nonneg n, Int.ofNat_lt.2 hlt, hvalue ▸ hcanonical.eq_repr⟩
      · rintro ⟨-, hlt, rfl⟩
        exact ⟨⟨isDecimal_repr n, Int.ofNat_lt.1 hlt⟩, isCanonical_repr n, decimalValue_repr n⟩
  | negSucc n =>
      -- The sign is not a digit.
      have hsign : '-' ∈ (toString (Int.negSucc n)).toList := by
        have htext : toString (Int.negSucc n) = "-" ++ (n + 1).repr := rfl
        simp [htext]
      constructor
      · rintro ⟨hgiven, -⟩
        exact absurd hsign (hgiven.not_mem (by decide))
      · rintro ⟨hnonneg, -⟩
        exact absurd hnonneg (by simp)

/-! ## Paths -/

/-- A text is a path when its pieces are accepted as segments. -/
theorem parse_isOk_iff {s : String} :
    (∃ path, parse s = .ok path) ↔ ∀ piece ∈ Text.pieces '/' s, IsSegmentText piece := by
  simp only [parse_eq_ok_iff]
  constructor
  · rintro ⟨path, hpieces, -⟩
    exact hpieces
  · intro hpieces
    obtain ⟨path, hvalues⟩ := exists_of_isSegmentText (Text.pieces_ne_nil '/' s) hpieces
    exact ⟨path, hpieces, hvalues⟩

/-- Two texts denote one path when the values of their pieces are the same in the same order. -/
theorem parse_eq_iff {s s' : String} {path path' : TenantPath} (h : parse s = .ok path)
    (h' : parse s' = .ok path') :
    path = path' ↔
      (Text.pieces '/' s).map decimalValue = (Text.pieces '/' s').map decimalValue := by
  rw [(parse_eq_ok_iff.1 h).2, (parse_eq_ok_iff.1 h').2]
  constructor
  · rintro rfl
    rfl
  · intro hvalues
    exact eq_of_segments_eq (List.map_injective_iff.2 (fun _ _ => UInt64.toNat_inj.1) hvalues)

/-- **One canonical form.** A segment is accepted exactly when it is a non-empty run of digits whose
value has 64 bits, whatever zeros stand in front. It is replaced by the decimal of its value, which
is replaced by itself. A text is a path when all its pieces are such segments, a path that is
written is read again as itself, and two texts denote one path when their pieces have the same
values. -/
theorem canonical_form (given : SegmentInput) (path : TenantPath) (s s' : String) :
    ((∃ t, normalized given = .ok t) ↔
        given.toText ≠ "" ∧ (∀ c ∈ given.toText.toList, c.isDigit = true) ∧
          decimalValue given.toText ≤ 18446744073709551615) ∧
      (∀ t, normalized given = .ok t →
        t = (decimalValue given.toText).repr ∧ IsCanonical t ∧
          decimalValue t = decimalValue given.toText ∧ normalized (.text t) = .ok t ∧
          ∀ k, normalized (.text (String.ofList (List.replicate k '0') ++ given.toText)) = .ok t) ∧
      ((∃ read, parse s = .ok read) ↔
        ∀ piece ∈ Text.pieces '/' s, ∃ t, normalized (.text piece) = .ok t) ∧
      parse path.text = .ok path ∧
      ∀ read read', parse s = .ok read → parse s' = .ok read' →
        (read = read' ↔
          (Text.pieces '/' s).map decimalValue = (Text.pieces '/' s').map decimalValue) := by
  refine ⟨?_, ?_, ?_, parse_text path, fun _ _ => parse_eq_iff⟩
  · rw [normalized_isOk_iff, IsSegmentText, isDecimal_iff, and_assoc, ← Nat.lt_succ_iff]
  · intro t ht
    obtain ⟨hgiven, hcanonical, hvalue⟩ := normalized_eq_ok_iff.1 ht
    -- What is returned is fixed by its value, which the given text and the result share.
    have hvalue' := hcanonical.eq_repr
    rw [hvalue] at hvalue'
    refine ⟨hvalue', hcanonical, hvalue, ?_, fun k => ?_⟩
    · exact normalized_eq_ok_iff.2 ⟨⟨hcanonical.1, hvalue ▸ hgiven.2⟩, hcanonical, rfl⟩
    · obtain ⟨hzeros, hsame⟩ := isSegmentText_zeros_append hgiven k
      exact normalized_eq_ok_iff.2 ⟨hzeros, hcanonical, hvalue.trans hsame.symm⟩
  · simp only [parse_isOk_iff, normalized_isOk_iff, SegmentInput.toText]

/-- Zeros in front are dropped at the greatest segment too; the next integer is refused. -/
example :
    normalized (.text "0018446744073709551615") = .ok "18446744073709551615" ∧
      normalized (.integer 18446744073709551616) = .error (.tooLarge "18446744073709551616") ∧
      (parse "007/0").map text = .ok "7/0" := by
  decide +kernel

end TenantIam.TenantPath
