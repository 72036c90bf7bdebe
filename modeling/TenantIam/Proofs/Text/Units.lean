import TenantIam.Text.Units

/-!
# Characters in their units

No unit of a text belongs to two characters, and which units begin a character can be seen from the
units alone: the second unit of a pair is of a range of its own. So where the units of one text
occur within those of another, the characters do too. A sequence of units has the letters whose
units it is, and no other text has the units of a given one.
-/

namespace TenantIam.Text

variable {c d : Char} {s t : List Char} {x y : List UInt16}

/-- A character is one unit outside the ranges of pairs, or a pair with each unit in its range. -/
theorem charUnits_eq (c : Char) :
    (∃ u : UInt16, charUnits c = [u] ∧ u.toNat = c.toNat ∧
        (c.toNat < 0xD800 ∨ 0xE000 ≤ c.toNat ∧ c.toNat < 0x10000)) ∨
      ∃ u v : UInt16, charUnits c = [u, v] ∧ 0x10000 ≤ c.toNat ∧
        u.toNat = 0xD800 + (c.toNat - 0x10000) / 0x400 ∧ u.toNat < 0xDC00 ∧
        v.toNat = 0xDC00 + (c.toNat - 0x10000) % 0x400 := by
  have hvalid : c.toNat < 0xD800 ∨ 0xDFFF < c.toNat ∧ c.toNat < 0x110000 := c.valid
  unfold charUnits
  by_cases hlow : c.toNat < 0x10000
  · refine .inl ⟨c.toNat.toUInt16, if_pos hlow, UInt16.toNat_ofNat_of_lt' hlow, ?_⟩
    omega
  · refine .inr ⟨_, _, if_neg hlow, ?_⟩
    rw [Nat.toUInt16_eq, Nat.toUInt16_eq, UInt16.toNat_ofNat', UInt16.toNat_ofNat']
    omega

theorem charUnits_ne_nil (c : Char) : charUnits c ≠ [] := by
  obtain ⟨u, hu, -⟩ | ⟨u, v, huv, -⟩ := charUnits_eq c
  · simp [hu]
  · simp [huv]

/-- The first character and the units after it are determined by the units. -/
theorem charUnits_append_inj (h : charUnits c ++ x = charUnits d ++ y) : c = d ∧ x = y := by
  obtain ⟨u, hc, hu⟩ | ⟨u, v, hc, hu⟩ := charUnits_eq c <;>
    obtain ⟨u', hd, hu'⟩ | ⟨u', v', hd, hu'⟩ := charUnits_eq d <;>
      rw [hc, hd] at h <;> simp only [List.cons_append, List.nil_append, List.cons.injEq] at h
  case inl.inl =>
    obtain ⟨rfl, rfl⟩ := h
    exact ⟨Char.toNat_inj.1 (by omega), rfl⟩
  case inl.inr =>
    obtain ⟨rfl, -⟩ := h
    omega
  case inr.inl =>
    obtain ⟨rfl, -⟩ := h
    omega
  case inr.inr =>
    obtain ⟨rfl, rfl, rfl⟩ := h
    exact ⟨Char.toNat_inj.1 (by omega), rfl⟩

/-- Units that start those of a text are the units of characters that start it. -/
theorem exists_of_flatMap_append (h : s.flatMap charUnits ++ x = t.flatMap charUnits) :
    ∃ rest, t = s ++ rest ∧ x = rest.flatMap charUnits := by
  induction s generalizing t with
  | nil => exact ⟨t, rfl, h⟩
  | cons c s ih =>
      rw [List.flatMap_cons, List.append_assoc] at h
      cases t with
      | nil =>
          rw [List.flatMap_nil, List.append_eq_nil_iff] at h
          exact absurd h.1 (charUnits_ne_nil c)
      | cons d t =>
          rw [List.flatMap_cons] at h
          obtain ⟨rfl, hrest⟩ := charUnits_append_inj h
          obtain ⟨rest, rfl, hx⟩ := ih hrest
          exact ⟨rest, rfl, hx⟩

/-- The units of a text do not begin with the second unit of a pair. -/
theorem flatMap_charUnits_ne_cons {v : UInt16} (hs : s ≠ []) (hlow : 0xDC00 ≤ v.toNat)
    (hhigh : v.toNat < 0xE000) : s.flatMap charUnits ++ y ≠ v :: x := by
  cases s with
  | nil => exact absurd rfl hs
  | cons c s =>
      intro h
      rw [List.flatMap_cons] at h
      obtain ⟨u, hc, hu⟩ | ⟨u, w, hc, hu⟩ := charUnits_eq c
      · rw [hc, List.singleton_append, List.cons_append, List.cons.injEq] at h
        obtain ⟨rfl, -⟩ := h
        omega
      · rw [hc, List.cons_append, List.cons_append, List.cons.injEq] at h
        obtain ⟨rfl, -⟩ := h
        omega

/-- **Nothing is found between two halves.** Where the units of characters stand within those of a
text, the characters stand in the text. -/
theorem exists_of_append_flatMap_append (hs : s ≠ [])
    (h : x ++ (s.flatMap charUnits ++ y) = t.flatMap charUnits) :
    ∃ before after, t = before ++ (s ++ after) ∧ y = after.flatMap charUnits := by
  induction t generalizing x with
  | nil =>
      cases s with
      | nil => exact absurd rfl hs
      | cons c s =>
          have hnil : charUnits c = [] := by
            simp only [List.flatMap_nil, List.append_eq_nil_iff, List.flatMap_cons] at h
            exact h.2.1.1
          exact absurd hnil (charUnits_ne_nil c)
  | cons d t ih =>
      cases x with
      | nil =>
          obtain ⟨after, ht, hy⟩ := exists_of_flatMap_append h
          exact ⟨[], after, ht, hy⟩
      | cons u x =>
          -- the first character goes with what stands before
          have hnext : ∃ x', x' ++ (s.flatMap charUnits ++ y) = t.flatMap charUnits := by
            rw [List.flatMap_cons, List.cons_append] at h
            obtain ⟨v, hd, -⟩ | ⟨v, w, hd, hrange⟩ := charUnits_eq d
            · rw [hd, List.singleton_append, List.cons.injEq] at h
              exact ⟨x, h.2⟩
            · rw [hd, List.cons_append, List.singleton_append, List.cons.injEq] at h
              cases x with
              | nil =>
                  -- the units would have to begin in the middle of the pair
                  exact absurd h.2 (flatMap_charUnits_ne_cons hs (by omega) (by omega))
              | cons w' x =>
                  rw [List.cons_append, List.cons.injEq] at h
                  exact ⟨x, h.2.2⟩
          obtain ⟨x', hx'⟩ := hnext
          obtain ⟨before, after, rfl, hy⟩ := ih hx'
          exact ⟨d :: before, after, rfl, hy⟩

/-! ## Texts and their units -/

/-- A text starts with another exactly when its units do. -/
theorem flatMap_charUnits_prefix_iff :
    s.flatMap charUnits <+: t.flatMap charUnits ↔ s <+: t := by
  constructor
  · rintro ⟨x, hx⟩
    obtain ⟨rest, rfl, -⟩ := exists_of_flatMap_append hx
    exact List.prefix_append s rest
  · rintro ⟨rest, rfl⟩
    exact ⟨rest.flatMap charUnits, List.flatMap_append.symm⟩

theorem flatMap_charUnits_inj : s.flatMap charUnits = t.flatMap charUnits ↔ s = t := by
  constructor
  · intro h
    rw [← List.append_nil (s.flatMap charUnits)] at h
    obtain ⟨rest, rfl, hrest⟩ := exists_of_flatMap_append h
    cases rest with
    | nil => rw [List.append_nil]
    | cons c rest =>
        rw [List.flatMap_cons] at hrest
        exact absurd (List.append_eq_nil_iff.1 hrest.symm).1 (charUnits_ne_nil c)
  · intro h
    rw [h]

theorem units_inj {s t : String} : units s = units t ↔ s = t := by
  rw [units, units, flatMap_charUnits_inj, String.toList_inj]

/-- A character below the surrogates is found in a text where its unit is found. -/
theorem unit_mem_flatMap_charUnits_iff (hc : c.toNat < 0xD800) :
    c.toNat.toUInt16 ∈ s.flatMap charUnits ↔ c ∈ s := by
  have hsize : c.toNat < 0x10000 := by omega
  have hunit : c.toNat.toUInt16.toNat = c.toNat := UInt16.toNat_ofNat_of_lt' hsize
  have hletter (d : Char) : c.toNat.toUInt16 ∈ charUnits d ↔ c = d := by
    rw [← Char.toNat_inj]
    obtain ⟨u, hu, hvalue⟩ | ⟨u, v, huv, hvalue⟩ := charUnits_eq d
    · rw [hu, List.mem_singleton, ← UInt16.toNat_inj]
      omega
    · simp only [huv, List.mem_cons, List.not_mem_nil, or_false, ← UInt16.toNat_inj]
      omega
  simp [hletter]

/-! ## Letters -/

theorem toNat_charOfNat {n : Nat} (h : n < 0xD800 ∨ 0xDFFF < n ∧ n < 0x110000) :
    (Char.ofNat n).toNat = n := by
  rw [Char.ofNat, dif_pos h]
  rfl

theorem isHigh_iff {u : UInt16} : isHigh u = true ↔ 0xD800 ≤ u.toNat ∧ u.toNat < 0xDC00 := by
  simp [isHigh, UInt16.le_iff_toNat_le, UInt16.lt_iff_toNat_lt]

theorem isLow_iff {u : UInt16} : isLow u = true ↔ 0xDC00 ≤ u.toNat ∧ u.toNat < 0xE000 := by
  simp [isLow, UInt16.le_iff_toNat_le, UInt16.lt_iff_toNat_lt]

/-- The character of a pair has the pair as its units. -/
theorem charUnits_pairChar {high low : UInt16} (hhigh : isHigh high = true)
    (hlow : isLow low = true) : charUnits (pairChar high low) = [high, low] := by
  rw [isHigh_iff] at hhigh
  rw [isLow_iff] at hlow
  have hvalue : (pairChar high low).toNat =
      0x10000 + (high.toNat - 0xD800) * 0x400 + (low.toNat - 0xDC00) :=
    toNat_charOfNat (by omega)
  obtain ⟨u, hu, hunit⟩ | ⟨u, v, huv, hpair⟩ := charUnits_eq (pairChar high low)
  · omega
  · rw [huv, List.cons.injEq, List.cons.injEq, ← UInt16.toNat_inj, ← UInt16.toNat_inj]
    refine ⟨?_, ?_, rfl⟩ <;> omega

theorem Letter.units_ofUnit (u : UInt16) : (Letter.ofUnit u).units = [u] := by
  unfold Letter.ofUnit
  split
  case isTrue => rfl
  case isFalse hplain =>
    have hlt : u.toNat < 0x10000 := u.toNat_lt
    simp only [Bool.or_eq_true, isHigh_iff, isLow_iff] at hplain
    have hvalue : (Char.ofNat u.toNat).toNat = u.toNat := toNat_charOfNat (by omega)
    show charUnits _ = _
    rw [charUnits, hvalue, if_pos hlt, Nat.toUInt16_eq, UInt16.ofNat_toNat]

/-- No unit is lost in the letters. -/
theorem flatMap_units_letters (l : List UInt16) : (letters l).flatMap Letter.units = l := by
  fun_induction letters l with
  | case1 => rfl
  | case2 u => simp [Letter.units_ofUnit]
  | case3 high low rest hpair ih =>
      rw [Bool.and_eq_true] at hpair
      rw [List.flatMap_cons, ih]
      exact congrArg (· ++ rest) (charUnits_pairChar hpair.1 hpair.2)
  | case4 high low rest hpair ih =>
      rw [List.flatMap_cons, ih, Letter.units_ofUnit]
      rfl

theorem letters_cons_of_not_high {u : UInt16} (h : isHigh u = false) (l : List UInt16) :
    letters (u :: l) = .ofUnit u :: letters l := by
  cases l with
  | nil => rfl
  | cons v l => simp [letters, h]

/-- Characters as letters. -/
def plain (l : List Char) : List Letter := l.map Letter.char

@[simp] theorem plain_nil : plain [] = [] := rfl

@[simp] theorem plain_cons (c : Char) (l : List Char) : plain (c :: l) = .char c :: plain l := rfl

@[simp] theorem plain_append (l m : List Char) : plain (l ++ m) = plain l ++ plain m :=
  List.map_append

theorem length_plain (l : List Char) : (plain l).length = l.length := List.length_map _

theorem letters_flatMap_charUnits (l : List Char) : letters (l.flatMap charUnits) = plain l := by
  induction l with
  | nil => rfl
  | cons c l ih =>
      rw [List.flatMap_cons, plain_cons]
      obtain ⟨u, hu, hvalue, hrange⟩ | ⟨u, v, huv, hvalue⟩ := charUnits_eq c
      · have hhigh : isHigh u = false := by
          rw [Bool.eq_false_iff, ne_eq, isHigh_iff]
          omega
        have hlow : isLow u = false := by
          rw [Bool.eq_false_iff, ne_eq, isLow_iff]
          omega
        rw [hu, List.singleton_append, letters_cons_of_not_high hhigh, ih, Letter.ofUnit, hhigh,
          hlow, hvalue, Char.ofNat_toNat]
        rfl
      · have hhigh : isHigh u = true := isHigh_iff.2 (by omega)
        have hlow : isLow v = true := isLow_iff.2 (by omega)
        have hcode : 0x10000 + (u.toNat - 0xD800) * 0x400 + (v.toNat - 0xDC00) = c.toNat := by
          omega
        have hchar : pairChar u v = c := by
          rw [pairChar, hcode, Char.ofNat_toNat]
        rw [huv]
        simp [letters, hhigh, hlow, hchar, ih]

end TenantIam.Text

namespace TenantIam.Utf16

open Text (Letter)

@[simp] theorem ofString_inj {s t : String} : ofString s = ofString t ↔ s = t := by
  rw [ofString, ofString, mk.injEq, Text.units_inj]

theorem append_assoc (s t u : Utf16) : s ++ t ++ u = s ++ (t ++ u) :=
  congrArg mk (List.append_assoc s.units t.units u.units)

theorem intercalate_concat {separator : Utf16} {texts : List Utf16} (h : texts ≠ [])
    (last : Utf16) :
    intercalate separator (texts ++ [last]) = intercalate separator texts ++ separator ++ last := by
  have hunits {parts : List (List UInt16)} (hparts : parts ≠ []) :
      separator.units.intercalate (parts ++ [last.units]) =
        separator.units.intercalate parts ++ separator.units ++ last.units := by
    induction parts with
    | nil => exact absurd rfl hparts
    | cons part parts ih =>
        cases parts with
        | nil => simp
        | cons next parts =>
            rw [List.cons_append, List.intercalate_cons_of_ne_nil (by simp), ih (by simp),
              List.intercalate_cons_cons]
            simp only [List.append_assoc]
  refine congrArg mk ?_
  rw [List.map_append]
  exact hunits (by simpa using h)

theorem append_right_inj (s : Utf16) {t u : Utf16} : s ++ t = s ++ u ↔ t = u := by
  constructor
  · intro h
    have hunits : s.units ++ t.units = s.units ++ u.units := congrArg units h
    exact congrArg mk (List.append_cancel_left hunits)
  · intro h
    rw [h]

theorem letters_ofString (s : String) : (ofString s).letters = Text.plain s.toList :=
  Text.letters_flatMap_charUnits s.toList

/-- A text is determined by its letters. -/
theorem flatMap_units_letters (s : Utf16) : s.letters.flatMap Letter.units = s.units :=
  Text.flatMap_units_letters s.units

end TenantIam.Utf16
