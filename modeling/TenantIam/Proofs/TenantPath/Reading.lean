import TenantIam.Proofs.Text.Pieces
import TenantIam.TenantPath

/-!
# Which texts are tenant paths

A text is a tenant path when every stretch between its slashes is a decimal below 2^64, and the path
holds the values of these decimals. Leading zeros do not change a value, so several texts denote one
path; the text that is written for a path is the one without them.
-/

namespace TenantIam.TenantPath

/-- A decimal below 2^64, leading zeros admitted. -/
def IsSegmentText (s : String) : Prop :=
  isDecimal s = true ∧ decimalValue s < UInt64.size

instance (s : String) : Decidable (IsSegmentText s) :=
  inferInstanceAs (Decidable (isDecimal s = true ∧ decimalValue s < UInt64.size))

/-- The decimals below 2^64 are the texts that denote a segment. -/
theorem readDecimal_isOk_iff {s : String} :
    (∃ segment, readDecimal s = .ok segment) ↔ IsSegmentText s := by
  constructor
  · rintro ⟨segment, h⟩
    obtain ⟨hdecimal, hvalue⟩ := readDecimal_eq_ok_iff.1 h
    exact ⟨hdecimal, hvalue ▸ segment.toNat_lt⟩
  · rintro ⟨hdecimal, hvalue⟩
    exact ⟨.ofNatLT _ hvalue, readDecimal_eq_ok_iff.2 ⟨hdecimal, by simp⟩⟩

theorem mapM_readDecimal_eq_ok_iff {texts : List String} {segments : List UInt64} :
    texts.mapM readDecimal = .ok segments ↔
      (∀ s ∈ texts, IsSegmentText s) ∧ texts.map decimalValue = segments.map UInt64.toNat := by
  induction texts generalizing segments with
  | nil => cases segments <;> simp [pure, Except.pure]
  | cons s texts ih =>
      rw [List.mapM_cons, List.forall_mem_cons, ← readDecimal_isOk_iff]
      cases hs : readDecimal s with
      | error flaw => simp [bind, Except.bind]
      | ok segment =>
          have hvalue := (readDecimal_eq_ok_iff.1 hs).2
          cases segments with
          | nil => cases texts.mapM readDecimal <;> simp [bind, Except.bind, pure, Except.pure]
          | cons first rest =>
              have hsplit : (do let rest ← texts.mapM readDecimal; pure (segment :: rest)) =
                    Except.ok (ε := Flaw) (first :: rest) ↔
                  segment = first ∧ texts.mapM readDecimal = .ok rest := by
                cases texts.mapM readDecimal <;> simp [bind, Except.bind, pure, Except.pure]
              have hfirst : decimalValue s = first.toNat ↔ segment = first := by
                rw [hvalue, UInt64.toNat_inj]
              simp only [List.map_cons, List.cons.injEq, hfirst]
              refine hsplit.trans ?_
              rw [ih]
              simp only [Except.ok.injEq, exists_eq', true_and]
              exact and_left_comm

theorem mapM_readSegment_text (texts : List String) :
    (texts.map SegmentInput.text).mapM readSegment = texts.mapM readDecimal := by
  rw [List.mapM_map]
  rfl

/-- The path of a list of texts holds their values. -/
theorem ofTexts_eq_ok_iff {texts : List String} {path : TenantPath} :
    ofTexts texts = .ok path ↔
      (∀ s ∈ texts, IsSegmentText s) ∧
        texts.map decimalValue = path.segments.map UInt64.toNat := by
  rw [← mapM_readDecimal_eq_ok_iff, ofTexts, of, mapM_readSegment_text]
  obtain ⟨segments, hne⟩ := path
  cases texts.mapM readDecimal with
  | error flaw => simp
  | ok read =>
      by_cases h : read = []
      · simp [h, Ne.symm hne]
      · simp [h]

theorem not_isSegmentText_of_error {s : String} {flaw : Flaw} (hs : readDecimal s = .error flaw) :
    ¬ IsSegmentText s := by
  rw [← readDecimal_isOk_iff, hs]
  simp

/-- Reading a list of texts fails with the flaw of the first text that is not a segment. -/
theorem mapM_readDecimal_eq_error_iff {texts : List String} {flaw : Flaw} :
    texts.mapM readDecimal = .error flaw ↔
      ∃ bad, texts.find? (¬ IsSegmentText ·) = some bad ∧ readDecimal bad = .error flaw := by
  induction texts with
  | nil => simp [pure, Except.pure]
  | cons s texts ih =>
      rw [List.mapM_cons]
      cases hs : readDecimal s with
      | error found =>
          rw [List.find?_cons_of_pos (by simpa using not_isSegmentText_of_error hs)]
          show Except.error found = .error flaw ↔ _
          simp [hs]
      | ok segment =>
          have hsegment : IsSegmentText s := readDecimal_isOk_iff.1 ⟨segment, hs⟩
          rw [List.find?_cons_of_neg (by simpa using hsegment), ← ih]
          cases texts.mapM readDecimal <;> simp [bind, Except.bind, pure, Except.pure]

/-- There is no path for texts among which one is not a segment, and the first of them is told. -/
theorem ofTexts_eq_error_iff {texts : List String} (hne : texts ≠ []) {flaw : Flaw} :
    ofTexts texts = .error flaw ↔
      ∃ bad, texts.find? (¬ IsSegmentText ·) = some bad ∧ readDecimal bad = .error flaw := by
  rw [← mapM_readDecimal_eq_error_iff, ofTexts, of, mapM_readSegment_text]
  cases hvalues : texts.mapM readDecimal with
  | error found => simp
  | ok segments =>
      have hsegments : segments ≠ [] := by
        intro hnil
        have hmap := (mapM_readDecimal_eq_ok_iff.1 hvalues).2
        rw [hnil, List.map_nil, List.map_eq_nil_iff] at hmap
        exact hne hmap
      simp [hsegments]

/-- One more text is read as a child of the path of those before it. -/
theorem ofTexts_concat {texts : List String} (hne : texts ≠ []) (s : String) :
    ofTexts (texts ++ [s]) = ofTexts texts >>= fun path => path.child (.text s) := by
  have hne' : texts ++ [s] ≠ [] := by simp
  cases htexts : ofTexts texts with
  | error flaw =>
      obtain ⟨bad, hfind, hbad⟩ := (ofTexts_eq_error_iff hne).1 htexts
      show ofTexts (texts ++ [s]) = .error flaw
      exact (ofTexts_eq_error_iff hne').2 ⟨bad, by rw [List.find?_append, hfind]; rfl, hbad⟩
  | ok path =>
      obtain ⟨hsegments, hvalues⟩ := ofTexts_eq_ok_iff.1 htexts
      show ofTexts (texts ++ [s]) = path.child (.text s)
      rw [TenantPath.child, readSegment, SegmentInput.toText]
      cases hs : readDecimal s with
      | error flaw =>
          have hfirst : (texts ++ [s]).find? (¬ IsSegmentText ·) = some s := by
            rw [List.find?_append, List.find?_eq_none.2 (by simpa using hsegments)]
            simp [not_isSegmentText_of_error hs]
          exact (ofTexts_eq_error_iff hne').2 ⟨s, hfirst, hs⟩
      | ok segment =>
          refine ofTexts_eq_ok_iff.2 ⟨?_, ?_⟩
          · intro t ht
            rcases List.mem_append.1 ht with ht | ht
            · exact hsegments t ht
            · rw [List.mem_singleton.1 ht]
              exact readDecimal_isOk_iff.1 ⟨segment, hs⟩
          · rw [List.map_append, List.map_append, hvalues, List.map_singleton,
              (readDecimal_eq_ok_iff.1 hs).2]
            rfl

/-- A text denotes a path when its pieces are decimals, and the path holds their values. -/
theorem parse_eq_ok_iff {s : String} {path : TenantPath} :
    parse s = .ok path ↔
      (∀ piece ∈ Text.pieces '/' s, IsSegmentText piece) ∧
        (Text.pieces '/' s).map decimalValue = path.segments.map UInt64.toNat := by
  rw [← ofTexts_eq_ok_iff, parse]
  split
  · next hs =>
    -- The one piece of the empty text is empty, and no decimal is.
    subst hs
    have hpieces : Text.pieces '/' "" = [""] := Text.pieces_of_not_mem (by simp)
    simp only [reduceCtorEq, false_iff, ofTexts_eq_ok_iff, hpieces]
    rintro ⟨hsegment, -⟩
    simpa [IsSegmentText, isDecimal] using hsegment ""
  · rfl

theorem exists_of_isSegmentText {texts : List String} (hne : texts ≠ [])
    (h : ∀ s ∈ texts, IsSegmentText s) :
    ∃ path : TenantPath, texts.map decimalValue = path.segments.map UInt64.toNat := by
  refine ⟨⟨texts.map fun s => .ofNat (decimalValue s), by simpa using hne⟩, ?_⟩
  rw [List.map_map]
  apply List.map_congr_left
  intro s hs
  exact (UInt64.toNat_ofNat_of_lt (h s hs).2).symm

theorem IsSegmentText.not_mem {s : String} (hs : IsSegmentText s) {c : Char}
    (hc : c.isDigit = false) : c ∉ s.toList := by
  intro hmem
  have hdigits := hs.1
  simp only [isDecimal, Bool.and_eq_true, List.all_eq_true] at hdigits
  simpa [hc] using hdigits.2 c hmem

theorem isSegmentText_segmentText (segment : UInt64) : IsSegmentText (segmentText segment) :=
  readDecimal_isOk_iff.1 ⟨segment, readDecimal_segmentText segment⟩

theorem decimalValue_segmentText (segment : UInt64) :
    decimalValue (segmentText segment) = segment.toNat :=
  (readDecimal_eq_ok_iff.1 (readDecimal_segmentText segment)).2

/-- A path is written with the canonical decimals of given texts when it holds their values. -/
theorem segmentTexts_eq_iff {path : TenantPath} {texts : List String} :
    (path.segmentTexts = texts.map fun s => (decimalValue s).repr) ↔
      texts.map decimalValue = path.segments.map UInt64.toNat := by
  constructor
  · intro h
    have hvalues := congrArg (List.map decimalValue) h
    simpa [segmentTexts, Function.comp_def, decimalValue_segmentText, decimalValue_repr,
      eq_comm] using hvalues
  · intro h
    have htexts := congrArg (List.map Nat.repr) h
    rw [List.map_map, List.map_map] at htexts
    exact htexts.symm

theorem isSegmentText_of_mem_segmentTexts {path : TenantPath} {s : String}
    (h : s ∈ path.segmentTexts) : IsSegmentText s := by
  obtain ⟨segment, -, rfl⟩ := List.mem_map.1 h
  exact isSegmentText_segmentText segment

theorem segmentTexts_ne_nil (path : TenantPath) : path.segmentTexts ≠ [] := by
  simpa [segmentTexts] using path.nonempty

theorem map_decimalValue_segmentTexts (path : TenantPath) :
    path.segmentTexts.map decimalValue = path.segments.map UInt64.toNat := by
  simp [segmentTexts, decimalValue_segmentText]

/-- The pieces of a written path are the decimals of its segments. -/
theorem pieces_text (path : TenantPath) : Text.pieces '/' path.text = path.segmentTexts :=
  Text.pieces_joinWith '/' _ path.segmentTexts_ne_nil fun _ h =>
    (isSegmentText_of_mem_segmentTexts h).not_mem (by decide)

theorem parse_text (path : TenantPath) : parse path.text = .ok path := by
  rw [parse_eq_ok_iff, pieces_text]
  exact ⟨fun s hs => isSegmentText_of_mem_segmentTexts hs, path.map_decimalValue_segmentTexts⟩

end TenantIam.TenantPath
