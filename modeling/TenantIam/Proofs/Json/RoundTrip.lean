import TenantIam.Proofs.Json.Numbers
import TenantIam.Proofs.Json.Order
import TenantIam.Proofs.Json.Strings

/-!
# Reading values that were written

A value whose objects are in order is read as it was written, but for infinite numbers and NaN,
which are written as `null`. What is read is in order, whatever the text.
-/

namespace TenantIam.Json

open Text (Letter plain)

mutual

/-- The value that the text of a value stands for. -/
def asWritten : Json → Json
  | .num (.infinite _) | .num .nan => .null
  | .arr items => .arr (itemsAsWritten items)
  | .obj fields => .obj (fieldsAsWritten fields)
  | value => value

def itemsAsWritten : List Json → List Json
  | [] => []
  | item :: items => asWritten item :: itemsAsWritten items

def fieldsAsWritten : List (Utf16 × Json) → List (Utf16 × Json)
  | [] => []
  | (key, value) :: fields => (key, asWritten value) :: fieldsAsWritten fields

end

theorem itemsAsWritten_eq_map (items : List Json) : itemsAsWritten items = items.map asWritten := by
  induction items with
  | nil => rfl
  | cons item items ih => rw [itemsAsWritten, ih, List.map_cons]

theorem fieldsAsWritten_eq_map (fields : List (Utf16 × Json)) :
    fieldsAsWritten fields = fields.map fun field => (field.1, field.2.asWritten) := by
  induction fields with
  | nil => rfl
  | cons field fields ih => rw [fieldsAsWritten, ih, List.map_cons]

/-- Only numbers that are not finite are written as other values. -/
theorem asWritten_of_allFinite {value : Json} (h : value.AllFinite) : value.asWritten = value := by
  induction h with
  | intro here below ih =>
      rename_i value
      match value with
      | .num (.infinite _) => exact here.elim
      | .num .nan => exact here.elim
      | .num (.finite _ _) => rfl
      | .arr items =>
          have hitems : ∀ item ∈ items, item.asWritten = id item := ih
          rw [asWritten, itemsAsWritten_eq_map, List.map_congr_left hitems, List.map_id]
      | .obj fields =>
          have hfields : ∀ field ∈ fields, (field.1, field.2.asWritten) = field :=
            fun field hfield => Prod.ext rfl (ih field.2 (List.mem_map_of_mem hfield))
          rw [asWritten, fieldsAsWritten_eq_map, List.map_congr_left hfields, List.map_id']
      | .null => rfl
      | .bool _ => rfl
      | .str _ => rfl

mutual

theorem chars_asWritten : ∀ value : Json, value.asWritten.chars = value.chars
  | .num (.infinite _) => rfl
  | .num .nan => rfl
  | .num (.finite _ _) => rfl
  | .arr [] => rfl
  | .arr (item :: items) => by
      rw [asWritten, itemsAsWritten, chars, chars, chars_asWritten item, itemChars_asWritten items]
  | .obj [] => rfl
  | .obj ((key, value) :: fields) => by
      rw [asWritten, fieldsAsWritten, chars, chars, chars_asWritten value,
        fieldChars_asWritten fields]
  | .null => rfl
  | .bool _ => rfl
  | .str _ => rfl

theorem itemChars_asWritten : ∀ items : List Json,
    itemChars (itemsAsWritten items) = itemChars items
  | [] => rfl
  | item :: items => by
      rw [itemsAsWritten, itemChars, itemChars, chars_asWritten item, itemChars_asWritten items]

theorem fieldChars_asWritten : ∀ fields : List (Utf16 × Json),
    fieldChars (fieldsAsWritten fields) = fieldChars fields
  | [] => rfl
  | (key, value) :: fields => by
      rw [fieldsAsWritten, fieldChars, fieldChars, chars_asWritten value,
        fieldChars_asWritten fields]

end

/-- A value and the one that is read for it have one text. -/
theorem write_asWritten (value : Json) : value.asWritten.write = value.write := by
  rw [write, chars_asWritten, write]

/-- What is read within `n` steps is in order. -/
structure ReadsOrdered (n : Nat) : Prop where
  value : ∀ {s value rest}, value? n s = some (value, rest) → value.Ordered
  items : ∀ {s items rest}, items? n s = some (items, rest) → ∀ item ∈ items, item.Ordered
  members : ∀ {s fields rest}, members? n s = some (fields, rest) →
    ∀ field ∈ fields, field.2.Ordered

section Steps

variable {n : Nat} {s rest : List Letter}

theorem ReadsOrdered.value_succ (h : ReadsOrdered n) {value : Json}
    (hread : value? (n + 1) s = some (value, rest)) : value.Ordered := by
  unfold value? at hread
  split at hread
  -- an object, whose fields are put in order when it is read
  case h_1 t =>
    split at hread
    · cases hread
      exact ordered_obj_iff.2 ⟨List.Pairwise.nil, by simp⟩
    · obtain ⟨⟨fields, _⟩, hfields, heq⟩ := Option.map_eq_some_iff.1 hread
      cases heq
      exact ordered_obj_iff.2 ⟨Fields.ordered_ofList fields, fun field hfield =>
        h.members hfields field (Fields.mem_of_mem_ofList hfield)⟩
  -- an array
  case h_2 t =>
    split at hread
    · cases hread
      exact ordered_arr_iff.2 (by simp)
    · obtain ⟨⟨items, _⟩, hitems, heq⟩ := Option.map_eq_some_iff.1 hread
      cases heq
      exact ordered_arr_iff.2 (h.items hitems)
  -- a string or a number
  case h_3 | h_7 =>
    obtain ⟨⟨_, _⟩, _, heq⟩ := Option.map_eq_some_iff.1 hread
    cases heq
    exact .of_parts_eq_nil trivial rfl
  -- a word
  case h_4 | h_5 | h_6 =>
    cases hread
    exact .of_parts_eq_nil trivial rfl

theorem ReadsOrdered.items_succ (h : ReadsOrdered n) {items : List Json}
    (hread : items? (n + 1) s = some (items, rest)) : ∀ item ∈ items, item.Ordered := by
  unfold items? at hread
  split at hread
  · cases hread
  · rename_i item t hitem
    split at hread
    · obtain ⟨⟨more, _⟩, hmore, heq⟩ := Option.map_eq_some_iff.1 hread
      cases heq
      exact List.forall_mem_cons.2 ⟨h.value hitem, h.items hmore⟩
    · cases hread
      exact List.forall_mem_singleton.2 (h.value hitem)
    · cases hread

theorem ReadsOrdered.members_succ (h : ReadsOrdered n) {fields : List (Utf16 × Json)}
    (hread : members? (n + 1) s = some (fields, rest)) : ∀ field ∈ fields, field.2.Ordered := by
  unfold members? at hread
  split at hread
  case h_2 => cases hread
  split at hread
  case h_1 => cases hread
  split at hread
  case h_2 => cases hread
  split at hread
  case h_1 => cases hread
  rename_i value t hvalue
  split at hread
  · obtain ⟨⟨more, _⟩, hmore, heq⟩ := Option.map_eq_some_iff.1 hread
    cases heq
    exact List.forall_mem_cons.2 ⟨h.value hvalue, h.members hmore⟩
  · cases hread
    exact List.forall_mem_singleton.2 (h.value hvalue)
  · cases hread

end Steps

theorem readsOrdered (n : Nat) : ReadsOrdered n := by
  induction n with
  | zero => constructor <;> intro s _ rest h <;> cases h
  | succ n ih => exact ⟨ih.value_succ, ih.items_succ, ih.members_succ⟩

/-- What is read is in order, whatever the text. -/
theorem ordered_of_read? {text : Utf16} {value : Json} (h : read? text = some value) :
    value.Ordered := by
  simp only [read?] at h
  split at h
  · rename_i read rest hread
    split at h
    · cases h
      exact (readsOrdered _).value hread
    · cases h
  · cases h

theorem value?_of_number? {s : List Letter} {x : Number} {rest : List Letter}
    (h : number? s = some (x, rest)) (n : Nat) : value? (n + 1) s = some (.num x, rest) := by
  obtain ⟨c, t, rfl, hstart⟩ := number?_start h
  unfold value?
  split
  case h_7 =>
    rw [h]
    rfl
  all_goals
    rename_i heq
    cases heq
    exact absurd hstart (by decide)

theorem skipBlanks_cons {c : Char} (h : c ∉ [' ', '\t', '\n', '\r']) (s : List Letter) :
    skipBlanks (.char c :: s) = .char c :: s := by
  simp only [List.mem_cons, List.not_mem_nil, or_false] at h
  simp only [skipBlanks, Letter.char.injEq, if_neg h]

theorem chars_num_finite (units : Int) (fits : FitsBinary64 units.natAbs) :
    (num (.finite units fits)).chars = (Number.finite units fits).chars := rfl

theorem exists_chars_eq_cons (value : Json) :
    ∃ c t, value.chars = c :: t ∧ c ∉ [' ', '\t', '\n', '\r'] := by
  match value with
  | .num (.finite units fits) =>
      obtain ⟨first, t, hplain, hstart⟩ := number?_start (number?_chars fits endsNumber_nil)
      rw [List.append_nil] at hplain
      obtain ⟨c, t, hchars, rfl, -⟩ := List.map_eq_cons_iff.1 hplain
      refine ⟨c, t, hchars, fun hmem => ?_⟩
      simp only [List.mem_cons, List.not_mem_nil, or_false] at hmem
      rcases hmem with rfl | rfl | rfl | rfl <;> exact absurd hstart (by decide)
  | .num (.infinite _) => exact ⟨_, _, rfl, by decide⟩
  | .num .nan => exact ⟨_, _, rfl, by decide⟩
  | .null => exact ⟨_, _, rfl, by decide⟩
  | .bool true => exact ⟨_, _, rfl, by decide⟩
  | .bool false => exact ⟨_, _, rfl, by decide⟩
  | .str _ => exact ⟨_, _, rfl, by decide⟩
  | .arr [] => exact ⟨_, _, rfl, by decide⟩
  | .arr (_ :: _) => exact ⟨_, _, rfl, by decide⟩
  | .obj [] => exact ⟨_, _, rfl, by decide⟩
  | .obj ((_, _) :: _) => exact ⟨_, _, rfl, by decide⟩

@[simp] theorem skipBlanks_chars (value : Json) (s : List Letter) :
    skipBlanks (plain value.chars ++ s) = plain value.chars ++ s := by
  obtain ⟨c, t, hchars, hblank⟩ := exists_chars_eq_cons value
  rw [hchars]
  exact skipBlanks_cons hblank _

theorem skipBlanks_quote (key : Utf16) (s : List Letter) :
    skipBlanks (plain (quote key) ++ s) = plain (quote key) ++ s :=
  skipBlanks_cons (by decide) _

theorem value?_bracket (n : Nat) (s : List Letter) : value? n (.char ']' :: s) = none := by
  cases n with
  | zero => rfl
  | succ n => rfl

/-- Reading the text of a value, whatever follows it. -/
def ReadsBack (value : Json) : Prop :=
  ∀ (n : Nat) (rest : List Letter), value.chars.length ≤ n → EndsNumber rest →
    value? n (plain value.chars ++ rest) = some (value.asWritten, rest)

theorem readsBack_of_succ {value : Json}
    (h : ∀ (n : Nat) (rest : List Letter), value.chars.length ≤ n + 1 → EndsNumber rest →
      value? (n + 1) (plain value.chars ++ rest) = some (value.asWritten, rest)) :
    ReadsBack value := by
  intro n rest hn hrest
  obtain ⟨c, t, hchars, -⟩ := exists_chars_eq_cons value
  cases n with
  | zero => simp [hchars] at hn
  | succ n => exact h n rest hn hrest

theorem readsBack_num (x : Number) : ReadsBack (.num x) := by
  refine readsBack_of_succ fun n rest _ hrest => ?_
  cases x with
  | finite units fits =>
      rw [chars_num_finite]
      exact value?_of_number? (number?_chars fits hrest) n
  | infinite negative => rfl
  | nan => rfl

theorem plain_quote_append (s : Utf16) (rest : List Letter) :
    plain (quote s) ++ rest =
      .char '"' :: (plain (s.letters.flatMap escapeLetter) ++ .char '"' :: rest) := by
  simp [quote]

theorem readsBack_str (s : Utf16) : ReadsBack (.str s) := by
  refine readsBack_of_succ fun n rest _ _ => ?_
  rw [chars, plain_quote_append]
  simp only [value?, string?_escapeLetter, Option.map_some, asWritten]

theorem endsNumber_itemChars (items : List Json) (rest : List Letter) :
    EndsNumber (plain (itemChars items) ++ rest) := by
  cases items <;> simp [itemChars]

/-- The items of an array are read as they were written. -/
theorem items?_itemChars {items : List Json} (h : ∀ item ∈ items, ReadsBack item) {item : Json}
    (hitem : ReadsBack item) {n : Nat} (rest : List Letter)
    (hn : item.chars.length + (itemChars items).length ≤ n) :
    items? n (plain item.chars ++ (plain (itemChars items) ++ rest)) =
      some (itemsAsWritten (item :: items), rest) := by
  induction items generalizing item n with
  | nil =>
      simp only [itemChars, List.length_cons, List.length_nil] at hn
      obtain ⟨m, rfl⟩ : ∃ m, n = m + 1 := ⟨n - 1, by omega⟩
      rw [items?, hitem m _ (by omega) (endsNumber_itemChars [] rest)]
      rfl
  | cons next items ih =>
      simp only [itemChars, List.length_cons, List.length_append] at hn
      obtain ⟨m, rfl⟩ : ∃ m, n = m + 1 := ⟨n - 1, by omega⟩
      have hmore := ih (List.forall_mem_cons.1 h).2 (List.forall_mem_cons.1 h).1
        (n := m) (by omega)
      rw [items?, hitem m _ (by omega) (endsNumber_itemChars (next :: items) rest)]
      simp only [itemChars, Text.plain_cons, Text.plain_append, List.cons_append, List.append_assoc]
      rw [skipBlanks_cons (by decide)]
      simp only [skipBlanks_chars, hmore, Option.map_some, itemsAsWritten]

section Fields

variable (key : Utf16) {value read : Json} {n : Nat} {s : List Letter}

theorem members?_close
    (hvalue : value? n (plain value.chars ++ .char '}' :: s) = some (read, .char '}' :: s)) :
    members? (n + 1) (plain (quote key) ++ .char ':' :: (plain value.chars ++ .char '}' :: s)) =
      some ([(key, read)], s) := by
  have hcolon := skipBlanks_cons (c := ':') (by decide) (plain value.chars ++ .char '}' :: s)
  have hclose := skipBlanks_cons (c := '}') (by decide) s
  rw [plain_quote_append]
  simp only [members?, string?_escapeLetter, hcolon, skipBlanks_chars, hvalue, hclose]

theorem members?_more
    (hvalue : value? n (plain value.chars ++ .char ',' :: s) = some (read, .char ',' :: s)) :
    members? (n + 1) (plain (quote key) ++ .char ':' :: (plain value.chars ++ .char ',' :: s)) =
      (members? n (skipBlanks s)).map fun (fields, rest) => ((key, read) :: fields, rest) := by
  have hcolon := skipBlanks_cons (c := ':') (by decide) (plain value.chars ++ .char ',' :: s)
  have hcomma := skipBlanks_cons (c := ',') (by decide) s
  rw [plain_quote_append]
  simp only [members?, string?_escapeLetter, hcolon, skipBlanks_chars, hvalue, hcomma]

end Fields

/-- The fields of an object are read as they were written. -/
theorem members?_fieldChars {fields : List (Utf16 × Json)}
    (h : ∀ field ∈ fields, ReadsBack field.2) (key : Utf16) {value : Json}
    (hvalue : ReadsBack value) {n : Nat} (rest : List Letter)
    (hn : value.chars.length + (fieldChars fields).length < n) :
    members? n (plain (quote key) ++ .char ':' ::
        (plain value.chars ++ (plain (fieldChars fields) ++ rest))) =
      some (fieldsAsWritten ((key, value) :: fields), rest) := by
  induction fields generalizing key value n with
  | nil =>
      obtain ⟨m, rfl⟩ : ∃ m, n = m + 1 := ⟨n - 1, by omega⟩
      exact members?_close key (hvalue m (.char '}' :: rest) (by omega) (by simp))
  | cons next fields ih =>
      obtain ⟨nextKey, nextValue⟩ := next
      obtain ⟨hnext, hfields⟩ := List.forall_mem_cons.1 h
      have hnext : ReadsBack nextValue := hnext
      simp only [fieldChars, List.length_cons, List.length_append] at hn
      obtain ⟨m, rfl⟩ : ∃ m, n = m + 1 := ⟨n - 1, by omega⟩
      have hmore := ih hfields nextKey hnext (n := m) (by omega)
      simp only [fieldChars, Text.plain_cons, Text.plain_append, List.cons_append,
        List.append_assoc]
      rw [members?_more key (hvalue m _ (by omega) (by simp)), skipBlanks_quote, hmore]
      rfl

theorem readsBack_arr {items : List Json} (h : ∀ item ∈ items, ReadsBack item) :
    ReadsBack (.arr items) := by
  refine readsBack_of_succ fun n rest hn _ => ?_
  cases items with
  | nil => rfl
  | cons item items =>
      obtain ⟨hitem, hitems⟩ := List.forall_mem_cons.1 h
      simp only [chars, List.length_cons, List.length_append] at hn
      have hread := items?_itemChars hitems hitem (n := n) rest (by omega)
      have hopen := hitem n _ (by omega) (endsNumber_itemChars items rest)
      simp only [chars, Text.plain_cons, Text.plain_append, List.cons_append, List.append_assoc,
        value?, skipBlanks_chars]
      split
      case h_1 tail heq =>
        -- the first item is read here, and none starts with a bracket
        rw [heq, value?_bracket] at hopen
        cases hopen
      case h_2 => simp only [hread, Option.map_some, asWritten]

theorem readsBack_obj {fields : List (Utf16 × Json)} (hordered : Fields.Ordered fields)
    (h : ∀ field ∈ fields, ReadsBack field.2) : ReadsBack (.obj fields) := by
  refine readsBack_of_succ fun n rest hn _ => ?_
  cases fields with
  | nil => rfl
  | cons field fields =>
      obtain ⟨key, value⟩ := field
      obtain ⟨hvalue, hfields⟩ := List.forall_mem_cons.1 h
      have hvalue : ReadsBack value := hvalue
      simp only [chars, List.length_cons, List.length_append] at hn
      have hread := members?_fieldChars hfields key hvalue (n := n) rest (by omega)
      have hwritten : Fields.Ordered (fieldsAsWritten ((key, value) :: fields)) := by
        rw [fieldsAsWritten_eq_map]
        exact (Fields.ordered_map_iff asWritten).2 hordered
      simp only [chars, Text.plain_cons, Text.plain_append, List.cons_append, List.append_assoc,
        value?, skipBlanks_quote]
      split
      case h_1 tail heq => simp [quote] at heq
      case h_2 => simp only [hread, Option.map_some, Fields.ofList_of_ordered hwritten, asWritten]

/-- A value whose objects are in order is read as it was written. -/
theorem readsBack {value : Json} (h : value.Ordered) : ReadsBack value := by
  induction h with
  | intro here below ih =>
      rename_i value
      match value with
      | .num x => exact readsBack_num x
      | .str s => exact readsBack_str s
      | .arr items => exact readsBack_arr ih
      | .obj fields =>
          exact readsBack_obj here fun field hfield => ih field.2 (List.mem_map_of_mem hfield)
      | .null => exact readsBack_of_succ fun _ _ _ _ => rfl
      | .bool true => exact readsBack_of_succ fun _ _ _ _ => rfl
      | .bool false => exact readsBack_of_succ fun _ _ _ _ => rfl

theorem read?_write {value : Json} (h : value.Ordered) :
    read? value.write = some value.asWritten := by
  have hletters : (Utf16.ofString value.write).letters = plain value.chars := by
    rw [Utf16.letters_ofString, write, String.toList_ofList]
  have hstart : skipBlanks (plain value.chars) = plain value.chars := by
    have hblanks := skipBlanks_chars value []
    rwa [List.append_nil] at hblanks
  have hread := readsBack h (2 * (plain value.chars).length + 2) []
    (by rw [Text.length_plain]; omega) endsNumber_nil
  rw [List.append_nil] at hread
  simp only [read?, hletters, hstart, hread]
  rfl

end TenantIam.Json
