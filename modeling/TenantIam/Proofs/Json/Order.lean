import TenantIam.Json.Basic

/-!
# Objects in their order

The fields of an object stand in the order in which writing them puts them: no key twice, and no
key behind one that it goes before. Writing a field keeps that order. Writing the fields of an
object in their order gives the object again, so an object is determined by what is written.
-/

namespace TenantIam

namespace Fields

variable {α β : Type}

/-- Whether a key may stand before a later one. -/
def Precedes (key later : Utf16) : Prop :=
  key ≠ later ∧ goesBefore later key = false

instance (key later : Utf16) : Decidable (Precedes key later) :=
  inferInstanceAs (Decidable (key ≠ later ∧ goesBefore later key = false))

/-- No key stands twice or behind one that it goes before. -/
def Ordered (fields : Fields α) : Prop :=
  fields.Pairwise fun a b => Precedes a.1 b.1

theorem goesBefore_iff {key present : Utf16} :
    goesBefore key present = true ↔
      ∃ m, index? key = some m ∧ ∀ n, index? present = some n → m < n := by
  unfold goesBefore
  cases index? key with
  | none => simp
  | some m =>
      cases index? present with
      | none => simp
      | some n => simp

theorem goesBefore_trans {a b c : Utf16} (hab : goesBefore a b = true)
    (hbc : goesBefore b c = true) : goesBefore a c = true := by
  obtain ⟨m, hm, hmn⟩ := goesBefore_iff.1 hab
  obtain ⟨n, hn, hnc⟩ := goesBefore_iff.1 hbc
  exact goesBefore_iff.2 ⟨m, hm, fun l hl => Nat.lt_trans (hmn n hn) (hnc l hl)⟩

theorem goesBefore_asymm {a b : Utf16} (h : goesBefore a b = true) : goesBefore b a = false := by
  rw [Bool.eq_false_iff]
  intro hback
  obtain ⟨m, hm, hlt⟩ := goesBefore_iff.1 (goesBefore_trans h hback)
  exact Nat.lt_irrefl m (hlt m hm)

theorem precedes_of_goesBefore {a b : Utf16} (h : goesBefore a b = true) : Precedes a b := by
  refine ⟨?_, goesBefore_asymm h⟩
  rintro rfl
  rw [goesBefore_asymm h] at h
  cases h

/-- A key that goes before another goes before all that may follow that one. -/
theorem precedes_of_goesBefore_of_precedes {a b c : Utf16} (hab : goesBefore a b = true)
    (hbc : Precedes b c) : Precedes a c := by
  constructor
  · rintro rfl
    rw [hbc.2] at hab
    cases hab
  · rw [Bool.eq_false_iff]
    intro hca
    have hcb := goesBefore_trans hca hab
    rw [hbc.2] at hcb
    cases hcb

theorem mem_set {key : Utf16} {value : α} {fields : Fields α} {field : Utf16 × α}
    (h : field ∈ set key value fields) : field = (key, value) ∨ field ∈ fields := by
  induction fields with
  | nil => exact .inl (List.mem_singleton.1 h)
  | cons first rest ih =>
      simp only [set] at h
      split at h
      · rcases List.mem_cons.1 h with rfl | h
        · exact .inl rfl
        · exact .inr (List.mem_cons_of_mem _ h)
      · split at h
        · exact List.mem_cons.1 h
        · rcases List.mem_cons.1 h with rfl | h
          · exact .inr List.mem_cons_self
          · exact (ih h).imp_right (List.mem_cons_of_mem _)

theorem Ordered.set {fields : Fields α} (h : fields.Ordered) (key : Utf16) (value : α) :
    Ordered (Fields.set key value fields) := by
  induction fields with
  | nil => exact List.pairwise_singleton _ _
  | cons first rest ih =>
      obtain ⟨hfirst, hrest⟩ := List.pairwise_cons.1 h
      simp only [Fields.set]
      split
      case isTrue hsame => exact List.pairwise_cons.2 ⟨hsame ▸ hfirst, hrest⟩
      case isFalse hother =>
        split
        case isTrue hbefore =>
          refine List.pairwise_cons.2 ⟨fun field hfield => ?_, h⟩
          rcases List.mem_cons.1 hfield with rfl | hfield
          · exact precedes_of_goesBefore hbefore
          · exact precedes_of_goesBefore_of_precedes hbefore (hfirst field hfield)
        case isFalse hbehind =>
          refine List.pairwise_cons.2 ⟨fun field hfield => ?_, ih hrest⟩
          rcases mem_set hfield with rfl | hfield
          · exact ⟨hother, Bool.eq_false_iff.2 hbehind⟩
          · exact hfirst field hfield

/-- A field whose key every present one precedes is written at the end. -/
theorem set_eq_append {key : Utf16} {value : α} {fields : Fields α}
    (h : ∀ field ∈ fields, Precedes field.1 key) :
    set key value fields = fields ++ [(key, value)] := by
  induction fields with
  | nil => rfl
  | cons first rest ih =>
      obtain ⟨hother, hbehind⟩ := h first List.mem_cons_self
      simp only [set, if_neg hother, hbehind, Bool.false_eq_true, if_false, List.cons_append,
        ih fun field hfield => h field (List.mem_cons_of_mem _ hfield)]

theorem foldl_set_of_ordered {fields later : Fields α} (h : Ordered (fields ++ later)) :
    later.foldl (fun o (key, value) => set key value o) fields = fields ++ later := by
  induction later generalizing fields with
  | nil => simp
  | cons first rest ih =>
      obtain ⟨key, value⟩ := first
      have hbehind : ∀ field ∈ fields, Precedes field.1 key := fun field hfield =>
        (List.pairwise_append.1 h).2.2 field hfield (key, value) List.mem_cons_self
      simp only [List.foldl_cons, set_eq_append hbehind]
      rw [ih (by simpa using h), List.append_assoc, List.singleton_append]

/-- Writing the fields of an object in their order gives the object again. -/
theorem ofList_of_ordered {fields : Fields α} (h : fields.Ordered) : ofList fields = fields := by
  have hempty : Ordered ([] ++ fields) := h
  exact foldl_set_of_ordered hempty

/-- What is written is in order, and each of its fields was written. -/
theorem foldl_set_spec (later : List (Utf16 × α)) {fields : Fields α} (h : fields.Ordered) :
    Ordered (later.foldl (fun o (key, value) => set key value o) fields) ∧
      ∀ field ∈ later.foldl (fun o (key, value) => set key value o) fields,
        field ∈ fields ∨ field ∈ later := by
  induction later generalizing fields with
  | nil => exact ⟨h, fun field hfield => .inl hfield⟩
  | cons first rest ih =>
      obtain ⟨hordered, hmem⟩ := ih (h.set first.1 first.2)
      refine ⟨hordered, fun field hfield => ?_⟩
      rcases hmem field hfield with hset | hrest
      · rcases mem_set hset with rfl | hfields
        · exact .inr List.mem_cons_self
        · exact .inl hfields
      · exact .inr (List.mem_cons_of_mem _ hrest)

theorem ordered_ofList (fields : List (Utf16 × α)) : Ordered (ofList fields) :=
  (foldl_set_spec fields List.Pairwise.nil).1

theorem mem_of_mem_ofList {fields : List (Utf16 × α)} {field : Utf16 × α}
    (h : field ∈ ofList fields) : field ∈ fields :=
  ((foldl_set_spec fields List.Pairwise.nil).2 field h).resolve_left List.not_mem_nil

theorem ordered_iff_keys {fields : Fields α} :
    fields.Ordered ↔ (fields.map (·.1)).Pairwise Precedes := by
  rw [Ordered, List.pairwise_map]

theorem ordered_map_iff {fields : Fields α} (f : α → β) :
    Ordered (fields.map fun field => (field.1, f field.2)) ↔ fields.Ordered := by
  simp only [Ordered, List.pairwise_map]

end Fields

namespace Json

def parts : Json → List Json
  | .arr items => items
  | .obj fields => fields.map (·.2)
  | _ => []

/-- What holds of a value, of its parts, of their parts, and so on. -/
inductive Throughout (p : Json → Prop) : Json → Prop where
  | intro {value : Json} (here : p value) (below : ∀ part ∈ value.parts, Throughout p part) :
    Throughout p value

variable {p : Json → Prop}

theorem throughout_arr_iff {items : List Json} :
    Throughout p (.arr items) ↔ p (.arr items) ∧ ∀ item ∈ items, Throughout p item := by
  constructor
  · rintro ⟨here, below⟩
    exact ⟨here, below⟩
  · rintro ⟨here, below⟩
    exact .intro here below

theorem throughout_obj_iff {fields : Fields Json} :
    Throughout p (.obj fields) ↔ p (.obj fields) ∧ ∀ field ∈ fields, Throughout p field.2 := by
  constructor
  · rintro ⟨here, below⟩
    exact ⟨here, fun field hfield => below field.2 (List.mem_map_of_mem hfield)⟩
  · rintro ⟨here, below⟩
    refine .intro here fun part hpart => ?_
    obtain ⟨field, hfield, rfl⟩ := List.mem_map.1 hpart
    exact below field hfield

theorem Throughout.of_parts_eq_nil {value : Json} (here : p value) (h : value.parts = []) :
    Throughout p value :=
  .intro here fun part hpart => by simp [h] at hpart

/-- Every object in a value is in order. -/
def Ordered : Json → Prop :=
  Throughout fun
    | .obj fields => Fields.Ordered fields
    | _ => True

theorem ordered_arr_iff {items : List Json} :
    (arr items).Ordered ↔ ∀ item ∈ items, item.Ordered := by
  simp [Ordered, throughout_arr_iff]

theorem ordered_obj_iff {fields : Fields Json} :
    (obj fields).Ordered ↔ Fields.Ordered fields ∧ ∀ field ∈ fields, field.2.Ordered := by
  simp only [Ordered, throughout_obj_iff]

def AllFinite : Json → Prop :=
  Throughout fun
    | .num (.infinite _) | .num .nan => False
    | _ => True

end Json

end TenantIam
