import Mathlib.Data.List.Forall2
import TenantIam.Policy.Reader
import TenantIam.Proofs.Json.RoundTrip
import TenantIam.Proofs.Success

/-!
# Documents that are read

A document is read when each of its parts passes its check, and then it consists of what the checks
return. What can be read at all is settled: it has a version, and its conditions are in order and
free of the reserved key.
-/

namespace TenantIam

namespace Policy

namespace Checked

variable {α β : Type}

theorem both_eq_ok_iff {a : Checked α} {b : Checked β} {pair : α × β} :
    both a b = .ok pair ↔ a = .ok pair.1 ∧ b = .ok pair.2 := by
  cases a <;> cases b <;> simp [both, Prod.ext_iff]

theorem map_eq_ok_iff {f : α → β} {a : Checked α} {b : β} :
    Except.map f a = .ok b ↔ ∃ value, a = .ok value ∧ f value = b := by
  cases a <;> simp [Except.map]

theorem collect_eq_ok_iff {l : List (Checked α)} {values : List α} :
    collect l = .ok values ↔ List.Forall₂ (fun checked value => checked = .ok value) l values := by
  induction l generalizing values with
  | nil =>
      rw [collect, List.forall₂_nil_left_iff, Except.ok.injEq, eq_comm]
  | cons a rest ih =>
      rw [collect, map_eq_ok_iff, List.forall₂_cons_left_iff]
      constructor
      · rintro ⟨⟨value, values⟩, hboth, rfl⟩
        obtain ⟨ha, hrest⟩ := both_eq_ok_iff.1 hboth
        exact ⟨value, values, ha, ih.1 hrest, rfl⟩
      · rintro ⟨value, values, ha, hrest, rfl⟩
        exact ⟨(value, values), both_eq_ok_iff.2 ⟨ha, ih.2 hrest⟩, rfl⟩

theorem mem_of_collect {l : List (Checked α)} {values : List α} (h : collect l = .ok values)
    {value : α} (hvalue : value ∈ values) : .ok value ∈ l := by
  induction collect_eq_ok_iff.1 h with
  | nil => cases hvalue
  | cons hchecked hrest ih =>
      rcases List.mem_cons.1 hvalue with rfl | hvalue
      · exact List.mem_cons.2 (.inl hchecked.symm)
      · exact List.mem_cons_of_mem _ (ih (collect_eq_ok_iff.2 hrest) hvalue)

end Checked

open Checked

/-! ## Lists of texts -/

theorem texts?_cons (value : Json) (values : List Json) :
    texts? (value :: values) =
      match value with
      | .str s => (texts? values).map (s :: ·)
      | _ => none := by
  rw [texts?, List.mapM_cons]
  cases value with
  | str s =>
      show (texts? values).bind (fun rest => some (s :: rest)) = (texts? values).map (s :: ·)
      cases texts? values <;> rfl
  | _ => rfl

/-- A list of values is one of texts when it is that of its texts. -/
theorem texts?_eq_some_iff {values : List Json} {texts : List Utf16} :
    texts? values = some texts ↔ values = texts.map .str := by
  induction values generalizing texts with
  | nil => simp [texts?, eq_comm]
  | cons value values ih =>
      rw [texts?_cons]
      cases value with
      | str s =>
          cases texts with
          | nil => simp
          | cons text texts =>
              simp only [Option.map_eq_some_iff, ih, List.map_cons, List.cons.injEq, Json.str.injEq]
              constructor
              · rintro ⟨rest, hrest, rfl, rfl⟩
                exact ⟨rfl, hrest⟩
              · rintro ⟨rfl, hrest⟩
                exact ⟨texts, hrest, rfl, rfl⟩
      | _ => cases texts <;> simp

/-! ## Conditions -/

section Conditions

variable {α : Type} {path : List Utf16}

theorem mem_withoutReserved_iff {fields : Fields α} {field : Utf16 × α} :
    field ∈ withoutReserved fields ↔ field ∈ fields ∧ field.1 ≠ "__proto__" := by
  simp [withoutReserved]

@[simp] theorem withoutReserved_withoutReserved (fields : Fields α) :
    withoutReserved (withoutReserved fields) = withoutReserved fields := by
  simp [withoutReserved, List.filter_filter]

theorem ordered_withoutReserved {fields : Fields α} (h : Fields.Ordered fields) :
    Fields.Ordered (withoutReserved fields) :=
  List.Pairwise.filter _ h

theorem withoutReserved_map {β : Type} (f : α → β) (fields : Fields α) :
    withoutReserved (fields.map fun field => (field.1, f field.2)) =
      (withoutReserved fields).map fun field => (field.1, f field.2) := by
  simp only [withoutReserved, List.filter_map, Function.comp_def]

theorem checkOperator_eq_ok_iff {operator : Utf16} {value : Json} {field : Utf16 × Fields Json} :
    checkOperator path operator value = .ok field ↔
      ∃ operands, value = .obj operands ∧ field = (operator, withoutReserved operands) := by
  cases value with
  | obj operands => simp [checkOperator, eq_comm]
  | _ => simp [checkOperator, fail]

theorem Condition.toJson_eq (c : Condition) :
    c.toJson = .obj (c.map fun field => (field.1, .obj field.2)) := rfl

/-- A condition without the reserved key, as an operator or among operands. -/
def Condition.unreserved (c : Condition) : Condition :=
  withoutReserved (c.map fun field => (field.1, withoutReserved field.2))

theorem collect_checkOperator_eq_ok_iff {operators : Fields Json} {condition : Condition} :
    collect (operators.map fun (operator, value) => checkOperator path operator value) =
        .ok condition ↔
      ∃ written : Condition, operators = written.map (fun field => (field.1, .obj field.2)) ∧
        condition = written.map fun field => (field.1, withoutReserved field.2) := by
  induction operators generalizing condition with
  | nil =>
      constructor
      · intro h
        cases h
        exact ⟨[], rfl, rfl⟩
      · rintro ⟨written, hwritten, rfl⟩
        rw [List.map_eq_nil_iff.1 hwritten.symm]
        rfl
  | cons first rest ih =>
      obtain ⟨operator, value⟩ := first
      simp only [List.map_cons, collect, map_eq_ok_iff]
      constructor
      · rintro ⟨⟨field, fields⟩, hboth, rfl⟩
        obtain ⟨hfield, hfields⟩ := both_eq_ok_iff.1 hboth
        obtain ⟨operands, rfl, rfl⟩ := checkOperator_eq_ok_iff.1 hfield
        obtain ⟨written, rfl, rfl⟩ := ih.1 hfields
        exact ⟨(operator, operands) :: written, rfl, rfl⟩
      · rintro ⟨written, hwritten, rfl⟩
        obtain ⟨⟨_, operands⟩, written, rfl, hfield, hrest⟩ := List.map_eq_cons_iff.1 hwritten.symm
        cases hfield
        exact ⟨(_, _), both_eq_ok_iff.2 ⟨checkOperator_eq_ok_iff.2 ⟨operands, rfl, rfl⟩,
          ih.2 ⟨written, hrest.symm, rfl⟩⟩, rfl⟩

/-- A condition is an object of objects, and the reserved key is dropped from it. -/
theorem checkCondition_eq_ok_iff {value : Json} {condition : Option Condition} :
    checkCondition path (some value) = .ok condition ↔
      ∃ written : Condition, value = written.toJson ∧ condition = some written.unreserved := by
  cases value with
  | obj operators =>
      rw [checkCondition, map_eq_ok_iff]
      simp only [collect_checkOperator_eq_ok_iff, Condition.toJson_eq, Json.obj.injEq]
      constructor
      · rintro ⟨_, ⟨written, hoperators, rfl⟩, rfl⟩
        exact ⟨written, hoperators, rfl⟩
      · rintro ⟨written, hoperators, rfl⟩
        exact ⟨_, ⟨written, hoperators, rfl⟩, rfl⟩
  | _ => simp [checkCondition, fail, Condition.toJson_eq]

/-- A condition as reading leaves it: in order and without the reserved key. -/
structure Condition.Settled (c : Condition) : Prop where
  ordered : c.toJson.Ordered
  unreserved_eq : c.unreserved = c

theorem Condition.ordered_toJson_iff {c : Condition} :
    c.toJson.Ordered ↔ Fields.Ordered c ∧ ∀ field ∈ c, (Json.obj field.2).Ordered := by
  rw [toJson_eq, Json.ordered_obj_iff, Fields.ordered_map_iff, List.forall_mem_map]

theorem Condition.settled_unreserved {c : Condition} (h : c.toJson.Ordered) :
    c.unreserved.Settled := by
  obtain ⟨hfields, hoperands⟩ := ordered_toJson_iff.1 h
  constructor
  · refine ordered_toJson_iff.2 ⟨ordered_withoutReserved ((Fields.ordered_map_iff _).2 hfields),
      fun field hfield => ?_⟩
    obtain ⟨written, hwritten, rfl⟩ := List.mem_map.1 (mem_withoutReserved_iff.1 hfield).1
    obtain ⟨hordered, hvalues⟩ := Json.ordered_obj_iff.1 (hoperands written hwritten)
    exact Json.ordered_obj_iff.2 ⟨ordered_withoutReserved hordered, fun operand hoperand =>
      hvalues operand (mem_withoutReserved_iff.1 hoperand).1⟩
  · simp only [unreserved, withoutReserved_map, withoutReserved_withoutReserved, List.map_map,
      Function.comp_def]

end Conditions

/-! ## Statements and documents -/

section Documents

variable {path : List Utf16} {fields : Fields Json}

theorem checkStatement_eq_ok_iff {s : Statement} :
    checkStatement path (.obj fields) = .ok s ↔
      checkField checkSid path fields "Sid" = .ok s.sid ∧
      checkField checkEffect path fields "Effect" = .ok s.effect ∧
      checkField checkPatterns path fields "Action" = .ok s.actions ∧
      checkField checkPatterns path fields "Resource" = .ok s.resources ∧
      checkField checkCondition path fields "Condition" = .ok s.condition := by
  rw [checkStatement, map_eq_ok_iff]
  constructor
  · rintro ⟨parts, hparts, rfl⟩
    simpa only [both_eq_ok_iff] using hparts
  · intro h
    exact ⟨(s.sid, s.effect, s.actions, s.resources, s.condition),
      by simpa only [both_eq_ok_iff] using h, rfl⟩

theorem checkDocument_eq_ok_iff {d : Document} :
    checkDocument (.obj fields) = .ok d ↔
      checkField checkVersion [] fields "Version" = .ok d.version ∧
      checkField checkStatements [] fields "Statement" = .ok d.statements := by
  rw [checkDocument, map_eq_ok_iff]
  constructor
  · rintro ⟨parts, hparts, rfl⟩
    simpa only [both_eq_ok_iff] using hparts
  · intro h
    exact ⟨(d.version, d.statements), by simpa only [both_eq_ok_iff] using h, rfl⟩

/-- A document as reading leaves it. -/
structure Document.Settled (d : Document) : Prop where
  version_ne : d.version ≠ ""
  condition : ∀ s ∈ d.statements, ∀ c ∈ s.condition, c.Settled

theorem mem_of_get? {α : Type} {fields : Fields α} {key : Utf16} {value : α}
    (h : Fields.get? fields key = some value) : (key, value) ∈ fields := by
  obtain ⟨above, below, hfields, -⟩ := List.lookup_eq_some_iff.1 h
  rw [hfields]
  exact List.mem_append_right _ List.mem_cons_self

theorem ordered_of_get? (h : (Json.obj fields).Ordered) {key : Utf16} :
    ∀ value ∈ Fields.get? fields key, value.Ordered := fun value hvalue =>
  (Json.ordered_obj_iff.1 h).2 (key, value) (mem_of_get? hvalue)

theorem version_ne_of_checkVersion {field : Option Json} {version : Utf16}
    (h : checkVersion path field = .ok version) : version ≠ "" := by
  unfold checkVersion at h
  split at h
  · cases h
  · split at h
    · cases h
    · rename_i hne
      cases h
      exact hne
  · cases h

theorem settled_of_checkStatement {value : Json} (hordered : value.Ordered) {s : Statement}
    (h : checkStatement path value = .ok s) : ∀ c ∈ s.condition, c.Settled := by
  intro c hc
  cases value with
  | obj fields =>
      obtain ⟨-, -, -, -, hcondition⟩ := checkStatement_eq_ok_iff.1 h
      rw [checkField, Option.mem_def.1 hc] at hcondition
      cases hget : Fields.get? fields "Condition" with
      | none =>
          rw [hget] at hcondition
          cases hcondition
      | some value =>
          rw [hget] at hcondition
          obtain ⟨written, rfl, hwritten⟩ := checkCondition_eq_ok_iff.1 hcondition
          cases hwritten
          exact Condition.settled_unreserved (ordered_of_get? hordered _ hget)
  | _ => cases h

theorem settled_of_checkStatements {field : Option Json} (hordered : ∀ value ∈ field, value.Ordered)
    {statements : List Statement} (h : checkStatements path field = .ok statements) :
    ∀ s ∈ statements, ∀ c ∈ s.condition, c.Settled := by
  intro s hs
  unfold checkStatements at h
  split at h
  case h_1 | h_4 => cases h
  case h_2 values =>
    obtain ⟨i, hi, hcheck⟩ := List.mem_mapIdx.1 (mem_of_collect h hs)
    exact settled_of_checkStatement
      (Json.ordered_arr_iff.1 (hordered _ rfl) _ (List.getElem_mem hi)) hcheck
  case h_3 fields =>
    have hcheck := List.mem_singleton.1 (mem_of_collect h hs)
    exact settled_of_checkStatement (hordered _ rfl) hcheck.symm

theorem settled_of_checkDocument {value : Json} (hordered : value.Ordered) {d : Document}
    (h : checkDocument value = .ok d) : d.Settled := by
  cases value with
  | obj fields =>
      obtain ⟨hversion, hstatements⟩ := checkDocument_eq_ok_iff.1 h
      exact ⟨version_ne_of_checkVersion hversion,
        settled_of_checkStatements (ordered_of_get? hordered) hstatements⟩
  | _ => cases h

theorem parse_eq_ok_iff {text : Utf16} {d : Document} :
    parse text = .ok d ↔ ∃ value, Json.read? text = some value ∧ checkDocument value = .ok d := by
  rw [parse, accepted, mapError_eq_ok_iff, checkText]
  cases Json.read? text with
  | none => simp
  | some value => simp

theorem settled_of_parse {text : Utf16} {d : Document} (h : parse text = .ok d) : d.Settled := by
  obtain ⟨value, hread, hcheck⟩ := parse_eq_ok_iff.1 h
  exact settled_of_checkDocument (Json.ordered_of_read? hread) hcheck

end Documents

end Policy

end TenantIam
