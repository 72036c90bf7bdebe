import Mathlib.Data.List.Nodup
import TenantIam.Proofs.Policy.Reading
import TenantIam.Proofs.TenantPath.Reading
import TenantIam.Proofs.Text.Units

/-!
# The schema of policies

The schema asks something of a value at certain positions: of the value as a whole, of its version,
of its statements, of each statement and of the fields of each. This module lists the positions at
which a value does not comply, and what a value says that complies everywhere. Neither mentions how
policies are checked.
-/

namespace TenantIam

def Json.isText : Json → Bool
  | .str _ => true
  | _ => false

def Json.isObject : Json → Bool
  | .obj _ => true
  | _ => false

namespace Policy

/-! ## Where a value offends -/

/-- A position, where what is asked there is not met. -/
def offence (position : Utf16) (met : Bool) : List Utf16 :=
  if met then [] else [position]

def isVersion : Option Json → Bool
  | some (.str s) => s ≠ ""
  | _ => false

def isSid : Option Json → Bool
  | none => true
  | some value => value.isText

def isEffect : Option Json → Bool
  | some (.str s) => s = "Allow" ∨ s = "Deny"
  | _ => false

def isPatterns : Option Json → Bool
  | some (.str _) => true
  | some (.arr values) => values.all Json.isText
  | _ => false

/-- Where a condition offends: as a whole, or at each of its keys that has no object. -/
def conditionOffences : Option Json → List Utf16
  | none => []
  | some (.obj operators) =>
    operators.flatMap fun field => offence ("Condition." ++ field.1) field.2.isObject
  | some _ => ["Condition"]

def fieldOffences (fields : Fields Json) : List Utf16 :=
  offence "Sid" (isSid (Fields.get? fields "Sid")) ++
    offence "Effect" (isEffect (Fields.get? fields "Effect")) ++
    offence "Action" (isPatterns (Fields.get? fields "Action")) ++
    offence "Resource" (isPatterns (Fields.get? fields "Resource")) ++
    conditionOffences (Fields.get? fields "Condition")

/-- Where the statement at a position offends: as a whole, or in its fields. -/
def statementOffences (position : Utf16) : Json → List Utf16
  | .obj fields => (fieldOffences fields).map fun key => position ++ "." ++ key
  | _ => [position]

/-- The statements of a policy; a lone one counts as a list of one. -/
def statementValues? : Option Json → Option (List Json)
  | some (.arr values) => some values
  | some (.obj fields) => some [.obj fields]
  | _ => none

/-- Where a list of statements, or what should be one, offends. -/
def statementsOffences (field : Option Json) : List Utf16 :=
  match statementValues? field with
  | some values =>
    (values.mapIdx fun i value => statementOffences ("Statement." ++ i.repr) value).flatten
  | none => ["Statement"]

/-- The positions at which a policy offends, in the order of the schema. -/
def offences : Json → List Utf16
  | .obj fields =>
    offence "Version" (isVersion (Fields.get? fields "Version")) ++
      statementsOffences (Fields.get? fields "Statement")
  | _ => ["policy"]

/-! ## What a value says -/

/-- The patterns that a field lists, or its one pattern. -/
def GivesPatterns (field : Option Json) (patterns : List Utf16) : Prop :=
  field = some (Json.strs patterns) ∨ ∃ pattern, field = some (.str pattern) ∧ patterns = [pattern]

/-- What a statement that complies says; other fields than these say nothing. -/
structure GivesStatement (value : Json) (s : Statement) : Prop where
  sid : value.field? "Sid" = s.sid.map .str
  effect : value.field? "Effect" = some (.str s.effect.name)
  actions : GivesPatterns (value.field? "Action") s.actions
  resources : GivesPatterns (value.field? "Resource") s.resources
  condition : ∃ written : Option Condition,
    value.field? "Condition" = written.map Condition.toJson ∧
      s.condition = written.map Condition.unreserved

/-- What a policy that complies says. -/
structure GivesDocument (value : Json) (d : Document) : Prop where
  version : value.field? "Version" = some (.str d.version)
  statements : ∃ values, statementValues? (value.field? "Statement") = some values ∧
    List.Forall₂ GivesStatement values d.statements

/-! ## No position twice -/

section Once

/-- A position is behind the steps that it starts with. -/
def Behind (steps : List String) (position : Utf16) : Prop :=
  ∃ more, position.units.splitOn 0x2E = steps.map Text.units ++ more

theorem Behind.append {steps : List String} {position : Utf16} (h : Behind steps position)
    (key : Utf16) : Behind steps (position ++ "." ++ key) := by
  obtain ⟨more, hmore⟩ := h
  have hunits : (position ++ "." ++ key).units = position.units ++ 0x2E :: key.units := by
    rw [Utf16.units_append, Utf16.units_append, List.append_assoc]
    rfl
  refine ⟨more ++ key.units.splitOn 0x2E, ?_⟩
  rw [hunits, List.splitOn_append_cons_self, hmore, List.append_assoc]

theorem splitOn_units {step : String} (h : '.' ∉ step.toList) :
    (Text.units step).splitOn 0x2E = [Text.units step] := by
  refine List.splitOn_eq_singleton fun hmem => h ?_
  exact (Text.unit_mem_flatMap_charUnits_iff (by decide)).1 hmem

theorem behind_self {step : String} (h : '.' ∉ step.toList) : Behind [step] step :=
  ⟨[], splitOn_units h⟩

theorem Behind.ne {steps others : List String} {a b : Utf16} (ha : Behind steps a)
    (hb : Behind others b) (hlength : steps.length = others.length) (h : steps ≠ others) :
    a ≠ b := by
  obtain ⟨_, ha⟩ := ha
  obtain ⟨_, hb⟩ := hb
  rintro rfl
  rw [ha] at hb
  have hunits : steps.map Text.units = others.map Text.units :=
    List.append_inj_left hb (by simpa using hlength)
  exact h (List.map_injective_iff.2 (fun _ _ => Text.units_inj.1) hunits)

theorem offence_sublist (position : Utf16) (met : Bool) :
    (offence position met).Sublist [position] := by
  cases met
  · exact .refl _
  · exact List.nil_sublist _

theorem eq_of_mem_offence {position offending : Utf16} {met : Bool}
    (h : offending ∈ offence position met) : offending = position :=
  List.mem_singleton.1 ((offence_sublist position met).mem h)

/-- Where a condition offends, it is the condition or a key of it. -/
theorem behind_of_mem_conditionOffences {field : Option Json} {position : Utf16}
    (h : position ∈ conditionOffences field) : Behind ["Condition"] position := by
  have hcondition : Behind ["Condition"] "Condition" := behind_self (by decide)
  unfold conditionOffences at h
  split at h
  · cases h
  · obtain ⟨field, -, hfield⟩ := List.mem_flatMap.1 h
    rw [eq_of_mem_offence hfield]
    exact hcondition.append field.1
  · rw [List.mem_singleton.1 h]
    exact hcondition

theorem nodup_conditionOffences {field : Option Json} (hordered : ∀ value ∈ field, value.Ordered) :
    (conditionOffences field).Nodup := by
  unfold conditionOffences
  split
  · exact List.nodup_nil
  · -- the keys of the condition are different, and each offends at most once
    have hkeys := (Json.ordered_obj_iff.1 (hordered _ rfl)).1
    refine List.nodup_flatMap.2
      ⟨fun field _ => (List.nodup_singleton _).sublist (offence_sublist _ _),
        hkeys.imp fun hprecedes position ha hb => ?_⟩
    refine hprecedes.1 ((Utf16.append_right_inj "Condition.").1 ?_)
    rw [← eq_of_mem_offence ha, ← eq_of_mem_offence hb]
  · exact List.nodup_singleton _

theorem nodup_fieldOffences {fields : Fields Json} (hordered : (Json.obj fields).Ordered) :
    (fieldOffences fields).Nodup := by
  have hnames : ∀ name ∈ ["Sid", "Effect", "Action", "Resource"],
      '.' ∉ name.toList ∧ [name] ≠ ["Condition"] := by decide
  have hall : ((["Sid", "Effect", "Action", "Resource"] : List String).map Utf16.ofString ++
      conditionOffences (Fields.get? fields "Condition")).Nodup := by
    refine List.nodup_append.2 ⟨by decide, nodup_conditionOffences (ordered_of_get? hordered),
      fun start hstart key hkey => ?_⟩
    obtain ⟨name, hname, rfl⟩ := List.mem_map.1 hstart
    obtain ⟨hpoint, hne⟩ := hnames name hname
    exact (behind_self hpoint).ne (behind_of_mem_conditionOffences hkey) rfl hne
  exact hall.sublist (((((offence_sublist _ _).append (offence_sublist _ _)).append
    (offence_sublist _ _)).append (offence_sublist _ _)).append (.refl _))

/-- The statement at a position offends there or in a field of it. -/
theorem behind_of_mem_statementOffences {steps : List String} {position : Utf16} {value : Json}
    (hposition : Behind steps position) {offending : Utf16}
    (h : offending ∈ statementOffences position value) : Behind steps offending := by
  unfold statementOffences at h
  split at h
  · obtain ⟨key, -, rfl⟩ := List.mem_map.1 h
    exact hposition.append key
  · rw [List.mem_singleton.1 h]
    exact hposition

theorem nodup_statementOffences {value : Json} (hordered : value.Ordered) (position : Utf16) :
    (statementOffences position value).Nodup := by
  unfold statementOffences
  split
  · exact (nodup_fieldOffences hordered).map fun a b h => (Utf16.append_right_inj _).1 h
  · exact List.nodup_singleton _

theorem behind_number (i : Nat) : Behind ["Statement", i.repr] ("Statement." ++ i.repr) := by
  have hunits : ("Statement." ++ (i.repr : Utf16)).units =
      Text.units "Statement" ++ 0x2E :: Text.units i.repr := rfl
  have hnumber : '.' ∉ i.repr.toList := by
    rw [Nat.toList_repr]
    intro hmem
    exact absurd (Nat.isDigit_of_mem_toDigits (by decide) (by decide) hmem) (by decide)
  refine ⟨[], ?_⟩
  rw [hunits, List.splitOn_append_cons_self, splitOn_units (by decide), splitOn_units hnumber]
  rfl

theorem behind_of_mem_statementsOffences {field : Option Json} {position : Utf16}
    (h : position ∈ statementsOffences field) : Behind ["Statement"] position := by
  unfold statementsOffences at h
  split at h
  · obtain ⟨offending, hoffending, hposition⟩ := List.mem_flatten.1 h
    obtain ⟨i, hi, rfl⟩ := List.mem_mapIdx.1 hoffending
    obtain ⟨more, hmore⟩ := behind_of_mem_statementOffences (behind_number i) hposition
    exact ⟨Text.units i.repr :: more, hmore⟩
  · rw [List.mem_singleton.1 h]
    exact behind_self (by decide)

theorem ordered_of_statementValues? {field : Option Json} {values : List Json}
    (hordered : ∀ value ∈ field, value.Ordered) (h : statementValues? field = some values) :
    ∀ value ∈ values, value.Ordered := by
  unfold statementValues? at h
  split at h <;> cases h
  · exact Json.ordered_arr_iff.1 (hordered _ rfl)
  · exact List.forall_mem_singleton.2 (hordered _ rfl)

theorem nodup_statementsOffences {field : Option Json}
    (hordered : ∀ value ∈ field, value.Ordered) : (statementsOffences field).Nodup := by
  unfold statementsOffences
  split
  · next values hvalues =>
    refine List.nodup_flatten.2 ⟨fun offending hoffending => ?_, ?_⟩
    · obtain ⟨i, hi, rfl⟩ := List.mem_mapIdx.1 hoffending
      exact nodup_statementOffences
        (ordered_of_statementValues? hordered hvalues _ (List.getElem_mem hi)) _
    · -- different statements offend behind different numbers
      refine List.pairwise_iff_getElem.2 fun i j hi hj hlt position ha hb => ?_
      rw [List.getElem_mapIdx] at ha hb
      have hne : ["Statement", i.repr] ≠ ["Statement", j.repr] := fun heq => by
        have hvalue := congrArg TenantPath.decimalValue (List.cons.inj (List.cons.inj heq).2).1
        rw [TenantPath.decimalValue_repr, TenantPath.decimalValue_repr] at hvalue
        exact Nat.ne_of_lt hlt hvalue
      exact (behind_of_mem_statementOffences (behind_number i) ha).ne
        (behind_of_mem_statementOffences (behind_number j) hb) rfl hne rfl
  · exact List.nodup_singleton _

/-- **No position twice.** A position offends at most once. -/
theorem nodup_offences {value : Json} (hordered : value.Ordered) : (offences value).Nodup := by
  unfold offences
  split
  · have hversion : Behind ["Version"] "Version" := behind_self (by decide)
    refine List.nodup_append.2 ⟨(List.nodup_singleton _).sublist (offence_sublist _ _),
      nodup_statementsOffences (ordered_of_get? hordered), fun version hmem position h => ?_⟩
    rw [eq_of_mem_offence hmem]
    exact hversion.ne (behind_of_mem_statementsOffences h) rfl (by decide)
  · exact List.nodup_singleton _

end Once

end Policy

end TenantIam
