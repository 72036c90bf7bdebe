import TenantIam.Proofs.Policy.Schema

/-!
# What the checks of policies report

Every check reports the positions at which the schema is not met, in their order, and there is a
value exactly when there is nothing to report. That is shown check by check, from the single fields
to the whole policy. The document that is read says what the value says.
-/

namespace TenantIam.Policy

/-- The position that a path leads to, whatever the problem is there. -/
def positionOf (path : List Utf16) : Utf16 :=
  if path = [] then "policy" else Utf16.intercalate "." path

/-- A step further, a point and the name of the step follow. -/
theorem positionOf_concat {path : List Utf16} (hpath : path ≠ []) (key : Utf16) :
    positionOf (path ++ [key]) = positionOf path ++ "." ++ key := by
  simp only [positionOf, List.append_eq_nil_iff, hpath, List.cons_ne_nil, and_self, if_false]
  exact Utf16.intercalate_concat hpath key

namespace Checked

variable {α β : Type}

/-- What a check reports: a value and no position, or some positions and no value. -/
def Reports (checked : Checked α) (positions : List Utf16) : Prop :=
  checked ≠ .error [] ∧ checked.issues.map Issue.position = positions

theorem reports_ok (a : α) : Reports (.ok a) [] := by
  simp [Reports, issues]

theorem reports_fail (path : List Utf16) (problem : Problem) :
    Reports (fail path problem : Checked α) [positionOf path] := by
  simp [Reports, fail, issues, Issue.position, positionOf]

namespace Reports

variable {a : Checked α} {b : Checked β} {positions others : List Utf16}

theorem both (ha : a.Reports positions) (hb : b.Reports others) :
    (Checked.both a b).Reports (positions ++ others) := by
  refine ⟨?_, by rw [issues_both, List.map_append, ha.2, hb.2]⟩
  obtain ⟨ha, -⟩ := ha
  obtain ⟨hb, -⟩ := hb
  cases a <;> cases b <;> simp_all [Checked.both]

theorem map (ha : a.Reports positions) (f : α → β) : Reports (Except.map f a) positions := by
  refine ⟨?_, by rw [issues_map, ha.2]⟩
  obtain ⟨ha, -⟩ := ha
  cases a <;> simp_all [Except.map]

theorem collect {l : List (Checked α)} {positions : List (List Utf16)}
    (h : List.Forall₂ Reports l positions) : (Checked.collect l).Reports positions.flatten := by
  induction h with
  | nil => exact reports_ok []
  | cons hfirst _ ih => exact (hfirst.both ih).map _

/-- There is a value where nothing is reported. -/
theorem exists_ok_iff (h : a.Reports positions) : (∃ value, a = .ok value) ↔ positions = [] := by
  obtain ⟨hreason, rfl⟩ := h
  cases a with
  | ok value => simp [issues]
  | error reasons =>
      have hne : reasons ≠ [] := fun hnil => hreason (by rw [hnil])
      simpa [issues] using hne

end Reports

end Checked

open Checked

/-! ## What is reported -/

section Reported

variable {α : Type} {path : List Utf16}

theorem reports_checkVersion (field : Option Json) :
    (checkVersion path field).Reports (offence (positionOf path) (isVersion field)) := by
  rcases field with _ | value
  · exact reports_fail _ _
  · cases value with
    | str s =>
        by_cases h : s = ""
        · simpa [checkVersion, isVersion, offence, h] using reports_fail path .emptyText
        · simpa [checkVersion, isVersion, offence, h] using reports_ok s
    | _ => exact reports_fail _ _

theorem reports_checkSid (field : Option Json) :
    (checkSid path field).Reports (offence (positionOf path) (isSid field)) := by
  rcases field with _ | value
  · exact reports_ok _
  · cases value with
    | str => exact reports_ok _
    | _ => exact reports_fail _ _

theorem Effect.ofName?_eq_some_iff {s : Utf16} {effect : Effect} :
    Effect.ofName? s = some effect ↔ s = effect.name := by
  constructor
  · intro h
    rw [ofName?] at h
    have hname := List.find?_some h
    exact (of_decide_eq_true hname).symm
  · rintro rfl
    exact Effect.ofName?_name effect

theorem reports_checkEffect (field : Option Json) :
    (checkEffect path field).Reports (offence (positionOf path) (isEffect field)) := by
  rcases field with _ | value
  · exact reports_fail _ _
  · cases value with
    | str s =>
        rw [checkEffect]
        cases heffect : Effect.ofName? s with
        | none =>
            have hunknown (effect : Effect) : s ≠ effect.name := fun hs => by
              rw [hs, Effect.ofName?_name] at heffect
              cases heffect
            have hallow : s ≠ "Allow" := hunknown .allow
            have hdeny : s ≠ "Deny" := hunknown .deny
            have hbad : isEffect (some (.str s)) = false := by simp [isEffect, hallow, hdeny]
            rw [hbad]
            exact reports_fail _ _
        | some effect =>
            obtain rfl := Effect.ofName?_eq_some_iff.1 heffect
            cases effect <;> exact reports_ok _
    | _ => exact reports_fail _ _

theorem isSome_texts? (values : List Json) : (texts? values).isSome = values.all Json.isText := by
  induction values with
  | nil => rfl
  | cons value values ih =>
      rw [texts?_cons]
      cases value with
      | str s => simpa [Json.isText] using ih
      | _ => rfl

theorem reports_checkPatterns (field : Option Json) :
    (checkPatterns path field).Reports (offence (positionOf path) (isPatterns field)) := by
  rcases field with _ | value
  · exact reports_fail _ _
  · cases value with
    | str => exact reports_ok _
    | arr values =>
        rw [checkPatterns, isPatterns, ← isSome_texts?]
        cases texts? values with
        | none => exact reports_fail _ _
        | some => exact reports_ok _
    | _ => exact reports_fail _ _

theorem reports_checkOperator (operator : Utf16) (value : Json) :
    (checkOperator path operator value).Reports
      (offence (positionOf (path ++ [operator])) value.isObject) := by
  cases value with
  | obj => exact reports_ok _
  | _ => exact reports_fail _ _

theorem map_offence (position key : Utf16) (met : Bool) :
    (offence key met).map (position ++ "." ++ ·) = offence (position ++ "." ++ key) met := by
  cases met <;> rfl

theorem reports_checkCondition (hpath : path ≠ []) (field : Option Json) :
    (checkCondition (path ++ [("Condition" : Utf16)]) field).Reports
      ((conditionOffences field).map (positionOf path ++ "." ++ ·)) := by
  have hcondition := positionOf_concat hpath "Condition"
  rcases field with _ | value
  · exact reports_ok _
  · cases value with
    | obj operators =>
        -- a key is reported behind the condition, whatever points it has itself
        have hoperator (field : Utf16 × Json) :
            (checkOperator (path ++ [("Condition" : Utf16)]) field.1 field.2).Reports
              ((offence ("Condition." ++ field.1) field.2.isObject).map
                (positionOf path ++ "." ++ ·)) := by
          have hposition : positionOf (path ++ [("Condition" : Utf16)] ++ [field.1]) =
              positionOf path ++ "." ++ ("Condition." ++ field.1) := by
            rw [positionOf_concat (by simp), hcondition]
            simp only [Utf16.append_assoc]
            rfl
          rw [map_offence, ← hposition]
          exact reports_checkOperator field.1 field.2
        rw [checkCondition, conditionOffences, List.map_flatMap, List.flatMap_def]
        refine (Reports.collect ?_).map _
        rw [List.forall₂_map_left_iff, List.forall₂_map_right_iff, List.forall₂_same]
        exact fun field _ => hoperator field
    | _ =>
        show (Checked.fail _ _).Reports [positionOf path ++ "." ++ "Condition"]
        rw [← hcondition]
        exact reports_fail _ _

/-- The field of an object is checked under the position of the object. -/
theorem reports_checkField {check : List Utf16 → Option Json → Checked α}
    {good : Option Json → Bool}
    (hcheck : ∀ path field, (check path field).Reports (offence (positionOf path) (good field)))
    (hpath : path ≠ []) (fields : Fields Json) (key : Utf16) :
    (checkField check path fields key).Reports
      ((offence key (good (Fields.get? fields key))).map (positionOf path ++ "." ++ ·)) := by
  rw [map_offence, ← positionOf_concat hpath]
  exact hcheck _ _

theorem reports_checkStatement (hpath : path ≠ []) (value : Json) :
    (checkStatement path value).Reports (statementOffences (positionOf path) value) := by
  cases value with
  | obj fields =>
      rw [checkStatement, statementOffences, fieldOffences]
      simp only [List.map_append, List.append_assoc]
      refine Reports.map ?_ _
      exact (reports_checkField (fun _ => reports_checkSid) hpath fields "Sid").both
        ((reports_checkField (fun _ => reports_checkEffect) hpath fields "Effect").both
          ((reports_checkField (fun _ => reports_checkPatterns) hpath fields "Action").both
            ((reports_checkField (fun _ => reports_checkPatterns) hpath fields "Resource").both
              (reports_checkCondition hpath _))))
  | _ => exact reports_fail _ _

theorem reports_checkStatements (field : Option Json) :
    (checkStatements ["Statement"] field).Reports (statementsOffences field) := by
  have hstatement (i : Nat) (value : Json) :
      (checkStatement ([("Statement" : Utf16)] ++ [(i.repr : Utf16)]) value).Reports
        (statementOffences ("Statement." ++ i.repr) value) := by
    have hposition :
        positionOf ([("Statement" : Utf16)] ++ [(i.repr : Utf16)]) = "Statement." ++ i.repr :=
      positionOf_concat (by simp) i.repr
    rw [← hposition]
    exact reports_checkStatement (by simp) value
  rcases field with _ | value
  · exact reports_fail _ _
  · cases value with
    | arr values =>
        refine Reports.collect (List.forall₂_iff_get.2 ⟨by simp, fun i hi hj => ?_⟩)
        simpa using hstatement i _
    | obj fields => exact Reports.collect (.cons (hstatement 0 (.obj fields)) .nil)
    | _ => exact reports_fail _ _

/-- **What is reported.** A value is reported at the positions at which it offends. -/
theorem reports_checkDocument (value : Json) :
    (checkDocument value).Reports (offences value) := by
  cases value with
  | obj fields =>
      exact ((reports_checkVersion _).both (reports_checkStatements _)).map _
  | _ => exact reports_fail _ _

end Reported

/-! ## What is read -/

section Documents

variable {path : List Utf16} {field : Option Json}

theorem version_of_checkVersion {version : Utf16} (h : checkVersion path field = .ok version) :
    field = some (.str version) := by
  unfold checkVersion at h
  split at h
  · cases h
  · split at h
    · cases h
    · cases h
      rfl
  · cases h

theorem sid_of_checkSid {sid : Option Utf16} (h : checkSid path field = .ok sid) :
    field = sid.map .str := by
  unfold checkSid at h
  split at h <;> cases h <;> rfl

theorem effect_of_checkEffect {effect : Effect} (h : checkEffect path field = .ok effect) :
    field = some (.str effect.name) := by
  unfold checkEffect at h
  split at h
  · cases h
  · split at h
    · next heffect =>
      cases h
      rw [Effect.ofName?_eq_some_iff.1 heffect]
    · cases h
  · cases h

theorem givesPatterns_of_checkPatterns {patterns : List Utf16}
    (h : checkPatterns path field = .ok patterns) : GivesPatterns field patterns := by
  unfold checkPatterns at h
  split at h
  · next pattern =>
    cases h
    exact .inr ⟨pattern, rfl, rfl⟩
  · split at h
    · next htexts =>
      cases h
      exact .inl (congrArg (fun values => some (Json.arr values)) (texts?_eq_some_iff.1 htexts))
    · cases h
  · cases h

theorem condition_of_checkCondition {condition : Option Condition}
    (h : checkCondition path field = .ok condition) :
    ∃ written : Option Condition,
      field = written.map Condition.toJson ∧ condition = written.map Condition.unreserved := by
  cases field with
  | none =>
      cases h
      exact ⟨none, rfl, rfl⟩
  | some value =>
      obtain ⟨written, rfl, rfl⟩ := checkCondition_eq_ok_iff.1 h
      exact ⟨some written, rfl, rfl⟩

theorem givesStatement_of_checkStatement {value : Json} {s : Statement}
    (h : checkStatement path value = .ok s) : GivesStatement value s := by
  cases value with
  | obj fields =>
      obtain ⟨hsid, heffect, hactions, hresources, hcondition⟩ := checkStatement_eq_ok_iff.1 h
      exact {
        sid := sid_of_checkSid hsid
        effect := effect_of_checkEffect heffect
        actions := givesPatterns_of_checkPatterns hactions
        resources := givesPatterns_of_checkPatterns hresources
        condition := condition_of_checkCondition hcondition }
  | _ => cases h

/-- Statements are read one by one and stay in their order. -/
theorem forall₂_of_collect_mapIdx {check : Nat → Json → Checked Statement} {values : List Json}
    {statements : List Statement}
    (hcheck : ∀ i value s, check i value = .ok s → GivesStatement value s)
    (h : collect (values.mapIdx check) = .ok statements) :
    List.Forall₂ GivesStatement values statements := by
  induction values generalizing check statements with
  | nil =>
      cases h
      exact .nil
  | cons value values ih =>
      rw [List.mapIdx_cons, collect_eq_ok_iff, List.forall₂_cons_left_iff] at h
      obtain ⟨s, statements, hfirst, hrest, rfl⟩ := h
      exact .cons (hcheck 0 value s hfirst)
        (ih (fun i => hcheck (i + 1)) (collect_eq_ok_iff.2 hrest))

theorem statements_of_checkStatements {statements : List Statement}
    (h : checkStatements path field = .ok statements) :
    ∃ values, statementValues? field = some values ∧
      List.Forall₂ GivesStatement values statements := by
  unfold checkStatements at h
  split at h
  case h_1 | h_4 => cases h
  case h_2 values =>
    exact ⟨values, rfl,
      forall₂_of_collect_mapIdx (fun i value s => givesStatement_of_checkStatement) h⟩
  case h_3 fields =>
    refine ⟨[.obj fields], rfl, ?_⟩
    rw [collect_eq_ok_iff, List.forall₂_cons_left_iff] at h
    obtain ⟨s, rest, hlone, hrest, rfl⟩ := h
    rw [List.forall₂_nil_left_iff] at hrest
    subst hrest
    exact .cons (givesStatement_of_checkStatement hlone) .nil

/-- **What is read.** The document says what the value says. -/
theorem givesDocument_of_checkDocument {value : Json} {d : Document}
    (h : checkDocument value = .ok d) : GivesDocument value d := by
  cases value with
  | obj fields =>
      obtain ⟨hversion, hstatements⟩ := checkDocument_eq_ok_iff.1 h
      exact ⟨version_of_checkVersion hversion, statements_of_checkStatements hstatements⟩
  | _ => cases h

end Documents

/-- Reading a policy accepts exactly what complies, reports every offending position once and in
order, and says what the text says. -/
theorem checkText_reports {text : Utf16} {value : Json} (h : Json.read? text = some value) :
    ((∃ d, checkText text = .ok d) ↔ offences value = []) ∧
      (checkText text).issues.map Issue.position = offences value ∧
      (offences value).Nodup ∧
      ∀ d, checkText text = .ok d → GivesDocument value d := by
  have htext : checkText text = checkDocument value := by rw [checkText, h]
  rw [htext]
  exact ⟨(reports_checkDocument value).exists_ok_iff, (reports_checkDocument value).2,
    nodup_offences (Json.ordered_of_read? h), fun d => givesDocument_of_checkDocument⟩

/-- Offences at every depth are reported together, those at keys that are halves of pairs too; a
lone statement that complies is read, whatever else stands in it. -/
theorem checkText_reports_depths :
    (checkText ("\x7b\"Statement\":[\x7b\"Condition\":\x7b\"\\uD800\":1,\"b\":1,\"\\uDBFF\":2," ++
        "\"7\":[]\x7d,\"Sid\":null,\"Action\":[\"a\",1],\"Resource\":\"*\"\x7d,7]," ++
        "\"Version\":\"\"\x7d" : String)).issues.map Issue.position =
      (["Version", "Statement.0.Sid", "Statement.0.Effect", "Statement.0.Action",
        "Statement.0.Condition.7", ("Statement.0.Condition." : Utf16) ++ Utf16.mk [0xD800],
        "Statement.0.Condition.b", ("Statement.0.Condition." : Utf16) ++ Utf16.mk [0xDBFF],
        "Statement.1"] : List Utf16) ∧
    ∃ value d, Json.read? ("\x7b\"Version\":\"1\",\"Statement\":\x7b\"Effect\":\"Deny\"," ++
        "\"Action\":\"a\",\"Resource\":[],\"Principal\":0\x7d\x7d" : String) = some value ∧
      checkText ("\x7b\"Version\":\"1\",\"Statement\":\x7b\"Effect\":\"Deny\"," ++
        "\"Action\":\"a\",\"Resource\":[],\"Principal\":0\x7d\x7d" : String) = .ok d ∧
      GivesDocument value d := by
  have hreported {text : Utf16} {expected : List Utf16}
      (h : (Json.read? text).map offences = some expected) :
      (checkText text).issues.map Issue.position = expected := by
    obtain ⟨value, hvalue, hoffences⟩ := Option.map_eq_some_iff.1 h
    exact (checkText_reports hvalue).2.1.trans hoffences
  have haccepted {text : Utf16} (h : (Json.read? text).map offences = some []) :
      ∃ value d, Json.read? text = some value ∧ checkText text = .ok d ∧ GivesDocument value d := by
    obtain ⟨value, hvalue, hoffences⟩ := Option.map_eq_some_iff.1 h
    obtain ⟨hcomplies, -, -, hgives⟩ := checkText_reports hvalue
    obtain ⟨d, hd⟩ := hcomplies.2 hoffences
    exact ⟨value, d, hvalue, hd, hgives d hd⟩
  exact ⟨hreported (by decide +kernel), haccepted (by decide +kernel)⟩

end TenantIam.Policy
