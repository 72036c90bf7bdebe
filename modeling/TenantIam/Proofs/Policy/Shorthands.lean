import TenantIam.Policy.Reader

/-!
# Shorthands

A lone statement is short for a list of one, and so is a lone pattern. Writing such shorthands out,
at any places of a value, changes neither the document that is read from it nor what is reported
about it, whatever else is wrong there: the statement of a list of one has the position of the lone
one, and a lone pattern is never what is wrong.
-/

namespace TenantIam

namespace Fields

variable {α β : Type}

def mapValues (f : Utf16 → α → β) (fields : Fields α) : Fields β :=
  fields.map fun (key, value) => (key, f key value)

@[simp] theorem get?_mapValues (f : Utf16 → α → β) (fields : Fields α) (key : Utf16) :
    get? (mapValues f fields) key = (get? fields key).map (f key) := by
  unfold get? mapValues
  induction fields with
  | nil => rfl
  | cons field fields ih =>
      obtain ⟨name, value⟩ := field
      rw [List.map_cons, List.lookup_cons, List.lookup_cons, ih]
      by_cases hname : key = name
      · simp [hname]
      · simp [beq_false_of_ne hname]

end Fields

namespace Policy

/-- Where shorthands are written out. -/
structure Places where
  /-- Whether a lone statement is. -/
  statement : Bool
  /-- Whether the lone pattern under a key of a statement is, by the number of the statement. -/
  pattern : Nat → Utf16 → Bool

def Places.all : Places where
  statement := true
  pattern _ _ := true

def patternKeys : List Utf16 := ["Action", "Resource"]

def listed : Json → Json
  | .str pattern => .arr [.str pattern]
  | value => value

/-- A field of a statement, written out if it is a lone pattern under a chosen key. -/
def fieldOut (chosen : Utf16 → Bool) (key : Utf16) (value : Json) : Json :=
  if key ∈ patternKeys ∧ chosen key = true then listed value else value

/-- A statement with the lone patterns under the chosen keys written out. -/
def statementOut (chosen : Utf16 → Bool) : Json → Json
  | .obj fields => .obj (Fields.mapValues (fieldOut chosen) fields)
  | value => value

/-- Statements, or a lone one, with their shorthands written out at some places. -/
def statementsOut (places : Places) : Json → Json
  | .arr values => .arr (values.mapIdx fun i value => statementOut (places.pattern i) value)
  | .obj fields =>
    let statement := statementOut (places.pattern 0) (.obj fields)
    if places.statement then .arr [statement] else statement
  | value => value

/-- A policy with its shorthands written out at some places. -/
def writtenOut (places : Places) : Json → Json
  | .obj fields =>
    .obj (Fields.mapValues
      (fun key value => if key = "Statement" then statementsOut places value else value) fields)
  | value => value

/-- Whether a value has no lone pattern where a statement has its patterns. -/
def isLongStatement (value : Json) : Bool :=
  patternKeys.all fun key =>
    match value.field? key with
    | some (.str _) => false
    | _ => true

/-- Whether a value has neither a lone statement nor a lone pattern. -/
def isLong (value : Json) : Bool :=
  match value.field? "Statement" with
  | some (.obj _) => false
  | some (.arr statements) => statements.all isLongStatement
  | _ => true

/-! ## What the checks see -/

section Checks

variable {path : List Utf16} {chosen : Utf16 → Bool} {places : Places}

theorem checkPatterns_listed (value : Json) :
    checkPatterns path (some (listed value)) = checkPatterns path (some value) := by
  cases value <;> rfl

theorem checkPatterns_fieldOut (key : Utf16) (value : Json) :
    checkPatterns path (some (fieldOut chosen key value)) = checkPatterns path (some value) := by
  unfold fieldOut
  split
  · exact checkPatterns_listed value
  · rfl

/-- The check of a field looks at the value under its key only. -/
theorem checkField_mapValues {α : Type} (check : List Utf16 → Option Json → Checked α)
    {f : Utf16 → Json → Json} {key : Utf16}
    (hvalue : ∀ value, check (path ++ [key]) (some (f key value)) =
      check (path ++ [key]) (some value)) (fields : Fields Json) :
    checkField check path (Fields.mapValues f fields) key = checkField check path fields key := by
  unfold checkField
  rw [Fields.get?_mapValues]
  cases Fields.get? fields key with
  | none => rfl
  | some value => exact hvalue value

/-- Patterns that are written out are checked alike, and no other field of a statement changes. -/
theorem checkStatement_statementOut (value : Json) :
    checkStatement path (statementOut chosen value) = checkStatement path value := by
  cases value with
  | obj fields =>
      have hpatterns (key : Utf16) :
          checkField checkPatterns path (Fields.mapValues (fieldOut chosen) fields) key =
            checkField checkPatterns path fields key :=
        checkField_mapValues checkPatterns (checkPatterns_fieldOut key) fields
      have hother {α : Type} (check : List Utf16 → Option Json → Checked α) {key : Utf16}
          (hkey : key ∉ patternKeys) :
          checkField check path (Fields.mapValues (fieldOut chosen) fields) key =
            checkField check path fields key :=
        checkField_mapValues check (fun value => by rw [fieldOut, if_neg fun h => hkey h.1]) fields
      simp only [statementOut, checkStatement]
      rw [hother checkSid (by decide), hother checkEffect (by decide), hpatterns, hpatterns,
        hother checkCondition (by decide)]
  | _ => rfl

/-- The one statement of a list has the position of a lone statement. -/
theorem checkStatements_statementsOut (value : Json) :
    checkStatements path (some (statementsOut places value)) =
      checkStatements path (some value) := by
  cases value with
  | arr values =>
      have hchecks : (values.mapIdx fun i value => statementOut (places.pattern i) value).mapIdx
            (fun i value => checkStatement (path ++ [(i.repr : Utf16)]) value) =
          values.mapIdx fun i value => checkStatement (path ++ [(i.repr : Utf16)]) value := by
        rw [List.mapIdx_mapIdx]
        congr 1
        funext i value
        exact checkStatement_statementOut value
      exact congrArg Checked.collect hchecks
  | obj fields =>
      -- A lone statement is checked at the position 0, where it is in the list of one.
      have hlone : Checked.collect
            [checkStatement (path ++ [("0" : Utf16)])
              (statementOut (places.pattern 0) (.obj fields))] =
          Checked.collect [checkStatement (path ++ [("0" : Utf16)]) (.obj fields)] := by
        rw [checkStatement_statementOut]
      unfold statementsOut
      dsimp only
      split
      · exact hlone
      · exact hlone
  | _ => rfl

theorem checkDocument_writtenOut (value : Json) :
    checkDocument (writtenOut places value) = checkDocument value := by
  cases value with
  | obj fields =>
      simp only [writtenOut, checkDocument]
      rw [checkField_mapValues checkVersion fun _ => rfl,
        checkField_mapValues checkStatements checkStatements_statementsOut]
  | _ => rfl

end Checks

/-! ## Values without shorthands -/

theorem isLongStatement_statementOut (value : Json) :
    isLongStatement (statementOut (fun _ => true) value) = true := by
  refine List.all_eq_true.2 fun key hkey => ?_
  cases value with
  | obj fields =>
      simp only [statementOut, Json.field?, Fields.get?_mapValues]
      cases Fields.get? fields key with
      | none => rfl
      | some value => cases value <;> simp [fieldOut, hkey, listed]
  | _ => rfl

/-- Written out at all places, a value has no shorthands. -/
theorem isLong_writtenOut (value : Json) : isLong (writtenOut .all value) = true := by
  cases value with
  | obj fields =>
      simp only [isLong, writtenOut, Json.field?, Fields.get?_mapValues]
      cases Fields.get? fields "Statement" with
      | none => rfl
      | some value =>
          cases value with
          | arr values =>
              refine List.all_eq_true.2 fun statement hstatement => ?_
              obtain ⟨i, hi, rfl⟩ := List.mem_mapIdx.1 hstatement
              exact isLongStatement_statementOut values[i]
          | obj fields => simp [statementsOut, Places.all, isLongStatement_statementOut]
          | _ => rfl
  | _ => rfl

/-- **Shorthands.** A value and what becomes of it when its shorthands are written out, at any
places, are read as the same document, or have the same issues. In this way every value can be
written without shorthands. -/
theorem checkValue_writtenOut (places : Places) (value : Json) :
    checkValue (writtenOut places value) = checkValue value ∧
      isLong (writtenOut .all value) = true := by
  refine ⟨?_, isLong_writtenOut value⟩
  cases value with
  | obj fields => exact checkDocument_writtenOut (.obj fields)
  | _ => rfl

/-- A lone statement becomes a list, its action stays and its resource becomes a list. -/
example :
    writtenOut { statement := true, pattern := fun i key => i = 0 ∧ key = "Resource" }
        (.obj [("Statement",
          .obj [("Action", .str "a"), ("Resource", .str "*"), ("Sid", .null)])]) =
      .obj [("Statement", .arr
        [.obj [("Action", .str "a"), ("Resource", .arr [.str "*"]), ("Sid", .null)]])] := rfl

end Policy

end TenantIam
