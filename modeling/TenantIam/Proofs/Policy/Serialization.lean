import TenantIam.Policy.Decision
import TenantIam.Proofs.Policy.Reading

/-!
# Documents that are written and read again

A document that was read is read again from its text. What comes back is the document as it is
written: infinite numbers in conditions become `null`, and all else is as it was. So the decisions
are the same, and so is the text.
-/

namespace TenantIam.Policy

open Checked

/-! ## Reading the JSON value of a document -/

theorem checkEffect_name (path : List Utf16) (effect : Effect) :
    checkEffect path (some (.str effect.name)) = .ok effect := by
  rw [checkEffect, Effect.ofName?_name]

theorem checkPatterns_strs (path patterns : List Utf16) :
    checkPatterns path (some (Json.strs patterns)) = .ok patterns := by
  rw [Json.strs, checkPatterns, texts?_eq_some_iff.2 rfl]

theorem checkCondition_toJson (path : List Utf16) {c : Condition} (h : c.Settled) :
    checkCondition path (some c.toJson) = .ok (some c) :=
  checkCondition_eq_ok_iff.2 ⟨c, rfl, congrArg some h.unreserved_eq.symm⟩

/-- The fields of a written statement under the keys that are read. -/
theorem Statement.get?_toJson (s : Statement) :
    s.toJson.field? "Sid" = s.sid.map .str ∧
      s.toJson.field? "Effect" = some (.str s.effect.name) ∧
      s.toJson.field? "Action" = some (.strs s.actions) ∧
      s.toJson.field? "Resource" = some (.strs s.resources) ∧
      s.toJson.field? "Condition" = s.condition.map Condition.toJson := by
  obtain ⟨sid, effect, actions, resources, condition⟩ := s
  cases sid <;> cases condition <;> simp [toJson, Json.field?, Fields.get?_cons]

theorem checkStatement_toJson (path : List Utf16) {s : Statement}
    (h : ∀ c ∈ s.condition, c.Settled) : checkStatement path s.toJson = .ok s := by
  obtain ⟨hsid, heffect, hactions, hresources, hcondition⟩ := s.get?_toJson
  refine checkStatement_eq_ok_iff.2 ⟨?sid, ?effect, ?actions, ?resources, ?condition⟩
  case sid =>
    refine (congrArg (checkSid _) hsid).trans ?_
    cases s.sid <;> rfl
  case effect => exact (congrArg (checkEffect _) heffect).trans (checkEffect_name _ s.effect)
  case actions => exact (congrArg (checkPatterns _) hactions).trans (checkPatterns_strs _ s.actions)
  case resources =>
    exact (congrArg (checkPatterns _) hresources).trans (checkPatterns_strs _ s.resources)
  case condition =>
    refine (congrArg (checkCondition _) hcondition).trans ?_
    cases hc : s.condition with
    | none => rfl
    | some c => exact checkCondition_toJson _ (h c hc)

/-- Values that are read as they were written are read so in a list. -/
theorem collect_mapIdx {α β : Type} (write : β → α) {check : Nat → α → Checked β} {results : List β}
    (h : ∀ i, ∀ result ∈ results, check i (write result) = .ok result) :
    collect ((results.map write).mapIdx check) = .ok results := by
  induction results generalizing check with
  | nil => rfl
  | cons result results ih =>
      have hfirst := h 0 result List.mem_cons_self
      have hrest := ih fun i later hlater => h (i + 1) later (List.mem_cons_of_mem _ hlater)
      rw [List.map_cons, List.mapIdx_cons, collect, hfirst, hrest]
      rfl

theorem checkDocument_toJson {d : Document} (h : d.Settled) : checkDocument d.toJson = .ok d := by
  refine checkDocument_eq_ok_iff.2 ⟨?version, ?statements⟩
  case version =>
    show checkVersion _ (some (.str d.version)) = _
    rw [checkVersion, if_neg h.version_ne]
  case statements =>
    show checkStatements _ (some (.arr (d.statements.map Statement.toJson))) = _
    rw [checkStatements]
    exact collect_mapIdx _ fun i s hs => checkStatement_toJson _ (h.condition s hs)

/-! ## The JSON value of a document is in order -/

theorem ordered_strs (l : List Utf16) : (Json.strs l).Ordered := by
  refine Json.ordered_arr_iff.2 fun value hvalue => ?_
  obtain ⟨s, -, rfl⟩ := List.mem_map.1 hvalue
  exact .of_parts_eq_nil trivial rfl

theorem ordered_str (text : Utf16) : (Json.str text).Ordered :=
  .of_parts_eq_nil trivial rfl

theorem ordered_statement_toJson {s : Statement} (h : ∀ c ∈ s.condition, c.Settled) :
    s.toJson.Ordered := by
  obtain ⟨sid, effect, actions, resources, condition⟩ := s
  refine Json.ordered_obj_iff.2 ⟨Fields.ordered_iff_keys.2 ?keys, ?values⟩
  case keys =>
    have hkeys : ∀ named conditional : Bool, List.Pairwise Fields.Precedes
        ((if named then [(("Sid" : String) : Utf16)] else []) ++
          (["Effect", "Action", "Resource"] : List Utf16) ++
          (if conditional then [(("Condition" : String) : Utf16)] else [])) := by decide +kernel
    cases sid <;> cases condition
    · exact hkeys false false
    · exact hkeys false true
    · exact hkeys true false
    · exact hkeys true true
  case values =>
    refine List.forall_mem_append.2 ⟨List.forall_mem_append.2 ⟨?sid, ?fields⟩, ?condition⟩
    case sid =>
      cases sid with
      | none => simp
      | some sid => exact List.forall_mem_singleton.2 (ordered_str sid)
    case fields =>
      simp only [List.forall_mem_cons]
      exact ⟨ordered_str _, ordered_strs actions, ordered_strs resources, by simp⟩
    case condition =>
      cases condition with
      | none => simp
      | some c => exact List.forall_mem_singleton.2 (h c rfl).ordered

theorem ordered_document_toJson {d : Document} (h : d.Settled) : d.toJson.Ordered := by
  refine Json.ordered_obj_iff.2 ⟨Fields.ordered_iff_keys.2 ?keys, ?values⟩
  case keys =>
    show List.Pairwise _ [Utf16.ofString "Version", Utf16.ofString "Statement"]
    decide +kernel
  case values =>
    simp only [List.forall_mem_cons]
    refine ⟨ordered_str _, Json.ordered_arr_iff.2 ?_, by simp⟩
    intro value hvalue
    obtain ⟨s, hs, rfl⟩ := List.mem_map.1 hvalue
    exact ordered_statement_toJson (h.condition s hs)

/-! ## What a document is written as -/

def Condition.asWritten (c : Condition) : Condition :=
  c.map fun field => (field.1, Json.fieldsAsWritten field.2)

def Statement.asWritten (s : Statement) : Statement :=
  { s with condition := s.condition.map Condition.asWritten }

/-- The document that the text of a document stands for. -/
def Document.asWritten (d : Document) : Document :=
  { d with statements := d.statements.map Statement.asWritten }

theorem Condition.asWritten_toJson (c : Condition) : c.toJson.asWritten = c.asWritten.toJson := by
  rw [toJson_eq, Json.asWritten, Json.fieldsAsWritten_eq_map, List.map_map, toJson_eq, asWritten,
    List.map_map]
  simp only [Function.comp_def, Json.asWritten]

theorem strs_asWritten (l : List Utf16) : (Json.strs l).asWritten = Json.strs l := by
  rw [Json.strs, Json.asWritten, Json.itemsAsWritten_eq_map, List.map_map]
  rfl

theorem Statement.asWritten_toJson (s : Statement) : s.toJson.asWritten = s.asWritten.toJson := by
  obtain ⟨sid, effect, actions, resources, condition⟩ := s
  cases sid <;> cases condition <;>
    simp [toJson, asWritten, Json.asWritten, Json.fieldsAsWritten, strs_asWritten,
      Condition.asWritten_toJson]

theorem Document.asWritten_toJson (d : Document) : d.toJson.asWritten = d.asWritten.toJson := by
  simp [toJson, asWritten, Json.asWritten, Json.fieldsAsWritten, Json.itemsAsWritten_eq_map,
    Statement.asWritten_toJson]

theorem Condition.Settled.asWritten {c : Condition} (h : c.Settled) : c.asWritten.Settled := by
  constructor
  · rw [← Condition.asWritten_toJson]
    exact Json.ordered_of_read? (Json.read?_write h.ordered)
  · have hunreserved : c.asWritten.unreserved = c.unreserved.asWritten := by
      simp only [unreserved, Condition.asWritten, Json.fieldsAsWritten_eq_map, withoutReserved_map,
        List.map_map, Function.comp_def]
      exact withoutReserved_map
        (fun operands => (withoutReserved operands).map fun field => (field.1, field.2.asWritten)) c
    rw [hunreserved, h.unreserved_eq]

theorem Document.Settled.asWritten {d : Document} (h : d.Settled) : d.asWritten.Settled := by
  refine ⟨h.version_ne, fun written hwritten => ?_⟩
  obtain ⟨s, hs, rfl⟩ := List.mem_map.1 hwritten
  intro read hread
  obtain ⟨c, hc, rfl⟩ := Option.mem_map.1 hread
  exact (h.condition s hs c hc).asWritten

/-- The text of a settled document is read as the document as written. -/
theorem parse_document_text {d : Document} (h : d.Settled) : parse d.text = .ok d.asWritten := by
  refine parse_eq_ok_iff.2 ⟨d.asWritten.toJson, ?_, checkDocument_toJson h.asWritten⟩
  rw [← Document.asWritten_toJson]
  exact Json.read?_write (ordered_document_toJson h)

/-! ## What a document keeps -/

theorem Condition.asWritten_of_allFinite {c : Condition} (h : c.toJson.AllFinite) :
    c.asWritten = c := by
  have hoperands : ∀ field ∈ c, (field.1, Json.fieldsAsWritten field.2) = field := by
    intro field hfield
    have hfinite : (Json.obj field.2).AllFinite :=
      (Json.throughout_obj_iff.1 h).2 (field.1, .obj field.2) (List.mem_map_of_mem hfield)
    exact Prod.ext rfl (Json.obj.inj (Json.asWritten_of_allFinite hfinite))
  rw [asWritten, List.map_congr_left hoperands, List.map_id']

/-- A statement and what is left of it after writing and reading. -/
structure Kept (s later : Statement) : Prop where
  sid : later.sid = s.sid
  effect : later.effect = s.effect
  actions : later.actions = s.actions
  resources : later.resources = s.resources
  /-- A condition is kept when its numbers are finite, and the absence of one always. -/
  condition : (∀ c ∈ s.condition, c.toJson.AllFinite) → later.condition = s.condition

theorem kept_asWritten (s : Statement) : Kept s s.asWritten := by
  refine ⟨rfl, rfl, rfl, rfl, fun hfinite => ?_⟩
  show s.condition.map Condition.asWritten = s.condition
  cases hcondition : s.condition with
  | none => rfl
  | some c =>
      rw [Option.map_some, Condition.asWritten_of_allFinite (hfinite c hcondition)]

theorem text_asWritten (d : Document) : d.asWritten.text = d.text := by
  rw [Document.text, ← Document.asWritten_toJson, Json.write_asWritten, Document.text]

theorem decide_asWritten (d : Document) (action resource : Utf16) :
    d.asWritten.decide action resource = d.decide action resource := by
  have happlies (s : Statement) : s.asWritten.applies action resource = s.applies action resource :=
    rfl
  have heffect (s : Statement) : s.asWritten.effect = s.effect := rfl
  simp only [Document.decide, Document.asWritten, List.filter_map, List.map_map, Function.comp_def,
    happlies, heffect]

/-- **Written and read again.** A document that was read is read again from its text, with its
statements in their order; it decides as before and has the same text. -/
theorem parse_written {text : Utf16} {d : Document} (h : parse text = .ok d) :
    ∃ later, parse d.text = .ok later ∧
      later.version = d.version ∧
      List.Forall₂ Kept d.statements later.statements ∧
      (∀ action resource, later.decide action resource = d.decide action resource) ∧
      later.text = d.text := by
  refine ⟨d.asWritten, parse_document_text (settled_of_parse h), rfl, ?_, decide_asWritten d,
    text_asWritten d⟩
  exact List.forall₂_map_right_iff.2 (List.forall₂_same.2 fun s _ => kept_asWritten s)

/-- A lone statement and lone patterns become lists, an array index comes first among its keys, and
a number that is read as an infinity is written as `null`; after that nothing changes. Half of a
pair is kept, and escaped again. -/
theorem parse_written_lone :
    ∃ d, parse ("\x7b\"Version\":\"1\",\"Statement\":\x7b\"Sid\":\"\\uD83D\"," ++
        "\"Effect\":\"Deny\",\"Action\":\"a\",\"Resource\":\"\\n\"," ++
        "\"Condition\":\x7b\"N\":\x7b\"n\":0,\"7\":1e400\x7d\x7d\x7d\x7d" : String) = .ok d ∧
      d.text = "\x7b\"Version\":\"1\",\"Statement\":[\x7b\"Sid\":\"\\ud83d\"," ++
        "\"Effect\":\"Deny\",\"Action\":[\"a\"],\"Resource\":[\"\\n\"]," ++
        "\"Condition\":\x7b\"N\":\x7b\"7\":null,\"n\":0\x7d\x7d\x7d]\x7d" ∧
      ∃ later, parse d.text = .ok later ∧
        later.version = d.version ∧
        List.Forall₂ Kept d.statements later.statements ∧
        (∀ action resource, later.decide action resource = d.decide action resource) ∧
        later.text = d.text := by
  have hread {text : Utf16} {expected : String}
      (h : (parse text).toOption.map Document.text = some expected) :
      ∃ d, parse text = .ok d ∧ d.text = expected := by
    obtain ⟨d, hd, htext⟩ := Option.map_eq_some_iff.1 h
    exact ⟨d, toOption_eq_some_iff.1 hd, htext⟩
  refine (hread ?_).imp fun d h => ⟨h.1, h.2, parse_written h.1⟩
  decide +kernel

end TenantIam.Policy
