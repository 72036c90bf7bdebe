import TenantIam.Proofs.Pattern.Stars
import TenantIam.Proofs.Policy.Combining
import TenantIam.Proofs.Policy.Serialization
import TenantIam.Proofs.Tenant.Lineage
import TenantIam.Tenant.Name
import TenantIam.Tenant.Permission

/-!
# What the standard policies grant

The standard policies are texts that are read again before they are applied. Their patterns are
identifiers, as they stand or with a slash and a star after them, so what they match is a tenant or
the tenants below it.
-/

namespace TenantIam

open Policy

variable {action : String} {value : Json} {resources : List Utf16}

/-! ## The text of a grant -/

/-- The document with one statement, which allows an action on resources. -/
def grant (action : Utf16) (resources : List Utf16) : Document where
  version := "2012-10-17"
  statements :=
    [{ sid := none, effect := .allow, actions := [action], resources, condition := none }]

/-- The text of a grant is read as the document, whatever letters the patterns hold. -/
theorem parse_grantText (hordered : value.Ordered) (hwritten : value.asWritten = value)
    (hpatterns : ∀ path, checkPatterns path (some value) = .ok resources) :
    parse (grantText action value) = .ok (grant action resources) := by
  let statement : Json := .obj
    [("Effect", .str "Allow"), ("Action", .str action), ("Resource", value)]
  let written : Json := .obj [("Version", .str "2012-10-17"), ("Statement", .arr [statement])]
  have hstatement : statement.Ordered := by
    refine Json.ordered_obj_iff.2 ⟨Fields.ordered_iff_keys.2 ?_, ?_⟩
    · show List.Pairwise _ (["Effect", "Action", "Resource"] : List Utf16)
      decide +kernel
    · simp only [List.forall_mem_cons]
      exact ⟨ordered_str _, ordered_str _, hordered, by simp⟩
  have hdocument : written.Ordered := by
    refine Json.ordered_obj_iff.2 ⟨Fields.ordered_iff_keys.2 ?_, ?_⟩
    · show List.Pairwise _ (["Version", "Statement"] : List Utf16)
      decide +kernel
    · simp only [List.forall_mem_cons]
      have hstatements : (Json.arr [statement]).Ordered :=
        Json.ordered_arr_iff.2 (List.forall_mem_singleton.2 hstatement)
      exact ⟨ordered_str _, hstatements, by simp⟩
  have hkept : written.asWritten = written := by
    simp [written, statement, Json.asWritten, Json.fieldsAsWritten, Json.itemsAsWritten, hwritten]
  have hread : Json.read? (grantText action value) = some written := by
    rw [← hkept]
    exact Json.read?_write hdocument
  refine parse_eq_ok_iff.2 ⟨written, hread, checkDocument_eq_ok_iff.2 ⟨rfl, ?_⟩⟩
  have hcheck : checkStatement ["Statement", "0"] statement =
      .ok { sid := none, effect := .allow, actions := [action], resources, condition := none } :=
    checkStatement_eq_ok_iff.2 ⟨rfl, rfl, rfl, hpatterns _, rfl⟩
  show Checked.collect [checkStatement ["Statement", "0"] statement] = _
  rw [Checked.collect_eq_ok_iff]
  exact .cons hcheck .nil

theorem parse_adminPolicy (id : String) :
    parse (adminPolicy id) =
      .ok (grant TenantAction.all.name [tenantArn id, (tenantArn id ++ "/*" : String)]) :=
  parse_grantText (ordered_strs _) (strs_asWritten _) fun path => checkPatterns_strs path _

theorem parse_readonlyPolicy (id : String) :
    parse (readonlyPolicy id) = .ok (grant TenantAction.read.name [tenantArn id]) :=
  parse_grantText (ordered_str _) rfl fun _ => rfl

/-! ## What a grant permits -/

theorem allows_grant_iff {action : Utf16} {requested resource : Utf16} :
    allows [grant action resources] requested resource = true ↔
      Wildcard.covers action requested = true ∧
        ∃ p ∈ resources, Wildcard.covers p resource = true := by
  rw [allows_iff]
  simp [statementsOf, grant, Speaks, Statement.Matches]

namespace TenantGrants

/-- The documents of texts are those of the well-formed ones, in their order. -/
theorem value_readTexts (index : Nat) (texts : List String) :
    (readTexts index texts).value =
      texts.filterMap fun text : String => (checkText text).toOption := by
  induction texts generalizing index with
  | nil => rfl
  | cons text texts ih =>
      rw [List.filterMap_cons, ← ih (index + 1)]
      cases hcheck : checkText text <;> simp [readTexts, hcheck, Except.toOption]

/-- A text that is read is the one policy of the principal. -/
theorem documents_ofTexts {text : String} {d : Document} (h : parse text = .ok d) :
    (ofTexts [text]).value.documents = [d] := by
  have hcheck : checkText text = .ok d := mapError_eq_ok_iff.1 h
  show (readTexts 0 [text]).value = [d]
  simp [value_readTexts, hcheck, Except.toOption]

theorem permits_grant_iff {action text principal id requested : String}
    (h : parse text = .ok (grant action resources)) :
    ((ofTexts [text]).value.permits principal id requested).value = true ↔
      Wildcard.covers action requested = true ∧
        ∃ p ∈ resources, Wildcard.covers p (tenantArn id) = true := by
  show allows (ofTexts [text]).value.documents requested (tenantArn id) = true ↔ _
  rw [documents_ofTexts h, allows_grant_iff]

end TenantGrants

/-! ## Patterns for tenants -/

section Patterns

variable {id t : TenantId}

theorem covers_all (requested : TenantAction) :
    Wildcard.covers TenantAction.all.name requested.name = true := by
  cases requested <;> decide

theorem covers_read_iff {requested : TenantAction} :
    Wildcard.covers TenantAction.read.name requested.name = true ↔ requested = .read := by
  cases requested <;> decide

theorem toList_tenantArn (text : String) :
    (tenantArn text).toList = "arn:wami:tenant::".toList ++ text.toList :=
  String.toList_append

theorem star_not_mem_tenantArn {text : String} (hstar : '*' ∉ text.toList) :
    '*' ∉ (tenantArn text).toList := by
  have hfree : '*' ∉ "arn:wami:tenant::".toList := by decide
  rw [toList_tenantArn, List.mem_append, not_or]
  exact ⟨hfree, hstar⟩

theorem covers_tenantArn_iff (hstar : '*' ∉ id.text.toList) :
    Wildcard.covers (tenantArn id.text) (tenantArn t.text) = true ↔ t = id := by
  rw [Wildcard.covers_iff_eq (star_not_mem_tenantArn hstar), ← String.toList_inj,
    toList_tenantArn, toList_tenantArn, List.append_right_inj, String.toList_inj]
  constructor
  · intro htext
    exact TenantId.eq_of_text_eq htext.symm
  · rintro rfl
    rfl

/-- The pattern with a slash and a star is about the tenants below. -/
theorem covers_tenantArn_slash_iff (hstar : '*' ∉ id.text.toList) :
    Wildcard.covers (tenantArn id.text ++ "/*" : String) (tenantArn t.text) = true ↔
      t.isBelow id = true := by
  have hending : tenantArn id.text ++ "/*" = tenantArn (id.text ++ "/") ++ "*" := by
    apply String.toList_inj.1
    simp [toList_tenantArn]
  have hfree : '*' ∉ (id.text ++ "/").toList := by simp [hstar]
  rw [hending, Wildcard.covers_append_star_iff (star_not_mem_tenantArn hfree), TenantId.isBelow,
    List.isPrefixOf_iff_prefix, toList_tenantArn, toList_tenantArn, List.prefix_append_right_inj]

end Patterns

namespace TenantGrants

theorem not_admits_star : TenantName.admits '*' = false := by decide +kernel

/-- **The standard policies grant exactly their scope.** For an identifier without a star, which is
what new tenants get below such a one, both texts are read; control reaches the tenant and those
below it, whatever the action, and reading reaches the tenant alone. -/
theorem permits_standard (id : TenantId) (hstar : '*' ∉ id.text.toList) :
    (∀ name : TenantName, '*' ∉ (id.child name.segment).text.toList) ∧
    (∃ d, parse (adminPolicy id.text) = .ok d) ∧
    (∃ d, parse (readonlyPolicy id.text) = .ok d) ∧
    ∀ (principal : String) (t : TenantId) (requested : TenantAction),
      (((ofTexts [adminPolicy id.text]).value.permits principal t.text requested.name).value =
          true ↔
        t = id ∨ t.isBelow id = true) ∧
      (((ofTexts [readonlyPolicy id.text]).value.permits principal t.text requested.name).value =
          true ↔
        t = id ∧ requested = .read) := by
  refine ⟨?_, ⟨_, parse_adminPolicy _⟩, ⟨_, parse_readonlyPolicy _⟩, ?_⟩
  · intro name hmem
    have hname : '*' ∈ name.text.toList := by
      simpa [TenantId.child, TenantName.segment, hstar] using hmem
    have hadmits := (TenantName.flaw?_eq_none_iff.1 name.valid).2.2 '*' hname
    rw [not_admits_star] at hadmits
    cases hadmits
  · intro principal t requested
    rw [permits_grant_iff (parse_adminPolicy _), permits_grant_iff (parse_readonlyPolicy _)]
    simp only [List.mem_cons, List.not_mem_nil, or_false, exists_eq_or_imp, exists_eq_left,
      covers_all, covers_read_iff, covers_tenantArn_iff hstar, covers_tenantArn_slash_iff hstar,
      true_and]
    exact And.comm

/-- An identifier with a quote, a backslash and a control character, a tenant below it, a sibling
whose identifier starts the same way, and the tenant above. -/
theorem permits_standard_quoted :
    let id : TenantId := ⟨"r/a\"\\\n\x01", by decide⟩
    let below : TenantId := ⟨"r/a\"\\\n\x01/*", by decide⟩
    let sibling : TenantId := ⟨"r/a\"\\\n\x012", by decide⟩
    let above : TenantId := ⟨"r", by decide⟩
    let admin (t : TenantId) (requested : TenantAction) :=
      ((ofTexts [adminPolicy id.text]).value.permits "p" t.text requested.name).value
    let reader (t : TenantId) (requested : TenantAction) :=
      ((ofTexts [readonlyPolicy id.text]).value.permits "p" t.text requested.name).value
    '*' ∉ id.text.toList ∧
      admin id .delete = true ∧ admin below .all = true ∧
      admin sibling .read = false ∧ admin above .read = false ∧
      reader id .read = true ∧ reader id .all = false ∧ reader below .read = false := by
  intro id below sibling above admin reader
  have hstar : '*' ∉ id.text.toList := by decide
  obtain ⟨-, -, -, hpermits⟩ := permits_standard id hstar
  have hadmin (t : TenantId) (requested : TenantAction) :
      admin t requested = decide (t = id ∨ t.isBelow id = true) := by
    rw [Bool.eq_iff_iff, decide_eq_true_iff]
    exact (hpermits "p" t requested).1
  have hreader (t : TenantId) (requested : TenantAction) :
      reader t requested = decide (t = id ∧ requested = .read) := by
    rw [Bool.eq_iff_iff, decide_eq_true_iff]
    exact (hpermits "p" t requested).2
  rw [hadmin, hadmin, hadmin, hadmin, hreader, hreader, hreader]
  decide

end TenantGrants

end TenantIam
