import TenantIam.Proofs.Authorization.Loading
import TenantIam.Proofs.Policy.Matching

/-!
# Who is allowed what

The answer to a request is determined by the caller, the reads of the plan and the statements that
match the request; no other path leads to it. In particular a failure is never turned into an
answer, and a refusal is never skipped on the way to a permission.
-/

namespace TenantIam

namespace Authorization

variable {config : Authorization} {source : PolicySource} {caller : Caller}
variable {action resource : String} {documents : List Policy.Document}

/-- **Permissions.** If a refusal anywhere wins, some statement has to allow the request and none
may deny it; if the first document that decides is final, that document has to have a statement
about the request, and none of its statements about the request may deny it. -/
def Grants (combining : CombiningRule) (documents : List Policy.Document)
    (action resource : String) : Prop :=
  match combining with
  | .denyOverrides =>
    (∃ d ∈ documents, ∃ s ∈ d.statements, s.Matches action resource ∧ s.effect = .allow) ∧
      ∀ d ∈ documents, ∀ s ∈ d.statements, s.Matches action resource → s.effect ≠ .deny
  | .firstMatch =>
    ∃ before d after, documents = before ++ d :: after ∧
      (∀ earlier ∈ before, ∀ s ∈ earlier.statements, ¬ s.Matches action resource) ∧
      (∃ s ∈ d.statements, s.Matches action resource) ∧
      ∀ s ∈ d.statements, s.Matches action resource → s.effect ≠ .deny

/-- Without a denial, having a statement about the request is having one that allows it. -/
theorem decide_eq_allow_iff_matches {d : Policy.Document} :
    d.decide action resource = some .allow ↔
      (∃ s ∈ d.statements, s.Matches action resource) ∧
        ∀ s ∈ d.statements, s.Matches action resource → s.effect ≠ .deny := by
  rw [Policy.Document.decide_eq_allow_iff]
  constructor
  · rintro ⟨⟨s, hs, hmatches, -⟩, hdeny⟩
    exact ⟨⟨s, hs, hmatches⟩, hdeny⟩
  · rintro ⟨⟨s, hs, hmatches⟩, hdeny⟩
    refine ⟨⟨s, hs, hmatches, ?_⟩, hdeny⟩
    cases heffect : s.effect with
    | allow => rfl
    | deny => exact absurd heffect (hdeny s hs hmatches)

/-- The loop that goes through all documents remembers whether one allowed and stops at the first
that denies. -/
theorem settle_denyOverrides_iff {allowed : Bool} :
    settle .denyOverrides action resource allowed documents = true ↔
      (allowed = true ∨ ∃ d ∈ documents, d.decide action resource = some .allow) ∧
        ∀ d ∈ documents, d.decide action resource ≠ some .deny := by
  induction documents generalizing allowed with
  | nil => simp [settle]
  | cons d documents ih =>
      unfold settle
      simp only [List.mem_cons, exists_eq_or_imp, forall_eq_or_imp]
      cases hdecide : d.decide action resource with
      | none => simp [ih]
      | some effect =>
          cases effect with
          | allow => simp [ih]
          | deny => simp

/-- The loop that stops at the first document that decides returns what that one says. -/
theorem settle_firstMatch_iff :
    settle .firstMatch action resource false documents = true ↔
      documents.findSome? (·.decide action resource) = some .allow := by
  induction documents with
  | nil => simp [settle]
  | cons d documents ih =>
      unfold settle
      rw [List.findSome?_cons]
      cases hdecide : d.decide action resource with
      | none => exact ih
      | some effect =>
          cases effect with
          | allow => simp
          | deny => simp

theorem settle_iff_grants {combining : CombiningRule} :
    settle combining action resource false documents = true ↔
      Grants combining documents action resource := by
  cases combining with
  | denyOverrides =>
      rw [settle_denyOverrides_iff]
      have hdeny : (∀ d ∈ documents, d.decide action resource ≠ some .deny) ↔
          ∀ d ∈ documents, ∀ s ∈ d.statements, s.Matches action resource → s.effect ≠ .deny := by
        simp only [ne_eq, Policy.Document.decide_eq_deny_iff, not_exists, not_and]
      rw [hdeny]
      unfold Grants
      constructor
      · rintro ⟨hallow, hnone⟩
        refine ⟨?_, hnone⟩
        rcases hallow with hfalse | ⟨d, hd, hdecide⟩
        · cases hfalse
        · exact ⟨d, hd, (Policy.Document.decide_eq_allow_iff.1 hdecide).1⟩
      · rintro ⟨⟨d, hd, hallow⟩, hnone⟩
        -- no document denies, so the one with the statement that allows is one that allows
        exact ⟨.inr ⟨d, hd, Policy.Document.decide_eq_allow_iff.2 ⟨hallow, hnone d hd⟩⟩, hnone⟩
  | firstMatch =>
      rw [settle_firstMatch_iff, List.findSome?_eq_some_iff]
      unfold Grants
      simp only [decide_eq_allow_iff_matches, Policy.Document.decide_eq_none_iff]
      constructor
      · rintro ⟨before, d, after, hdocuments, hd, hbefore⟩
        exact ⟨before, d, after, hdocuments, hbefore, hd⟩
      · rintro ⟨before, d, after, hdocuments, hbefore, hd⟩
        exact ⟨before, d, after, hdocuments, hd, hbefore⟩

theorem userOf_of_user (huser : caller.arn.resource.type = "user") :
    userOf caller = .ok caller.arn.resource.id := by
  unfold userOf
  rw [if_pos huser]

theorem userOf_of_ne_user (huser : caller.arn.resource.type ≠ "user") :
    userOf caller = .error (.callerNotUser caller.arn.resource.type caller.arn.text) := by
  unfold userOf
  rw [if_neg huser]

theorem authorize_root (hroot : caller.isRoot = true) :
    config.authorize source caller action resource =
      ⟨.ok true, [entry caller action resource true (some "root") []]⟩ :=
  if_pos hroot

theorem authorize_notUser (hroot : caller.isRoot = false)
    (huser : caller.arn.resource.type ≠ "user") :
    config.authorize source caller action resource =
      ⟨.error (.callerNotUser caller.arn.resource.type caller.arn.text), []⟩ := by
  unfold authorize
  rw [if_neg (by simp [hroot]), userOf_of_ne_user huser]

/-- A user's request is answered by what is loaded for that user, and the answer is reported after
all else. -/
theorem authorize_user (hroot : caller.isRoot = false)
    (huser : caller.arn.resource.type = "user") :
    let loaded := config.load source caller.arn.resource.id
    config.authorize source caller action resource =
      match loaded.value with
      | .error error => ⟨.error error, loaded.entries⟩
      | .ok documents =>
        let allowed := config.decide documents action resource
        ⟨.ok allowed, loaded.entries ++ [entry caller action resource allowed none
          [("mode", .str config.combining.text), ("policyCount", .nat documents.length)]]⟩ := by
  unfold authorize
  rw [if_neg (by simp [hroot])]
  cases hload : (config.load source caller.arn.resource.id).value <;>
    simp only [userOf_of_user huser, hload]

theorem value_authorize_root (hroot : caller.isRoot = true) :
    (config.authorize source caller action resource).value = .ok true := by
  rw [authorize_root hroot]

theorem value_authorize_notUser (hroot : caller.isRoot = false)
    (huser : caller.arn.resource.type ≠ "user") :
    (config.authorize source caller action resource).value =
      .error (.callerNotUser caller.arn.resource.type caller.arn.text) := by
  rw [authorize_notUser hroot huser]

theorem value_authorize_user (hroot : caller.isRoot = false)
    (huser : caller.arn.resource.type = "user") :
    (config.authorize source caller action resource).value =
      (config.load source caller.arn.resource.id).value.map fun documents =>
        config.decide documents action resource := by
  rw [authorize_user hroot huser]
  cases (config.load source caller.arn.resource.id).value <;> rfl

/-- A caller who is not the root gets an answer when it is a user whose documents can be loaded. -/
theorem value_authorize_eq_ok_iff {allowed : Bool} (hroot : caller.isRoot = false) :
    (config.authorize source caller action resource).value = .ok allowed ↔
      caller.arn.resource.type = "user" ∧
        ∃ documents, (config.load source caller.arn.resource.id).value = .ok documents ∧
          config.decide documents action resource = allowed := by
  by_cases huser : caller.arn.resource.type = "user"
  · rw [value_authorize_user hroot huser]
    cases (config.load source caller.arn.resource.id).value <;> simp [Except.map, huser]
  · rw [value_authorize_notUser hroot huser]
    simp [huser]

/-- **The answer to a request.** The root is allowed everything; another caller who is no user is
turned away. For a user, the request fails exactly when a read of the plan fails, with the first
such failure; when none fails, it is allowed exactly when the documents of the plan grant it. -/
theorem authorize_decides (config : Authorization) (source : PolicySource) (caller : Caller)
    (action resource : String) :
    let answer := (config.authorize source caller action resource).value
    let principal := caller.arn.resource.id
    (caller.isRoot = true → answer = .ok true) ∧
    (caller.isRoot = false → caller.arn.resource.type ≠ "user" →
      ∃ error message details, answer = .error error ∧
        error.failure = .fault (.invalidParameter message details)) ∧
    (caller.isRoot = false → caller.arn.resource.type = "user" →
      (∀ error, answer = .error error ↔
        ∃ before read after, source.plan principal = before ++ read :: after ∧
          (∀ earlier ∈ before, ∀ other, ¬ Fails config source principal earlier other) ∧
          Fails config source principal read error) ∧
      ((∀ read ∈ source.plan principal, ∀ error, ¬ Fails config source principal read error) →
        ∃ allowed, answer = .ok allowed ∧
          (allowed = true ↔
            Grants config.combining (source.documents principal) action resource))) := by
  intro answer principal
  refine ⟨fun hroot => value_authorize_root hroot, ?_, ?_⟩
  · intro hroot huser
    exact ⟨_, _, _, value_authorize_notUser hroot huser, rfl⟩
  · intro hroot huser
    have hanswer : answer = (config.load source principal).value.map fun documents =>
        config.decide documents action resource := value_authorize_user hroot huser
    refine ⟨?_, ?_⟩
    · intro error
      rw [hanswer, ← load_eq_error_iff]
      cases (config.load source principal).value <;> simp [Except.map]
    · intro hpasses
      obtain ⟨documents, hload⟩ := exists_load_eq_ok hpasses
      refine ⟨config.decide documents action resource, by rw [hanswer, hload]; rfl, ?_⟩
      unfold decide
      rw [settle_load hload, settle_iff_grants]

/-- The text of a policy with one statement, about one pattern of each kind. -/
def ruleText (effect : Policy.Effect) (action resource : String) : String :=
  "\x7b\"Version\":\"1\",\"Statement\":\x7b\"Effect\":\"" ++ effect.name ++
    "\",\"Action\":\"" ++ action ++ "\",\"Resource\":\"" ++ resource ++ "\"\x7d\x7d"

/-- A dangling attachment, an attached text that is no policy and an inline policy: whether the
inline policy is reached depends on how malformed texts are handled. -/
theorem authorize_decides_dangling :
    let store : PolicyStore :=
      { records := [{ arn := "b", name := "b", text := "\x7b" }]
        attachments := [{ principal := "ann", arn := "a" }, { principal := "ann", arn := "b" }]
        inlined := [{ principal := "ann", name := "own", text := ruleText .allow "a" "*" }] }
    let config (onMalformed : MalformedHandling) : Authorization :=
      { combining := .denyOverrides, onMalformed, defaultVersion := "1" }
    let parts (type : String) : ArnParts :=
      { service := .iam, tenantPath := ⟨[1], by decide⟩, instanceId := "i", mapping := none
        resource := { type, id := "ann" } }
    let caller (arn : Arn) (isRoot : Bool) : Caller :=
      { tenantPath := arn.tenantPath, instanceId := arn.instanceId, arn, isRoot, region := none
        session := none }
    let user : Arn := ⟨parts "user", by decide⟩
    let role : Arn := ⟨parts "role", by decide⟩
    let answer (onMalformed : MalformedHandling) (arn : Arn) (isRoot : Bool) :=
      ((config onMalformed).authorize store.source (caller arn isRoot) "a" "x").value
    answer .fail role true = .ok true ∧
      (∃ error message details, answer .ignore role false = .error error ∧
        error.failure = .fault (.invalidParameter message details)) ∧
      answer .ignore user false = .ok true ∧
      answer .fail user false = .error (.malformed "b" [.notJson]) := by
  intro store config parts caller user role answer
  have hbad : Policy.checkText ("\x7b" : String) = .error [.notJson] := by
    have hnone : Json.read? ("\x7b" : String) = none := by
      rw [← Option.isNone_iff_eq_none]
      decide +kernel
    unfold Policy.checkText
    rw [hnone]
  have hown : (store.source.documents "ann").map
      (fun d => d.statements.map fun s => (s.effect, s.actions, s.resources)) =
      [[(Policy.Effect.allow, ([("a" : String)] : List Utf16), (["*"] : List Utf16))]] := by
    decide +kernel
  refine ⟨(authorize_decides (config .fail) store.source (caller role true) "a" "x").1 rfl,
    (authorize_decides (config .ignore) store.source (caller role false) "a" "x").2.1 rfl
      (by decide), ?_, ?_⟩
  · obtain ⟨-, hanswer⟩ :=
      (authorize_decides (config .ignore) store.source (caller user false) "a" "x").2.2 rfl rfl
    -- the reads of a store work, and malformed texts are passed over
    have hpasses (read : PolicySource.Read) (error : Error) :
        ¬ Fails (config .ignore) store.source "ann" read error := by
      intro hfails
      cases hfails with
      | unavailable houtcome => cases read <;> cases houtcome
      | malformed hmode => cases hmode
    obtain ⟨allowed, hvalue, hallowed⟩ := hanswer fun read _ error => hpasses read error
    have hgrants : Grants .denyOverrides (store.source.documents "ann") "a" "x" := by
      obtain ⟨d, hdocuments, hd⟩ := List.map_eq_singleton_iff.1 hown
      obtain ⟨s, hstatements, hs⟩ := List.map_eq_singleton_iff.1 hd
      simp only [Prod.mk.injEq] at hs
      obtain ⟨heffect, hactions, hresources⟩ := hs
      have hmatches : s.Matches "a" "x" := by
        unfold Policy.Statement.Matches
        rw [hactions, hresources]
        exact ⟨⟨"a", by simp, by decide⟩, "*", by simp, by decide⟩
      rw [hdocuments]
      simp only [Grants, List.mem_singleton, exists_eq_left, forall_eq, hstatements, heffect]
      exact ⟨⟨hmatches, trivial⟩, fun _ hdeny => by cases hdeny⟩
    rw [hallowed.2 hgrants] at hvalue
    exact hvalue
  · obtain ⟨hfailure, -⟩ :=
      (authorize_decides (config .fail) store.source (caller user false) "a" "x").2.2 rfl rfl
    have hfails : Fails (config .fail) store.source "ann" (.policy "b")
        (.malformed (StoredPolicy.mk "b" "\x7b").source [.notJson]) := .malformed rfl rfl hbad
    refine (hfailure _).2 ⟨[.attached, .policy "a"], .policy "b", _, rfl, ?_, hfails⟩
    intro earlier hmem other
    rw [fails_iff]
    rcases List.mem_cons.1 hmem with rfl | hmem
    · simp [PolicySource.outcome, PolicyStore.source, Except.map, failure?]
    · rw [List.mem_singleton.1 hmem]
      simp [PolicySource.outcome, PolicyStore.source, Except.map, failure?, PolicyStore.policy?,
        store]

end Authorization

end TenantIam
