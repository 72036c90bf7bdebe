import TenantIam.Policy.PrincipalSimulation
import TenantIam.Proofs.Arn.RoundTrip
import TenantIam.Proofs.Authorization.Decision
import TenantIam.Proofs.Policy.Combining

/-!
# Simulations foretell answers

Authorization goes through the documents of a caller one after another; a simulation finds the user
again in a written resource name, collects the documents and evaluates them at once. Where denials
win and malformed texts are not passed over, the two fail together and say the same.
-/

namespace TenantIam

namespace Policy

/-- The written form of a resource name tells whether it is that of a user, and of which one. -/
theorem sourceUser_text (a : Arn) :
    sourceUser a.text =
      if a.resource.type = "user" then .ok a.resource.id
      else .error (.notUser a.resource.type a.text) := by
  unfold sourceUser
  rw [Arn.parse_text]
  rfl

/-- Without further texts, the documents of a simulation are those stored for the user. -/
theorem principalDocuments_eq_ok_iff {source : PolicySource} {a : Arn}
    {request : SimulationRequest} {documents : List Document} :
    principalDocuments source { request with sourceArn := a.text } = .ok documents ↔
      a.resource.type = "user" ∧ documentsOf (source.reads a.resource.id) = .ok documents := by
  have hextra : (parseAll []).mapError PrincipalError.malformed = .ok [] := rfl
  unfold principalDocuments
  dsimp only
  rw [sourceUser_text, hextra]
  by_cases huser : a.resource.type = "user"
  · rw [if_pos huser]
    show (documentsOf (source.reads a.resource.id) >>= fun stored => pure (stored ++ [])) =
      .ok documents ↔ _
    simp only [bind_eq_ok_iff, pure_eq_ok_iff, List.append_nil, huser, true_and,
      exists_eq_right]
  · rw [if_neg huser]
    constructor
    · intro h
      cases h
    · rintro ⟨h, -⟩
      exact absurd h huser

theorem value_simulatePrincipal_eq_ok_iff {source : PolicySource} {request : PrincipalRequest}
    {results : List SimulationResult} :
    (simulatePrincipal source request).value = .ok results ↔
      ∃ documents, principalDocuments source request = .ok documents ∧
        simulate documents request.toSimulationRequest = results := by
  unfold simulatePrincipal
  cases principalDocuments source request <;> simp

end Policy

namespace Authorization

variable {config : Authorization} {source : PolicySource} {caller : Caller}
variable {action resource : String} {documents : List Policy.Document}
variable {reads : List (Except String (Option StoredPolicy))}

/-- The loop that stops at the first denial allows what the documents allow as a whole. -/
theorem settle_denyOverrides_eq_allows :
    settle .denyOverrides action resource false documents =
      Policy.allows documents action resource := by
  rw [Bool.eq_iff_iff, settle_iff_grants, Policy.allows_iff, Policy.speaks_statementsOf_iff,
    Policy.speaks_statementsOf_iff]
  simp only [Grants, Policy.Speaks, not_exists, not_and, ne_eq]

/-- Where malformed texts are not passed over, both ways of collecting documents succeed on the same
reads, with the same documents. -/
theorem documentsOf_eq_ok_iff (hmode : config.onMalformed = .fail) :
    Policy.documentsOf reads = .ok documents ↔
      (config.loadReads reads).value = .ok documents := by
  induction reads generalizing documents with
  | nil => simp [Policy.documentsOf, loadReads]
  | cons read reads ih =>
      rcases read with message | _ | stored
      · constructor
        · intro h
          cases h
        · intro h
          cases h
      · exact ih
      · rw [value_loadReads_cons]
        cases hcheck : Policy.checkText stored.text with
        | error issues =>
            simp only [failure?, hcheck, hmode, Policy.documentsOf, Policy.parse, Policy.accepted]
            constructor
            · intro h
              cases h
            · intro h
              cases h
        | ok document =>
            have hparse : (Policy.parse stored.text).mapError Policy.PrincipalError.malformed =
                .ok document := by
              rw [Policy.parse, hcheck]
              rfl
            simp only [failure?, kept, hcheck, Policy.documentsOf, hparse]
            show (Policy.documentsOf reads >>= fun rest => pure (document :: rest)) =
              .ok documents ↔ _
            rw [bind_eq_ok_iff]
            simp only [ih, pure_eq_ok_iff]
            cases (config.loadReads reads).value <;> simp [Except.map]

/-- **Answers and simulations agree.** For a caller who is not the root, the answer to a request and
its simulation for the written resource name of the caller fail together; when they do not fail, the
one result of the simulation is `allowed` exactly when the answer is yes. -/
theorem authorize_agrees_simulatePrincipal (source : PolicySource) (caller : Caller)
    (defaultVersion action resource : String) (hroot : caller.isRoot = false) :
    let config : Authorization :=
      { combining := .denyOverrides, onMalformed := .fail, defaultVersion }
    let request : Policy.PrincipalRequest :=
      { sourceArn := caller.arn.text, actions := [action], resources := some [resource] }
    let answer := (config.authorize source caller action resource).value
    let simulated := (Policy.simulatePrincipal source request).value
    ((∃ error, answer = .error error) ↔ ∃ error, simulated = .error error) ∧
      ∀ allowed results, answer = .ok allowed → simulated = .ok results →
        ∃ result, results = [result] ∧ result.action = action ∧ result.resource = resource ∧
          (allowed = true ↔ result.allowed = true) := by
  intro config request answer simulated
  -- both succeed on the documents of the user, who is found again in the written resource name
  have hanswer (allowed : Bool) : answer = .ok allowed ↔
      caller.arn.resource.type = "user" ∧
        ∃ documents, Policy.documentsOf (source.reads caller.arn.resource.id) = .ok documents ∧
          Policy.allows documents action resource = allowed := by
    have hmode : config.onMalformed = .fail := rfl
    simp only [answer, value_authorize_eq_ok_iff hroot, load, documentsOf_eq_ok_iff hmode, decide,
      config, settle_denyOverrides_eq_allows]
  have hsimulated (results : List Policy.SimulationResult) : simulated = .ok results ↔
      caller.arn.resource.type = "user" ∧
        ∃ documents, Policy.documentsOf (source.reads caller.arn.resource.id) = .ok documents ∧
          [Policy.simulateOne documents action resource] = results := by
    simp only [simulated, Policy.value_simulatePrincipal_eq_ok_iff, request,
      Policy.principalDocuments_eq_ok_iff, and_assoc, exists_and_left]
    rfl
  constructor
  · rw [exists_error_iff, exists_error_iff, not_iff_not]
    simp only [hanswer, hsimulated, exists_and_left]
    constructor
    · rintro ⟨huser, _, documents, hdocuments, -⟩
      exact ⟨huser, _, documents, hdocuments, rfl⟩
    · rintro ⟨huser, _, documents, hdocuments, -⟩
      exact ⟨huser, _, documents, hdocuments, rfl⟩
  · intro allowed results hallowed hresults
    obtain ⟨-, documents, hdocuments, rfl⟩ := (hanswer allowed).1 hallowed
    obtain ⟨-, documents', hdocuments', rfl⟩ := (hsimulated results).1 hresults
    have hsame : documents = documents' := Except.ok.inj (hdocuments.symm.trans hdocuments')
    exact ⟨_, rfl, rfl, rfl, by rw [hsame]; rfl⟩

/-- A user whose name is full of separators and whose service hides a known one, with an attachment
that dangles, a managed policy that denies and an inline policy that allows. -/
theorem authorize_agrees_simulatePrincipal_separators :
    let store : PolicyStore :=
      { records :=
          [{ arn := "deny", name := "deny", text := ruleText .deny "s3:Put*" "*" }]
        attachments :=
          [{ principal := ":/a:b/", arn := "gone" }, { principal := ":/a:b/", arn := "deny" }]
        inlined :=
          [{ principal := ":/a:b/", name := "own", text := ruleText .allow "s3:*" "*" }] }
    let arn : Arn :=
      ⟨{ service := .custom "iam", tenantPath := ⟨[7, 12], by decide⟩, instanceId := "i/1"
         mapping := some (.of "aws" "1" (some "global"))
         resource := { type := "user", id := ":/a:b/" } }, by decide⟩
    let caller : Caller :=
      { tenantPath := arn.tenantPath, instanceId := arn.instanceId, arn, isRoot := false
        region := none, session := none }
    let config : Authorization :=
      { combining := .denyOverrides, onMalformed := .fail, defaultVersion := "1" }
    let answer (action : String) := (config.authorize store.source caller action "x").value
    let simulated (action : String) :=
      (Policy.simulatePrincipal store.source
        { sourceArn := arn.text, actions := [action], resources := some ["x"] }).value
    caller.isRoot = false ∧
      answer "s3:Get" = .ok true ∧
      (∃ result, simulated "s3:Get" = .ok [result] ∧ result.allowed = true) ∧
      answer "s3:Put" = .ok false ∧
      ∃ result, simulated "s3:Put" = .ok [result] ∧ result.allowed = false := by
  intro store arn caller config answer simulated
  have hforetold {action : String} {allowed : Bool} (h : answer action = .ok allowed) :
      ∃ result, simulated action = .ok [result] ∧ result.allowed = allowed := by
    obtain ⟨hfail, hsame⟩ :=
      authorize_agrees_simulatePrincipal store.source caller "1" action "x" rfl
    cases hsimulated : simulated action with
    | error error =>
        obtain ⟨other, hother⟩ := hfail.2 ⟨error, hsimulated⟩
        cases h.symm.trans hother
    | ok results =>
        obtain ⟨result, rfl, -, -, hallowed⟩ := hsame allowed results h hsimulated
        exact ⟨result, rfl, (Bool.eq_iff_iff.2 hallowed).symm⟩
  have hget : answer "s3:Get" = .ok true := toOption_eq_some_iff.1 (by decide +kernel)
  have hput : answer "s3:Put" = .ok false := toOption_eq_some_iff.1 (by decide +kernel)
  exact ⟨rfl, hget, hforetold hget, hput, hforetold hput⟩

end Authorization

end TenantIam
