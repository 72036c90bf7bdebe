import TenantIam.Proofs.Authorization.Decision
import TenantIam.Proofs.Success

/-!
# Decisions about one user

The answer to a user's request is made of what is stored for that user. What is stored for others,
and who the user is apart from the name, has no influence, so changes that are about others change
no answer.
-/

namespace TenantIam

/-- **Agreement.** Two sources have the same policies for a principal: they list the same
attachments and inline policies, and have the same record or text for each that is listed. What
they have for others is left open, and so are records that are not attached. -/
structure PolicySource.Agree (source source' : PolicySource) (principal : String) : Prop where
  attached_eq : source.attached principal = source'.attached principal
  policy_eq : ∀ arns, source.attached principal = .ok arns →
    ∀ arn ∈ arns, source.policy arn = source'.policy arn
  inlineNames_eq : source.inlineNames principal = source'.inlineNames principal
  inlineText_eq : ∀ names, source.inlineNames principal = .ok names →
    ∀ name ∈ names, source.inlineText principal name = source'.inlineText principal name

namespace PolicySource.Agree

variable {source source' : PolicySource} {principal : String}

theorem managedReads_eq (h : source.Agree source' principal) :
    source.managedReads principal = source'.managedReads principal := by
  unfold managedReads
  rw [← h.attached_eq]
  cases hattached : source.attached principal with
  | error message => rfl
  | ok arns =>
      apply List.map_congr_left
      intro arn harn
      rw [h.policy_eq arns hattached arn harn]

theorem inlineReads_eq (h : source.Agree source' principal) :
    source.inlineReads principal = source'.inlineReads principal := by
  unfold inlineReads
  rw [← h.inlineNames_eq]
  cases hnames : source.inlineNames principal with
  | error message => rfl
  | ok names =>
      apply List.map_congr_left
      intro name hname
      rw [h.inlineText_eq names hnames name hname]

theorem reads_eq (h : source.Agree source' principal) :
    source.reads principal = source'.reads principal := by
  unfold reads
  rw [h.managedReads_eq, h.inlineReads_eq]

end PolicySource.Agree

namespace PolicyStore

variable {s t u : PolicyStore} {principal : String} {operation : Operation}

/-- The change concerns neither the principal nor one of the resource names. -/
def Operation.IsForeign (principal : String) (arns : List String) : Operation → Prop
  | .create record => record.arn ∉ arns
  | .delete arn => arn ∉ arns
  | .attach attachment => attachment.principal ≠ principal
  | .detach attachment => attachment.principal ≠ principal
  | .putInline policy => policy.principal ≠ principal
  | .deleteInline other _ => other ≠ principal

/-- A store keeps what another has for a principal: the attachments with their records, and the
inline policies. -/
structure Keeps (s t : PolicyStore) (principal : String) : Prop where
  attached : t.attached principal = s.attached principal
  policy? : ∀ arn ∈ s.attached principal, t.policy? arn = s.policy? arn
  inlined : t.inlined.filter (·.principal = principal) = s.inlined.filter (·.principal = principal)

theorem Keeps.refl (s : PolicyStore) : s.Keeps s principal :=
  ⟨rfl, fun _ _ => rfl, rfl⟩

theorem Keeps.trans (h : s.Keeps t principal) (h' : t.Keeps u principal) :
    s.Keeps u principal where
  attached := h'.attached.trans h.attached
  policy? arn harn := by
    have harn' : arn ∈ t.attached principal := by rwa [h.attached]
    exact (h'.policy? arn harn').trans (h.policy? arn harn)
  inlined := h'.inlined.trans h.inlined

/-- The inline policy under a name is found among those of the principal. -/
theorem inline?_eq_find?_filter (s : PolicyStore) (principal name : String) :
    s.inline? principal name =
      (s.inlined.filter (·.principal = principal)).find? (·.name = name) := by
  rw [List.find?_filter]
  simp only [inline?, Bool.decide_and, decide_eq_true_eq]

theorem Keeps.agree (h : s.Keeps t principal) : s.source.Agree t.source principal where
  attached_eq := congrArg Except.ok h.attached.symm
  policy_eq arns harns arn harn := by
    cases harns
    exact congrArg Except.ok (h.policy? arn harn).symm
  inlineNames_eq := by
    simp only [source, inlineNames, h.inlined]
  inlineText_eq names _ name _ := by
    simp only [source, inline?_eq_find?_filter, h.inlined]

theorem filter_filter_of_imp {α : Type} {p q : α → Bool} {l : List α}
    (himp : ∀ a, q a = true → p a = true) : (l.filter p).filter q = l.filter q := by
  rw [List.filter_filter]
  apply List.filter_congr
  intro a _
  cases hq : q a with
  | false => rfl
  | true => rw [himp a hq, Bool.and_self]

/-- An inline policy is set without a trace among those of other principals. -/
theorem filter_withInline {policies : List InlinePolicy} {policy : InlinePolicy}
    (hother : policy.principal ≠ principal) :
    (withInline policies policy).filter (·.principal = principal) =
      policies.filter (·.principal = principal) := by
  unfold withInline
  split
  · let replace (p : InlinePolicy) : InlinePolicy :=
      if p.principal = policy.principal ∧ p.name = policy.name then policy else p
    show (policies.map replace).filter (·.principal = principal) = _
    have howner (p : InlinePolicy) : (replace p).principal = p.principal := by
      unfold replace
      split
      · next hsame => exact hsame.1.symm
      · rfl
    have hkept (p : InlinePolicy) (hp : p.principal = principal) : replace p = p := by
      apply if_neg
      rintro ⟨hsame, -⟩
      exact hother (hsame.symm.trans hp)
    calc (policies.map replace).filter (·.principal = principal)
        = (policies.filter (·.principal = principal)).map replace := by
          rw [List.filter_map]
          simp only [Function.comp_def, howner]
      _ = (policies.filter (·.principal = principal)).map id := by
          apply List.map_congr_left
          intro p hp
          exact hkept p (by simpa using (List.mem_filter.1 hp).2)
      _ = policies.filter (·.principal = principal) := List.map_id _
  · rw [List.filter_append, List.filter_cons_of_neg (by simpa using hother), List.filter_nil,
      List.append_nil]

/-- **One change about others.** Performed or refused, it keeps what is stored for the
principal. -/
theorem keeps_after (hforeign : operation.IsForeign principal (s.attached principal)) :
    s.Keeps (s.after operation) principal := by
  unfold after
  cases hperform : s.perform operation with
  | error refusal => exact .refl s
  | ok t =>
      cases operation with
      | create record =>
          simp only [perform] at hperform
          split at hperform
          · cases hperform
          · cases hperform
            -- the new record is none of those that the principal has
            refine ⟨rfl, fun arn harn => ?_, rfl⟩
            have hne : record.arn ≠ arn := fun h => hforeign (h ▸ harn)
            simp [policy?, List.find?_append, hne]
      | delete arn =>
          simp only [perform] at hperform
          split at hperform
          · cases hperform
            refine ⟨rfl, fun arn' harn' => ?_, rfl⟩
            have hne : arn' ≠ arn := fun h => hforeign (h ▸ harn')
            -- a record that is removed is passed over in the search anyway
            unfold policy?
            rw [List.find?_filter]
            congr 1
            funext r
            by_cases hr : r.arn = arn'
            · simp [hr, hne]
            · simp [hr]
          · cases hperform
      | attach attachment =>
          simp only [perform] at hperform
          split at hperform
          · cases hperform
            exact .refl s
          · cases hperform
            have hother : attachment.principal ≠ principal := hforeign
            have hattached : (s.attachments ++ [attachment]).filter (·.principal = principal) =
                s.attachments.filter (·.principal = principal) := by
              rw [List.filter_append, List.filter_cons_of_neg (by simpa using hother),
                List.filter_nil, List.append_nil]
            exact ⟨congrArg (List.map Attachment.arn) hattached, fun _ _ => rfl, rfl⟩
      | detach attachment =>
          simp only [perform] at hperform
          split at hperform
          · cases hperform
            have hattached :
                (s.attachments.filter (· ≠ attachment)).filter (·.principal = principal) =
                  s.attachments.filter (·.principal = principal) := by
              apply filter_filter_of_imp
              intro other hother
              simp only [decide_eq_true_eq] at hother ⊢
              exact fun h => hforeign (h ▸ hother)
            exact ⟨congrArg (List.map Attachment.arn) hattached, fun _ _ => rfl, rfl⟩
          · cases hperform
      | putInline policy =>
          cases hperform
          exact ⟨rfl, fun _ _ => rfl, filter_withInline hforeign⟩
      | deleteInline other name =>
          simp only [perform] at hperform
          split at hperform
          · cases hperform
            refine ⟨rfl, fun _ _ => rfl, ?_⟩
            apply filter_filter_of_imp
            intro p hp
            simp only [decide_eq_true_eq] at hp ⊢
            exact fun h => hforeign (h.1.symm.trans hp)
          · cases hperform

/-- **Changes about others.** Any number of them keep what is stored for the principal. -/
theorem keeps_run {operations : List Operation}
    (hforeign : ∀ operation ∈ operations, operation.IsForeign principal (s.attached principal)) :
    s.Keeps (s.run operations) principal := by
  induction operations generalizing s with
  | nil => exact .refl s
  | cons operation operations ih =>
      obtain ⟨hfirst, hrest⟩ := List.forall_mem_cons.1 hforeign
      have hkeeps : s.Keeps (s.after operation) principal := keeps_after hfirst
      -- the attachments are the same as before, so the other changes are still about others
      have hrest' : ∀ operation' ∈ operations,
          operation'.IsForeign principal ((s.after operation).attached principal) := by
        rw [hkeeps.attached]
        exact hrest
      exact hkeeps.trans (ih hrest')

end PolicyStore

def Caller.IsUser (caller : Caller) (principal : String) : Prop :=
  caller.isRoot = false ∧ caller.arn.resource = { type := "user", id := principal }

namespace Authorization

variable {config : Authorization} {source source' : PolicySource} {caller caller' : Caller}
variable {principal action resource : String}

/-- The request of a user is answered by what is read for the name. -/
theorem value_authorize_isUser (hcaller : caller.IsUser principal) :
    (config.authorize source caller action resource).value =
      (config.loadReads (source.reads principal)).value.map fun documents =>
        config.decide documents action resource := by
  obtain ⟨hroot, hresource⟩ := hcaller
  have huser : caller.arn.resource.type = "user" := by rw [hresource]
  have hid : caller.arn.resource.id = principal := by rw [hresource]
  rw [value_authorize_user hroot huser, hid]
  rfl

theorem value_authorize_congr (hagree : source.Agree source' principal)
    (hcaller : caller.IsUser principal) (hcaller' : caller'.IsUser principal) :
    (config.authorize source caller action resource).value =
      (config.authorize source' caller' action resource).value := by
  rw [value_authorize_isUser hcaller, value_authorize_isUser hcaller', hagree.reads_eq]

/-- **A user's own policies decide.** Sources that have the same policies for a user give the same
answers, whoever else that user is; and so do a store and the store after any changes that are about
others and about managed policies that are not attached to the user. -/
theorem authorize_isolated (config : Authorization) (principal action resource : String) :
    (∀ (source source' : PolicySource) (caller caller' : Caller),
      source.Agree source' principal → caller.IsUser principal → caller'.IsUser principal →
      (config.authorize source caller action resource).value =
        (config.authorize source' caller' action resource).value) ∧
    ∀ (s : PolicyStore) (operations : List PolicyStore.Operation) (caller caller' : Caller),
      (∀ operation ∈ operations, operation.IsForeign principal (s.attached principal)) →
      caller.IsUser principal → caller'.IsUser principal →
      (config.authorize (s.run operations).source caller action resource).value =
        (config.authorize s.source caller' action resource).value := by
  refine ⟨fun _ _ _ _ => value_authorize_congr, ?_⟩
  intro s operations caller caller' hforeign hcaller hcaller'
  have hkeeps : s.Keeps (s.run operations) principal := PolicyStore.keeps_run hforeign
  exact (value_authorize_congr hkeeps.agree hcaller' hcaller).symm

/-- Everything that can be changed is changed for `bob`, under the names that `ann` uses: `ann`,
with an attachment that dangles, a managed and an inline policy, gets the same answers as before,
from another instance of another tenant as well. -/
theorem authorize_isolated_crowd :
    let s : PolicyStore :=
      { records := [{ arn := "deny", name := "deny", text := ruleText .deny "s3:Put*" "*" }]
        attachments :=
          [{ principal := "ann", arn := "gone" }, { principal := "ann", arn := "deny" }]
        inlined := [{ principal := "ann", name := "own", text := ruleText .allow "s3:*" "*" }] }
    let operations : List PolicyStore.Operation :=
      [.putInline { principal := "bob", name := "own", text := "\x7b" },
        .create { arn := "other", name := "other", text := ruleText .deny "*" "*" },
        .attach { principal := "bob", arn := "deny" },
        .attach { principal := "bob", arn := "other" },
        .detach { principal := "bob", arn := "deny" }, .delete "other", .deleteInline "bob" "own"]
    let parts (tenantPath : TenantPath) (instanceId : String) : ArnParts :=
      { service := .iam, tenantPath, instanceId, mapping := none
        resource := { type := "user", id := "ann" } }
    let caller (arn : Arn) : Caller :=
      { tenantPath := arn.tenantPath, instanceId := arn.instanceId, arn, isRoot := false
        region := none, session := none }
    let here : Arn := ⟨parts ⟨[1], by decide⟩ "i", by decide⟩
    let there : Arn := ⟨parts ⟨[7, 12], by decide⟩ "j/2", by decide⟩
    let config : Authorization :=
      { combining := .denyOverrides, onMalformed := .fail, defaultVersion := "1" }
    let answer (source : PolicySource) (arn : Arn) (action : String) :=
      (config.authorize source (caller arn) action "x").value
    (∀ operation ∈ operations, operation.IsForeign "ann" (s.attached "ann")) ∧
      (s.run operations).attached "bob" = ["other"] ∧
      answer s.source here "s3:Get" = .ok true ∧
      answer s.source there "s3:Get" = .ok true ∧
      answer (s.run operations).source there "s3:Get" = .ok true ∧
      answer (s.run operations).source there "s3:Put" = .ok false := by
  intro s operations parts caller here there config answer
  have hforeign : ∀ operation ∈ operations, operation.IsForeign "ann" (s.attached "ann") := by
    simp only [operations, List.forall_mem_cons, List.not_mem_nil, false_implies, implies_true,
      and_true, PolicyStore.Operation.IsForeign]
    decide
  have hget : answer s.source here "s3:Get" = .ok true :=
    toOption_eq_some_iff.1 (by decide +kernel)
  have hput : answer s.source here "s3:Put" = .ok false :=
    toOption_eq_some_iff.1 (by decide +kernel)
  obtain ⟨hagree, -⟩ := authorize_isolated config "ann" "s3:Get" "x"
  obtain ⟨-, hrunGet⟩ := authorize_isolated config "ann" "s3:Get" "x"
  obtain ⟨-, hrunPut⟩ := authorize_isolated config "ann" "s3:Put" "x"
  refine ⟨hforeign, by decide +kernel, hget, ?_, ?_, ?_⟩
  · exact (hagree s.source s.source (caller there) (caller here) (PolicyStore.Keeps.refl s).agree
      ⟨rfl, rfl⟩ ⟨rfl, rfl⟩).trans hget
  · exact (hrunGet s operations (caller there) (caller here) hforeign ⟨rfl, rfl⟩ ⟨rfl, rfl⟩).trans
      hget
  · exact (hrunPut s operations (caller there) (caller here) hforeign ⟨rfl, rfl⟩ ⟨rfl, rfl⟩).trans
      hput

end Authorization

end TenantIam
