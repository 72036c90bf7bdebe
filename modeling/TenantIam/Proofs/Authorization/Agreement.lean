import TenantIam.Proofs.Authorization.Isolation
import TenantIam.Proofs.Authorization.Simulation
import TenantIam.Proofs.Policy.Storing
import TenantIam.Proofs.Tenant.Grants

/-!
# Permissions on tenants are answers

What a principal may do with a tenant is said by a list of texts or by what is stored for the user.
The one passes over malformed texts, the other has an empty document stand in for them and meets
the documents in the order of the store. Where denials win, neither makes a difference.
-/

namespace TenantIam

namespace Policy

def isWellFormed (text : String) : Bool :=
  (checkText text).toOption.isSome

theorem filterMap_checkText_filter (texts : List String) :
    (texts.filter isWellFormed).filterMap (fun text : String => (checkText text).toOption) =
      texts.filterMap fun text : String => (checkText text).toOption := by
  rw [List.filterMap_filter]
  apply List.filterMap_congr
  intro text _
  unfold isWellFormed
  cases (checkText text).toOption <;> rfl

end Policy

/-- What is read from a store brings the documents of the stored texts. -/
theorem PolicyStore.filterMap_reads (s : PolicyStore) (principal : String) :
    (s.source.reads principal).filterMap PolicySource.document? =
      (s.texts principal).filterMap fun text : String => (Policy.checkText text).toOption := by
  have hmanaged : (s.source.managedReads principal).filterMap PolicySource.document? =
      ((s.attached principal).filterMap fun arn => (s.policy? arn).map (·.text)).filterMap
        fun text : String => (Policy.checkText text).toOption := by
    simp only [PolicySource.managedReads, source, List.filterMap_map, List.filterMap_filterMap]
    apply List.filterMap_congr
    intro arn _
    cases hrecord : s.policy? arn <;> simp [PolicySource.document?, Except.map, hrecord]
  have hinline : (s.source.inlineReads principal).filterMap PolicySource.document? =
      ((s.inlineNames principal).filterMap fun name =>
        (s.inline? principal name).map (·.text)).filterMap
          fun text : String => (Policy.checkText text).toOption := by
    simp only [PolicySource.inlineReads, source, List.filterMap_map, List.filterMap_filterMap]
    apply List.filterMap_congr
    intro name _
    cases hpolicy : s.inline? principal name <;>
      simp [PolicySource.document?, Except.map, hpolicy]
  rw [PolicySource.reads, List.filterMap_append, hmanaged, hinline, texts, List.filterMap_append]

namespace Authorization

variable {config : Authorization} {s : PolicyStore} {caller : Caller}
variable {principal action resource : String}

/-- A store's reads work, so where malformed texts are passed over the documents are loaded. -/
theorem exists_loadReads_source (s : PolicyStore) (principal : String)
    (hignore : config.onMalformed = .ignore) :
    ∃ documents, (config.loadReads (s.source.reads principal)).value = .ok documents := by
  cases hload : (config.loadReads (s.source.reads principal)).value with
  | ok documents => exact ⟨documents, rfl⟩
  | error error =>
      obtain ⟨before, read, after, hreads, hfailure, -⟩ :=
        List.findSome?_eq_some_iff.1 (loadReads_eq_error_iff.1 hload)
      have hmem : read ∈ s.source.reads principal := by simp [hreads]
      obtain ⟨stored, rfl⟩ : ∃ stored, read = .ok stored := by
        simp only [PolicySource.reads, PolicySource.managedReads, PolicySource.inlineReads,
          PolicyStore.source, List.mem_append, List.mem_map] at hmem
        obtain ⟨_, -, rfl⟩ | ⟨_, -, rfl⟩ := hmem <;> exact ⟨_, rfl⟩
      cases stored with
      | none => cases hfailure
      | some stored =>
          unfold failure? at hfailure
          cases hcheck : Policy.checkText stored.text <;> simp [hcheck, hignore] at hfailure

/-- **Malformed texts decide nothing.** Where denials win and malformed texts are passed over, a
user is answered, and is allowed what the well-formed texts that are stored allow. -/
theorem value_authorize_ignore (hcombining : config.combining = .denyOverrides)
    (hignore : config.onMalformed = .ignore) (hcaller : caller.IsUser principal) :
    (config.authorize s.source caller action resource).value =
      .ok (Policy.allows
        ((s.texts principal).filterMap fun text : String => (Policy.checkText text).toOption)
        action resource) := by
  obtain ⟨documents, hload⟩ := exists_loadReads_source s principal hignore
  rw [value_authorize_isUser hcaller, hload]
  show Except.ok (settle config.combining action resource false documents) = _
  rw [settle_loadReads hload, hcombining, settle_denyOverrides_eq_allows,
    PolicyStore.filterMap_reads]

/-- **Permissions on tenants are answers.** Take any texts, well formed or not, and a user for whom
they are stored: what the texts permit on a tenant is what the user is allowed on its resource name,
where denials win and malformed texts are passed over. Any store that has the texts for the user
will do, so they may be stored in any order, and divided in any way between attached and inline
policies under different names. The malformed among them can be left out on either side. -/
theorem authorize_agrees_permits (principal recorded defaultVersion : String) (id : TenantId)
    (requested : TenantAction) :
    let config : Authorization :=
      { combining := .denyOverrides, onMalformed := .ignore, defaultVersion }
    let permitted (texts : List String) : Bool :=
      ((TenantGrants.ofTexts texts).value.permits recorded id.text requested.name).value
    let answer (s : PolicyStore) (caller : Caller) : Except Error Bool :=
      (config.authorize s.source caller requested.name (tenantArn id.text)).value
    (∀ (texts : List String) (s : PolicyStore) (caller : Caller), caller.IsUser principal →
      (s.texts principal).Perm texts → answer s caller = .ok (permitted texts)) ∧
    (∀ (texts : List String) (managed : List ManagedPolicy) (inlined : List InlinePolicy)
      (operations : List PolicyStore.Operation) (caller : Caller), caller.IsUser principal →
      (managed.map (·.arn)).Nodup → (inlined.map (·.name)).Nodup →
      (∀ p ∈ inlined, p.principal = principal) →
      texts.Perm (managed.map (·.text) ++ inlined.map (·.text)) →
      operations.Perm (PolicyStore.storing principal managed inlined) →
      answer (({} : PolicyStore).run operations) caller = .ok (permitted texts)) ∧
    (∀ texts : List String, permitted (texts.filter Policy.isWellFormed) = permitted texts) ∧
    ∀ (texts : List String) (s s' : PolicyStore) (caller : Caller), caller.IsUser principal →
      (s.texts principal).Perm texts →
      (s'.texts principal).Perm (texts.filter Policy.isWellFormed) →
      answer s' caller = answer s caller := by
  intro config permitted answer
  have hpermitted (texts : List String) : permitted texts =
      Policy.allows (texts.filterMap fun text : String => (Policy.checkText text).toOption)
        requested.name (tenantArn id.text) := by
    show Policy.allows (TenantGrants.readTexts 0 texts).value _ _ = _
    rw [TenantGrants.value_readTexts]
  have hanswer (texts : List String) (s : PolicyStore) (caller : Caller)
      (hcaller : caller.IsUser principal) (hstored : (s.texts principal).Perm texts) :
      answer s caller = .ok (permitted texts) := by
    rw [hpermitted, ← Policy.allows_perm (hstored.filterMap _)]
    exact value_authorize_ignore rfl rfl hcaller
  have hfilter (texts : List String) :
      permitted (texts.filter Policy.isWellFormed) = permitted texts := by
    rw [hpermitted, hpermitted, Policy.filterMap_checkText_filter]
  refine ⟨hanswer, ?_, hfilter, ?_⟩
  · intro texts managed inlined operations caller hcaller hmanaged hinlined howner htexts hstoring
    have hstored := PolicyStore.texts_run_perm hmanaged hinlined howner hstoring
    exact hanswer texts _ caller hcaller (hstored.trans htexts.symm)
  · intro texts s s' caller hcaller hstored hstored'
    rw [hanswer _ s caller hcaller hstored, hanswer _ s' caller hcaller hstored', hfilter]

/-- A text that is no policy, one that allows everything about tenants and one that denies deleting
them, stored from the last to the first, so that policies are attached before there are any: the
user may read the tenant and not delete it, with the text that is no policy and without it. -/
theorem authorize_agrees_permits_backwards :
    let grantsAll := ruleText .allow "tenant:*" "*"
    let deniesOne := ruleText .deny "tenant:Delete" "*"
    let texts : List String := ["\x7b", grantsAll, deniesOne]
    let managed : List ManagedPolicy :=
      [{ arn := "deny", name := "deny", text := deniesOne },
        { arn := "broken", name := "broken", text := "\x7b" }]
    let inlined : List InlinePolicy :=
      [{ principal := "ann", name := "own", text := grantsAll }]
    let s : PolicyStore :=
      ({} : PolicyStore).run (PolicyStore.storing "ann" managed inlined).reverse
    let repaired : PolicyStore := s.after (.detach { principal := "ann", arn := "broken" })
    let id : TenantId := ⟨"r/a", by decide⟩
    let arn : Arn :=
      ⟨{ service := .iam, tenantPath := ⟨[1], by decide⟩, instanceId := "i", mapping := none
         resource := { type := "user", id := "ann" } }, by decide⟩
    let caller : Caller :=
      { tenantPath := arn.tenantPath, instanceId := arn.instanceId, arn, isRoot := false
        region := none, session := none }
    let config : Authorization :=
      { combining := .denyOverrides, onMalformed := .ignore, defaultVersion := "1" }
    let permitted (texts : List String) (requested : TenantAction) : Bool :=
      ((TenantGrants.ofTexts texts).value.permits "p" id.text requested.name).value
    let answer (s : PolicyStore) (requested : TenantAction) : Except Error Bool :=
      (config.authorize s.source caller requested.name (tenantArn id.text)).value
    caller.IsUser "ann" ∧ (s.texts "ann").Perm texts ∧
      (repaired.texts "ann").Perm (texts.filter Policy.isWellFormed) ∧
      permitted texts .read = true ∧ answer s .read = .ok true ∧
      permitted texts .delete = false ∧ answer s .delete = .ok false ∧
      permitted (texts.filter Policy.isWellFormed) .delete = false ∧
      answer repaired .delete = .ok false := by
  intro grantsAll deniesOne texts managed inlined s repaired id arn caller config permitted answer
  have hcaller : caller.IsUser "ann" := ⟨rfl, rfl⟩
  have htexts : texts.Perm (managed.map (·.text) ++ inlined.map (·.text)) := by decide +kernel
  have hrepaired : (repaired.texts "ann").Perm (texts.filter Policy.isWellFormed) := by
    decide +kernel
  have hread : permitted texts .read = true := by decide +kernel
  have hdelete : permitted texts .delete = false := by decide +kernel
  have hagree (requested : TenantAction) := authorize_agrees_permits "ann" "p" "1" id requested
  have hstored (requested : TenantAction) : answer s requested = .ok (permitted texts requested) :=
    (hagree requested).2.1 texts managed inlined _ caller hcaller (by decide) (by decide)
      (by decide) htexts (List.reverse_perm _)
  have hs : (s.texts "ann").Perm texts := by decide +kernel
  have hdenied : answer s .delete = .ok false := by rw [hstored, hdelete]
  refine ⟨hcaller, hs, hrepaired, hread, by rw [hstored, hread], hdelete, hdenied, ?_, ?_⟩
  · exact ((hagree .delete).2.2.1 texts).trans hdelete
  · exact ((hagree .delete).2.2.2 texts s repaired caller hcaller hs hrepaired).trans hdenied

end Authorization

end TenantIam
