import TenantIam.Proofs.Policy.History

/-!
# A policy store and its history

A store does not keep its history, but what it holds can be read off it: the attachments and the
names of the inline policies are those that the changes left, in the order in which they came, and a
policy is found when the last change of it added it.
-/

namespace TenantIam.PolicyStore

variable {s t : PolicyStore} {done : List Operation} {operation : Operation}

/-! ## Names of things -/

namespace Subject

def attachment? : Subject → Option Attachment
  | .attached attachment => some attachment
  | _ => none

/-- Principal and name of the inline policy that a thing is. -/
def inlineKey? : Subject → Option (String × String)
  | .inlined principal name => some (principal, name)
  | _ => none

/-- The resource name that a thing attaches to a principal. -/
def arnFor? (principal : String) : Subject → Option String
  | .attached attachment => if attachment.principal = principal then some attachment.arn else none
  | _ => none

/-- The name of the inline policy of a principal that a thing is. -/
def nameFor? (principal : String) : Subject → Option String
  | .inlined owner name => if owner = principal then some name else none
  | _ => none

theorem names_attachment? : Names attachment? .attached := by
  intro x a
  cases x <;> simp [attachment?]

theorem names_inlineKey? : Names inlineKey? fun key => .inlined key.1 key.2 := by
  intro x key
  cases x <;> simp [inlineKey?, Prod.ext_iff]

theorem names_arnFor? (principal : String) :
    Names (arnFor? principal) fun arn => .attached ⟨principal, arn⟩ := by
  intro x arn
  rcases x with _ | ⟨owner, own⟩ | _
  · simp [arnFor?]
  · simp [arnFor?]
  · simp [arnFor?]

theorem names_nameFor? (principal : String) : Names (nameFor? principal) (.inlined principal) := by
  intro x name
  cases x <;> simp [nameFor?]

end Subject

def inlineKeys (s : PolicyStore) : List (String × String) :=
  s.inlined.map fun p => (p.principal, p.name)

/-! ## One change, part by part -/

/-- What a change makes of the store when it is not refused. -/
def changed (s : PolicyStore) : Operation → PolicyStore
  | .create record => { s with records := s.records ++ [record] }
  | .delete arn => { s with records := s.records.filter (·.arn ≠ arn) }
  | .attach a =>
    { s with attachments := if a ∈ s.attachments then s.attachments else s.attachments ++ [a] }
  | .detach a => { s with attachments := s.attachments.filter (· ≠ a) }
  | .putInline policy => { s with inlined := withInline s.inlined policy }
  | .deleteInline principal name =>
    { s with inlined := s.inlined.filter fun p => ¬ (p.principal = principal ∧ p.name = name) }

/-- The store admits a change: what is to be created is not there, and what is to be removed is. -/
def Admits (s : PolicyStore) : Operation → Prop
  | .create record => s.policy? record.arn = none
  | .delete arn => (s.policy? arn).isSome = true
  | .attach _ => True
  | .detach a => a ∈ s.attachments
  | .putInline _ => True
  | .deleteInline principal name => (s.inline? principal name).isSome = true

/-- A change is performed when it is admitted, and refused otherwise. -/
theorem perform_eq_ok_iff :
    s.perform operation = .ok t ↔ s.Admits operation ∧ t = s.changed operation := by
  have hguard {p : Prop} [Decidable p] {refusal : Refusal} {u : PolicyStore} :
      (if p then .ok u else .error refusal) = (.ok t : Except Refusal PolicyStore) ↔ p ∧ t = u := by
    split
    · next hp => simp [hp, eq_comm]
    · next hp => simp [hp]
  cases operation with
  | create record =>
      show (if (s.policy? record.arn).isSome = true then _ else _) = _ ↔ _
      rw [← ite_not, hguard]
      simp [Admits, changed]
  | attach a =>
      show (if a ∈ s.attachments then _ else _) = _ ↔ _
      by_cases hmem : a ∈ s.attachments
      · simp only [Admits, changed, if_pos hmem, Except.ok.injEq, true_and]
        exact eq_comm
      · simp [hmem, Admits, changed, eq_comm]
  | putInline policy => simp [perform, Admits, changed, eq_comm]
  | delete arn => exact hguard
  | detach a => exact hguard
  | deleteInline principal name => exact hguard

/-- Why a change is refused where it is not admitted. -/
def Operation.refusal? : Operation → Option Refusal
  | .create record => some (.policyExists record.arn)
  | .delete arn => some (.noPolicy arn)
  | .attach _ => none
  | .detach a => some (.notAttached a.principal a.arn)
  | .putInline _ => none
  | .deleteInline principal name => some (.noInline principal name)

theorem perform_eq_error_iff {refusal : Refusal} :
    s.perform operation = .error refusal ↔
      ¬ s.Admits operation ∧ operation.refusal? = some refusal := by
  by_cases hadmits : s.Admits operation
  · rw [perform_eq_ok_iff.2 ⟨hadmits, rfl⟩]
    simp [hadmits]
  · cases operation with
    | create record =>
        have hthere : (s.policy? record.arn).isSome = true := Option.isSome_iff_ne_none.2 hadmits
        simp [perform, hthere, Operation.refusal?, hadmits]
    | attach a => exact absurd trivial hadmits
    | putInline policy => exact absurd trivial hadmits
    | _ => simp_all [perform, Admits, Operation.refusal?]

theorem exists_refusal_iff :
    (∃ refusal, s.perform operation = .error refusal) ↔ ¬ s.Admits operation := by
  simp only [perform_eq_error_iff, exists_and_left, and_iff_left_iff_imp]
  intro hrefused
  cases operation with
  | attach a => exact absurd trivial hrefused
  | putInline policy => exact absurd trivial hrefused
  | _ => exact ⟨_, rfl⟩

theorem after_of_admits (hadmits : s.Admits operation) :
    s.after operation = s.changed operation := by
  rw [after, perform_eq_ok_iff.2 ⟨hadmits, rfl⟩]

theorem after_of_not_admits (hrefused : ¬ s.Admits operation) : s.after operation = s := by
  obtain ⟨refusal, hrefusal⟩ := exists_refusal_iff.2 hrefused
  rw [after, hrefusal]

/-- A change of an attachment changes the list of attachments. -/
theorem attachments_changed (s : PolicyStore) (operation : Operation) :
    (s.changed operation).attachments =
      match operation with
      | .attach a => if a ∈ s.attachments then s.attachments else s.attachments ++ [a]
      | .detach a => s.attachments.filter (· ≠ a)
      | _ => s.attachments := by
  cases operation <;> rfl

theorem any_key_iff {policies : List InlinePolicy} {policy : InlinePolicy} :
    (policies.any fun p => p.principal = policy.principal ∧ p.name = policy.name) = true ↔
      (policy.principal, policy.name) ∈ policies.map fun p => (p.principal, p.name) := by
  simp [List.any_eq_true, List.mem_map]

/-- Setting an inline policy that is there leaves the names, and otherwise the new name is last. -/
theorem map_key_withInline (policies : List InlinePolicy) (policy : InlinePolicy) :
    (withInline policies policy).map (fun p => (p.principal, p.name)) =
      if (policy.principal, policy.name) ∈ policies.map (fun p => (p.principal, p.name)) then
        policies.map fun p => (p.principal, p.name)
      else policies.map (fun p => (p.principal, p.name)) ++ [(policy.principal, policy.name)] := by
  unfold withInline
  simp only [any_key_iff]
  split
  · rw [List.map_map]
    apply List.map_congr_left
    intro p _
    rw [Function.comp_apply]
    split
    · next hsame => rw [hsame.1, hsame.2]
    · rfl
  · rw [List.map_append, List.map_singleton]

/-- A change of an inline policy changes the list of names. -/
theorem inlineKeys_changed (s : PolicyStore) (operation : Operation) :
    (s.changed operation).inlineKeys =
      match operation with
      | .putInline policy =>
        if (policy.principal, policy.name) ∈ s.inlineKeys then s.inlineKeys
        else s.inlineKeys ++ [(policy.principal, policy.name)]
      | .deleteInline principal name => s.inlineKeys.filter (· ≠ (principal, name))
      | _ => s.inlineKeys := by
  cases operation with
  | putInline policy => exact map_key_withInline s.inlined policy
  | deleteInline principal name =>
      simp [changed, inlineKeys, List.filter_map, Function.comp_def]
  | _ => rfl

/-- The managed policy that is found is the one that the change adds or, where the change is about
another thing, the one that was found before. -/
theorem policy?_changed (hadmits : s.Admits operation) (arn : String) :
    (s.changed operation).policy? arn =
      if operation.subject = .managed arn then operation.record? else s.policy? arn := by
  cases operation with
  | create record =>
      have hnone : s.records.find? (·.arn = record.arn) = none := hadmits
      show (s.records ++ [record]).find? (·.arn = arn) = _
      rw [List.find?_append]
      by_cases harn : record.arn = arn
      · subst harn
        simp [hnone, Operation.subject]
      · simp [Operation.subject, harn, policy?]
  | delete gone =>
      show (s.records.filter (·.arn ≠ gone)).find? (·.arn = arn) = _
      rw [List.find?_filter]
      by_cases harn : gone = arn
      · subst harn
        simp [Operation.subject]
      · rw [if_neg (by simpa [Operation.subject] using harn), policy?]
        congr 1
        funext r
        by_cases hr : r.arn = arn
        · simp [hr, Ne.symm harn]
        · simp [hr]
  | _ => exact (if_neg (by simp [Operation.subject])).symm

/-- A policy in the place of one of its name is found there, and the others stay where they were. -/
theorem find?_replaced {policies : List InlinePolicy} {policy : InlinePolicy}
    (hthere : policies.any (fun p => p.principal = policy.principal ∧ p.name = policy.name) = true)
    (principal name : String) :
    (policies.map fun p =>
        if p.principal = policy.principal ∧ p.name = policy.name then policy else p).find?
          (fun p => p.principal = principal ∧ p.name = name) =
      if policy.principal = principal ∧ policy.name = name then some policy
      else policies.find? fun p => p.principal = principal ∧ p.name = name := by
  let replace (p : InlinePolicy) : InlinePolicy :=
    if p.principal = policy.principal ∧ p.name = policy.name then policy else p
  -- replacing changes no name, so the same places are looked at
  have hkey (p : InlinePolicy) :
      (replace p).principal = p.principal ∧ (replace p).name = p.name := by
    unfold replace
    split
    · next hsame => exact ⟨hsame.1.symm, hsame.2.symm⟩
    · exact ⟨rfl, rfl⟩
  show (policies.map replace).find? _ = _
  rw [List.find?_map]
  simp only [Function.comp_def, hkey]
  split
  · next hsame =>
    obtain ⟨rfl, rfl⟩ := hsame
    rw [List.any_eq_true, ← List.find?_isSome] at hthere
    obtain ⟨p, hp⟩ := Option.isSome_iff_exists.1 hthere
    have hreplaced : replace p = policy := if_pos (by simpa using List.find?_some hp)
    rw [hp, Option.map_some, hreplaced]
  · next hother =>
    cases hp : policies.find? fun p => p.principal = principal ∧ p.name = name with
    | none => rfl
    | some p =>
        have hown : p.principal = principal ∧ p.name = name := by simpa using List.find?_some hp
        have hkept : replace p = p := by
          apply if_neg
          rintro ⟨hprincipal, hname⟩
          exact hother ⟨hprincipal.symm.trans hown.1, hname.symm.trans hown.2⟩
        rw [Option.map_some, hkept]

/-- An inline policy that is set is found under its name, and the others are found as before. -/
theorem find?_withInline (policies : List InlinePolicy) (policy : InlinePolicy)
    (principal name : String) :
    (withInline policies policy).find? (fun p => p.principal = principal ∧ p.name = name) =
      if policy.principal = principal ∧ policy.name = name then some policy
      else policies.find? fun p => p.principal = principal ∧ p.name = name := by
  unfold withInline
  split
  · next hthere => exact find?_replaced hthere principal name
  · next hfree =>
    rw [List.find?_append]
    split
    · next hsame =>
      obtain ⟨rfl, rfl⟩ := hsame
      have hnone : policies.find? (fun p => p.principal = policy.principal ∧ p.name = policy.name) =
          none := by
        rw [List.find?_eq_none]
        simpa using hfree
      rw [hnone, Option.none_or, List.find?_singleton, if_pos (by simp)]
    · next hother => simp [hother]

/-- The inline policy that is found is the one that the change adds or, where the change is about
another thing, the one that was found before. -/
theorem inline?_changed (s : PolicyStore) (operation : Operation) (principal name : String) :
    (s.changed operation).inline? principal name =
      if operation.subject = .inlined principal name then operation.inlined?
      else s.inline? principal name := by
  cases operation with
  | putInline policy =>
      simp only [Operation.subject, Subject.inlined.injEq]
      exact find?_withInline s.inlined policy principal name
  | deleteInline gone goneName =>
      show (s.inlined.filter fun p => ¬ (p.principal = gone ∧ p.name = goneName)).find?
        (fun p => p.principal = principal ∧ p.name = name) = _
      rw [List.find?_filter]
      simp only [Operation.subject, Subject.inlined.injEq]
      split
      · next hsame =>
        obtain ⟨rfl, rfl⟩ := hsame
        refine List.find?_eq_none.2 fun p _ => ?_
        by_cases hp : p.principal = gone ∧ p.name = goneName <;> simp [hp]
      · next hother =>
        rw [inline?]
        congr 1
        funext p
        by_cases hp : p.principal = principal ∧ p.name = name
        · obtain ⟨rfl, rfl⟩ := hp
          have hkept : ¬ (p.principal = gone ∧ p.name = goneName) :=
            fun h => hother ⟨h.1.symm, h.2.symm⟩
          simp [hkept]
        · simp [hp]
  | _ => exact (if_neg (by simp [Operation.subject])).symm

/-! ## The changes that are not refused -/

/-- The changes that are not refused when a list of changes is performed. -/
def accepted (s : PolicyStore) : List Operation → List Operation
  | [] => []
  | operation :: operations =>
    match s.perform operation with
    | .ok t => operation :: t.accepted operations
    | .error _ => s.accepted operations

theorem accepted_of_admits (hadmits : s.Admits operation) (operations : List Operation) :
    s.accepted (operation :: operations) =
      operation :: (s.changed operation).accepted operations := by
  rw [accepted, perform_eq_ok_iff.2 ⟨hadmits, rfl⟩]

theorem accepted_of_not_admits (hrefused : ¬ s.Admits operation) (operations : List Operation) :
    s.accepted (operation :: operations) = s.accepted operations := by
  obtain ⟨refusal, hrefusal⟩ := exists_refusal_iff.2 hrefused
  rw [accepted, hrefusal]

/-! ## The history behind a store -/

/-- **A store and its history.** The store holds what the changes left: the attachments and the
names of the inline policies are those that are there, in the order in which they came, and the
policies that are found are those that were added last. -/
structure Reflects (s : PolicyStore) (done : List Operation) : Prop where
  attachments_eq : s.attachments = (standing done).filterMap Subject.attachment?
  inlineKeys_eq : s.inlineKeys = (standing done).filterMap Subject.inlineKey?
  policy?_eq : ∀ arn, s.policy? arn = (latest? done (.managed arn)).bind (·.record?)
  inline?_eq : ∀ principal name,
    s.inline? principal name = (latest? done (.inlined principal name)).bind (·.inlined?)

theorem reflects_nil : ({} : PolicyStore).Reflects [] where
  attachments_eq := rfl
  inlineKeys_eq := rfl
  policy?_eq _ := rfl
  inline?_eq _ _ := rfl

namespace Reflects

/-- **One change.** A change that is admitted becomes the last one of the history. -/
theorem changed (h : s.Reflects done) (hadmits : s.Admits operation) :
    (s.changed operation).Reflects (done ++ [operation]) where
  attachments_eq := by
    rw [attachments_changed, standing_concat, h.attachments_eq]
    cases operation with
    | attach a =>
        have hsubject : (Operation.attach a).subject = .attached a := rfl
        exact (Subject.names_attachment?.filterMap_track_of_adds hsubject trivial).symm
    | detach a =>
        have hsubject : (Operation.detach a).subject = .attached a := rfl
        exact (Subject.names_attachment?.filterMap_track_of_not_adds hsubject id).symm
    | _ => exact (Names.filterMap_track_of_none rfl).symm
  inlineKeys_eq := by
    rw [inlineKeys_changed, standing_concat, h.inlineKeys_eq]
    cases operation with
    | putInline policy =>
        have hsubject : (Operation.putInline policy).subject =
            .inlined policy.principal policy.name := rfl
        exact (Subject.names_inlineKey?.filterMap_track_of_adds
          (b := (policy.principal, policy.name)) hsubject trivial).symm
    | deleteInline principal name =>
        have hsubject : (Operation.deleteInline principal name).subject =
            .inlined principal name := rfl
        exact (Subject.names_inlineKey?.filterMap_track_of_not_adds (b := (principal, name))
          hsubject id).symm
    | _ => exact (Names.filterMap_track_of_none rfl).symm
  policy?_eq arn := by
    rw [policy?_changed hadmits, latest?_concat, h.policy?_eq]
    split <;> rfl
  inline?_eq principal name := by
    rw [inline?_changed, latest?_concat, h.inline?_eq]
    split <;> rfl

/-- **Any changes.** After a run the accepted changes have become part of the history. -/
theorem run (h : s.Reflects done) (operations : List Operation) :
    (s.run operations).Reflects (done ++ s.accepted operations) := by
  induction operations generalizing s done with
  | nil =>
      rw [accepted, List.append_nil]
      exact h
  | cons operation operations ih =>
      show ((s.after operation).run operations).Reflects _
      by_cases hadmits : s.Admits operation
      · have hrun := ih (h.changed hadmits)
        rw [after_of_admits hadmits, accepted_of_admits hadmits]
        rwa [List.append_assoc] at hrun
      · rw [after_of_not_admits hadmits, accepted_of_not_admits hadmits]
        exact ih h

/-- The names that are listed for a principal are those of its things. -/
theorem attached_eq (h : s.Reflects done) (principal : String) :
    s.attached principal = (standing done).filterMap (Subject.arnFor? principal) := by
  rw [attached, h.attachments_eq, List.filter_filterMap, List.map_filterMap]
  apply List.filterMap_congr
  intro x _
  rcases x with _ | ⟨owner, arn⟩ | _
  · rfl
  · by_cases howner : owner = principal <;>
      simp [Subject.attachment?, Subject.arnFor?, Option.filter, howner]
  · rfl

/-- The names of inline policies that are listed for a principal are those of its things. -/
theorem inlineNames_eq (h : s.Reflects done) (principal : String) :
    s.inlineNames principal = (standing done).filterMap (Subject.nameFor? principal) := by
  have hkeys : s.inlineNames principal =
      (s.inlineKeys.filter (·.1 = principal)).map (·.2) := by
    rw [inlineKeys, List.filter_map, List.map_map]
    rfl
  rw [hkeys, h.inlineKeys_eq, List.filter_filterMap, List.map_filterMap]
  apply List.filterMap_congr
  intro x _
  cases x with
  | inlined owner name =>
      by_cases howner : owner = principal <;>
        simp [Subject.inlineKey?, Subject.nameFor?, Option.filter, howner]
  | _ => rfl

end Reflects

/-- After a run from the empty store the history is that of the accepted changes. -/
theorem reflects_run (operations : List Operation) :
    (({} : PolicyStore).run operations).Reflects (({} : PolicyStore).accepted operations) :=
  reflects_nil.run operations

end TenantIam.PolicyStore
