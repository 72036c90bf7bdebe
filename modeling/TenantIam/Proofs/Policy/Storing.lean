import Mathlib.Data.List.Nodup
import Mathlib.Data.List.Perm.Basic
import TenantIam.Policy.Store

/-!
# What is stored for a principal

The texts that are stored for a principal are those of the attached policies that exist and those of
the inline policies. Creating policies, attaching them and setting inline policies adds one thing
each, so whatever the order in which this is done, the texts are those that were given.
-/

namespace TenantIam.PolicyStore

/-- The texts stored for a principal, in the order in which they are read. -/
def texts (s : PolicyStore) (principal : String) : List String :=
  (s.attached principal).filterMap (fun arn => (s.policy? arn).map (·.text)) ++
    (s.inlineNames principal).filterMap fun name => (s.inline? principal name).map (·.text)

/-- The changes that store managed policies, attached to a principal, and inline policies. -/
def storing (principal : String) (managed : List ManagedPolicy) (inlined : List InlinePolicy) :
    List Operation :=
  managed.map .create ++ managed.map (fun r => .attach { principal, arn := r.arn }) ++
    inlined.map .putInline

namespace Operation

@[simp] def record? : Operation → Option ManagedPolicy
  | .create record => some record
  | _ => none

@[simp] def attachment? : Operation → Option Attachment
  | .attach attachment => some attachment
  | _ => none

@[simp] def inlined? : Operation → Option InlinePolicy
  | .putInline policy => some policy
  | _ => none

/-- The change removes nothing. -/
def Adds : Operation → Prop
  | .create _ | .attach _ | .putInline _ => True
  | .delete _ | .detach _ | .deleteInline _ _ => False

end Operation

/-- **Different things.** The changes only add, and no two of them add a managed policy of one
resource name, one attachment or an inline policy of one name. -/
structure Distinct (operations : List Operation) : Prop where
  adds : ∀ operation ∈ operations, operation.Adds
  records : ((operations.filterMap (·.record?)).map (·.arn)).Nodup
  attachments : (operations.filterMap (·.attachment?)).Nodup
  inlined : ((operations.filterMap (·.inlined?)).map fun p => (p.principal, p.name)).Nodup

/-- The store holds what the changes added, in their order. -/
structure IsMadeBy (s : PolicyStore) (operations : List Operation) : Prop where
  records : s.records = operations.filterMap (·.record?)
  attachments : s.attachments = operations.filterMap (·.attachment?)
  inlined : s.inlined = operations.filterMap (·.inlined?)

variable {s : PolicyStore} {done operations : List Operation} {operation : Operation}
variable {principal : String} {managed : List ManagedPolicy} {inlined : List InlinePolicy}

theorem Distinct.of_append (h : Distinct (done ++ operations)) : Distinct done := by
  obtain ⟨hadds, hrecords, hattachments, hinlined⟩ := h
  simp only [List.filterMap_append, List.map_append] at hrecords hattachments hinlined
  exact ⟨fun o ho => hadds o (List.mem_append_left _ ho), (List.nodup_append.1 hrecords).1,
    (List.nodup_append.1 hattachments).1, (List.nodup_append.1 hinlined).1⟩

theorem Distinct.perm (h : Distinct done) (hperm : operations.Perm done) : Distinct operations where
  adds o ho := h.adds o (hperm.subset ho)
  records := ((hperm.filterMap _).map _).nodup_iff.2 h.records
  attachments := (hperm.filterMap _).nodup_iff.2 h.attachments
  inlined := ((hperm.filterMap _).map _).nodup_iff.2 h.inlined

/-- One more change adds what it is about at the end. -/
theorem IsMadeBy.after (h : s.IsMadeBy done) (hdistinct : Distinct (done ++ [operation])) :
    (s.after operation).IsMadeBy (done ++ [operation]) := by
  -- what the change adds is not there yet: the changes before it are about other things
  obtain ⟨hadds, hrecords, hattachments, hinlined⟩ := hdistinct
  have hadd := hadds operation (by simp)
  simp only [List.filterMap_append, List.map_append] at hrecords hattachments hinlined
  cases operation with
  | create record =>
      have hfree : s.policy? record.arn = none := by
        rw [policy?, h.records, List.find?_eq_none]
        intro r hr
        simpa using (List.nodup_append.1 hrecords).2.2 r.arn (List.mem_map_of_mem hr) record.arn
          (by simp)
      have hafter : s.after (.create record) = { s with records := s.records ++ [record] } := by
        simp [PolicyStore.after, perform, hfree]
      rw [hafter]
      exact ⟨by simp [h.records], by simp [h.attachments], by simp [h.inlined]⟩
  | attach attachment =>
      have hfree : attachment ∉ s.attachments := by
        rw [h.attachments]
        intro hmem
        exact (List.nodup_append.1 hattachments).2.2 attachment hmem attachment
          (by simp) rfl
      have hafter : s.after (.attach attachment) =
          { s with attachments := s.attachments ++ [attachment] } := by
        simp [PolicyStore.after, perform, hfree]
      rw [hafter]
      exact ⟨by simp [h.records], by simp [h.attachments], by simp [h.inlined]⟩
  | putInline policy =>
      have hfree : ∀ p ∈ s.inlined, ¬ (p.principal = policy.principal ∧ p.name = policy.name) := by
        rw [h.inlined]
        rintro p hp ⟨hprincipal, hname⟩
        exact (List.nodup_append.1 hinlined).2.2 (p.principal, p.name)
          (List.mem_map_of_mem (f := fun p : InlinePolicy => (p.principal, p.name)) hp)
          (policy.principal, policy.name) (by simp) (by rw [hprincipal, hname])
      have hwith : withInline s.inlined policy = s.inlined ++ [policy] := by
        rw [withInline, if_neg]
        simpa using hfree
      have hafter : s.after (.putInline policy) =
          { s with inlined := s.inlined ++ [policy] } := by
        simp [PolicyStore.after, perform, hwith]
      rw [hafter]
      exact ⟨by simp [h.records], by simp [h.attachments], by simp [h.inlined]⟩
  | delete arn => exact hadd.elim
  | detach attachment => exact hadd.elim
  | deleteInline principal name => exact hadd.elim

/-- **Everything is added.** Changes that are about different things all add what they are about. -/
theorem IsMadeBy.run (h : s.IsMadeBy done) (hdistinct : Distinct (done ++ operations)) :
    (s.run operations).IsMadeBy (done ++ operations) := by
  induction operations generalizing s done with
  | nil => simpa [PolicyStore.run] using h
  | cons operation operations ih =>
      have hsplit : done ++ operation :: operations = (done ++ [operation]) ++ operations := by simp
      rw [hsplit] at hdistinct ⊢
      exact ih (h.after hdistinct.of_append) hdistinct

/-- What is in a list without repetition of keys is found under its key. -/
theorem find?_key_eq_some {α κ : Type} [DecidableEq κ] {key : α → κ} {l : List α} {a : α}
    (hnodup : (l.map key).Nodup) (ha : a ∈ l) : l.find? (fun b => key b = key a) = some a := by
  cases hfind : l.find? (fun b => key b = key a) with
  | none => simpa using List.find?_eq_none.1 hfind a ha
  | some b =>
      have hkey : key b = key a := by simpa using List.find?_some hfind
      rw [List.inj_on_of_nodup_map hnodup (List.mem_of_find?_eq_some hfind) ha hkey]

/-- Storing managed and inline policies is about these policies, and attaches the managed ones. -/
theorem filterMap_storing (principal : String) (managed : List ManagedPolicy)
    (inlined : List InlinePolicy) :
    (storing principal managed inlined).filterMap (·.record?) = managed ∧
      (storing principal managed inlined).filterMap (·.attachment?) =
        managed.map (fun r => { principal, arn := r.arn }) ∧
      (storing principal managed inlined).filterMap (·.inlined?) = inlined := by
  simp only [storing, List.filterMap_append, List.filterMap_map]
  refine ⟨?_, ?_, ?_⟩ <;> simp [Function.comp_def]

/-- Managed and inline policies under different names are about different things. -/
theorem distinct_storing (hmanaged : (managed.map (·.arn)).Nodup)
    (hinlined : (inlined.map (·.name)).Nodup) :
    Distinct (storing principal managed inlined) := by
  obtain ⟨hrecords, hattachments, hpolicies⟩ :=
    filterMap_storing principal managed inlined
  refine ⟨?_, by rwa [hrecords], ?_, ?_⟩
  · simp only [storing, List.mem_append, List.mem_map]
    rintro _ ((⟨r, -, rfl⟩ | ⟨r, -, rfl⟩) | ⟨p, -, rfl⟩) <;> trivial
  · rw [hattachments]
    apply List.Nodup.of_map Attachment.arn
    rwa [List.map_map]
  · rw [hpolicies]
    apply List.Nodup.of_map Prod.snd
    rwa [List.map_map]

/-- Attached policies that exist under their resource names have their texts read. -/
theorem managedTexts_perm (hrecords : s.records.Perm managed)
    (hattachments : s.attachments.Perm (managed.map fun r => { principal, arn := r.arn }))
    (hmanaged : (managed.map (·.arn)).Nodup) :
    ((s.attached principal).filterMap fun arn => (s.policy? arn).map (·.text)).Perm
      (managed.map (·.text)) := by
  have hattached : (s.attached principal).Perm (managed.map (·.arn)) := by
    have hown : (managed.map fun r => ({ principal, arn := r.arn } : Attachment)).filter
        (·.principal = principal) = managed.map fun r => { principal, arn := r.arn } := by
      rw [List.filter_eq_self]
      simp
    have hfiltered := (hattachments.filter (·.principal = principal)).map Attachment.arn
    rwa [hown, List.map_map] at hfiltered
  have hfound : ∀ r ∈ managed, s.policy? r.arn = some r := fun r hr =>
    find?_key_eq_some ((hrecords.map _).nodup_iff.2 hmanaged) (hrecords.mem_iff.2 hr)
  refine (hattached.filterMap _).trans (.of_eq ?_)
  rw [List.filterMap_map, ← List.filterMap_eq_map]
  apply List.filterMap_congr
  intro r hr
  simp [hfound r hr]

theorem inlineTexts_perm (hinlines : s.inlined.Perm inlined)
    (hinlined : (inlined.map (·.name)).Nodup) (howner : ∀ p ∈ inlined, p.principal = principal) :
    ((s.inlineNames principal).filterMap fun name => (s.inline? principal name).map (·.text)).Perm
      (inlined.map (·.text)) := by
  have hnames : (s.inlineNames principal).Perm (inlined.map (·.name)) := by
    have hown : inlined.filter (·.principal = principal) = inlined := by
      rw [List.filter_eq_self]
      simpa using howner
    have hfiltered := (hinlines.filter (·.principal = principal)).map InlinePolicy.name
    rwa [hown] at hfiltered
  have hfound : ∀ p ∈ inlined, s.inline? principal p.name = some p := by
    intro p hp
    have hkeys : (s.inlined.map fun p => (p.principal, p.name)).Nodup := by
      apply List.Nodup.of_map Prod.snd
      rw [List.map_map]
      exact (hinlines.map _).nodup_iff.2 hinlined
    have hkey := find?_key_eq_some hkeys (hinlines.mem_iff.2 hp)
    simp only [Prod.mk.injEq, howner p hp] at hkey
    exact hkey
  refine (hnames.filterMap _).trans (.of_eq ?_)
  rw [List.filterMap_map, ← List.filterMap_eq_map]
  apply List.filterMap_congr
  intro p hp
  simp [hfound p hp]

/-- **Any order stores the same texts.** Managed and inline policies that are stored for a principal
under different names, in whatever order that is done, are the ones whose texts are read. -/
theorem texts_run_perm (hmanaged : (managed.map (·.arn)).Nodup)
    (hinlined : (inlined.map (·.name)).Nodup) (howner : ∀ p ∈ inlined, p.principal = principal)
    (hperm : operations.Perm (storing principal managed inlined)) :
    ((({} : PolicyStore).run operations).texts principal).Perm
      (managed.map (·.text) ++ inlined.map (·.text)) := by
  have hdistinct : Distinct ([] ++ operations) := (distinct_storing hmanaged hinlined).perm hperm
  have hempty : ({} : PolicyStore).IsMadeBy [] := ⟨rfl, rfl, rfl⟩
  obtain ⟨hrecords, hattachments, hinlines⟩ := hempty.run hdistinct
  obtain ⟨hrecords', hattachments', hinlines'⟩ :=
    filterMap_storing principal managed inlined
  refine List.Perm.append (managedTexts_perm ?_ ?_ hmanaged) (inlineTexts_perm ?_ hinlined howner)
  · rw [hrecords, List.nil_append, ← hrecords']
    exact hperm.filterMap _
  · rw [hattachments, List.nil_append, ← hattachments']
    exact hperm.filterMap _
  · rw [hinlines, List.nil_append, ← hinlines']
    exact hperm.filterMap _

end TenantIam.PolicyStore
