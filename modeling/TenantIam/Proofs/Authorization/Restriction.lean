import Mathlib.Logic.Basic
import TenantIam.Proofs.Authorization.Decision
import TenantIam.Proofs.Success

/-!
# Restrictions

Documents are restricted when denials are added to them and permissions are left out. However
documents are combined, a restriction turns no refusal into a permission, although it may change
which document settles a request. The same holds of a user's answers when a new policy that only
denies is created and attached.
-/

namespace TenantIam

namespace Policy

variable {documents documents' : List Document} {d d' : Document}
variable {action resource : String} {effect : Effect}

def Document.Only (effect : Effect) (d : Document) : Prop :=
  ∀ s ∈ d.statements, s.effect = effect

/-- What a document with statements of one effect says has that effect. -/
theorem Document.Only.eq_of_decide (h : d.Only effect) {effect' : Effect}
    (hdecide : d.decide action resource = some effect') : effect' = effect := by
  cases effect' with
  | allow =>
      obtain ⟨⟨s, hs, -, heffect⟩, -⟩ := Document.decide_eq_allow_iff.1 hdecide
      exact heffect.symm.trans (h s hs)
  | deny =>
      obtain ⟨s, hs, -, heffect⟩ := Document.decide_eq_deny_iff.1 hdecide
      exact heffect.symm.trans (h s hs)

/-- A document restricts another one when it has its statements and otherwise only denials. -/
structure Document.Restricts (d d' : Document) : Prop where
  kept : ∀ s ∈ d'.statements, s ∈ d.statements
  added : ∀ s ∈ d.statements, s ∈ d'.statements ∨ s.effect = .deny

theorem Document.Restricts.refl (d : Document) : d.Restricts d :=
  ⟨fun _ hs => hs, fun _ hs => .inl hs⟩

/-- A statement that denies restricts the document into which it is put. -/
theorem Document.restricts_insert {above below : List Statement} {s : Statement}
    (hstatements : d.statements = above ++ below) (heffect : s.effect = .deny) :
    { d with statements := above ++ s :: below }.Restricts d where
  kept r hr := by
    rw [hstatements] at hr
    rcases List.mem_append.1 hr with habove | hbelow
    · exact List.mem_append_left _ habove
    · exact List.mem_append_right _ (List.mem_cons_of_mem _ hbelow)
  added r hr := by
    rw [hstatements]
    rcases List.mem_append.1 hr with habove | hbelow
    · exact .inl (List.mem_append_left _ habove)
    · rcases List.mem_cons.1 hbelow with rfl | hbelow
      · exact .inr heffect
      · exact .inl (List.mem_append_right _ hbelow)

/-- A restriction of a document says the same or denies. -/
theorem Document.Restricts.decide_eq (h : d.Restricts d') (action resource : String) :
    d.decide action resource = some .deny ∨
      d.decide action resource = d'.decide action resource := by
  cases hdecide : d.decide action resource with
  | none =>
      have hnone := decide_eq_none_iff.1 hdecide
      exact .inr (decide_eq_none_iff.2 fun s hs => hnone s (h.kept s hs)).symm
  | some effect =>
      cases effect with
      | deny => exact .inl rfl
      | allow =>
          obtain ⟨⟨s, hs, hmatches, hallow⟩, hdeny⟩ := decide_eq_allow_iff.1 hdecide
          have hs' : s ∈ d'.statements := by
            rcases h.added s hs with hs' | heffect
            · exact hs'
            · exact absurd heffect (hdeny s hs hmatches)
          refine .inr (decide_eq_allow_iff.2 ⟨⟨s, hs', hmatches, hallow⟩, ?_⟩).symm
          exact fun t ht => hdeny t (h.kept t ht)

/-- **Restrictions of lists.** Documents are kept or restricted in their places, documents that only
deny are added, and documents that only allow are left out. -/
inductive Restricts : List Document → List Document → Prop
  | nil : Restricts [] []
  | keep {documents documents' : List Document} {d d' : Document} (hd : d.Restricts d')
      (h : Restricts documents documents') : Restricts (d :: documents) (d' :: documents')
  | add {documents documents' : List Document} {d : Document} (hd : d.Only .deny)
      (h : Restricts documents documents') : Restricts (d :: documents) documents'
  | drop {documents documents' : List Document} {d' : Document} (hd : d'.Only .allow)
      (h : Restricts documents documents') : Restricts documents (d' :: documents')

theorem Restricts.refl (documents : List Document) : Restricts documents documents := by
  induction documents with
  | nil => exact .nil
  | cons d documents ih => exact .keep (.refl d) ih

/-- The documents before a place of a list stay as they are. -/
theorem Restricts.append_left (before : List Document) (h : Restricts documents documents') :
    Restricts (before ++ documents) (before ++ documents') := by
  induction before with
  | nil => exact h
  | cons d before ih => exact .keep (.refl d) ih

end Policy

namespace Authorization

variable {config : Authorization} {combining : CombiningRule}
variable {documents documents' : List Policy.Document} {action resource : String}

/-- A document lets the loop come to a permission when it does not deny, and either settles it or
leaves it to the others, with its own permission remembered. -/
theorem settle_cons_iff {d : Policy.Document} {allowed : Bool} :
    settle combining action resource allowed (d :: documents) = true ↔
      d.decide action resource ≠ some .deny ∧
        ((combining = .firstMatch ∧ d.decide action resource = some .allow) ∨
          settle combining action resource
            (allowed || d.decide action resource = some .allow) documents = true) := by
  cases hdecide : d.decide action resource with
  | none => simp [settle, hdecide]
  | some effect =>
      cases effect with
      | deny => simp [settle, hdecide]
      | allow => cases combining <;> simp [settle, hdecide]

/-- **What a restriction allows was allowed before.** Both loops are at a place of their lists, and
the one over the restriction has found a permission only where the other one has. -/
theorem settle_of_restricts (h : Policy.Restricts documents documents') {allowed allowed' : Bool}
    (hallowed : allowed = true → allowed' = true)
    (hsettle : settle combining action resource allowed documents = true) :
    settle combining action resource allowed' documents' = true := by
  induction h generalizing allowed allowed' with
  | nil => exact hallowed hsettle
  | @keep documents documents' d d' hd _ ih =>
      obtain ⟨hdeny, hrest⟩ := settle_cons_iff.1 hsettle
      -- what does not deny says the same as what it restricts
      have hsame := (hd.decide_eq action resource).resolve_left hdeny
      rw [hsame] at hdeny hrest
      refine settle_cons_iff.2 ⟨hdeny, hrest.imp_right (ih fun hflag => ?_)⟩
      rw [Bool.or_eq_true] at hflag ⊢
      exact hflag.imp_left hallowed
  | @add documents documents' d hd _ ih =>
      obtain ⟨hdeny, hrest⟩ := settle_cons_iff.1 hsettle
      have hnone : d.decide action resource = none := by
        rw [Option.eq_none_iff_forall_ne_some]
        intro effect hdecide
        rw [hd.eq_of_decide hdecide] at hdecide
        exact hdeny hdecide
      rw [hnone] at hrest
      exact ih hallowed (by simpa using hrest)
  | @drop documents documents' d' hd _ ih =>
      -- the document that is left out may settle the request, but only by a permission
      refine settle_cons_iff.2 ⟨fun hdeny => ?_, .inr (ih (fun hflag => ?_) hsettle)⟩
      · cases hd.eq_of_decide hdeny
      · rw [hallowed hflag, Bool.true_or]

theorem decide_of_restricts (h : Policy.Restricts documents documents')
    (hdecide : config.decide documents action resource = true) :
    config.decide documents' action resource = true :=
  settle_of_restricts h id hdecide

/-! ## The two ways of combining documents -/

/-- Permission by a first match means that a document allows and none before it says anything. -/
theorem settle_firstMatch_iff_exists :
    settle .firstMatch action resource false documents = true ↔
      ∃ before d after, documents = before ++ d :: after ∧
        (∀ earlier ∈ before, earlier.decide action resource = none) ∧
        d.decide action resource = some .allow := by
  rw [settle_firstMatch_iff, List.findSome?_eq_some_iff]
  simp only [and_comm]

/-- What is allowed where denials win is allowed by the first match. -/
theorem settle_firstMatch_of_denyOverrides
    (h : settle .denyOverrides action resource false documents = true) :
    settle .firstMatch action resource false documents = true := by
  obtain ⟨hallow, hdeny⟩ := settle_denyOverrides_iff.1 h
  rw [settle_firstMatch_iff]
  cases hfirst : documents.findSome? (·.decide action resource) with
  | none =>
      rcases hallow with hfalse | ⟨d, hd, hdecide⟩
      · cases hfalse
      · rw [List.findSome?_eq_none_iff.1 hfirst d hd] at hdecide
        cases hdecide
  | some effect =>
      obtain ⟨d, hd, hdecide⟩ := List.exists_of_findSome?_eq_some hfirst
      cases effect with
      | allow => rfl
      | deny => exact absurd hdecide (hdeny d hd)

/-- **Where the two ways differ.** The first document that says anything allows, and a later one
denies. -/
theorem settle_ne_iff :
    settle .denyOverrides action resource false documents ≠
        settle .firstMatch action resource false documents ↔
      ∃ before d after, documents = before ++ d :: after ∧
        (∀ earlier ∈ before, earlier.decide action resource = none) ∧
        d.decide action resource = some .allow ∧
        ∃ later ∈ after, later.decide action resource = some .deny := by
  constructor
  · intro hne
    -- the first match allows, since nothing is allowed only where denials win
    have hfirst : settle .firstMatch action resource false documents = true := by
      rw [← Bool.not_eq_false]
      intro hfirst
      cases hoverride : settle .denyOverrides action resource false documents with
      | false => exact hne (hoverride.trans hfirst.symm)
      | true =>
          rw [settle_firstMatch_of_denyOverrides hoverride] at hfirst
          cases hfirst
    have hoverride : ¬ settle .denyOverrides action resource false documents = true := by
      rwa [hfirst] at hne
    obtain ⟨before, d, after, rfl, hbefore, hd⟩ := settle_firstMatch_iff_exists.1 hfirst
    rw [settle_denyOverrides_iff, not_and] at hoverride
    have hdeny := hoverride (.inr ⟨d, by simp, hd⟩)
    simp only [not_forall, not_not] at hdeny
    obtain ⟨denying, hmem, hdenying⟩ := hdeny
    refine ⟨before, d, after, rfl, hbefore, hd, denying, ?_, hdenying⟩
    rcases List.mem_append.1 hmem with hearly | hlate
    · rw [hbefore denying hearly] at hdenying
      cases hdenying
    · rcases List.mem_cons.1 hlate with rfl | hlate
      · rw [hd] at hdenying
        cases hdenying
      · exact hlate
  · rintro ⟨before, d, after, rfl, hbefore, hd, later, hlater, hdeny⟩ hsame
    have hfirst := settle_firstMatch_iff_exists.2 ⟨before, d, after, rfl, hbefore, hd⟩
    rw [← hsame, settle_denyOverrides_iff] at hfirst
    exact hfirst.2 later (by simp [hlater]) hdeny

end Authorization

/-! ## Answers -/

namespace PolicySource

variable {reads reads' : List (Except String (Option StoredPolicy))}

/-- **Restrictions of what is read.** The reads bring the same texts in the same order, except that
texts which only deny are added and reads which brought nothing are left out. -/
inductive Restricts :
    List (Except String (Option StoredPolicy)) → List (Except String (Option StoredPolicy)) → Prop
  | nil : Restricts [] []
  | keep {reads reads' : List (Except String (Option StoredPolicy))}
      (read : Except String (Option StoredPolicy)) (h : Restricts reads reads') :
      Restricts (read :: reads) (read :: reads')
  | add {reads reads' : List (Except String (Option StoredPolicy))} {stored : StoredPolicy}
      {d : Policy.Document} (hcheck : Policy.checkText stored.text = .ok d) (hd : d.Only .deny)
      (h : Restricts reads reads') : Restricts (.ok (some stored) :: reads) reads'
  | drop {reads reads' : List (Except String (Option StoredPolicy))}
      (h : Restricts reads reads') : Restricts reads (.ok none :: reads')

theorem Restricts.refl (reads : List (Except String (Option StoredPolicy))) :
    Restricts reads reads := by
  induction reads with
  | nil => exact .nil
  | cons read reads ih => exact .keep read ih

theorem Restricts.append {more more' : List (Except String (Option StoredPolicy))}
    (h : Restricts reads reads') (hmore : Restricts more more') :
    Restricts (reads ++ more) (reads' ++ more') := by
  induction h with
  | nil => exact hmore
  | keep read _ ih => exact .keep read ih
  | add hcheck hd _ ih => exact .add hcheck hd ih
  | drop _ ih => exact .drop ih

theorem Restricts.documents (h : Restricts reads reads') :
    Policy.Restricts (reads.filterMap document?) (reads'.filterMap document?) := by
  induction h with
  | nil => exact .nil
  | keep read _ ih =>
      cases hdocument : document? read with
      | none => simpa only [List.filterMap_cons, hdocument] using ih
      | some d =>
          simp only [List.filterMap_cons, hdocument]
          exact .keep (.refl d) ih
  | @add reads reads' stored d hcheck hd _ ih =>
      have hdocument : document? (.ok (some stored)) = some d := by
        simp only [document?, hcheck, Except.toOption]
      simp only [List.filterMap_cons, hdocument]
      exact .add hd ih
  | drop _ ih => exact ih

/-- Neither a text that denies nor a read that brings nothing ends the loading. -/
theorem Restricts.findSome?_failure? (h : Restricts reads reads') (config : Authorization) :
    reads.findSome? config.failure? = reads'.findSome? config.failure? := by
  induction h with
  | nil => rfl
  | keep read _ ih => simp only [List.findSome?_cons, ih]
  | @add reads reads' stored d hcheck _ _ ih =>
      have hfailure : config.failure? (.ok (some stored)) = none := by
        simp only [Authorization.failure?, hcheck]
      simp only [List.findSome?_cons, hfailure, ih]
  | drop _ ih => exact ih

end PolicySource

namespace Authorization

variable {config : Authorization} {source source' : PolicySource} {caller : Caller}
variable {action resource : String}
variable {reads reads' : List (Except String (Option StoredPolicy))}

theorem exists_loadReads_eq_ok_iff (h : PolicySource.Restricts reads reads') :
    (∃ documents, (config.loadReads reads).value = .ok documents) ↔
      ∃ documents', (config.loadReads reads').value = .ok documents' := by
  rw [← not_iff_not, ← exists_error_iff, ← exists_error_iff]
  simp only [loadReads_eq_error_iff, h.findSome?_failure?]

theorem decide_loadReads_of_restricts (h : PolicySource.Restricts reads reads')
    {documents documents' : List Policy.Document}
    (hload : (config.loadReads reads).value = .ok documents)
    (hload' : (config.loadReads reads').value = .ok documents')
    (hdecide : config.decide documents action resource = true) :
    config.decide documents' action resource = true := by
  unfold decide at hdecide ⊢
  rw [settle_loadReads hload] at hdecide
  rw [settle_loadReads hload']
  exact settle_of_restricts h.documents id hdecide

/-- **What is read with a restriction.** A request that is allowed was allowed before, and one that
was refused is refused. -/
theorem value_authorize_of_restricts (config : Authorization) (action resource : String)
    (h : PolicySource.Restricts (source.reads caller.arn.resource.id)
      (source'.reads caller.arn.resource.id)) :
    ((config.authorize source caller action resource).value = .ok true →
      (config.authorize source' caller action resource).value = .ok true) ∧
    ((config.authorize source' caller action resource).value = .ok false →
      (config.authorize source caller action resource).value = .ok false) := by
  cases hroot : caller.isRoot with
  | true =>
      rw [value_authorize_root hroot, value_authorize_root hroot]
      exact ⟨id, id⟩
  | false =>
      simp only [value_authorize_eq_ok_iff hroot, load]
      constructor
      · rintro ⟨huser, documents, hload, hdecide⟩
        obtain ⟨documents', hload'⟩ := (exists_loadReads_eq_ok_iff h).1 ⟨documents, hload⟩
        exact ⟨huser, documents', hload', decide_loadReads_of_restricts h hload hload' hdecide⟩
      · rintro ⟨huser, documents', hload', hdecide'⟩
        obtain ⟨documents, hload⟩ := (exists_loadReads_eq_ok_iff h).2 ⟨documents', hload'⟩
        refine ⟨huser, documents, hload, Bool.eq_false_iff.2 fun hdecide => ?_⟩
        rw [decide_loadReads_of_restricts h hload hload' hdecide] at hdecide'
        cases hdecide'

end Authorization

/-! ## A new policy that only denies -/

namespace PolicyStore

variable {s t : PolicyStore} {record : ManagedPolicy} {d : Policy.Document}

def attachedRead (s : PolicyStore) (arn : String) : Except String (Option StoredPolicy) :=
  .ok ((s.policy? arn).map fun r => { source := arn, text := r.text })

theorem managedReads_source (s : PolicyStore) (principal : String) :
    s.source.managedReads principal = (s.attached principal).map s.attachedRead := rfl

/-- Where a new policy is attached already, its text is read instead of nothing. -/
theorem restricts_create (hcreate : s.perform (.create record) = .ok t)
    (hcheck : Policy.checkText record.text = .ok d) (hd : d.Only .deny) (principal : String) :
    PolicySource.Restricts (t.source.reads principal) (s.source.reads principal) := by
  simp only [perform] at hcreate
  split at hcreate
  · cases hcreate
  · next hnew =>
    cases hcreate
    rw [Option.isSome_iff_ne_none, not_not] at hnew
    let t : PolicyStore := { s with records := s.records ++ [record] }
    have hpolicy (arn : String) :
        t.policy? arn = (s.policy? arn).or (if record.arn = arn then some record else none) := by
      simp only [t, policy?, List.find?_append, List.find?_cons, List.find?_nil]
      by_cases harn : record.arn = arn <;> simp [harn]
    refine PolicySource.Restricts.append ?_ (.refl _)
    show PolicySource.Restricts ((s.attached principal).map t.attachedRead) _
    rw [managedReads_source]
    -- one read after another: that of the new policy is added, and the one without a record dropped
    induction s.attached principal with
    | nil => exact .nil
    | cons arn arns ih =>
        rw [List.map_cons, List.map_cons, attachedRead, attachedRead, hpolicy]
        by_cases harn : record.arn = arn
        · subst harn
          rw [hnew, if_pos rfl]
          exact .add hcheck hd (.drop ih)
        · rw [if_neg harn, Option.or_none]
          exact .keep _ ih

/-- The text of a policy that gets attached is read after those that were attached before. -/
theorem restricts_attach {attachment : Attachment}
    (hattach : s.perform (.attach attachment) = .ok t)
    (hrecord : s.policy? attachment.arn = some record)
    (hcheck : Policy.checkText record.text = .ok d) (hd : d.Only .deny) (principal : String) :
    PolicySource.Restricts (t.source.reads principal) (s.source.reads principal) := by
  simp only [perform] at hattach
  split at hattach
  · cases hattach
    exact .refl _
  · cases hattach
    let t : PolicyStore := { s with attachments := s.attachments ++ [attachment] }
    have hattached : t.attached principal = s.attached principal ++
        if attachment.principal = principal then [attachment.arn] else [] := by
      simp only [t, attached, List.filter_append, List.map_append]
      by_cases hprincipal : attachment.principal = principal <;> simp [hprincipal]
    have hadded : PolicySource.Restricts
        ((if attachment.principal = principal then [attachment.arn] else []).map s.attachedRead)
        [] := by
      split
      · rw [List.map_singleton, attachedRead, hrecord]
        exact .add hcheck hd .nil
      · exact .nil
    refine PolicySource.Restricts.append ?_ (.refl _)
    show PolicySource.Restricts ((t.attached principal).map s.attachedRead) _
    rw [managedReads_source, hattached, List.map_append]
    simpa only [List.append_nil] using PolicySource.Restricts.append (.refl _) hadded

theorem exists_create_attach (hnew : s.policy? record.arn = none) (principal : String) :
    ∃ t u, s.perform (.create record) = .ok t ∧ t.policy? record.arn = some record ∧
      t.perform (.attach { principal, arn := record.arn }) = .ok u := by
  let t : PolicyStore := { s with records := s.records ++ [record] }
  have hcreate : s.perform (.create record) = .ok t := by
    simp only [perform, hnew, Option.isSome_none, Bool.false_eq_true, if_false, t]
  have hrecord : t.policy? record.arn = some record := by
    have hold : s.records.find? (·.arn = record.arn) = none := hnew
    simp only [t, policy?, List.find?_append, hold, List.find?_cons, decide_true, Option.none_or]
  obtain ⟨u, hattach⟩ : ∃ u, t.perform (.attach { principal, arn := record.arn }) = .ok u := by
    simp only [perform]
    split <;> exact ⟨_, rfl⟩
  exact ⟨t, u, hcreate, hrecord, hattach⟩

end PolicyStore

namespace Authorization

/-- **Monotone in both ways.** Whichever way documents are combined, a document that only denies or
a statement that denies, put in anywhere, turns no refusal into a permission, and a document that
only allows turns no permission into a refusal. What is allowed where denials win is allowed by the
first match, and the two differ when the first document with a statement about the request allows
and a later one denies. After a new policy that only denies was created and attached, nobody is
allowed what was refused. -/
theorem decide_monotone (config : Authorization) (action resource : String) :
    (∀ (before after : List Policy.Document) (d : Policy.Document), d.Only .deny →
      config.decide (before ++ d :: after) action resource = true →
      config.decide (before ++ after) action resource = true) ∧
    (∀ (before after : List Policy.Document) (d : Policy.Document)
        (above below : List Policy.Statement) (s : Policy.Statement),
      d.statements = above ++ below → s.effect = .deny →
      config.decide (before ++ { d with statements := above ++ s :: below } :: after) action
        resource = true →
      config.decide (before ++ d :: after) action resource = true) ∧
    (∀ (before after : List Policy.Document) (d : Policy.Document), d.Only .allow →
      config.decide (before ++ after) action resource = true →
      config.decide (before ++ d :: after) action resource = true) ∧
    (∀ documents : List Policy.Document,
      let overriding := { config with combining := .denyOverrides }.decide documents action resource
      let first := { config with combining := .firstMatch }.decide documents action resource
      (overriding = true → first = true) ∧
      (overriding ≠ first ↔
        ∃ before d after, documents = before ++ d :: after ∧
          (∀ earlier ∈ before, ∀ s ∈ earlier.statements, s.applies action resource = false) ∧
          d.decide action resource = some .allow ∧
          ∃ later ∈ after, later.decide action resource = some .deny)) ∧
    ∀ (s : PolicyStore) (record : ManagedPolicy) (principal : String) (d : Policy.Document),
      s.policy? record.arn = none → Policy.parse record.text = .ok d → d.Only .deny →
      ∃ t u, s.perform (.create record) = .ok t ∧
        t.perform (.attach { principal, arn := record.arn }) = .ok u ∧
        ∀ caller : Caller,
          ((config.authorize s.source caller action resource).value = .ok false →
            (config.authorize u.source caller action resource).value = .ok false) ∧
          ((config.authorize u.source caller action resource).value = .ok true →
            (config.authorize s.source caller action resource).value = .ok true) := by
  refine ⟨?_, ?_, ?_, fun documents => ⟨settle_firstMatch_of_denyOverrides, ?_⟩, ?_⟩
  · intro before after d hd
    exact decide_of_restricts (.append_left before (.add hd (.refl after)))
  · intro before after d above below s hstatements heffect
    have hd := Policy.Document.restricts_insert hstatements heffect
    exact decide_of_restricts (.append_left before (.keep hd (.refl after)))
  · intro before after d hd
    exact decide_of_restricts (.append_left before (.drop hd (.refl after)))
  · have hnone (d : Policy.Document) : d.decide action resource = none ↔
        ∀ s ∈ d.statements, s.applies action resource = false := by
      simp only [Policy.Document.decide_eq_none_iff, ← Policy.Statement.applies_iff,
        Bool.not_eq_true]
    simp only [← hnone]
    exact settle_ne_iff
  · intro s record principal d hnew hparse hd
    have hcheck : Policy.checkText record.text = .ok d := mapError_eq_ok_iff.1 hparse
    obtain ⟨t, u, hcreate, hrecord, hattach⟩ := PolicyStore.exists_create_attach hnew principal
    refine ⟨t, u, hcreate, hattach, fun caller => ?_⟩
    obtain ⟨hallowed, hrefused⟩ := value_authorize_of_restricts config action resource
      (PolicyStore.restricts_create hcreate hcheck hd caller.arn.resource.id)
    obtain ⟨hallowed', hrefused'⟩ := value_authorize_of_restricts config action resource
      (PolicyStore.restricts_attach hattach hrecord hcheck hd caller.arn.resource.id)
    exact ⟨fun h => hrefused' (hrefused h), fun h => hallowed (hallowed' h)⟩

/-- With the first match to count, a policy that denies is created under a resource name that is
attached already, before one that allows: the user is refused what the other policy allows, and what
was refused stays so. -/
theorem decide_monotone_dangling :
    let s : PolicyStore :=
      { records := [{ arn := "allow", name := "allow", text := ruleText .allow "s3:*" "*" }]
        attachments :=
          [{ principal := "ann", arn := "new" }, { principal := "ann", arn := "allow" }] }
    let record : ManagedPolicy :=
      { arn := "new", name := "new", text := ruleText .deny "s3:Put*" "*" }
    let t : PolicyStore := { s with records := s.records ++ [record] }
    let arn : Arn :=
      ⟨{ service := .iam, tenantPath := ⟨[1], by decide⟩, instanceId := "i", mapping := none
         resource := { type := "user", id := "ann" } }, by decide⟩
    let caller : Caller :=
      { tenantPath := arn.tenantPath, instanceId := arn.instanceId, arn, isRoot := false
        region := none, session := none }
    let config : Authorization :=
      { combining := .firstMatch, onMalformed := .fail, defaultVersion := "1" }
    let answer (store : PolicyStore) (action : String) :=
      (config.authorize store.source caller action "x").value
    s.perform (.create record) = .ok t ∧
      t.perform (.attach { principal := "ann", arn := "new" }) = .ok t ∧
      answer s "s3:Put" = .ok true ∧ answer t "s3:Put" = .ok false ∧
      answer s "ec2:Run" = .ok false ∧ answer t "ec2:Run" = .ok false ∧
      answer t "s3:Get" = .ok true ∧ answer s "s3:Get" = .ok true := by
  intro s record t arn caller config answer
  have hcreate : s.perform (.create record) = .ok t := toOption_eq_some_iff.1 (by decide +kernel)
  have hattach : t.perform (.attach { principal := "ann", arn := "new" }) = .ok t :=
    toOption_eq_some_iff.1 (by decide +kernel)
  obtain ⟨d, hparse, honly⟩ : ∃ d, Policy.parse record.text = .ok d ∧ d.Only .deny := by
    have hread : (Policy.parse record.text).toOption.map
        (fun d => d.statements.all (·.effect = .deny)) = some true := by decide +kernel
    obtain ⟨d, hd, hall⟩ := Option.map_eq_some_iff.1 hread
    refine ⟨d, toOption_eq_some_iff.1 hd, fun s hs => ?_⟩
    exact of_decide_eq_true (List.all_eq_true.1 hall s hs)
  have hmonotone (action : String) :
      (answer s action = .ok false → answer t action = .ok false) ∧
        (answer t action = .ok true → answer s action = .ok true) := by
    obtain ⟨-, -, -, -, hservice⟩ := decide_monotone config action "x"
    obtain ⟨t', u, hcreate', hattach', hanswer⟩ :=
      hservice s record "ann" d (by decide +kernel) hparse honly
    cases Except.ok.inj (hcreate.symm.trans hcreate')
    cases Except.ok.inj (hattach.symm.trans hattach')
    exact hanswer caller
  have hrefused : answer s "ec2:Run" = .ok false := toOption_eq_some_iff.1 (by decide +kernel)
  have hallowed : answer t "s3:Get" = .ok true := toOption_eq_some_iff.1 (by decide +kernel)
  exact ⟨hcreate, hattach, toOption_eq_some_iff.1 (by decide +kernel),
    toOption_eq_some_iff.1 (by decide +kernel), hrefused, (hmonotone "ec2:Run").1 hrefused,
    hallowed, (hmonotone "s3:Get").2 hallowed⟩

end Authorization

end TenantIam
