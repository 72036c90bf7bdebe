import Mathlib.Data.List.Perm.Basic
import TenantIam.Proofs.Policy.Matching

/-!
# What policies say together

Documents are decided one by one and their answers are combined. The outcome is that of the bare set
of statements: how the statements are ordered, repeated or divided into documents does not matter,
and neither does the order of the patterns in a statement.
-/

namespace TenantIam.Policy

variable {documents documents' : List Document} {d : Document} {s : Statement}
variable {action resource : Utf16} {effect : Effect}

def statementsOf (documents : List Document) : List Statement :=
  documents.flatMap (·.statements)

theorem mem_statementsOf_iff :
    s ∈ statementsOf documents ↔ ∃ d ∈ documents, s ∈ d.statements :=
  List.mem_flatMap

/-- One of the statements is about the request and has the effect. -/
def Speaks (effect : Effect) (statements : List Statement) (action resource : Utf16) : Prop :=
  ∃ s ∈ statements, s.Matches action resource ∧ s.effect = effect

theorem decide_eq_deny_iff_speaks :
    d.decide action resource = some .deny ↔ Speaks .deny d.statements action resource :=
  Document.decide_eq_deny_iff

theorem decide_eq_allow_iff_speaks :
    d.decide action resource = some .allow ↔
      Speaks .allow d.statements action resource ∧ ¬ Speaks .deny d.statements action resource := by
  rw [Document.decide_eq_allow_iff]
  simp only [Speaks, not_exists, not_and, ne_eq]

/-- What documents say is said by one of them. -/
theorem speaks_statementsOf_iff :
    Speaks effect (statementsOf documents) action resource ↔
      ∃ d ∈ documents, Speaks effect d.statements action resource := by
  constructor
  · rintro ⟨s, hs, hspeaks⟩
    obtain ⟨d, hd, hs⟩ := mem_statementsOf_iff.1 hs
    exact ⟨d, hd, s, hs, hspeaks⟩
  · rintro ⟨d, hd, s, hs, hspeaks⟩
    exact ⟨s, mem_statementsOf_iff.2 ⟨d, hd, hs⟩, hspeaks⟩

/-- Going through documents in order finds whether one of them denies and, if none does, whether one
allows. -/
theorem evaluateFrom_eq (allowed : Bool) (documents : List Document) :
    evaluateFrom action resource allowed documents =
      if some .deny ∈ documents.map (·.decide action resource) then .deny
      else if allowed = true ∨ some .allow ∈ documents.map (·.decide action resource) then .allow
      else .implicitDeny := by
  induction documents generalizing allowed with
  | nil => simp [evaluateFrom]
  | cons d documents ih =>
      unfold evaluateFrom
      cases hd : d.decide action resource with
      | none => simp [ih, hd]
      | some effect =>
          cases effect with
          | deny => simp [hd]
          | allow => simp [ih, hd]

theorem evaluate_eq :
    evaluate documents action resource =
      if some .deny ∈ documents.map (·.decide action resource) then .deny
      else if some .allow ∈ documents.map (·.decide action resource) then .allow
      else .implicitDeny := by
  rw [evaluate, evaluateFrom_eq]
  simp only [Bool.false_eq_true, false_or]

theorem deny_mem_decisions_iff :
    some .deny ∈ documents.map (·.decide action resource) ↔
      Speaks .deny (statementsOf documents) action resource := by
  simp only [List.mem_map, decide_eq_deny_iff_speaks, speaks_statementsOf_iff]

/-- Where no document denies, a statement that allows makes its document allow. -/
theorem allow_mem_decisions_iff
    (hdeny : ¬ Speaks .deny (statementsOf documents) action resource) :
    some .allow ∈ documents.map (·.decide action resource) ↔
      Speaks .allow (statementsOf documents) action resource := by
  rw [speaks_statementsOf_iff] at hdeny ⊢
  rw [List.mem_map]
  constructor
  · rintro ⟨d, hd, hallow⟩
    exact ⟨d, hd, (decide_eq_allow_iff_speaks.1 hallow).1⟩
  · rintro ⟨d, hd, hallow⟩
    -- a document that holds a statement to allow is kept from allowing only by its own denials
    have hsilent : ¬ Speaks .deny d.statements action resource := fun h => hdeny ⟨d, hd, h⟩
    exact ⟨d, hd, decide_eq_allow_iff_speaks.2 ⟨hallow, hsilent⟩⟩

theorem evaluate_eq_deny_iff :
    evaluate documents action resource = .deny ↔
      Speaks .deny (statementsOf documents) action resource := by
  rw [← deny_mem_decisions_iff, evaluate_eq]
  split
  · next hdeny => simp [hdeny]
  · next hdeny => split <;> simp [hdeny]

theorem evaluate_eq_allow_iff :
    evaluate documents action resource = .allow ↔
      ¬ Speaks .deny (statementsOf documents) action resource ∧
        Speaks .allow (statementsOf documents) action resource := by
  by_cases hdeny : Speaks .deny (statementsOf documents) action resource
  · have hdecision := evaluate_eq_deny_iff.2 hdeny
    simp [hdecision, hdeny]
  · rw [← allow_mem_decisions_iff hdeny]
    have hnone := mt deny_mem_decisions_iff.1 hdeny
    rw [evaluate_eq, if_neg hnone]
    split
    · next hallow => simp [hdeny, hallow]
    · next hallow => simp [hallow]

theorem evaluate_eq_implicitDeny_iff :
    evaluate documents action resource = .implicitDeny ↔
      ¬ Speaks .deny (statementsOf documents) action resource ∧
        ¬ Speaks .allow (statementsOf documents) action resource := by
  constructor
  · intro hdecision
    have hdeny : ¬ Speaks .deny (statementsOf documents) action resource := by
      rw [← evaluate_eq_deny_iff, hdecision]
      exact Decision.noConfusion
    refine ⟨hdeny, fun hallow => ?_⟩
    rw [evaluate_eq_allow_iff.2 ⟨hdeny, hallow⟩] at hdecision
    cases hdecision
  · rintro ⟨hdeny, hallow⟩
    cases hdecision : evaluate documents action resource with
    | deny => exact absurd (evaluate_eq_deny_iff.1 hdecision) hdeny
    | allow => exact absurd (evaluate_eq_allow_iff.1 hdecision).2 hallow
    | implicitDeny => rfl

theorem allows_iff :
    allows documents action resource = true ↔
      Speaks .allow (statementsOf documents) action resource ∧
        ¬ Speaks .deny (statementsOf documents) action resource := by
  rw [allows, decide_eq_true_iff, evaluate_eq_allow_iff]
  exact And.comm

theorem evaluate_congr
    (hspeaks : ∀ effect, Speaks effect (statementsOf documents) action resource ↔
      Speaks effect (statementsOf documents') action resource) :
    evaluate documents action resource = evaluate documents' action resource := by
  cases hdecision : evaluate documents' action resource with
  | deny => rwa [evaluate_eq_deny_iff, hspeaks, ← evaluate_eq_deny_iff]
  | allow => rwa [evaluate_eq_allow_iff, hspeaks, hspeaks, ← evaluate_eq_allow_iff]
  | implicitDeny =>
      rwa [evaluate_eq_implicitDeny_iff, hspeaks, hspeaks, ← evaluate_eq_implicitDeny_iff]

/-- **Other arrangements.** Documents, the statements of one of them or the patterns of one
statement are put into another order; a statement is repeated; statements are divided among
documents in another way; and any number of such changes, there and back. -/
inductive Rearranged : List Document → List Document → Prop
  | documents {documents documents' : List Document} (hperm : documents.Perm documents') :
      Rearranged documents documents'
  | statements (before after : List Document) (d : Document) {statements : List Statement}
      (hperm : d.statements.Perm statements) :
      Rearranged (before ++ d :: after) (before ++ { d with statements } :: after)
  | patterns (before after : List Document) (d : Document) (above below : List Statement)
      (s : Statement) {actions resources : List Utf16}
      (hstatements : d.statements = above ++ s :: below)
      (hactions : s.actions.Perm actions) (hresources : s.resources.Perm resources) :
      Rearranged (before ++ d :: after)
        (before ++
          { d with statements := above ++ { s with actions, resources } :: below } :: after)
  | duplicate (before after : List Document) (d : Document) (above below : List Statement)
      (s : Statement) (hstatements : d.statements = above ++ below) (hs : s ∈ d.statements) :
      Rearranged (before ++ d :: after)
        (before ++ { d with statements := above ++ s :: below } :: after)
  | regroup {documents documents' : List Document}
      (hsame : ∀ s, s ∈ statementsOf documents ↔ s ∈ statementsOf documents') :
      Rearranged documents documents'
  | symm {documents documents' : List Document} (h : Rearranged documents documents') :
      Rearranged documents' documents
  | trans {documents documents' documents'' : List Document} (h : Rearranged documents documents')
      (h' : Rearranged documents' documents'') : Rearranged documents documents''

/-- The order of its patterns does not change what a statement is about. -/
theorem Statement.matches_perm_iff {actions resources : List Utf16}
    (hactions : s.actions.Perm actions) (hresources : s.resources.Perm resources) :
    { s with actions, resources }.Matches action resource ↔ s.Matches action resource := by
  simp only [Statement.Matches, hactions.mem_iff, hresources.mem_iff]

theorem speaks_congr_mem {statements statements' : List Statement}
    (hsame : ∀ s, s ∈ statements ↔ s ∈ statements') :
    Speaks effect statements action resource ↔ Speaks effect statements' action resource := by
  simp only [Speaks, hsame]

/-- What the documents around one of them say does not matter to a change of that one. -/
theorem speaks_congr_within {before after : List Document} {d d' : Document}
    (hspeaks : Speaks effect d.statements action resource ↔
      Speaks effect d'.statements action resource) :
    Speaks effect (statementsOf (before ++ d :: after)) action resource ↔
      Speaks effect (statementsOf (before ++ d' :: after)) action resource := by
  simp only [speaks_statementsOf_iff, List.mem_append, List.mem_cons, or_and_right, exists_or,
    exists_eq_left, hspeaks]

/-- **What is said stays.** No rearrangement changes what the statements say about a request. -/
theorem Rearranged.speaks_iff (h : Rearranged documents documents') :
    Speaks effect (statementsOf documents) action resource ↔
      Speaks effect (statementsOf documents') action resource := by
  induction h with
  | documents hperm => exact speaks_congr_mem fun s => (hperm.flatMap_right _).mem_iff
  | statements before after d hperm =>
      apply speaks_congr_within
      exact speaks_congr_mem fun s => hperm.mem_iff
  | patterns before after d above below s hstatements hactions hresources =>
      apply speaks_congr_within
      simp only [Speaks, hstatements, List.mem_append, List.mem_cons, or_and_right, exists_or,
        exists_eq_left, Statement.matches_perm_iff hactions hresources]
  | duplicate before after d above below s hstatements hs =>
      apply speaks_congr_within
      apply speaks_congr_mem
      intro t
      rw [hstatements] at hs ⊢
      simp only [List.mem_append, List.mem_cons] at hs ⊢
      constructor
      · rintro (habove | hbelow)
        · exact .inl habove
        · exact .inr (.inr hbelow)
      · rintro (habove | rfl | hbelow)
        · exact .inl habove
        · -- the statement that is repeated was there before
          exact hs
        · exact .inr hbelow
  | regroup hsame => exact speaks_congr_mem hsame
  | symm _ ih => exact ih.symm
  | trans _ _ ih ih' => exact ih.trans ih'

theorem allows_perm (hperm : documents.Perm documents') :
    allows documents action resource = allows documents' action resource := by
  have hsame : evaluate documents action resource = evaluate documents' action resource :=
    evaluate_congr fun _ => (Rearranged.documents hperm).speaks_iff
  rw [allows, allows, hsame]

/-- **Denials win.** A statement is about a request when one of its action patterns and one of its
resource patterns match; the decision is to deny when such a statement denies, to allow when none
denies and one allows, and to deny implicitly when there is none. So documents that differ in the
arrangement of their statements alone lead to the same decision. -/
theorem evaluate_denyOverrides (documents : List Document) (action resource : Utf16) :
    (∀ s : Statement, s.applies action resource = true ↔
      (∃ p ∈ s.actions, Wildcard.covers p action = true) ∧
        ∃ p ∈ s.resources, Wildcard.covers p resource = true) ∧
    (evaluate documents action resource = .deny ↔
      ∃ d ∈ documents, ∃ s ∈ d.statements, s.applies action resource = true ∧ s.effect = .deny) ∧
    (evaluate documents action resource = .allow ↔
      (¬ ∃ d ∈ documents, ∃ s ∈ d.statements,
        s.applies action resource = true ∧ s.effect = .deny) ∧
      ∃ d ∈ documents, ∃ s ∈ d.statements, s.applies action resource = true ∧ s.effect = .allow) ∧
    (evaluate documents action resource = .implicitDeny ↔
      ∀ d ∈ documents, ∀ s ∈ d.statements, s.applies action resource = false) ∧
    ∀ documents', Rearranged documents documents' →
      evaluate documents' action resource = evaluate documents action resource := by
  have hspeaks (effect : Effect) : Speaks effect (statementsOf documents) action resource ↔
      ∃ d ∈ documents, ∃ s ∈ d.statements,
        s.applies action resource = true ∧ s.effect = effect := by
    rw [speaks_statementsOf_iff]
    simp only [Speaks, Statement.applies_iff]
  refine ⟨fun s => Statement.applies_iff, ?_, ?_, ?_, ?_⟩
  · rw [evaluate_eq_deny_iff, hspeaks]
  · rw [evaluate_eq_allow_iff, hspeaks, hspeaks]
  · rw [evaluate_eq_implicitDeny_iff, hspeaks, hspeaks]
    constructor
    · rintro ⟨hdeny, hallow⟩ d hd s hs
      rw [Bool.eq_false_iff]
      intro happlies
      cases heffect : s.effect with
      | allow => exact hallow ⟨d, hd, s, hs, happlies, heffect⟩
      | deny => exact hdeny ⟨d, hd, s, hs, happlies, heffect⟩
    · intro hnone
      constructor
      · rintro ⟨d, hd, s, hs, happlies, -⟩
        exact Bool.false_ne_true ((hnone d hd s hs).symm.trans happlies)
      · rintro ⟨d, hd, s, hs, happlies, -⟩
        exact Bool.false_ne_true ((hnone d hd s hs).symm.trans happlies)
  · intro documents' h
    exact evaluate_congr fun effect => h.symm.speaks_iff

/-- A denial between permissions: merged into one document, with the patterns the other way round
and a statement twice, the statements still deny what is denied and allow the rest. -/
theorem evaluate_denyOverrides_merged :
    let rule (effect : Effect) (actions : List Utf16) : Statement :=
      { sid := none, effect, actions, resources := ["*"], condition := none }
    let document (statements : List Statement) : Document := { version := "1", statements }
    let apart : List Document :=
      [document [rule .allow ["s3:*", "iam:*"]], document [rule .deny ["s3:Put*"]]]
    let merged : List Document :=
      [document [rule .deny ["s3:Put*"], rule .allow ["iam:*", "s3:*"], rule .deny ["s3:Put*"]]]
    Rearranged apart merged ∧
      evaluate merged "s3:PutObject" "x" = .deny ∧ evaluate merged "s3:GetObject" "x" = .allow ∧
      evaluate merged "ec2:Run" "x" = .implicitDeny := by
  intro rule document apart merged
  have hpatterns : Rearranged apart
      [document [rule .allow ["iam:*", "s3:*"]], document [rule .deny ["s3:Put*"]]] :=
    .patterns [] [document [rule .deny ["s3:Put*"]]] (document [rule .allow ["s3:*", "iam:*"]])
      [] [] (rule .allow ["s3:*", "iam:*"]) rfl (.swap _ _ _) (.refl _)
  have hmerged : Rearranged apart merged := by
    refine hpatterns.trans (.regroup fun s => ?_)
    simp only [statementsOf, document, merged, List.flatMap_cons, List.flatMap_nil,
      List.append_nil, List.mem_append, List.mem_cons, List.not_mem_nil, or_false]
    tauto
  refine ⟨hmerged, ?_, ?_, ?_⟩
  · rw [(evaluate_denyOverrides apart "s3:PutObject" "x").2.2.2.2 merged hmerged]
    decide
  · rw [(evaluate_denyOverrides apart "s3:GetObject" "x").2.2.2.2 merged hmerged]
    decide
  · rw [(evaluate_denyOverrides apart "ec2:Run" "x").2.2.2.2 merged hmerged]
    decide

end TenantIam.Policy
