import TenantIam.Proofs.Policy.Reflection

/-!
# What a policy store shows

What is listed for a principal and in which order, which policy is found and which change is refused
depends on the history of the store only, and of the history on the changes of that one thing. So a
change that is refused is as good as never made, and a change of one thing is not noticed by who
looks at another.
-/

namespace TenantIam.PolicyStore

variable {s t : PolicyStore} {done done' before after : List Operation}
variable {operation : Operation} {x : Subject} {principal : String}

/-! ## What is shown -/

/-- **Showing a history.** What is attached to a principal are the resource names that were attached
and not detached since, each once and in the order in which they came, and so are the names of its
inline policies. The policy that is found is the one that was added last, unless it was removed. -/
structure Shows (s : PolicyStore) (done : List Operation) : Prop where
  nodup_attached : ∀ principal, (s.attached principal).Nodup
  mem_attached_iff : ∀ principal arn,
    arn ∈ s.attached principal ↔ Stands done (.attached ⟨principal, arn⟩)
  attached_in_order : ∀ principal, (s.attached principal).Pairwise fun a b =>
    Precedes done (.attached ⟨principal, a⟩) (.attached ⟨principal, b⟩)
  nodup_inlineNames : ∀ principal, (s.inlineNames principal).Nodup
  mem_inlineNames_iff : ∀ principal name,
    name ∈ s.inlineNames principal ↔ Stands done (.inlined principal name)
  inlineNames_in_order : ∀ principal, (s.inlineNames principal).Pairwise fun a b =>
    Precedes done (.inlined principal a) (.inlined principal b)
  inline?_eq : ∀ principal name,
    s.inline? principal name = (latest? done (.inlined principal name)).bind (·.inlined?)
  policy?_eq : ∀ arn, s.policy? arn = (latest? done (.managed arn)).bind (·.record?)

theorem Reflects.shows (h : s.Reflects done) : s.Shows done where
  nodup_attached principal := by
    rw [h.attached_eq]
    exact (Subject.names_arnFor? principal).nodup_standing done
  mem_attached_iff principal arn := by
    rw [h.attached_eq]
    exact (Subject.names_arnFor? principal).mem_standing_iff
  attached_in_order principal := by
    rw [h.attached_eq]
    exact (Subject.names_arnFor? principal).pairwise_standing done
  nodup_inlineNames principal := by
    rw [h.inlineNames_eq]
    exact (Subject.names_nameFor? principal).nodup_standing done
  mem_inlineNames_iff principal name := by
    rw [h.inlineNames_eq]
    exact (Subject.names_nameFor? principal).mem_standing_iff
  inlineNames_in_order principal := by
    rw [h.inlineNames_eq]
    exact (Subject.names_nameFor? principal).pairwise_standing done
  inline?_eq := h.inline?_eq
  policy?_eq := h.policy?_eq

/-! ## What is refused -/

/-- A history does not admit a change: what is to be created is there, or what is to be removed is
not. -/
def Operation.IsRefusedAfter (done : List Operation) (operation : Operation) : Prop :=
  match operation with
  | .create _ => Stands done operation.subject
  | .attach _ | .putInline _ => False
  | .delete _ | .detach _ | .deleteInline _ _ => ¬ Stands done operation.subject

theorem Operation.isRefusedAfter_congr
    (h : Stands done operation.subject ↔ Stands done' operation.subject) :
    operation.IsRefusedAfter done ↔ operation.IsRefusedAfter done' := by
  cases operation with
  | create record => exact h
  | attach a => exact Iff.rfl
  | putInline policy => exact Iff.rfl
  | delete arn => exact not_congr h
  | detach a => exact not_congr h
  | deleteInline principal name => exact not_congr h

theorem subject_of_latest? (hlatest : latest? done x = some operation) : operation.subject = x := by
  have hmem := List.mem_of_getLast? hlatest
  simpa using (List.mem_filter.1 hmem).2

/-- A thing is there when the last change of it leaves something. -/
theorem isSome_bind_latest?_iff {α : Type} {f : Operation → Option α}
    (hleaves : ∀ operation, operation.subject = x →
      ((f operation).isSome = true ↔ operation.Adds)) :
    ((latest? done x).bind f).isSome = true ↔ Stands done x := by
  unfold Stands
  cases hlatest : latest? done x with
  | none => simp
  | some operation => simp [hleaves operation (subject_of_latest? hlatest)]

namespace Reflects

theorem isSome_policy?_iff (h : s.Reflects done) {arn : String} :
    (s.policy? arn).isSome = true ↔ Stands done (.managed arn) := by
  rw [h.policy?_eq]
  refine isSome_bind_latest?_iff fun operation hsubject => ?_
  cases operation <;> simp_all [Operation.subject, Operation.Adds]

theorem isSome_inline?_iff (h : s.Reflects done) {principal name : String} :
    (s.inline? principal name).isSome = true ↔ Stands done (.inlined principal name) := by
  rw [h.inline?_eq]
  refine isSome_bind_latest?_iff fun operation hsubject => ?_
  cases operation <;> simp_all [Operation.subject, Operation.Adds]

theorem mem_attachments_iff (h : s.Reflects done) {a : Attachment} :
    a ∈ s.attachments ↔ Stands done (.attached a) := by
  rw [h.attachments_eq]
  exact Subject.names_attachment?.mem_standing_iff

theorem admits_iff (h : s.Reflects done) :
    s.Admits operation ↔ ¬ operation.IsRefusedAfter done := by
  cases operation with
  | create record =>
      show s.policy? record.arn = none ↔ ¬ Stands done (.managed record.arn)
      rw [← h.isSome_policy?_iff]
      simp
  | attach a => exact iff_of_true trivial id
  | putInline policy => exact iff_of_true trivial id
  | delete arn => exact h.isSome_policy?_iff.trans not_not.symm
  | detach a => exact h.mem_attachments_iff.trans not_not.symm
  | deleteInline principal name => exact h.isSome_inline?_iff.trans not_not.symm

theorem refused_iff (h : s.Reflects done) :
    (∃ refusal, s.perform operation = .error refusal) ↔ operation.IsRefusedAfter done := by
  rw [exists_refusal_iff, h.admits_iff, not_not]

end Reflects

/-- A change that is refused is as good as not made. -/
theorem run_of_refused (s : PolicyStore)
    (hrefused : ∃ refusal, (s.run before).perform operation = .error refusal) :
    s.run (before ++ operation :: after) = s.run (before ++ after) := by
  have hstays : (s.run before).after operation = s.run before :=
    after_of_not_admits (exists_refusal_iff.1 hrefused)
  calc s.run (before ++ operation :: after)
      = ((s.run before).after operation).run after := List.foldl_append
    _ = (s.run before).run after := by rw [hstays]
    _ = s.run (before ++ after) := List.foldl_append.symm

/-- **Independence.** Of some of the things, those changes are refused that are refused when the
changes of other things are left out. -/
theorem accepted_filter {p : Subject → Prop} [DecidablePred p] (hs : s.Reflects done)
    (ht : t.Reflects (done.filter fun o => p o.subject)) (operations : List Operation) :
    (s.accepted operations).filter (fun o => p o.subject) =
      t.accepted (operations.filter fun o => p o.subject) := by
  induction operations generalizing s t done with
  | nil => rfl
  | cons operation operations ih =>
      by_cases hp : p operation.subject
      · -- both stores admit the change, or both refuse it
        have hboth : s.Admits operation ↔ t.Admits operation := by
          rw [hs.admits_iff, ht.admits_iff]
          exact not_congr (Operation.isRefusedAfter_congr (stands_filter_iff hp).symm)
        rw [List.filter_cons_of_pos (by simpa using hp)]
        by_cases hadmits : s.Admits operation
        · have ht' : (t.changed operation).Reflects
              ((done ++ [operation]).filter fun o => p o.subject) := by
            simpa [List.filter_append, hp] using ht.changed (hboth.1 hadmits)
          rw [accepted_of_admits hadmits, accepted_of_admits (hboth.1 hadmits),
            List.filter_cons_of_pos (by simpa using hp), ih (hs.changed hadmits) ht']
        · rw [accepted_of_not_admits hadmits, accepted_of_not_admits (mt hboth.2 hadmits)]
          exact ih hs ht
      · rw [List.filter_cons_of_neg (by simpa using hp)]
        by_cases hadmits : s.Admits operation
        · have ht' : t.Reflects ((done ++ [operation]).filter fun o => p o.subject) := by
            simpa [List.filter_append, hp] using ht
          rw [accepted_of_admits hadmits, List.filter_cons_of_neg (by simpa using hp)]
          exact ih (hs.changed hadmits) ht'
        · rw [accepted_of_not_admits hadmits]
          exact ih hs ht

/-! ## What a change does not matter to -/

/-- Whom a thing belongs to; a managed policy belongs to nobody. -/
def Subject.principal? : Subject → Option String
  | .managed _ => none
  | .attached attachment => some attachment.principal
  | .inlined principal _ => some principal

/-- **Agreement.** Two stores show the same of all things but one, and refuse the same changes of
the other things. -/
structure AgreeApartFrom (s t : PolicyStore) (x : Subject) : Prop where
  attached_eq : ∀ principal,
    (s.attached principal).filter (fun arn => Subject.attached ⟨principal, arn⟩ ≠ x) =
      (t.attached principal).filter fun arn => Subject.attached ⟨principal, arn⟩ ≠ x
  inlineNames_eq : ∀ principal,
    (s.inlineNames principal).filter (fun name => Subject.inlined principal name ≠ x) =
      (t.inlineNames principal).filter fun name => Subject.inlined principal name ≠ x
  inline?_eq : ∀ principal name, Subject.inlined principal name ≠ x →
    s.inline? principal name = t.inline? principal name
  policy?_eq : ∀ arn, Subject.managed arn ≠ x → s.policy? arn = t.policy? arn
  refused_iff : ∀ operation, operation.subject ≠ x → ∀ refusal,
    s.perform operation = .error refusal ↔ t.perform operation = .error refusal

/-- Stores with the same history apart from the changes of a thing agree apart from it. -/
theorem Reflects.agreeApartFrom (hs : s.Reflects done) (ht : t.Reflects done')
    (hsame : (done.filter fun o => o.subject ≠ x) = done'.filter fun o => o.subject ≠ x) :
    s.AgreeApartFrom t x := by
  have hlatest {y : Subject} (hy : y ≠ x) : latest? done y = latest? done' y := by
    rw [← latest?_filter (p := (· ≠ x)) hy done, hsame, latest?_filter (p := (· ≠ x)) hy]
  refine ⟨fun principal => ?_, fun principal => ?_, fun principal name hne => ?_,
    fun arn hne => ?_, fun operation hne refusal => ?_⟩
  · have hnames := (Subject.names_arnFor? principal).filter_standing (p := (· ≠ x))
    rw [hs.attached_eq, ht.attached_eq, hnames, hnames, hsame]
  · have hnames := (Subject.names_nameFor? principal).filter_standing (p := (· ≠ x))
    rw [hs.inlineNames_eq, ht.inlineNames_eq, hnames, hnames, hsame]
  · rw [hs.inline?_eq, ht.inline?_eq, hlatest hne]
  · rw [hs.policy?_eq, ht.policy?_eq, hlatest hne]
  · have hstands : Stands done operation.subject ↔ Stands done' operation.subject := by
      unfold Stands
      rw [hlatest hne]
    rw [perform_eq_error_iff, perform_eq_error_iff, hs.admits_iff, ht.admits_iff,
      Operation.isRefusedAfter_congr hstands]

/-- Two stores show the same for a principal. -/
structure AgreeFor (s t : PolicyStore) (principal : String) : Prop where
  attached_eq : s.attached principal = t.attached principal
  inlineNames_eq : s.inlineNames principal = t.inlineNames principal
  inline?_eq : ∀ name, s.inline? principal name = t.inline? principal name

/-- Everything of a principal to whom a thing does not belong is apart from it. -/
theorem AgreeApartFrom.agreeFor (h : s.AgreeApartFrom t x)
    (hne : x.principal? ≠ some principal) : s.AgreeFor t principal := by
  have hattached (arn : String) : Subject.attached ⟨principal, arn⟩ ≠ x := by
    rintro rfl
    exact hne rfl
  have hinlined (name : String) : Subject.inlined principal name ≠ x := by
    rintro rfl
    exact hne rfl
  constructor
  · simpa [hattached] using h.attached_eq principal
  · simpa [hinlined] using h.inlineNames_eq principal
  · exact fun name => h.inline?_eq principal name (hinlined name)

/-- **Confinement.** A change among others is refused when the history before it does not admit it,
and then the store is the one without it. Made or not, it matters only to what it is about, and so
to no principal but the one to whom that belongs. -/
structure IsConfined (before : List Operation) (operation : Operation) (after : List Operation) :
    Prop where
  refused_iff : (∃ refusal, (({} : PolicyStore).run before).perform operation = .error refusal) ↔
    operation.IsRefusedAfter (({} : PolicyStore).accepted before)
  eq_of_refused : (∃ refusal, (({} : PolicyStore).run before).perform operation = .error refusal) →
    ({} : PolicyStore).run (before ++ operation :: after) = ({} : PolicyStore).run (before ++ after)
  agreeApartFrom : (({} : PolicyStore).run (before ++ operation :: after)).AgreeApartFrom
    (({} : PolicyStore).run (before ++ after)) operation.subject
  agreeFor : ∀ principal, operation.subject.principal? ≠ some principal →
    (({} : PolicyStore).run (before ++ operation :: after)).AgreeFor
      (({} : PolicyStore).run (before ++ after)) principal

theorem isConfined (before : List Operation) (operation : Operation) (after : List Operation) :
    IsConfined before operation after := by
  have hsame : ((({} : PolicyStore).accepted (before ++ operation :: after)).filter
        fun o => o.subject ≠ operation.subject) =
      (({} : PolicyStore).accepted (before ++ after)).filter
        fun o => o.subject ≠ operation.subject := by
    rw [accepted_filter (p := (· ≠ operation.subject)) reflects_nil reflects_nil,
      accepted_filter (p := (· ≠ operation.subject)) reflects_nil reflects_nil, List.filter_append,
      List.filter_append, List.filter_cons_of_neg (by simp)]
  have hagree := (reflects_run (before ++ operation :: after)).agreeApartFrom
    (reflects_run (before ++ after)) hsame
  exact {
    refused_iff := (reflects_run before).refused_iff
    eq_of_refused := run_of_refused {}
    agreeApartFrom := hagree
    agreeFor := fun principal hne => hagree.agreeFor hne }

/-- **What a store shows.** After any changes a store shows what those of them left that were not
refused, and any change among others is confined to what it is about. -/
theorem run_observed :
    (∀ operations, (({} : PolicyStore).run operations).Shows
      (({} : PolicyStore).accepted operations)) ∧
    ∀ before operation after, IsConfined before operation after :=
  ⟨fun operations => (reflects_run operations).shows, isConfined⟩

/-- A policy that is attached anew after it was detached comes after one that was attached
meanwhile, and one that is merely attached again stays where it is. Creating a policy that is there
is as good as not creating it. -/
theorem run_observed_anew :
    let operations : List Operation :=
      [.attach ⟨"u", "b"⟩, .attach ⟨"u", "a"⟩, .detach ⟨"u", "b"⟩, .attach ⟨"u", "b"⟩,
        .attach ⟨"u", "a"⟩]
    let record : ManagedPolicy := ⟨"p", "n", "x"⟩
    ((({} : PolicyStore).run operations).attached "u" = ["a", "b"] ∧
      Precedes (({} : PolicyStore).accepted operations) (.attached ⟨"u", "a"⟩)
        (.attached ⟨"u", "b"⟩)) ∧
    ({} : PolicyStore).run [.create record, .create { record with text := "y" }, .delete "q"] =
      ({} : PolicyStore).run [.create record, .delete "q"] := by
  intro operations record
  have hlisted : (({} : PolicyStore).run operations).attached "u" = ["a", "b"] := by decide
  have horder := (run_observed.1 operations).attached_in_order "u"
  rw [hlisted] at horder
  have hconfined :=
    run_observed.2 [.create record] (.create { record with text := "y" }) [.delete "q"]
  exact ⟨⟨hlisted, List.rel_of_pairwise_cons horder (List.mem_singleton.2 rfl)⟩,
    hconfined.eq_of_refused ⟨_, rfl⟩⟩

end TenantIam.PolicyStore
