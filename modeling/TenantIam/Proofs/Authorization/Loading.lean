import TenantIam.Authorization

/-!
# Which reads loading makes

To load the policies of a principal, the attachments are listed and their records read, then the
inline policies are listed and their texts read. Here these reads are written down as a sequence of
their own, with what each of them brings and how it can end the loading.
-/

namespace TenantIam

namespace PolicySource

/-- A read that is made to load the policies of a principal. -/
inductive Read where
  /-- Lists the attachments. -/
  | attached
  /-- Reads the record of an attached resource name. -/
  | policy (arn : String)
  /-- Lists the inline policies. -/
  | inlineNames
  /-- Reads the text of an inline policy. -/
  | inlineText (name : String)

/-- What a read brings: a message when it fails, else a text with its place, unless there is
none. -/
def outcome (source : PolicySource) (principal : String) :
    Read → Except String (Option StoredPolicy)
  | .attached => (source.attached principal).map fun _ => none
  | .policy arn =>
    (source.policy arn).map fun record => record.map fun r => { source := arn, text := r.text }
  | .inlineNames => (source.inlineNames principal).map fun _ => none
  | .inlineText name =>
    (source.inlineText principal name).map fun text =>
      text.map fun text => { source := principal ++ "/" ++ name, text }

/-- What a listing names; nothing when it fails. -/
def listed : Except String (List String) → List String
  | .ok names => names
  | .error _ => []

/-- The reads for a principal in order, as if none of them ended the loading. -/
def plan (source : PolicySource) (principal : String) : List Read :=
  .attached :: ((listed (source.attached principal)).map .policy ++
    .inlineNames :: (listed (source.inlineNames principal)).map .inlineText)

def document? : Except String (Option StoredPolicy) → Option Policy.Document
  | .ok (some stored) => (Policy.checkText stored.text).toOption
  | _ => none

/-- The well-formed documents of a principal in the order of the plan. -/
def documents (source : PolicySource) (principal : String) : List Policy.Document :=
  (source.plan principal).filterMap fun read => document? (source.outcome principal read)

end PolicySource

namespace Authorization

variable {config : Authorization} {source : PolicySource} {principal : String}
variable {reads : List (Except String (Option StoredPolicy))} {error : Error}

/-- **Failures.** A read ends the loading when it does not work, and, if malformed texts are not
passed over, when it brings a text that is no policy. -/
inductive Fails (config : Authorization) (source : PolicySource) (principal : String) :
    PolicySource.Read → Error → Prop
  | unavailable {read : PolicySource.Read} {message : String}
      (houtcome : source.outcome principal read = .error message) :
      Fails config source principal read (.unavailable message)
  | malformed {read : PolicySource.Read} {stored : StoredPolicy} {issues : List Policy.Issue}
      (hmode : config.onMalformed = .fail)
      (houtcome : source.outcome principal read = .ok (some stored))
      (hissues : Policy.checkText stored.text = .error issues) :
      Fails config source principal read (.malformed stored.source issues)

def failure? (config : Authorization) : Except String (Option StoredPolicy) → Option Error
  | .error message => some (.unavailable message)
  | .ok none => none
  | .ok (some stored) =>
    match Policy.checkText stored.text, config.onMalformed with
    | .error issues, .fail => some (.malformed stored.source issues)
    | _, _ => none

theorem fails_iff {read : PolicySource.Read} :
    Fails config source principal read error ↔
      config.failure? (source.outcome principal read) = some error := by
  constructor
  · intro hfails
    cases hfails with
    | unavailable houtcome => rw [houtcome, failure?]
    | malformed hmode houtcome hissues => simp only [houtcome, failure?, hissues, hmode]
  · intro hfailure
    unfold failure? at hfailure
    split at hfailure
    · next houtcome =>
      cases hfailure
      exact .unavailable houtcome
    · cases hfailure
    · next stored houtcome =>
      split at hfailure
      · next hissues hmode =>
        cases hfailure
        exact .malformed hmode houtcome hissues
      · cases hfailure

/-- What an outcome that does not end the loading adds to the documents. -/
def kept (config : Authorization) : Except String (Option StoredPolicy) → List Policy.Document
  | .ok (some stored) =>
    match Policy.checkText stored.text with
    | .ok document => [document]
    | .error _ => [.empty config.defaultVersion]
  | _ => []

theorem value_loadReads_cons (read : Except String (Option StoredPolicy)) :
    (config.loadReads (read :: reads)).value =
      match config.failure? read with
      | some error => .error error
      | none => (config.loadReads reads).value.map (config.kept read ++ ·) := by
  rcases read with message | _ | stored
  · rfl
  · show (config.loadReads reads).value = (config.loadReads reads).value.map ([] ++ ·)
    cases (config.loadReads reads).value <;> rfl
  · cases hcheck : Policy.checkText stored.text with
    | ok document =>
        simp only [loadReads, failure?, kept, hcheck]
        rfl
    | error issues =>
        cases hmode : config.onMalformed <;> simp only [loadReads, failure?, kept, hcheck, hmode]
        rfl

/-- Loading ends with the first outcome that fails. -/
theorem loadReads_eq_error_iff :
    (config.loadReads reads).value = .error error ↔
      reads.findSome? config.failure? = some error := by
  induction reads with
  | nil => simp [loadReads]
  | cons read reads ih =>
      rw [value_loadReads_cons, List.findSome?_cons]
      cases config.failure? read with
      | some other => simp
      | none =>
          rw [← ih]
          cases (config.loadReads reads).value <;> simp [Except.map]

theorem loadReads_append_absent (before after : List (Except String (Option StoredPolicy))) :
    config.loadReads (before ++ .ok none :: after) = config.loadReads (before ++ after) := by
  induction before with
  | nil => rfl
  | cons read before ih =>
      rcases read with message | _ | stored
      · rfl
      · exact ih
      · simp only [List.cons_append, loadReads, ih]

theorem load_eq_plan :
    config.load source principal =
      config.loadReads ((source.plan principal).map (source.outcome principal)) := by
  unfold load PolicySource.reads PolicySource.managedReads PolicySource.inlineReads
    PolicySource.plan
  cases hattached : source.attached principal with
  | error message =>
      -- the failed listing comes first on both sides and hides the rest
      have houtcome : source.outcome principal .attached = .error message := by
        simp [PolicySource.outcome, hattached, Except.map]
      rw [List.map_cons, houtcome]
      rfl
  | ok arns =>
      have houtcome : source.outcome principal .attached = .ok none := by
        simp [PolicySource.outcome, hattached, Except.map]
      have hskip (rest : List (Except String (Option StoredPolicy))) :
          config.loadReads (.ok none :: rest) = config.loadReads rest := rfl
      rw [List.map_cons, houtcome, hskip, List.map_append, List.map_cons]
      cases hnames : source.inlineNames principal with
      | error message =>
          have hlisting : source.outcome principal .inlineNames = .error message := by
            simp [PolicySource.outcome, hnames, Except.map]
          rw [hlisting, List.map_map]
          rfl
      | ok names =>
          have hlisting : source.outcome principal .inlineNames = .ok none := by
            simp [PolicySource.outcome, hnames, Except.map]
          rw [hlisting, loadReads_append_absent, List.map_map, List.map_map]
          rfl

/-- **Loading fails at the first failure.** It ends with an error exactly when some read of the plan
fails with that error and none before it fails. -/
theorem load_eq_error_iff :
    (config.load source principal).value = .error error ↔
      ∃ before read after, source.plan principal = before ++ read :: after ∧
        (∀ earlier ∈ before, ∀ other, ¬ Fails config source principal earlier other) ∧
        Fails config source principal read error := by
  rw [load_eq_plan, loadReads_eq_error_iff, List.findSome?_map,
    List.findSome?_eq_some_iff]
  have hpasses (read : PolicySource.Read) :
      (∀ other, ¬ Fails config source principal read other) ↔
        config.failure? (source.outcome principal read) = none := by
    rw [Option.eq_none_iff_forall_ne_some]
    exact forall_congr' fun other => not_congr fails_iff
  constructor
  · rintro ⟨before, read, after, hplan, hread, hbefore⟩
    exact ⟨before, read, after, hplan,
      fun earlier hmem => (hpasses earlier).2 (hbefore earlier hmem), fails_iff.2 hread⟩
  · rintro ⟨before, read, after, hplan, hbefore, hread⟩
    exact ⟨before, read, after, hplan, fails_iff.1 hread,
      fun earlier hmem => (hpasses earlier).1 (hbefore earlier hmem)⟩

theorem exists_load_eq_ok
    (hpasses : ∀ read ∈ source.plan principal, ∀ other,
      ¬ Fails config source principal read other) :
    ∃ documents, (config.load source principal).value = .ok documents := by
  cases hload : (config.load source principal).value with
  | ok documents => exact ⟨documents, rfl⟩
  | error error =>
      obtain ⟨before, read, after, hplan, -, hread⟩ := load_eq_error_iff.1 hload
      have hmem : read ∈ source.plan principal := by simp [hplan]
      exact absurd hread (hpasses read hmem error)

section Settle

variable {combining : CombiningRule} {action resource : String} {documents : List Policy.Document}

/-- The document that stands in for a malformed text decides nothing. -/
theorem settle_empty {allowed : Bool} {version : String} :
    settle combining action resource allowed (.empty version :: documents) =
      settle combining action resource allowed documents := by
  have hnone : (Policy.Document.empty version).decide action resource = none := by
    simp [Policy.Document.decide, Policy.Document.empty]
  simp only [settle, hnone]

theorem settle_kept {allowed : Bool} (read : Except String (Option StoredPolicy)) :
    settle combining action resource allowed (config.kept read ++ documents) =
      settle combining action resource allowed
        ((PolicySource.document? read).toList ++ documents) := by
  rcases read with message | _ | stored
  · rfl
  · rfl
  · unfold kept PolicySource.document?
    dsimp only
    cases Policy.checkText stored.text with
    | ok document => rfl
    | error issues => exact settle_empty

/-- The first document of two lists is settled before the rest, so the rest may be replaced by what
settles in the same way. -/
theorem settle_append_congr {first documents' : List Policy.Document}
    (hrest : ∀ allowed, settle combining action resource allowed documents =
      settle combining action resource allowed documents') (allowed : Bool) :
    settle combining action resource allowed (first ++ documents) =
      settle combining action resource allowed (first ++ documents') := by
  induction first generalizing allowed with
  | nil => exact hrest allowed
  | cons d first ih => simp only [List.cons_append, settle, ih]

theorem settle_loadReads (hload : (config.loadReads reads).value = .ok documents)
    (allowed : Bool) :
    settle combining action resource allowed documents =
      settle combining action resource allowed (reads.filterMap PolicySource.document?) := by
  induction reads generalizing documents allowed with
  | nil =>
      cases hload
      rfl
  | cons read reads ih =>
      rw [value_loadReads_cons] at hload
      cases hfailure : config.failure? read with
      | some error => simp [hfailure] at hload
      | none =>
          cases hrest : (config.loadReads reads).value with
          | error error => simp [hfailure, hrest, Except.map] at hload
          | ok rest =>
              have hdocuments : config.kept read ++ rest = documents := by
                simpa [hfailure, hrest, Except.map] using hload
              -- what is kept of this read and its document differ by an empty document at most
              have hread : (read :: reads).filterMap PolicySource.document? =
                  (PolicySource.document? read).toList ++
                    reads.filterMap PolicySource.document? := by
                cases hdocument : PolicySource.document? read <;> simp [hdocument]
              rw [← hdocuments, hread, settle_kept]
              exact settle_append_congr (ih hrest) allowed

/-- What is loaded decides as the well-formed documents of the plan do. -/
theorem settle_load {allowed : Bool}
    (hload : (config.load source principal).value = .ok documents) :
    settle combining action resource allowed documents =
      settle combining action resource allowed (source.documents principal) := by
  rw [load_eq_plan] at hload
  rw [settle_loadReads hload, List.filterMap_map]
  rfl

end Settle

end Authorization

end TenantIam
