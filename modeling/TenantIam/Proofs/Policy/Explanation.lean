import Mathlib.Data.List.Forall2
import Mathlib.Data.List.ProdSigma
import TenantIam.Policy.Simulation
import TenantIam.Proofs.Policy.Combining
import TenantIam.Proofs.Success

/-!
# What a simulation tells

The result for a request says whether it is allowed and which statements match it. The two are found
in different ways: the decision asks the documents one by one what they say, the explanation goes
through all their statements. They tell the same story: the statements that are listed are those
that match, in their order, and the request is allowed exactly when one that is listed allows it and
none that is listed denies it.
-/

namespace TenantIam.Policy

variable {documents : List Document} {s : Statement} {m : Match}
variable {action resource : String} {pattern text : Utf16} {patterns : List Utf16}
variable {texts : List String}

/-! ## Matches -/

/-- The pattern covers the text, and none before it does. -/
def IsFirstCovering (patterns : List Utf16) (text pattern : Utf16) : Prop :=
  Wildcard.covers pattern text = true ∧
    ∃ before after, patterns = before ++ pattern :: after ∧
      ∀ p ∈ before, Wildcard.covers p text = false

/-- **An explanation.** The match has the name and the effect of the statement, and of its action
patterns and its resource patterns the first ones that match the request. -/
structure Match.Explains (m : Match) (s : Statement) (action resource : Utf16) : Prop where
  sid_eq : m.sid = s.sid
  effect_eq : m.effect = s.effect
  action : IsFirstCovering s.actions action m.action
  resource : IsFirstCovering s.resources resource m.resource

instance : Decidable (s.Matches action resource) := inferInstanceAs (Decidable (_ ∧ _))

theorem firstCovering?_eq_some_iff :
    Wildcard.firstCovering? patterns text = some pattern ↔
      IsFirstCovering patterns text pattern := by
  unfold Wildcard.firstCovering? IsFirstCovering
  rw [List.find?_eq_some_iff_append]
  simp only [Bool.not_eq_true']

/-- The match of a statement is the one that explains it. -/
theorem match?_eq_some_iff : s.match? action resource = some m ↔ m.Explains s action resource := by
  unfold Statement.match?
  constructor
  · intro h
    split at h
    · next p q hp hq =>
      cases h
      exact ⟨rfl, rfl, firstCovering?_eq_some_iff.1 hp, firstCovering?_eq_some_iff.1 hq⟩
    · cases h
  · rintro ⟨hsid, heffect, haction, hresource⟩
    rw [firstCovering?_eq_some_iff.2 haction, firstCovering?_eq_some_iff.2 hresource, ← hsid,
      ← heffect]

theorem isSome_match?_iff : (s.match? action resource).isSome = true ↔ s.Matches action resource :=
  Statement.applies_iff

section Lists

variable {α β : Type} {f : α → Option β} {r : α → β → Prop} {p : α → Prop} [DecidablePred p]

/-- What a partial function makes of a list goes, one by one, with the elements where it is
defined. -/
theorem filterMap_eq_iff_forall₂ (hsome : ∀ a b, f a = some b ↔ r a b)
    (hdefined : ∀ a, (f a).isSome = true ↔ p a) (l : List α) (bs : List β) :
    l.filterMap f = bs ↔ List.Forall₂ r (l.filter p) bs := by
  induction l generalizing bs with
  | nil =>
      rw [List.filterMap_nil, List.filter_nil, List.forall₂_nil_left_iff]
      exact eq_comm
  | cons a l ih =>
      cases hfa : f a with
      | none =>
          have hout : ¬ p a := by simp [← hdefined, hfa]
          rw [List.filterMap_cons_none hfa, List.filter_cons_of_neg (by simpa using hout)]
          exact ih bs
      | some b =>
          have hin : p a := by simp [← hdefined, hfa]
          rw [List.filterMap_cons_some hfa, List.filter_cons_of_pos (by simpa using hin),
            List.forall₂_cons_left_iff]
          constructor
          · rintro rfl
            exact ⟨b, l.filterMap f, (hsome a b).1 hfa, (ih _).1 rfl, rfl⟩
          · rintro ⟨c, rest, hc, hrest, rfl⟩
            have hbc : b = c := Option.some.inj (hfa.symm.trans ((hsome a c).2 hc))
            rw [hbc, (ih rest).2 hrest]

end Lists

/-- **What is listed.** The matches go, one by one and in order, with the statements that match. -/
theorem matching_eq_iff {matches' : List Match} :
    matching documents action resource = matches' ↔
      List.Forall₂ (fun s m => m.Explains s action resource)
        ((statementsOf documents).filter fun s => s.Matches action resource) matches' := by
  have hflat : matching documents action resource =
      (statementsOf documents).filterMap (·.match? action resource) := by
    rw [matching, statementsOf, List.filterMap_flatMap]
  rw [hflat]
  exact filterMap_eq_iff_forall₂ (fun _ _ => match?_eq_some_iff) (fun _ => isSome_match?_iff) _ _

/-- Among the statements that match, those of an effect are those whose matches have it. -/
theorem speaks_iff_exists_mem_matching {effect : Effect} :
    Speaks effect (statementsOf documents) action resource ↔
      ∃ m ∈ matching documents action resource, m.effect = effect := by
  simp only [matching, List.mem_flatMap, List.mem_filterMap, match?_eq_some_iff]
  constructor
  · rintro ⟨s, hs, hmatches, heffect⟩
    obtain ⟨d, hd, hs⟩ := mem_statementsOf_iff.1 hs
    obtain ⟨m, hm⟩ := Option.isSome_iff_exists.1 (isSome_match?_iff.2 hmatches)
    have hexplains := match?_eq_some_iff.1 hm
    exact ⟨m, ⟨d, hd, s, hs, hexplains⟩, hexplains.effect_eq.trans heffect⟩
  · rintro ⟨m, ⟨d, hd, s, hs, hexplains⟩, heffect⟩
    have hmatches : s.Matches action resource :=
      isSome_match?_iff.1 (Option.isSome_iff_exists.2 ⟨m, match?_eq_some_iff.2 hexplains⟩)
    exact ⟨s, mem_statementsOf_iff.2 ⟨d, hd, hs⟩, hmatches,
      hexplains.effect_eq.symm.trans heffect⟩

/-! ## Results -/

/-- **Complete and consistent.** The matches of a result go, one by one and in order, with the
statements that match its request, and it is allowed exactly when one of these matches allows it and
none denies it. -/
structure SimulationResult.Tells (r : SimulationResult) (documents : List Document) : Prop where
  matched : List.Forall₂ (fun s m => m.Explains s r.action r.resource)
    ((statementsOf documents).filter fun s => s.Matches r.action r.resource) r.matched
  allowed_iff : r.allowed = true ↔
    (∃ m ∈ r.matched, m.effect = .allow) ∧ ∀ m ∈ r.matched, m.effect ≠ .deny

/-- There is one result for each action on each resource, ordered by the actions and, for one
action, by the resources; each is complete and consistent. -/
def IsSimulation (documents : List Document) (request : SimulationRequest)
    (results : List SimulationResult) : Prop :=
  List.Forall₂ (fun asked r => (r.action, r.resource) = asked ∧ r.Tells documents)
    (request.actions.product (request.resources.getD ["*"])) results

/-- A result tells about a request what the simulation of that request says. -/
theorem tells_iff {r : SimulationResult} :
    r.Tells documents ↔ r = simulateOne documents r.action r.resource := by
  have hallowed : allows documents r.action r.resource = true ↔
      (∃ m ∈ matching documents r.action r.resource, m.effect = .allow) ∧
        ∀ m ∈ matching documents r.action r.resource, m.effect ≠ .deny := by
    rw [allows_iff, speaks_iff_exists_mem_matching, speaks_iff_exists_mem_matching]
    simp only [not_exists, not_and, ne_eq]
  constructor
  · rintro ⟨hmatched, hiff⟩
    rw [← matching_eq_iff] at hmatched
    rw [← hmatched, ← hallowed, ← Bool.eq_iff_iff] at hiff
    obtain ⟨action, resource, allowed, matched⟩ := r
    rw [simulateOne, SimulationResult.mk.injEq]
    exact ⟨rfl, rfl, hiff, hmatched.symm⟩
  · intro h
    have hmatched : r.matched = matching documents r.action r.resource :=
      congrArg SimulationResult.matched h
    have hsame : r.allowed = allows documents r.action r.resource :=
      congrArg SimulationResult.allowed h
    refine ⟨matching_eq_iff.1 hmatched.symm, ?_⟩
    rw [hsame, hmatched]
    exact hallowed

/-- **Simulations.** The results of a simulation are one for each request, in order, each complete
and consistent, and there are no other such results. -/
theorem simulate_eq_iff {request : SimulationRequest} {results : List SimulationResult} :
    simulate documents request = results ↔ IsSimulation documents request results := by
  have hmap : simulate documents request =
      (request.actions.product (request.resources.getD ["*"])).map fun asked =>
        simulateOne documents asked.1 asked.2 := by
    rw [simulate, List.product, List.map_flatMap]
    simp only [List.map_map, Function.comp_def]
  have hone (asked : String × String) (r : SimulationResult) :
      simulateOne documents asked.1 asked.2 = r ↔
        (r.action, r.resource) = asked ∧ r.Tells documents := by
    rw [tells_iff]
    constructor
    · rintro rfl
      exact ⟨rfl, rfl⟩
    · rintro ⟨rfl, h⟩
      exact h.symm
  rw [hmap, ← List.forall₂_eq_eq_eq, List.forall₂_map_left_iff]
  simp only [hone]
  rfl

/-! ## Texts -/

/-- A list of texts has documents when every one of them has, and then these. -/
theorem parseAll_eq_ok_iff :
    parseAll texts = .ok documents ↔
      List.Forall₂ (fun (text : String) d => parse text = .ok d) texts documents := by
  unfold parseAll
  induction texts generalizing documents with
  | nil =>
      rw [List.mapM_nil, pure_eq_ok_iff, List.forall₂_nil_left_iff]
      exact eq_comm
  | cons text texts ih =>
      rw [List.mapM_cons, List.forall₂_cons_left_iff]
      simp only [bind_eq_ok_iff, pure_eq_ok_iff, ih]
      constructor
      · rintro ⟨d, hd, rest, hrest, rfl⟩
        exact ⟨d, rest, hd, hrest, rfl⟩
      · rintro ⟨d, rest, hd, hrest, rfl⟩
        exact ⟨d, hd, rest, hrest, rfl⟩

theorem exists_parseAll_iff :
    (∃ documents, parseAll texts = .ok documents) ↔ ∀ text ∈ texts, ∃ d, parse text = .ok d := by
  simp only [parseAll_eq_ok_iff]
  induction texts with
  | nil => simp
  | cons text texts ih =>
      rw [List.forall_mem_cons, ← ih]
      simp only [List.forall₂_cons_left_iff]
      constructor
      · rintro ⟨_, d, rest, hd, hrest, -⟩
        exact ⟨⟨d, hd⟩, rest, hrest⟩
      · rintro ⟨⟨d, hd⟩, rest, hrest⟩
        exact ⟨d :: rest, d, rest, hd, hrest, rfl⟩

theorem simulateTexts_eq_ok_iff {request : SimulationRequest} {results : List SimulationResult} :
    simulateTexts texts request = .ok results ↔
      ∃ documents, parseAll texts = .ok documents ∧ simulate documents request = results := by
  unfold simulateTexts
  cases parseAll texts <;> simp [Except.map]

/-- **Simulations explain themselves.** For documents, the results are one for each action on each
resource, in order; each lists exactly the statements that match, in order and with the first
patterns that match, and is allowed exactly when one of them allows and none denies. For texts,
these are the results when every text is well formed; otherwise a parameter is not admitted. -/
theorem simulateTexts_explained (documents : List Document) (texts : List String)
    (request : SimulationRequest) (results : List SimulationResult) :
    (simulate documents request = results ↔ IsSimulation documents request results) ∧
    (simulateTexts texts request = .ok results ↔
      ∃ parsed, List.Forall₂ (fun (text : String) d => parse text = .ok d) texts parsed ∧
        IsSimulation parsed request results) ∧
    ((∃ told, simulateTexts texts request = .ok told) ↔
      ∀ text ∈ texts, ∃ d, parse text = .ok d) ∧
    ((¬ ∀ text ∈ texts, ∃ d, parse text = .ok d) →
      ∃ malformed, simulateTexts texts request = .error malformed ∧
        (Reported.toFault malformed).name = "InvalidParameterError") := by
  have hexists : (∃ told, simulateTexts texts request = .ok told) ↔
      ∀ text ∈ texts, ∃ d, parse text = .ok d := by
    rw [← exists_parseAll_iff]
    simp only [simulateTexts_eq_ok_iff]
    constructor
    · rintro ⟨_, parsed, hparsed, -⟩
      exact ⟨parsed, hparsed⟩
    · rintro ⟨parsed, hparsed⟩
      exact ⟨_, parsed, hparsed, rfl⟩
  refine ⟨simulate_eq_iff, ?_, hexists, ?_⟩
  · rw [simulateTexts_eq_ok_iff]
    simp only [parseAll_eq_ok_iff, simulate_eq_iff]
  · intro hmalformed
    rw [← hexists, ← exists_error_iff] at hmalformed
    obtain ⟨malformed, herror⟩ := hmalformed
    exact ⟨malformed, herror, rfl⟩

/-- A denial that is listed beside an allowance decides, an action that nothing matches is not
allowed, and a text that is no document is not simulated. -/
theorem simulateTexts_explained_pair :
    let allowing : Statement := ⟨none, .allow, ["iam:*", "s3:*"], ["b/*", "*"], none⟩
    let denying : Statement := ⟨some "no", .deny, ["s3:Put*", "s3:*"], ["*"], none⟩
    let documents : List Document := [⟨"2012-10-17", [allowing]⟩, ⟨"2012-10-17", [denying]⟩]
    let request : SimulationRequest := { actions := ["s3:PutObject", "ec2:Run"] }
    let results : List SimulationResult :=
      [⟨"s3:PutObject", "*", false,
          [⟨none, .allow, "s3:*", "*"⟩, ⟨some "no", .deny, "s3:Put*", "*"⟩]⟩,
        ⟨"ec2:Run", "*", false, []⟩]
    IsSimulation documents request results ∧
      ∃ malformed, simulateTexts ["x"] request = .error malformed ∧
        (Reported.toFault malformed).name = "InvalidParameterError" := by
  intro allowing denying documents request results
  have hmalformed : ¬ ∀ text ∈ ["x"], ∃ d, parse text = .ok d := by
    intro h
    obtain ⟨d, hd⟩ := h "x" (List.mem_singleton.2 rfl)
    have hfails : (parse "x").isOk = false := by decide +kernel
    rw [hd] at hfails
    cases hfails
  exact ⟨(simulateTexts_explained documents ["x"] request results).1.1 (by decide +kernel),
    (simulateTexts_explained documents ["x"] request results).2.2.2 hmalformed⟩

end TenantIam.Policy
