import Mathlib.Data.List.Forall2
import TenantIam.Proofs.Authorization.Decision
import TenantIam.Tenant.Permission

/-!
# What the log says about decisions

Whoever reads the log at the lowest threshold learns what was decided: each decision has an entry of
its own that states the request and the outcome, and where there is no decision there is no such
entry. Stored texts that are passed over on the way are reported before, one by one, also when the
loading is broken off later.
-/

namespace TenantIam

namespace Log

def Entry.fact? (e : Entry) (key : String) : Option Json :=
  e.context.metadata.bind fun metadata => Fields.get? metadata key

/-- Whether an entry is about a decision: it states an outcome. -/
def Entry.isDecision (e : Entry) : Bool := (e.fact? "outcome").isSome

def Entry.isWarning (e : Entry) : Bool := e.level = .warn

/-- The lowest threshold admits every entry: each becomes a line on the channel of its level. -/
theorem lines_debug (json : Bool) (now : Instant) (entries : List Entry) :
    lines { threshold := .debug, json } now entries =
      entries.map fun e => (e.level.channel, e.text json now) := by
  have hline (e : Entry) :
      line? { threshold := .debug, json } now e = some (e.level.channel, e.text json now) :=
    if_pos (Nat.zero_le _)
  unfold lines
  rw [← List.filterMap_eq_map]
  exact List.filterMap_congr fun e _ => hline e

end Log

/-! ## Texts that are passed over -/

namespace PolicySource

/-- The texts that a list of reads brings; those after one that does not work are not made. -/
def textsOf : List (Except String (Option StoredPolicy)) → List StoredPolicy
  | [] => []
  | .error _ :: _ => []
  | .ok stored :: reads => stored.toList ++ textsOf reads

/-- The texts that are loaded for a principal, in the order of the plan. -/
def texts (source : PolicySource) (principal : String) : List StoredPolicy :=
  textsOf ((source.plan principal).map (source.outcome principal))

end PolicySource

def StoredPolicy.isMalformed (stored : StoredPolicy) : Bool :=
  match Policy.checkText stored.text with
  | .ok _ => false
  | .error _ => true

namespace Authorization

variable {config : Authorization} {source : PolicySource} {principal : String}
variable {reads : List (Except String (Option StoredPolicy))}

/-- An entry reports that a stored text was passed over: where the text was found and what is wrong
with it. It does not look like a decision. -/
structure Warns (e : Log.Entry) (stored : StoredPolicy) : Prop where
  isWarning : e.isWarning = true
  source : e.fact? "source" = some (.str stored.source)
  errors : ∃ issues, Policy.checkText stored.text = .error issues ∧
    e.fact? "errors" = some (Policy.issuesJson issues)
  isDecision : e.isDecision = false

theorem warns_warning {stored : StoredPolicy} {issues : List Policy.Issue}
    (hissues : Policy.checkText stored.text = .error issues) :
    Warns (warning stored issues) stored where
  isWarning := rfl
  source := rfl
  errors := ⟨issues, hissues, rfl⟩
  isDecision := rfl

/-- Loading that passes malformed texts over reports each of them, in order, as far as it goes. -/
theorem warns_loadReads (hmode : config.onMalformed = .ignore) :
    List.Forall₂ Warns (config.loadReads reads).entries
      ((PolicySource.textsOf reads).filter StoredPolicy.isMalformed) := by
  induction reads with
  | nil => exact .nil
  | cons read reads ih =>
      rcases read with message | _ | stored
      · exact .nil
      · exact ih
      · unfold PolicySource.textsOf
        rw [Option.toList_some, List.singleton_append, List.filter_cons]
        cases hcheck : Policy.checkText stored.text with
        | ok document =>
            simp only [loadReads, StoredPolicy.isMalformed, hcheck]
            exact ih
        | error issues =>
            simp only [loadReads, StoredPolicy.isMalformed, hcheck, hmode]
            exact .cons (warns_warning hcheck) ih

/-- Loading that a malformed text ends reports none. -/
theorem entries_loadReads_fail (hmode : config.onMalformed = .fail) :
    (config.loadReads reads).entries = [] := by
  induction reads with
  | nil => rfl
  | cons read reads ih =>
      rcases read with message | _ | stored
      · rfl
      · exact ih
      · cases hcheck : Policy.checkText stored.text with
        | ok document =>
            simp only [loadReads, hcheck]
            exact ih
        | error issues => simp only [loadReads, hcheck, hmode]

/-- The malformed texts that are passed over when the policies of a principal are loaded. -/
def passedOver (config : Authorization) (source : PolicySource) (principal : String) :
    List StoredPolicy :=
  match config.onMalformed with
  | .fail => []
  | .ignore => (source.texts principal).filter StoredPolicy.isMalformed

theorem warns_load :
    List.Forall₂ Warns (config.load source principal).entries
      (config.passedOver source principal) := by
  rw [load_eq_plan]
  unfold passedOver
  cases hmode : config.onMalformed with
  | fail =>
      rw [entries_loadReads_fail hmode]
      exact .nil
  | ignore => exact warns_loadReads hmode

end Authorization

/-! ## Calls -/

inductive DecisionCall where
  /-- Whether a caller may perform an action on a resource. -/
  | authorize (config : Authorization) (source : PolicySource) (caller : Caller)
      (action resource : String)
  /-- Whether a caller reaches a tenant. -/
  | accessTenant (caller : Caller) (target : TenantPath)
  /-- Whether policies permit a principal an action on a tenant. -/
  | permits (grants : TenantGrants) (principal id action : String)

namespace DecisionCall

def perform : DecisionCall → Logged (Except Authorization.Error Bool)
  | .authorize config source caller action resource =>
    config.authorize source caller action resource
  | .accessTenant caller target => (Authorization.accessTenant caller target).map .ok
  | .permits grants principal id action => (grants.permits principal id action).map .ok

/-- Makes calls one after another, with one log. -/
def performAll : List DecisionCall → Logged (List (Except Authorization.Error Bool))
  | [] => ⟨[], []⟩
  | call :: calls =>
    let first := call.perform
    let rest := performAll calls
    ⟨first.value :: rest.value, first.entries ++ rest.entries⟩

def action : DecisionCall → String
  | .authorize _ _ _ action _ => action
  | .accessTenant .. => "tenant:Access"
  | .permits _ _ _ action => action

def resource : DecisionCall → String
  | .authorize _ _ _ _ resource => resource
  | .accessTenant _ target => target.text
  | .permits _ _ id _ => "arn:wami:tenant::" ++ id

/-- Who makes a call, where policies are not given apart from the caller. -/
def caller? : DecisionCall → Option Caller
  | .authorize _ _ caller _ _ => some caller
  | .accessTenant caller _ => some caller
  | .permits .. => none

/-- The malformed texts that a call passes over. Texts are loaded for users only, and not for the
root. -/
def passedOver : DecisionCall → List StoredPolicy
  | .authorize config source caller _ _ =>
    if caller.isRoot ∨ caller.arn.resource.type ≠ "user" then []
    else config.passedOver source caller.arn.resource.id
  | .accessTenant .. => []
  | .permits .. => []

/-- An entry records the decision on a call: it states the outcome and names the request, and says
that the caller is the root exactly when that is so. -/
structure Records (call : DecisionCall) (allowed : Bool) (e : Log.Entry) : Prop where
  level : e.level = .debug
  outcome : e.fact? "outcome" = some (.str (if allowed then "ALLOW" else "DENY" : String))
  message : e.message = "Authorization " ++ call.action ++ " on " ++ call.resource ++ ": " ++
    if allowed then "ALLOW" else "DENY"
  reason : ∀ caller ∈ call.caller?,
    e.fact? "reason" = some (.str "root") ↔ caller.isRoot = true

/-- **What the log says about a call.** A decision has one entry, which records it; a call without a
decision has none. The other entries come before and report the texts that are passed over. -/
structure Tells (call : DecisionCall) (answer : Except Authorization.Error Bool)
    (entries : List Log.Entry) : Prop where
  decided : ∀ allowed, answer = .ok allowed →
    ∃ e, entries.filter Log.Entry.isDecision = [e] ∧ call.Records allowed e
  undecided : ∀ error, answer = .error error → entries.filter Log.Entry.isDecision = []
  warned : List.Forall₂ Authorization.Warns (entries.filter Log.Entry.isWarning) call.passedOver
  ordered : entries =
    entries.filter Log.Entry.isWarning ++ entries.filter Log.Entry.isDecision

section OneCall

variable {call : DecisionCall} {warnings : List Log.Entry}

theorem filter_isWarning_of_warns {stored : List StoredPolicy}
    (h : List.Forall₂ Authorization.Warns warnings stored) :
    warnings.filter Log.Entry.isWarning = warnings := by
  induction h with
  | nil => rfl
  | cons hwarns _ ih => rw [List.filter_cons_of_pos hwarns.isWarning, ih]

theorem filter_isDecision_of_warns {stored : List StoredPolicy}
    (h : List.Forall₂ Authorization.Warns warnings stored) :
    warnings.filter Log.Entry.isDecision = [] := by
  induction h with
  | nil => rfl
  | cons hwarns _ ih => rw [List.filter_cons_of_neg (by simp [hwarns.isDecision]), ih]

theorem tells_error (hwarns : List.Forall₂ Authorization.Warns warnings call.passedOver)
    (error : Authorization.Error) : call.Tells (.error error) warnings where
  decided _ h := nomatch h
  undecided _ _ := filter_isDecision_of_warns hwarns
  warned := by rwa [filter_isWarning_of_warns hwarns]
  ordered := by
    rw [filter_isWarning_of_warns hwarns, filter_isDecision_of_warns hwarns, List.append_nil]

theorem tells_ok (hwarns : List.Forall₂ Authorization.Warns warnings call.passedOver)
    {allowed : Bool} {e : Log.Entry} (hrecords : call.Records allowed e) :
    call.Tells (.ok allowed) (warnings ++ [e]) := by
  -- The two kinds of entries exclude each other, so each filter finds one part of the list.
  have hdecision : e.isDecision = true := by rw [Log.Entry.isDecision, hrecords.outcome]; rfl
  have hwarning : e.isWarning = false := by rw [Log.Entry.isWarning, hrecords.level]; rfl
  have hdecisions : (warnings ++ [e]).filter Log.Entry.isDecision = [e] := by
    rw [List.filter_append, filter_isDecision_of_warns hwarns,
      List.filter_cons_of_pos hdecision, List.filter_nil, List.nil_append]
  have hwarnings : (warnings ++ [e]).filter Log.Entry.isWarning = warnings := by
    rw [List.filter_append, filter_isWarning_of_warns hwarns,
      List.filter_cons_of_neg (by simp [hwarning]), List.filter_nil, List.append_nil]
  exact
    { decided := fun other h => by
        cases h
        exact ⟨e, hdecisions, hrecords⟩
      undecided := fun _ h => nomatch h
      warned := by rwa [hwarnings]
      ordered := by rw [hwarnings, hdecisions] }

/-- The reason that the entry about a caller's request states, if any, is that it is the root. -/
theorem reason_entry {caller : Caller} {action resource : String} {allowed : Bool}
    (reason : Option String) :
    (Authorization.entry caller action resource allowed reason []).fact? "reason" =
      reason.map fun text : String => .str text := by
  cases reason <;> rfl

section Authorize

variable {config : Authorization} {source : PolicySource} {caller : Caller}
variable {action resource : String}

theorem tells_authorize_root (hroot : caller.isRoot = true) :
    let call : DecisionCall := .authorize config source caller action resource
    call.Tells call.perform.value call.perform.entries := by
  intro call
  have hpassed : call.passedOver = [] := if_pos (.inl hroot)
  have hwarns : List.Forall₂ Authorization.Warns [] call.passedOver := hpassed ▸ .nil
  rw [show call.perform = _ from Authorization.authorize_root hroot]
  refine tells_ok hwarns ⟨rfl, rfl, rfl, fun asking hasking => ?_⟩
  cases hasking
  exact iff_of_true (reason_entry _) hroot

theorem tells_authorize_notUser (hroot : caller.isRoot = false)
    (huser : caller.arn.resource.type ≠ "user") :
    let call : DecisionCall := .authorize config source caller action resource
    call.Tells call.perform.value call.perform.entries := by
  intro call
  have hpassed : call.passedOver = [] := if_pos (.inr huser)
  have hwarns : List.Forall₂ Authorization.Warns [] call.passedOver := hpassed ▸ .nil
  rw [show call.perform = _ from Authorization.authorize_notUser hroot huser]
  exact tells_error hwarns _

theorem tells_authorize_user (hroot : caller.isRoot = false)
    (huser : caller.arn.resource.type = "user") :
    let call : DecisionCall := .authorize config source caller action resource
    call.Tells call.perform.value call.perform.entries := by
  intro call
  have hpassed : call.passedOver = config.passedOver source caller.arn.resource.id :=
    if_neg (by simp [hroot, huser])
  have hwarns : List.Forall₂ Authorization.Warns
      (config.load source caller.arn.resource.id).entries call.passedOver :=
    hpassed ▸ Authorization.warns_load
  rw [show call.perform = _ from Authorization.authorize_user hroot huser]
  cases (config.load source caller.arn.resource.id).value with
  | error error => exact tells_error hwarns error
  | ok documents =>
      refine tells_ok hwarns ⟨rfl, rfl, rfl, fun asking hasking => ?_⟩
      cases hasking
      -- The entry of a user's request states no reason.
      exact iff_of_false (fun h => nomatch h) (by simp [hroot])

end Authorize

theorem tells_accessTenant (caller : Caller) (target : TenantPath) :
    let call : DecisionCall := .accessTenant caller target
    call.Tells call.perform.value call.perform.entries := by
  intro call
  have hwarns : List.Forall₂ Authorization.Warns [] call.passedOver := .nil
  refine tells_ok hwarns ⟨rfl, rfl, rfl, fun asking hasking => ?_⟩
  cases hasking
  rw [reason_entry]
  by_cases hroot : caller.isRoot = true <;> simp [hroot]

theorem tells_permits (grants : TenantGrants) (principal id action : String) :
    let call : DecisionCall := .permits grants principal id action
    call.Tells call.perform.value call.perform.entries := by
  intro call
  have hwarns : List.Forall₂ Authorization.Warns [] call.passedOver := .nil
  exact tells_ok hwarns ⟨rfl, rfl, rfl, fun _ hasking => nomatch hasking⟩

theorem perform_tells (call : DecisionCall) :
    call.Tells call.perform.value call.perform.entries := by
  cases call with
  | authorize config source caller action resource =>
      cases hroot : caller.isRoot with
      | true => exact tells_authorize_root hroot
      | false =>
          by_cases huser : caller.arn.resource.type = "user"
          · exact tells_authorize_user hroot huser
          · exact tells_authorize_notUser hroot huser
  | accessTenant caller target => exact tells_accessTenant caller target
  | permits grants principal id action => exact tells_permits grants principal id action

end OneCall

/-- Each call of a sequence leaves a stretch of the log to itself. -/
theorem exists_told (calls : List DecisionCall) :
    ∃ told : List (Except Authorization.Error Bool × List Log.Entry),
      (performAll calls).value = told.map Prod.fst ∧
      (performAll calls).entries = (told.map Prod.snd).flatten ∧
      List.Forall₂ (fun call (answer, entries) => call.Tells answer entries) calls told := by
  induction calls with
  | nil => exact ⟨[], rfl, rfl, .nil⟩
  | cons call calls ih =>
      obtain ⟨told, hvalue, hentries, htells⟩ := ih
      refine ⟨(call.perform.value, call.perform.entries) :: told, ?_, ?_,
        .cons call.perform_tells htells⟩
      · exact congrArg (call.perform.value :: ·) hvalue
      · exact congrArg (call.perform.entries ++ ·) hentries

/-- A malformed text is reported although the next read does not work; the tenant is reached. -/
example :
    let source : PolicySource :=
      { attached := fun _ => .ok ["a", "b"]
        policy := fun arn =>
          if arn = "a" then .ok (some { arn, name := arn, text := "[" }) else .error "down"
        inlineNames := fun _ => .ok []
        inlineText := fun _ _ => .ok none }
    let config : Authorization :=
      { combining := .denyOverrides, onMalformed := .ignore, defaultVersion := "1" }
    let arn : Arn :=
      ⟨{ service := .iam, tenantPath := ⟨[1], by decide⟩, instanceId := "i", mapping := none
         resource := { type := "user", id := "ann" } }, by decide⟩
    let caller : Caller :=
      { tenantPath := arn.tenantPath, instanceId := "i", arn, isRoot := false, region := none
        session := none }
    (performAll [.authorize config source caller "s:Get" "x",
        .accessTenant caller ⟨[1, 2], by decide⟩]).entries.map (·.message) =
      ["Ignoring malformed stored policy", "Authorization tenant:Access on 1/2: ALLOW"] := by
  decide +kernel

end DecisionCall

end TenantIam
