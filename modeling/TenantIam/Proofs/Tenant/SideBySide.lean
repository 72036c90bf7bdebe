import Mathlib.Logic.Relation
import TenantIam.Proofs.Tenant.Bounds
import TenantIam.Proofs.Tenant.Turns

/-!
# What creations side by side leave behind

A creation adds its sub-tenant many steps after it has counted those that there are. Meanwhile only
creations below other tenants take steps, since those below the same tenant wait, and theirs neither
change the count nor the quotas in force. So what a creation has found out still holds when it acts
on it, and the store is left as if one creation had followed the other.
-/

namespace TenantIam

namespace TenantStore

variable {s : TenantStore} {id current : TenantId} {quotas : Quotas}

/-- Quotas are inherited, in any number of steps, by one identifier from another. -/
def Leads (s : TenantStore) : TenantId → TenantId → Prop :=
  Relation.ReflTransGen fun id above => ∃ t, s.get? id = some t ∧ t.inheritsFrom? = some above

theorem effectiveQuotas_of_leads (hleads : s.Leads id current)
    (hquotas : s.effectiveQuotas current = .ok quotas) : s.effectiveQuotas id = .ok quotas := by
  induction hleads using Relation.ReflTransGen.head_induction_on with
  | refl => exact hquotas
  | head hstep _ ih =>
      obtain ⟨t, hget, hinherits⟩ := hstep
      exact effectiveQuotas_of_inherits hget hinherits ih

theorem Leads.add (h : s.Leads id current) (t : Tenant) : (s.add t).Leads id current := by
  refine Relation.ReflTransGen.mono ?_ _ _ h
  rintro id above ⟨u, hget, hinherits⟩
  exact ⟨u, get?_add_of_get? hget t, hinherits⟩

/-- With one sub-tenant fewer there would still be room: a stored tenant has at most as many as the
quotas in force admit, rounded up, unless that limit is NaN. -/
def WithinRoomRoundedUp (s : TenantStore) : Prop :=
  s.BoundsParents fun limits n => limits.maxSubTenants.isAtMost (n - 1) = false

theorem WithinRoom.roundedUp (h : s.WithinRoom) : s.WithinRoomRoundedUp := by
  intro t ht limits hlimits hchildren
  exact Number.not_isAtMost_pred (List.length_pos_iff.2 hchildren) (h t ht limits hlimits hchildren)

end TenantStore

namespace Creation

variable {s : TenantStore} {r : Request} {phase : Phase} {t : Tenant}

/-- **What a creation has found out.** On the way to the quotas in force it has come to where they
are inherited from; then it knows them; and when it is about to add the sub-tenant, there is room
for it. -/
def Phase.Holds (s : TenantStore) (r : Request) : Phase → Prop
  | .readParent | .readAncestors .. | .ended _ => True
  | .followQuotas _ _ current => s.Leads r.parentId current
  | .countSiblings _ limits => s.effectiveQuotas r.parentId = .ok limits
  | .add tenant =>
    tenant.id = r.childId ∧ tenant.parentId = some r.parentId ∧
      ∃ limits, s.effectiveQuotas r.parentId = .ok limits ∧
        limits.maxSubTenants.isAtMost (s.children r.parentId).length = false

theorem Phase.holds_ofCheck {α : Type} {check : Except Error α} {next : α → Phase}
    (hnext : ∀ value, check = .ok value → (next value).Holds s r) :
    (ofCheck check next).Holds s r := by
  cases check with
  | error error => trivial
  | ok value => exact hnext value rfl

/-- What is found out by one step of reading. -/
theorem Phase.Holds.next (h : phase.Holds s r) (config : Creation) :
    (phase.next config r s).Holds s r := by
  cases phase with
  | readParent => exact holds_ofCheck fun _ _ => trivial
  | readAncestors parent left found =>
      cases left with
      | cons id left => trivial
      | nil => exact holds_ofCheck fun _ _ => holds_ofCheck fun _ _ => .refl
  | followQuotas parent visited current =>
      have hleads : s.Leads r.parentId current := h
      simp only [Phase.next]
      split
      · trivial
      · split
        · trivial
        · next t hget =>
          split
          · next hown =>
            have hquotas := TenantStore.effectiveQuotas_of_own hget hown
            exact TenantStore.effectiveQuotas_of_leads hleads hquotas
          · next above habove => exact hleads.tail ⟨t, hget, habove⟩
  | countSiblings parent limits =>
      have hlimits : s.effectiveQuotas r.parentId = .ok limits := h
      apply holds_ofCheck
      intro _ hroom
      apply holds_ofCheck
      intro _ _
      exact ⟨rfl, rfl, limits, hlimits, checkRoom_eq_ok_iff.1 hroom⟩
  | add tenant => exact h
  | ended result => trivial

/-- A new tenant below another one changes nothing of what has been found out. -/
theorem Phase.Holds.add (h : phase.Holds s r) (hother : t.parentId ≠ some r.parentId) :
    phase.Holds (s.add t) r := by
  cases phase with
  | followQuotas parent visited current => exact TenantStore.Leads.add h t
  | countSiblings parent limits => exact TenantStore.effectiveQuotas_add h t
  | add tenant =>
      obtain ⟨hid, hparent, limits, hlimits, hroom⟩ := h
      refine ⟨hid, hparent, limits, TenantStore.effectiveQuotas_add hlimits t, ?_⟩
      rw [TenantStore.children_add, if_neg hother, List.append_nil]
      exact hroom
  | _ => trivial

end Creation

namespace CreationQueue

variable {q q' : CreationQueue} {maxDepth : Number} {job i : Nat} {j j' : Job} {state : State}
variable {t : Tenant}

section UpToDate

/-- What the creations under way have found out holds in the store. -/
def UpToDate (q : CreationQueue) : Prop :=
  ∀ (i : Nat) (j : Job) (phase : Creation.Phase), q.jobs[i]? = some j →
    j.state = .running phase → phase.Holds q.store j.request

theorem UpToDate.setState (h : q.UpToDate) (hjob : q.jobs[job]? = some j)
    (hstate : ∀ phase, state = .running phase → phase.Holds q.store j.request) :
    (q.setState job state).UpToDate := by
  intro i j' phase hget hrunning
  obtain ⟨j₀, hget₀, hmove⟩ := getElem?_setState_eq_some_iff.1 hget
  rcases hmove with ⟨rfl, rfl⟩ | ⟨-, rfl⟩
  · obtain rfl : j₀ = j := Option.some.inj (hget₀.symm.trans hjob)
    exact hstate phase hrunning
  · exact h i _ phase hget₀ hrunning

/-- **No turn overtakes.** What creations have found out still holds after every turn, since another
one below the same tenant is not under way. -/
theorem UpToDate.turn (h : q.UpToDate) (hserialized : q.Serialized)
    (hturn : q.Turn maxDepth q') : q'.UpToDate := by
  cases hturn with
  | idle => exact h
  | start r =>
      intro i j phase hget hrunning
      rcases getElem?_start_eq_some_iff.1 hget with hget | ⟨-, rfl⟩
      · exact h i j phase hget hrunning
      · cases hrunning
  | begins hjob hstate hmay =>
      apply h.setState hjob
      rintro _ ⟨rfl⟩
      trivial
  | @reads job j phase now hjob hstate hreading =>
      have hholds := h job j phase hjob hstate
      apply h.setState hjob
      rintro _ ⟨rfl⟩
      exact hholds.next _
  | @adds job j tenant hjob hstate hfree =>
      obtain ⟨-, hparent, -⟩ := h job j _ hjob hstate
      intro i j' phase hget hrunning
      obtain ⟨j₀, hget₀, hmove⟩ := getElem?_setState_eq_some_iff.1 hget
      rcases hmove with ⟨rfl, rfl⟩ | ⟨hne, rfl⟩
      · cases hrunning
        trivial
      · -- no other creation below the same tenant is under way whose count would be outdated
        apply (h i j' phase hget₀ hrunning).add
        intro hsame
        rw [hparent] at hsame
        have hsame' : j.request.parentId = j'.request.parentId := Option.some.inj hsame
        exact hne (hserialized.eq_of_running hjob hget₀ hsame' hstate hrunning).symm
  | refused hjob hstate error =>
      apply h.setState hjob
      rintro _ ⟨rfl⟩
      trivial
  | settles hjob hstate =>
      apply h.setState hjob
      intro phase hphase
      cases hphase
  | @releases job j result hjob hstate =>
      have hset : (q.setState job (.released result)).UpToDate := by
        apply h.setState hjob
        intro phase hphase
        cases hphase
      exact hset

end UpToDate

section Store

/-- A turn leaves the store as it is or adds one sub-tenant, for which there is room. -/
theorem store_eq_or_add (h : q.UpToDate) (hturn : q.Turn maxDepth q') :
    q'.store = q.store ∨ ∃ (r : Creation.Request) (tenant : Tenant) (limits : Quotas),
      q.store.get? tenant.id = none ∧
      tenant.id = r.childId ∧ tenant.parentId = some r.parentId ∧
      q.store.effectiveQuotas r.parentId = .ok limits ∧
      limits.maxSubTenants.isAtMost (q.store.children r.parentId).length = false ∧
      q'.store = q.store.add tenant := by
  cases hturn with
  | @adds job j tenant hjob hstate hfree =>
      obtain ⟨hid, hparent, limits, hlimits, hroom⟩ := h job j _ hjob hstate
      exact .inr ⟨j.request, tenant, limits, hfree, hid, hparent, hlimits, hroom, rfl⟩
  | _ => exact .inl rfl

/-- A turn keeps parents in place and the numbers of sub-tenants within the limits, rounded up. -/
theorem withinRoom_turn (h : q.UpToDate) (habove : q.store.ParentsAbove)
    (hroom : q.store.WithinRoomRoundedUp) (hturn : q.Turn maxDepth q') :
    q'.store.ParentsAbove ∧ q'.store.WithinRoomRoundedUp := by
  rcases store_eq_or_add h hturn with hstore | ⟨r, tenant, limits, hfree, hid, hparent, hlimits,
    hleft, hstore⟩
  · rw [hstore]
    exact ⟨habove, hroom⟩
  · rw [hstore]
    have hfound : (q.store.get? r.parentId).isSome := by
      obtain ⟨path, source, hclimbs, -⟩ := TenantStore.effectiveQuotas_eq_ok_iff.1 hlimits
      cases hclimbs with
      | here hget hown => rw [hget]; rfl
      | up hget hinherits hclimbs => rw [hget]; rfl
    exact ⟨habove.add_leaf hid hparent hfound,
      habove.boundsParents_add_leaf hfree hid hparent hlimits hleft hroom⟩

end Store

section Recorded

def State.created? : State → Option Tenant
  | running (.ended result) | settled result | released result => result.toOption
  | _ => none

theorem State.created?_of_result? {state : State} (hresult : state.result? = some (.ok t)) :
    state.created? = some t := by
  cases state with
  | waiting before => cases hresult
  | running phase => cases hresult
  | settled result =>
      cases hresult
      rfl
  | released result =>
      cases hresult
      rfl

/-- What a creation waits for, while it waits. -/
def State.awaited? : State → Option (Option Nat)
  | .waiting before => some before
  | _ => none

theorem State.awaited?_eq_some {state : State} {before : Option Nat} :
    state.awaited? = some before ↔ state = .waiting before := by
  cases state <;> simp [awaited?]

/-- The result of a creation the queue has forgotten. -/
def State.released? : State → Option (Except Creation.Error Tenant)
  | .released result => some result
  | _ => none

theorem State.released?_eq_some {state : State} {result : Except Creation.Error Tenant} :
    state.released? = some result ↔ state = .released result := by
  cases state <;> simp [released?]

theorem created?_ofCheck {α : Type} {check : Except Creation.Error α} {next : α → Creation.Phase}
    (hnext : ∀ value, (State.running (next value)).created? = none) :
    (State.running (.ofCheck check next)).created? = none := by
  cases check with
  | error error => rfl
  | ok value => exact hnext value

theorem created?_next {config : Creation} {r : Creation.Request} {s : TenantStore}
    {phase : Creation.Phase} (hreading : phase.IsReading) :
    (State.running (phase.next config r s)).created? = none := by
  cases phase with
  | readParent => exact created?_ofCheck fun _ => rfl
  | readAncestors parent left found =>
      cases left with
      | cons id left => rfl
      | nil => exact created?_ofCheck fun _ => created?_ofCheck fun _ => rfl
  | followQuotas parent visited current =>
      simp only [Creation.Phase.next]
      split
      · rfl
      · split
        · rfl
        · split <;> rfl
  | countSiblings parent limits => exact created?_ofCheck fun _ => created?_ofCheck fun _ => rfl
  | add tenant => cases hreading
  | ended result => cases hreading

/-- **Records.** The sub-tenant of every creation that has succeeded is stored, and no two creations
have succeeded under the same identifier. -/
structure Recorded (q : CreationQueue) : Prop where
  stored : ∀ {i : Nat} {j : Job} {t : Tenant}, q.jobs[i]? = some j → j.state.created? = some t →
    q.store.get? t.id = some t
  distinct : ∀ {i k : Nat} {j j' : Job} {t t' : Tenant},
    q.jobs[i]? = some j → q.jobs[k]? = some j' → j.state.created? = some t →
      j'.state.created? = some t' → t.id = t'.id → i = k

namespace Recorded

theorem of_created (h : q.Recorded) (hstore : q'.store = q.store)
    (hcreated : ∀ {i : Nat} {j' : Job} {t : Tenant}, q'.jobs[i]? = some j' →
      j'.state.created? = some t → ∃ j, q.jobs[i]? = some j ∧ j.state.created? = some t) :
    q'.Recorded where
  stored hget ht := by
    obtain ⟨j, hjob, ht⟩ := hcreated hget ht
    rw [hstore]
    exact h.stored hjob ht
  distinct hget hget' ht ht' hid := by
    obtain ⟨j, hjob, ht⟩ := hcreated hget ht
    obtain ⟨j', hjob', ht'⟩ := hcreated hget' ht'
    exact h.distinct hjob hjob' ht ht' hid

/-- A creation that moves without adding a sub-tenant leaves the records as they are. -/
theorem setState (h : q.Recorded) (hjob : q.jobs[job]? = some j)
    (hstate : ∀ t, state.created? = some t → j.state.created? = some t) :
    (q.setState job state).Recorded := by
  have hstore : (q.setState job state).store = q.store := rfl
  apply h.of_created hstore
  intro i j' t hget ht
  obtain ⟨j₀, hget₀, hmove⟩ := getElem?_setState_eq_some_iff.1 hget
  rcases hmove with ⟨rfl, rfl⟩ | ⟨-, rfl⟩
  · exact ⟨j, hjob, hstate t ht⟩
  · exact ⟨j', hget₀, ht⟩

theorem turn (h : q.Recorded) (hturn : q.Turn maxDepth q') : q'.Recorded := by
  cases hturn with
  | idle => exact h
  | start r =>
      have hstore : (q.start r).store = q.store := rfl
      apply h.of_created hstore
      intro i j' t hget ht
      rcases getElem?_start_eq_some_iff.1 hget with hget | ⟨-, rfl⟩
      · exact ⟨j', hget, ht⟩
      · cases ht
  | begins hjob hstate hmay => exact h.setState hjob fun t ht => by cases ht
  | reads now hjob hstate hreading =>
      apply h.setState hjob
      intro t ht
      rw [created?_next hreading] at ht
      cases ht
  | @adds job j tenant hjob hstate hfree =>
      -- what was created before was stored under another identifier, since this one is free
      have hcases {i : Nat} {j' : Job} {t : Tenant}
          (hget : (q.setState job (.running (.ended (.ok tenant)))).jobs[i]? = some j')
          (ht : j'.state.created? = some t) :
          (i = job ∧ t = tenant) ∨ (∃ j, q.jobs[i]? = some j ∧ j.state.created? = some t) ∧
            t.id ≠ tenant.id := by
        obtain ⟨j₀, hget₀, hmove⟩ := getElem?_setState_eq_some_iff.1 hget
        rcases hmove with ⟨rfl, rfl⟩ | ⟨-, rfl⟩
        · exact .inl ⟨rfl, (Option.some.inj ht).symm⟩
        · refine .inr ⟨⟨j', hget₀, ht⟩, fun hid => ?_⟩
          have hstored := h.stored hget₀ ht
          rw [hid, hfree] at hstored
          cases hstored
      constructor
      case stored =>
        intro i j' t hget ht
        rcases hcases hget ht with ⟨-, rfl⟩ | ⟨⟨j₀, hget₀, ht₀⟩, -⟩
        · exact TenantStore.get?_add_self hfree
        · exact TenantStore.get?_add_of_get? (h.stored hget₀ ht₀) tenant
      case distinct =>
        intro i k j₁ j₂ t t' hget hget' ht ht' hid
        rcases hcases hget ht with ⟨rfl, rfl⟩ | ⟨⟨j₀, hget₀, ht₀⟩, hne⟩
        · rcases hcases hget' ht' with ⟨rfl, -⟩ | ⟨-, hne'⟩
          · rfl
          · exact absurd hid.symm hne'
        · rcases hcases hget' ht' with ⟨-, rfl⟩ | ⟨⟨j₀', hget₀', ht₀'⟩, -⟩
          · exact absurd hid hne
          · exact h.distinct hget₀ hget₀' ht₀ ht₀' hid
  | refused hjob hstate error => exact h.setState hjob fun t ht => by cases ht
  | settles hjob hstate =>
      apply h.setState hjob
      intro t ht
      rw [hstate]
      exact ht
  | @releases job j result hjob hstate =>
      have hset : (q.setState job (.released result)).Recorded := by
        apply h.setState hjob
        intro t ht
        rw [hstate]
        exact ht
      exact hset.of_created rfl fun hget ht => ⟨_, hget, ht⟩

end Recorded

end Recorded

section History

variable {s : TenantStore}

theorem history_recorded (maxDepth : Number) (moments : List Moment) :
    (history maxDepth { store := s } moments).Recorded := by
  have hstart : Recorded { store := s } := by
    constructor
    · intro i j t hjob
      cases hjob
    · intro i k j j' t t' hjob
      cases hjob
  exact history_induction (fun q q' h hturn => h.turn hturn) hstart moments

/-- A history may be followed turn by turn, knowing that creations go by what still holds. -/
theorem history_induction_upToDate {motive : CreationQueue → Prop}
    (hturn : ∀ q q' : CreationQueue, q.UpToDate → motive q → q.Turn maxDepth q' → motive q')
    (hstart : motive { store := s }) (moments : List Moment) :
    motive (history maxDepth { store := s } moments) := by
  have hall : let q := history maxDepth { store := s } moments
      (q.Serialized ∧ q.UpToDate) ∧ motive q := by
    apply history_induction (motive := fun q => (q.Serialized ∧ q.UpToDate) ∧ motive q)
    · rintro q q' ⟨⟨hserialized, hcurrent⟩, hq⟩ hstep
      exact ⟨⟨hserialized.turn hstep, hcurrent.turn hserialized hstep⟩,
        hturn q q' hcurrent hq hstep⟩
    · exact ⟨⟨.empty s, fun i j phase hjob => by cases hjob⟩, hstart⟩
  exact hall.2

theorem history_withinRoom (maxDepth : Number) (habove : s.ParentsAbove) (hroom : s.WithinRoom)
    (moments : List Moment) :
    (history maxDepth { store := s } moments).store.ParentsAbove ∧
      (history maxDepth { store := s } moments).store.WithinRoomRoundedUp := by
  apply history_induction_upToDate
    (motive := fun q => q.store.ParentsAbove ∧ q.store.WithinRoomRoundedUp)
  · rintro q q' hcurrent ⟨habove, hroom⟩ hturn
    exact withinRoom_turn hcurrent habove hroom hturn
  · exact ⟨habove, hroom.roundedUp⟩

/-- **Creations side by side.** Whatever calls are made and whatever steps are taken in between, at
every moment the following holds. The creations are listed in the order of the calls. No two of them
below one tenant are under way, none has begun before those called earlier below the same tenant
have ended, and when they have, well or not, it begins with its next step. If the parents that
tenants named were in place and the numbers of sub-tenants within the limits, every tenant with
sub-tenants has at most as many as the quotas in force for it admit where the limit is an integer,
and at most that many rounded up where it is another number; a limit that is NaN bounds nothing. The
sub-tenants of creations that have succeeded are stored, under different identifiers. When all calls
are over, nothing is pending. -/
theorem history_serialized (maxDepth : Number) (s : TenantStore) (moments : List Moment) :
    let q := history maxDepth { store := s } moments
    q.jobs.map (·.request) = moments.filterMap Moment.request? ∧
    ((∀ (i k : Nat) (first later : Job) (phase phase' : Creation.Phase),
        q.jobs[i]? = some first → q.jobs[k]? = some later →
        first.request.parentId = later.request.parentId →
        first.state = .running phase → later.state = .running phase' → i = k) ∧
      (∀ (i k : Nat) (first later : Job), q.Ahead i first k later → later.state.hasBegun = true →
        first.state.hasEnded = true) ∧
      ∀ (config : Creation) (k : Nat) (later : Job) (before : Option Nat),
        q.jobs[k]? = some later → later.state = .waiting before →
        (∀ (i : Nat) (first : Job), q.Ahead i first k later → first.state.hasEnded = true) →
        (q.advance config k).jobs[k]? = some { later with state := .running .readParent }) ∧
    (s.ParentsAbove → s.WithinRoom → ∀ t ∈ q.store.tenants, q.store.children t.id ≠ [] →
      ∃ limits, q.store.effectiveQuotas t.id = .ok limits ∧
        (limits.maxSubTenants ≠ .nan →
          limits.maxSubTenants.isAbove ((q.store.children t.id).length - 1) = true) ∧
        (limits.maxSubTenants.isInteger = true →
          limits.maxSubTenants.isAtLeast (q.store.children t.id).length = true)) ∧
    (∀ (i : Nat) (j : Job) (t : Tenant), q.jobs[i]? = some j → j.state.result? = some (.ok t) →
      q.store.get? t.id = some t ∧
      ∀ (k : Nat) (j' : Job) (t' : Tenant), q.jobs[k]? = some j' →
        j'.state.result? = some (.ok t') → t.id = t'.id → i = k) ∧
    ((∀ (i : Nat) (j : Job), q.jobs[i]? = some j → ∃ result, j.state = .released result) →
      q.pending = []) := by
  intro q
  have hserialized : q.Serialized := .history maxDepth moments
  have hrecorded : q.Recorded := history_recorded maxDepth moments
  refine ⟨map_request_history maxDepth _ moments, ⟨?_, ?_, ?_⟩, ?_, ?_,
    hserialized.pending_eq_nil⟩
  · intro i k first later phase phase' hfirst hlater hsame hrunning hrunning'
    exact hserialized.eq_of_running hfirst hlater hsame hrunning hrunning'
  · intro i k first later hahead hbegun
    exact hserialized.ordered hahead hbegun
  · intro config k later before hjob hstate hended
    exact hserialized.advance_of_ended config hjob hstate hended
  · intro habove hroom t ht hchildren
    obtain ⟨habove', hroom'⟩ := history_withinRoom maxDepth habove hroom moments
    obtain ⟨limits, hlimits⟩ := habove'.exists_effectiveQuotas (TenantStore.isSome_get?_of_mem ht)
    have hbound := hroom' t ht limits hlimits hchildren
    refine ⟨limits, hlimits, fun hnumber => ?_, fun hinteger => ?_⟩
    · exact (Number.isAtMost_eq_false_iff.1 hbound).resolve_left hnumber
    · have hcount : (q.store.children t.id).length - 1 + 1 = (q.store.children t.id).length :=
        Nat.sub_add_cancel (List.length_pos_iff.2 hchildren)
      rw [← hcount]
      exact Number.isAtLeast_succ hinteger hbound
  · intro i j t hjob hresult
    have ht := State.created?_of_result? hresult
    refine ⟨hrecorded.stored hjob ht, ?_⟩
    intro k j' t' hjob' hresult' hid
    exact hrecorded.distinct hjob hjob' ht (State.created?_of_result? hresult') hid

/-- Three calls below two tenants, and one with a name that is not admissible, take turns: the
second one below `a/n` waits for the first, begins when that one has ended, and finds no room; when
all calls are over, nothing is pending. -/
theorem history_serialized_turns :
    let a : TenantId := .root ⟨"a", by decide, by decide⟩
    let n : TenantId := a.child ⟨"n", by decide, by decide⟩
    let root : Tenant := .fresh a "a" none none ⟨0⟩
    let narrow : Tenant :=
      { Tenant.fresh n "n" (some a) none ⟨0⟩ with
        quotas := { maxSubTenants := 1 }, quotaMode := .override }
    let s : TenantStore := ⟨[root, narrow]⟩
    let rounds : List Moment :=
      (List.replicate 7 [.advance ⟨0⟩ 0, .advance ⟨0⟩ 1, .advance ⟨0⟩ 2]).flatten
    let opening : List Moment :=
      [.call n "x" {}, .call a "x" {}, .call n "" {}, .call n "y" {}] ++ rounds ++ [.advance ⟨0⟩ 0]
    let before := history 5 { store := s } opening
    let q := history 5 { store := s }
      (opening ++ rounds ++ [.advance ⟨0⟩ 1, .release 2, .release 0, .release 1])
    (∃ later, before.jobs[2]? = some later ∧ later.state = .waiting (some 0) ∧
      (before.advance { maxDepth := 5, now := ⟨0⟩ } 2).jobs[2]? =
        some { later with state := .running .readParent }) ∧
      q.jobs.map (fun j => (j.state.result?.bind (·.toOption)).map (·.id.text)) =
        [some "a/n/x", some "a/x", none] ∧
      (∃ t, t.id.text = "a/n/x" ∧ q.store.get? t.id = some t) ∧
      (∃ limits, q.store.effectiveQuotas n = .ok limits ∧
        limits.maxSubTenants.isAtLeast (q.store.children n).length = true) ∧
      q.pending = [] := by
  intro a n root narrow s rounds opening before q
  obtain ⟨-, ⟨-, -, hnext⟩, -⟩ := history_serialized 5 s opening
  obtain ⟨-, -, hroom, hstored, hpending⟩ := history_serialized 5 s
    (opening ++ rounds ++ [.advance ⟨0⟩ 1, .release 2, .release 0, .release 1])
  have hmem (t : Tenant) (ht : t ∈ s.tenants) : t = root ∨ t = narrow := by simpa [s] using ht
  have habove : s.ParentsAbove := by
    intro t ht parent hparent
    rcases hmem t ht with rfl | rfl
    · cases hparent
    · cases hparent
      exact ⟨TenantId.parent?_child _ _, by decide +kernel⟩
  have hwithin : s.WithinRoom := by
    intro t ht limits hlimits hchildren
    rcases hmem t ht with rfl | rfl
    · have hroot : s.effectiveQuotas a = .ok {} :=
        TenantStore.effectiveQuotas_of_own (t := root) (by decide +kernel) rfl
      rw [← Except.ok.inj (hroot.symm.trans hlimits)]
      decide +kernel
    · exact absurd (by decide +kernel) hchildren
  have hresults : q.jobs.map (fun j => (j.state.result?.bind (·.toOption)).map (·.id.text)) =
      [some "a/n/x", some "a/x", none] := by decide +kernel
  refine ⟨?_, hresults, ?_, ?_, ?_⟩
  · have hwaiting : (before.jobs[2]?).bind (·.state.awaited?) = some (some 0) := by decide +kernel
    obtain ⟨later, hlater, hawaited⟩ := Option.bind_eq_some_iff.1 hwaiting
    have hstate : later.state = .waiting (some 0) := State.awaited?_eq_some.1 hawaited
    -- the first call is over, and the second one is below the other tenant
    have hover : ∀ i < 2, (before.jobs[i]?).all (fun first =>
        first.request.parentId ≠ n || first.state.hasEnded) = true := by decide +kernel
    have hparent : (before.jobs[2]?).all (·.request.parentId = n) = true := by decide +kernel
    refine ⟨later, hlater, hstate, hnext _ 2 later (some 0) hlater hstate ?_⟩
    intro i first hahead
    have hfirst := (Option.all_eq_true _ _).1 (hover i hahead.lt) first hahead.first_mem
    have hlaterParent := (Option.all_eq_true _ _).1 hparent later hlater
    simp only [decide_eq_true_eq] at hlaterParent
    simpa [hahead.same, hlaterParent] using hfirst
  · have hfirst : ((q.jobs[0]?.bind (·.state.result?)).bind (·.toOption)).map (·.id.text) =
        some "a/n/x" := by decide +kernel
    obtain ⟨t, ht, htext⟩ := Option.map_eq_some_iff.1 hfirst
    obtain ⟨result, hresult, ht⟩ := Option.bind_eq_some_iff.1 ht
    obtain ⟨j, hjob, hresult⟩ := Option.bind_eq_some_iff.1 hresult
    rw [toOption_eq_some_iff.1 ht] at hresult
    exact ⟨t, htext, (hstored 0 j t hjob hresult).1⟩
  · have hget : q.store.get? n = some narrow := by decide +kernel
    have hown := TenantStore.effectiveQuotas_of_own hget rfl
    obtain ⟨limits, hlimits, -, hexact⟩ :=
      hroom habove hwithin narrow (TenantStore.mem_of_get? hget) (by decide +kernel)
    have hsame : narrow.quotas = limits := Except.ok.inj (hown.symm.trans hlimits)
    exact ⟨limits, hlimits, hexact (by rw [← hsame]; decide +kernel)⟩
  · apply hpending
    intro i j hjob
    have hall : ∀ j ∈ q.jobs, j.state.released?.isSome = true := by decide +kernel
    obtain ⟨result, hresult⟩ := Option.isSome_iff_exists.1 (hall j (List.mem_of_getElem? hjob))
    exact ⟨result, State.released?_eq_some.1 hresult⟩

/-- A limit that is no integer is exceeded: where one and a half sub-tenants are admitted, there is
room for a second one besides the first. -/
theorem history_overfull :
    let a : TenantId := .root ⟨"a", by decide, by decide⟩
    let root : Tenant :=
      { Tenant.fresh a "a" none none ⟨0⟩ with
        quotas := { maxSubTenants := .ofDecimal false 15 (-1) } }
    let s : TenantStore := ⟨[root]⟩
    let steps (job : Nat) : List Moment := List.replicate 7 (.advance ⟨0⟩ job) ++ [.release job]
    let moments : List Moment := [.call a "b" {}, .call a "c" {}] ++ steps 0 ++ steps 1
    s.IsForest ∧ s.WithinRoom ∧ ¬ (history 5 { store := s } moments).store.WithinRoom := by
  intro a root s steps moments
  have hmem (t : Tenant) (ht : t ∈ s.tenants) : t = root := by simpa [s] using ht
  have hforest : s.IsForest := by
    refine ⟨by decide +kernel, fun t ht hdepth => ?_⟩
    rw [hmem t ht] at hdepth
    exact absurd (by decide +kernel) hdepth
  have hroom : s.WithinRoom := by
    intro t ht limits hlimits hchildren
    rw [hmem t ht] at hchildren
    exact absurd (by decide +kernel) hchildren
  refine ⟨hforest, hroom, fun hafter => ?_⟩
  have hroot : (history 5 { store := s } moments).store.get? a = some root := by decide +kernel
  have hlimits := TenantStore.effectiveQuotas_of_own hroot rfl
  have hbound := hafter root (TenantStore.mem_of_get? hroot) root.quotas hlimits (by decide +kernel)
  have hfull : root.quotas.maxSubTenants.isAtLeast
      ((history 5 { store := s } moments).store.children root.id).length = false := by
    decide +kernel
  rw [hfull] at hbound
  cases hbound

end History

end CreationQueue

end TenantIam
