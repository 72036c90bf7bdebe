import TenantIam.Proofs.Tenant.Creation
import TenantIam.Proofs.Tenant.Lineage

/-!
# Forests of tenants

In a forest the parent that a tenant names is the one above its identifier, and it is stored. All
tenants above a stored one are stored then, the quotas in force are known for every stored tenant,
and a sub-tenant that is admitted is a new leaf.
-/

namespace TenantIam

namespace TenantStore

variable {s : TenantStore} {t : Tenant} {id : TenantId}

/-- **Forests.** The tenants of depth zero name no parent; every other one names the identifier
above its own, and there is a tenant under it. -/
structure IsForest (s : TenantStore) : Prop where
  roots : ∀ t ∈ s.tenants, t.id.depth = 0 → t.parentId = none
  linked : ∀ t ∈ s.tenants, t.id.depth ≠ 0 → ∃ parent, t.id.parent? = some parent ∧
    t.parentId = some parent ∧ (s.get? parent).isSome

theorem isSome_get?_of_mem (ht : t ∈ s.tenants) : (s.get? t.id).isSome := by
  unfold get?
  rw [List.find?_isSome]
  exact ⟨t, ht, by simp⟩

theorem mem_of_get? (hget : s.get? id = some t) : t ∈ s.tenants :=
  List.mem_of_find?_eq_some hget

theorem id_of_get? (hget : s.get? id = some t) : t.id = id := by
  simpa using List.find?_some hget

theorem children_add (s : TenantStore) (t : Tenant) (id : TenantId) :
    (s.add t).children id =
      s.children id ++ if t.parentId = some id then [t] else [] := by
  unfold children add
  rw [List.filter_append]
  by_cases h : t.parentId = some id <;> simp [h]

/-- The numbers of sub-tenants keep a bound that depends on the quotas in force for the parent. -/
def BoundsParents (bound : Quotas → Nat → Prop) (s : TenantStore) : Prop :=
  ∀ t ∈ s.tenants, ∀ limits, s.effectiveQuotas t.id = .ok limits → s.children t.id ≠ [] →
    bound limits (s.children t.id).length

/-- Every parent that is named is the identifier above the tenant's own, and there is a tenant under
it. -/
def ParentsAbove (s : TenantStore) : Prop :=
  ∀ t ∈ s.tenants, ∀ parent, t.parentId = some parent →
    t.id.parent? = some parent ∧ (s.get? parent).isSome

theorem isSome_get?_add (hstored : (s.get? id).isSome) (t : Tenant) :
    ((s.add t).get? id).isSome := by
  obtain ⟨found, hget⟩ := Option.isSome_iff_exists.1 hstored
  rw [get?_add_of_get? hget t]
  rfl

namespace ParentsAbove

/-- **Quotas are known.** There are quotas in force for every stored tenant. -/
theorem exists_effectiveQuotas (h : s.ParentsAbove) (hstored : (s.get? id).isSome) :
    ∃ quotas, s.effectiveQuotas id = .ok quotas := by
  -- a tenant that inherits does so from the one above, so the induction is down the tree
  induction id using TenantId.childInduction with
  | root id hnone =>
      obtain ⟨t, hget⟩ := Option.isSome_iff_exists.1 hstored
      have hown : t.inheritsFrom? = none := by
        cases hinherits : t.inheritsFrom? with
        | none => rfl
        | some parent =>
            have hparent := Tenant.parentId_of_inheritsFrom? hinherits
            have habove := (h t (mem_of_get? hget) parent hparent).1
            rw [id_of_get? hget, hnone] at habove
            cases habove
      exact ⟨t.quotas, effectiveQuotas_of_own hget hown⟩
  | child id segment ih =>
      obtain ⟨t, hget⟩ := Option.isSome_iff_exists.1 hstored
      cases hinherits : t.inheritsFrom? with
      | none => exact ⟨t.quotas, effectiveQuotas_of_own hget hinherits⟩
      | some parent =>
          have hparent := Tenant.parentId_of_inheritsFrom? hinherits
          obtain ⟨habove, hfound⟩ := h t (mem_of_get? hget) parent hparent
          rw [id_of_get? hget, TenantId.parent?_child] at habove
          cases habove
          obtain ⟨quotas, hquotas⟩ := ih hfound
          exact ⟨quotas, effectiveQuotas_of_inherits hget hinherits hquotas⟩

/-- A new tenant leaves the quotas in force for stored ones as they are. -/
theorem effectiveQuotas_add_eq (h : s.ParentsAbove) (hstored : (s.get? id).isSome) (t : Tenant) :
    (s.add t).effectiveQuotas id = s.effectiveQuotas id := by
  obtain ⟨quotas, hquotas⟩ := h.exists_effectiveQuotas hstored
  rw [hquotas, effectiveQuotas_add hquotas t]

theorem children_of_free (h : s.ParentsAbove) (hfree : s.get? id = none) : s.children id = [] := by
  unfold children
  rw [List.filter_eq_nil_iff]
  intro t ht hparent
  have hstored := (h t ht id (by simpa using hparent)).2
  rw [hfree] at hstored
  cases hstored

section Leaf

variable {parentId : TenantId} {segment : TenantId.Segment}

theorem add_leaf (h : s.ParentsAbove) (hid : t.id = parentId.child segment)
    (hparent : t.parentId = some parentId) (hstored : (s.get? parentId).isSome) :
    (s.add t).ParentsAbove := by
  intro u hu above hnamed
  rcases mem_add_iff.1 hu with hu | rfl
  · obtain ⟨habove, hfound⟩ := h u hu above hnamed
    exact ⟨habove, isSome_get?_add hfound t⟩
  · rw [hparent] at hnamed
    cases hnamed
    have habove : u.id.parent? = some parentId := by
      rw [hid]
      exact TenantId.parent?_child _ _
    exact ⟨habove, isSome_get?_add hstored u⟩

/-- A new leaf under a free identifier makes one more sub-tenant for its parent, has none itself and
leaves the others theirs. -/
theorem boundsParents_add_leaf {bound : Quotas → Nat → Prop} {limits : Quotas} (h : s.ParentsAbove)
    (hfree : s.get? t.id = none) (hid : t.id = parentId.child segment)
    (hparent : t.parentId = some parentId) (hlimits : s.effectiveQuotas parentId = .ok limits)
    (hbound : bound limits ((s.children parentId).length + 1)) (hall : s.BoundsParents bound) :
    (s.add t).BoundsParents bound := by
  intro u hu quotas hquotas hchildren
  rw [children_add, hparent] at hchildren ⊢
  rcases mem_add_iff.1 hu with hu | rfl
  · rw [h.effectiveQuotas_add_eq (isSome_get?_of_mem hu)] at hquotas
    by_cases hself : parentId = u.id
    · rw [if_pos (congrArg some hself), List.length_append, List.length_singleton]
      rw [← hself, hlimits] at hquotas
      cases hquotas
      rw [← hself]
      exact hbound
    · rw [if_neg (by simpa using hself), List.append_nil] at hchildren ⊢
      exact hall u hu quotas hquotas hchildren
  · -- nobody names a free identifier as the parent, so the new one has no sub-tenants
    exfalso
    have hself : parentId ≠ u.id := by
      intro hsame
      have hdepth : u.id.depth = parentId.depth + 1 := by
        rw [hid]
        exact TenantId.depth_child _ _
      rw [← hsame] at hdepth
      omega
    apply hchildren
    rw [h.children_of_free hfree, if_neg (by simpa using hself), List.nil_append]

end Leaf

end ParentsAbove

namespace IsForest

/-- A parent that is named is stored, and the tenant is a child of it. -/
theorem of_parentId (h : s.IsForest) (ht : t ∈ s.tenants) {parent : TenantId}
    (hparent : t.parentId = some parent) :
    t.id.parent? = some parent ∧ (s.get? parent).isSome := by
  by_cases hdepth : t.id.depth = 0
  · rw [h.roots t ht hdepth] at hparent
    cases hparent
  · obtain ⟨above, habove, hnamed, hstored⟩ := h.linked t ht hdepth
    rw [hparent] at hnamed
    cases hnamed
    exact ⟨habove, hstored⟩

/-- The identifier above that of a stored tenant is that of a stored tenant. -/
theorem isSome_get?_of_child (h : s.IsForest) {segment : TenantId.Segment}
    (hstored : (s.get? (id.child segment)).isSome) : (s.get? id).isSome := by
  obtain ⟨t, hget⟩ := Option.isSome_iff_exists.1 hstored
  have hid : t.id = id.child segment := id_of_get? hget
  have hdepth : t.id.depth ≠ 0 := by
    rw [hid, TenantId.depth_child]
    omega
  obtain ⟨parent, habove, -, hparent⟩ := h.linked t (mem_of_get? hget) hdepth
  rw [hid, TenantId.parent?_child] at habove
  cases habove
  exact hparent

/-- All identifiers above that of a stored tenant are those of stored tenants. -/
theorem isSome_get?_of_isBelow (h : s.IsForest) {above : TenantId} (hstored : (s.get? id).isSome)
    (hbelow : id.isBelow above = true) : (s.get? above).isSome := by
  induction id using TenantId.childInduction with
  | root id hnone =>
      rw [TenantId.isBelow_of_parent?_eq_none hnone] at hbelow
      cases hbelow
  | child id segment ih =>
      have hparent : (s.get? id).isSome := h.isSome_get?_of_child hstored
      rcases TenantId.isBelow_child_iff.1 hbelow with rfl | hbelow
      · exact hparent
      · exact ih hparent hbelow

theorem parentsAbove (h : s.IsForest) : s.ParentsAbove :=
  fun _ ht _ hparent => h.of_parentId ht hparent

/-- There are quotas in force for every stored tenant of a forest. -/
theorem exists_effectiveQuotas (h : s.IsForest) (hstored : (s.get? id).isSome) :
    ∃ quotas, s.effectiveQuotas id = .ok quotas :=
  h.parentsAbove.exists_effectiveQuotas hstored

theorem effectiveQuotas_add_eq (h : s.IsForest) (hstored : (s.get? id).isSome) (t : Tenant) :
    (s.add t).effectiveQuotas id = s.effectiveQuotas id :=
  h.parentsAbove.effectiveQuotas_add_eq hstored t

theorem not_isBelow_of_free (h : s.IsForest) (hfree : s.get? id = none) (ht : t ∈ s.tenants) :
    t.id.isBelow id = false := by
  rw [← Bool.not_eq_true]
  intro hbelow
  have hstored := h.isSome_get?_of_isBelow (isSome_get?_of_mem ht) hbelow
  rw [hfree] at hstored
  cases hstored

/-- **A new leaf.** A sub-tenant that is admitted leaves a forest. -/
theorem add_subTenant (h : s.IsForest) {config : Creation} {r : Creation.Request}
    {parent : Tenant} {limits : Quotas} (hadmits : config.Admits s r parent limits) :
    (s.add (config.subTenant r parent)).IsForest where
  roots := by
    intro t ht hdepth
    rcases mem_add_iff.1 ht with ht | rfl
    · exact h.roots t ht hdepth
    · have hchild : r.childId.depth = r.parentId.depth + 1 := TenantId.depth_child _ _
      rw [Creation.subTenant_id, hchild] at hdepth
      omega
  linked := by
    intro t ht hdepth
    rcases mem_add_iff.1 ht with ht | rfl
    · obtain ⟨above, habove, hnamed, hstored⟩ := h.linked t ht hdepth
      exact ⟨above, habove, hnamed, isSome_get?_add hstored _⟩
    · -- the parent was found in the store and stays there
      have hstored : (s.get? r.parentId).isSome := by
        rw [hadmits.stored]
        rfl
      exact ⟨r.parentId, TenantId.parent?_child _ _, rfl, isSome_get?_add hstored _⟩

end IsForest

end TenantStore

namespace Creation

/-- A call that asks for a sub-tenant at some time. -/
structure Call where
  /-- The time of the call. -/
  now : Instant
  /-- The tenant above. -/
  parentId : TenantId
  /-- The name, admissible or not. -/
  name : String
  /-- What the sub-tenant is to be given. -/
  options : Options

def afterCall (maxDepth : Number) (s : TenantStore) (call : Call) : TenantStore :=
  Creation.after { maxDepth, now := call.now } s call.parentId call.name call.options

def run (maxDepth : Number) (s : TenantStore) (calls : List Call) : TenantStore :=
  calls.foldl (afterCall maxDepth) s

/-- **Induction along a run.** What admitted sub-tenants preserve is preserved by every run, whether
its calls succeed or fail. -/
theorem run_induction {maxDepth : Number} {motive : TenantStore → Prop} {calls : List Call}
    (hstep : ∀ (s : TenantStore) (call : Call) (r : Request) (parent : Tenant) (limits : Quotas),
      motive s → call ∈ calls → r.options = call.options →
      Admits { maxDepth, now := call.now } s r parent limits →
      motive (s.add (subTenant { maxDepth, now := call.now } r parent)))
    {s : TenantStore} (h : motive s) : motive (run maxDepth s calls) := by
  induction calls generalizing s with
  | nil => exact h
  | cons call calls ih =>
      have hcall : motive (afterCall maxDepth s call) := by
        unfold afterCall
        rcases after_eq_or { maxDepth, now := call.now } s call.parentId call.name call.options with
          hsame | ⟨r, parent, limits, hoptions, hadmits, hadded⟩
        · rw [hsame]
          exact h
        · rw [hadded]
          exact hstep s call r parent limits h List.mem_cons_self hoptions hadmits
      exact ih (fun s other r parent limits hs hmem =>
        hstep s other r parent limits hs (List.mem_cons_of_mem _ hmem)) hcall

/-- Runs of creations leave forests. -/
theorem run_isForest {s : TenantStore} (h : s.IsForest) (maxDepth : Number) (calls : List Call) :
    (run maxDepth s calls).IsForest :=
  run_induction (fun _ _ _ _ _ hs _ _ hadmits => hs.add_subTenant hadmits) h

end Creation

end TenantIam
