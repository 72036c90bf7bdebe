import TenantIam.Tenant.Inheritance

/-!
# The way up to the quotas in force

The quotas in force are found on a way from tenant to tenant that ends at one that inherits from
nobody. There is at most one such way from an identifier and it meets no identifier twice, so the
test for repetitions never ends a search that would have succeeded.
-/

namespace TenantIam

/-- Only the parent is inherited from. -/
theorem Tenant.parentId_of_inheritsFrom? {t : Tenant} {parent : TenantId}
    (h : t.inheritsFrom? = some parent) : t.parentId = some parent := by
  unfold inheritsFrom? at h
  cases hmode : t.quotaMode with
  | inherited => simpa [hmode] using h
  | override => simp [hmode] at h

namespace TenantStore

variable {s : TenantStore} {id : TenantId} {t : Tenant}

/-- The way from an identifier up to the tenant from which it gets its quotas, with the identifiers
that are met on it. -/
inductive Climbs (s : TenantStore) : TenantId → List TenantId → Tenant → Prop
  | here {id : TenantId} {t : Tenant} (hget : s.get? id = some t)
      (hown : t.inheritsFrom? = none) : Climbs s id [id] t
  | up {id parent : TenantId} {t source : Tenant} {path : List TenantId}
      (hget : s.get? id = some t) (hparent : t.inheritsFrom? = some parent)
      (hclimbs : Climbs s parent path source) : Climbs s id (id :: path) source

namespace Climbs

variable {path : List TenantId}

/-- A tenant that is found inherits from somebody or from nobody, never both. -/
theorem unique {path' : List TenantId} {t' : Tenant} (h : Climbs s id path t)
    (h' : Climbs s id path' t') : path = path' ∧ t = t' := by
  induction h generalizing path' t' with
  | here hget hown =>
      cases h' with
      | here hget' hown' =>
          rw [hget] at hget'
          cases hget'
          exact ⟨rfl, rfl⟩
      | up hget' hparent' hclimbs' =>
          rw [hget] at hget'
          cases hget'
          rw [hown] at hparent'
          cases hparent'
  | up hget hparent hclimbs ih =>
      cases h' with
      | here hget' hown' =>
          rw [hget] at hget'
          cases hget'
          rw [hown'] at hparent
          cases hparent
      | up hget' hparent' hclimbs' =>
          rw [hget] at hget'
          cases hget'
          rw [hparent] at hparent'
          cases hparent'
          obtain ⟨hpath, hsource⟩ := ih hclimbs'
          exact ⟨congrArg _ hpath, hsource⟩

/-- From every identifier that is met the rest of the way leads to the same tenant. -/
theorem of_mem {met : TenantId} (h : Climbs s id path t) (hmet : met ∈ path) :
    ∃ rest, Climbs s met rest t ∧ rest.length ≤ path.length := by
  induction h with
  | here hget hown =>
      rw [List.mem_singleton.1 hmet]
      exact ⟨_, .here hget hown, Nat.le_refl _⟩
  | up hget hparent hclimbs ih =>
      rcases List.mem_cons.1 hmet with rfl | hmet
      · exact ⟨_, .up hget hparent hclimbs, Nat.le_refl _⟩
      · obtain ⟨rest, hrest, hlength⟩ := ih hmet
        exact ⟨rest, hrest, Nat.le_succ_of_le hlength⟩

/-- A way that came back to an identifier would be shorter than itself. -/
theorem nodup (h : Climbs s id path t) : path.Nodup := by
  induction h with
  | here hget hown => simp
  | @up id parent t source path hget hparent hclimbs ih =>
      refine List.nodup_cons.2 ⟨fun hmem => ?_, ih⟩
      obtain ⟨rest, hrest, hlength⟩ := hclimbs.of_mem hmem
      have hpath : id :: path = rest := (unique (.up hget hparent hclimbs) hrest).1
      rw [← hpath, List.length_cons] at hlength
      omega

theorem source_mem (h : Climbs s id path t) : t ∈ s.tenants := by
  induction h with
  | here hget hown => exact List.mem_of_find?_eq_some hget
  | up hget hparent hclimbs ih => exact ih

theorem mono {s' : TenantStore} (hget : ∀ id t, s.get? id = some t → s'.get? id = some t)
    (h : Climbs s id path t) : Climbs s' id path t := by
  induction h with
  | here hfound hown => exact .here (hget _ _ hfound) hown
  | up hfound hparent hclimbs ih => exact .up (hget _ _ hfound) hparent ih

end Climbs

theorem quotasFrom_eq (s : TenantStore) (start : TenantId) (visited : List TenantId)
    (id : TenantId) :
    s.quotasFrom start visited id =
      if id ∈ visited then .error (.cycle start id)
      else
        match s.get? id with
        | none => .error (.missing id)
        | some t =>
          match t.inheritsFrom? with
          | none => .ok t.quotas
          | some parent => s.quotasFrom start (id :: visited) parent := by
  rw [quotasFrom]
  by_cases hvisited : id ∈ visited
  · rw [dif_pos hvisited, if_pos hvisited]
  · rw [dif_neg hvisited, if_neg hvisited]
    split
    · next hget => rw [hget]
    · next t hget => cases hparent : t.inheritsFrom? <;> simp only [hget, hparent]

/-- A search that succeeds has gone a way up. -/
theorem exists_climbs_of_quotasFrom {start : TenantId} {visited : List TenantId} {quotas : Quotas}
    (h : s.quotasFrom start visited id = .ok quotas) :
    ∃ path t, s.Climbs id path t ∧ t.quotas = quotas := by
  -- every step leaves fewer tenants unvisited
  induction hleft : (s.unvisited visited).length using Nat.strongRecOn generalizing visited id with
  | _ left ih =>
      rw [quotasFrom_eq] at h
      split at h
      · cases h
      · next hvisited =>
        split at h
        · cases h
        · next t hget =>
          split at h
          · next hown =>
            cases h
            exact ⟨[id], t, .here hget hown, rfl⟩
          · next parent hparent =>
            have hfewer : (s.unvisited (id :: visited)).length < left := by
              rw [← hleft]
              exact length_unvisited_lt hvisited hget
            obtain ⟨path, source, hclimbs, hquotas⟩ := ih _ hfewer h rfl
            exact ⟨id :: path, source, .up hget hparent hclimbs, hquotas⟩

/-- A way up that avoids what was visited is found. -/
theorem quotasFrom_of_climbs {path : List TenantId} (h : s.Climbs id path t) (start : TenantId)
    {visited : List TenantId} (hvisited : ∀ met ∈ path, met ∉ visited) :
    s.quotasFrom start visited id = .ok t.quotas := by
  induction h generalizing visited with
  | @here id t hget hown =>
      have hfresh : id ∉ visited := hvisited id (List.mem_singleton_self id)
      rw [quotasFrom_eq, if_neg hfresh]
      simp only [hget, hown]
  | @up id parent t source path hget hparent hclimbs ih =>
      have hfresh : id ∉ visited := hvisited id List.mem_cons_self
      have hrest : ∀ met ∈ path, met ∉ id :: visited := by
        intro met hmet hmem
        rcases List.mem_cons.1 hmem with rfl | hmem
        · -- the identifier itself is not met again further up
          exact (List.nodup_cons.1 (Climbs.up hget hparent hclimbs).nodup).1 hmet
        · exact hvisited met (List.mem_cons_of_mem _ hmet) hmem
      rw [quotasFrom_eq, if_neg hfresh]
      simp only [hget, hparent, ih hrest]

/-- **Quotas in force.** They are the quotas of the tenant to which the way up leads. -/
theorem effectiveQuotas_eq_ok_iff {quotas : Quotas} :
    s.effectiveQuotas id = .ok quotas ↔ ∃ path t, s.Climbs id path t ∧ t.quotas = quotas := by
  constructor
  · exact exists_climbs_of_quotasFrom
  · rintro ⟨path, t, hclimbs, rfl⟩
    exact quotasFrom_of_climbs hclimbs id fun _ _ => List.not_mem_nil

/-- A tenant that inherits from nobody is subject to its own quotas. -/
theorem effectiveQuotas_of_own (hget : s.get? id = some t) (hown : t.inheritsFrom? = none) :
    s.effectiveQuotas id = .ok t.quotas :=
  effectiveQuotas_eq_ok_iff.2 ⟨[id], t, .here hget hown, rfl⟩

/-- A tenant that inherits is subject to the quotas in force for the one it inherits from. -/
theorem effectiveQuotas_of_inherits {parent : TenantId} {quotas : Quotas}
    (hget : s.get? id = some t) (hparent : t.inheritsFrom? = some parent)
    (hquotas : s.effectiveQuotas parent = .ok quotas) : s.effectiveQuotas id = .ok quotas := by
  obtain ⟨path, source, hclimbs, rfl⟩ := effectiveQuotas_eq_ok_iff.1 hquotas
  exact effectiveQuotas_eq_ok_iff.2 ⟨id :: path, source, .up hget hparent hclimbs, rfl⟩

/-- The quotas in force are those of some tenant of the store. -/
theorem exists_mem_of_effectiveQuotas {quotas : Quotas}
    (h : s.effectiveQuotas id = .ok quotas) : ∃ source ∈ s.tenants, source.quotas = quotas := by
  obtain ⟨path, source, hclimbs, hquotas⟩ := effectiveQuotas_eq_ok_iff.1 h
  exact ⟨source, hclimbs.source_mem, hquotas⟩

section Add

def add (s : TenantStore) (t : Tenant) : TenantStore := ⟨s.tenants ++ [t]⟩

theorem mem_add_iff {u : Tenant} : u ∈ (s.add t).tenants ↔ u ∈ s.tenants ∨ u = t := by
  unfold add
  rw [List.mem_append, List.mem_singleton]

theorem get?_add_of_get? {found : Tenant} (hget : s.get? id = some found) (t : Tenant) :
    (s.add t).get? id = some found := by
  unfold get? add at *
  rw [List.find?_append, hget]
  rfl

theorem get?_add_self (hfree : s.get? t.id = none) : (s.add t).get? t.id = some t := by
  unfold get? add at *
  rw [List.find?_append, hfree]
  simp

/-- What is found after a tenant is added was there before or is the new one. -/
theorem get?_add_eq_some {found : Tenant} (hget : (s.add t).get? id = some found) :
    s.get? id = some found ∨ (id = t.id ∧ found = t) := by
  cases hbefore : s.get? id with
  | some other =>
      rw [get?_add_of_get? hbefore t] at hget
      exact .inl hget
  | none =>
      unfold get? add at *
      rw [List.find?_append, hbefore] at hget
      by_cases hid : t.id = id
      · have hfound : t = found := by simpa [hid] using hget
        exact .inr ⟨hid.symm, hfound.symm⟩
      · simp [hid] at hget

/-- A tenant under a free identifier is found there, and all others where they were. -/
theorem get?_add (hfree : s.get? t.id = none) (id : TenantId) :
    (s.add t).get? id = if id = t.id then some t else s.get? id := by
  by_cases hid : id = t.id
  · rw [if_pos hid, hid]
    exact get?_add_self hfree
  · rw [if_neg hid]
    cases hget : s.get? id with
    | some found => exact get?_add_of_get? hget t
    | none =>
        cases hadded : (s.add t).get? id with
        | none => rfl
        | some found =>
            rcases get?_add_eq_some hadded with hbefore | ⟨hsame, -⟩
            · rw [hget] at hbefore
              cases hbefore
            · exact absurd hsame hid

/-- A new tenant leaves the quotas in force for the others as they are. -/
theorem effectiveQuotas_add {quotas : Quotas} (h : s.effectiveQuotas id = .ok quotas)
    (t : Tenant) : (s.add t).effectiveQuotas id = .ok quotas := by
  obtain ⟨path, source, hclimbs, hquotas⟩ := effectiveQuotas_eq_ok_iff.1 h
  have hclimbs' : (s.add t).Climbs id path source :=
    hclimbs.mono fun _ _ hget => get?_add_of_get? hget t
  exact effectiveQuotas_eq_ok_iff.2 ⟨path, source, hclimbs', hquotas⟩

end Add

end TenantStore

end TenantIam
