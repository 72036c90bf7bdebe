import TenantIam.Proofs.Tenant.Steps

/-!
# Chains of parents

From an identifier the parents that are named lead to another one, from there to the next, and so
on. In a store of any kind the chain may break off at an identifier that is free, and it may come
back to itself. Going along it, one comes in the end to a tenant with quotas of its own, to a free
identifier or to one that was met before, and whichever is first decides which quotas are in force.
-/

namespace TenantIam

theorem Tenant.inheritsFrom?_eq_none_iff {t : Tenant} :
    t.inheritsFrom? = none ↔ t.quotaMode = .override ∨ t.parentId = none := by
  unfold inheritsFrom?
  cases t.quotaMode <;> simp

theorem Tenant.inheritsFrom?_of_inherited {t : Tenant} (hmode : t.quotaMode = .inherited) :
    t.inheritsFrom? = t.parentId := by
  unfold inheritsFrom?
  rw [hmode]

namespace TenantStore

variable {s : TenantStore} {id met parent : TenantId} {t : Tenant} {n : Nat}

/-- **The chain of parents.** The identifier itself is first; after that of a stored tenant that
names a parent, whatever its quota mode is, the parent is next. -/
def chain (s : TenantStore) (id : TenantId) : Nat → Option TenantId
  | 0 => some id
  | n + 1 => ((s.chain id n).bind s.get?).bind (·.parentId)

theorem chain_succ (hmet : s.chain id n = some met) (hget : s.get? met = some t) :
    s.chain id (n + 1) = t.parentId := by
  rw [chain, hmet, Option.bind_some, hget, Option.bind_some]

/-- **The way so far.** Each of the first identifiers on the chain is that of a stored tenant that
inherits and names a parent, and none of them was met before. -/
def PassesOn (s : TenantStore) (id : TenantId) (n : Nat) : Prop :=
  ∀ k < n, (∃ t ∈ (s.chain id k).bind s.get?, t.quotaMode = .inherited ∧ t.parentId ≠ none) ∧
    ∀ j < k, s.chain id j ≠ s.chain id k

instance (s : TenantStore) (id : TenantId) (n : Nat) : Decidable (s.PassesOn id n) :=
  inferInstanceAs (Decidable (∀ k < n, _ ∧ ∀ j < k, _))

namespace PassesOn

theorem of_succ (h : s.PassesOn id (n + 1)) : s.PassesOn id n :=
  fun k hk => h k (Nat.lt_succ_of_lt hk)

/-- The last tenant on the way so far, and the parent that it names. -/
theorem exists_last (h : s.PassesOn id (n + 1)) :
    ∃ met t parent, s.chain id n = some met ∧ s.get? met = some t ∧ t.quotaMode = .inherited ∧
      t.parentId = some parent ∧ ∀ j < n, s.chain id j ≠ some met := by
  obtain ⟨⟨t, ht, hmode, hnamed⟩, hnew⟩ := h n (Nat.lt_succ_self n)
  obtain ⟨met, hmet, hget⟩ := Option.bind_eq_some_iff.1 ht
  obtain ⟨parent, hparent⟩ := Option.ne_none_iff_exists'.1 hnamed
  rw [hmet] at hnew
  exact ⟨met, t, parent, hmet, hget, hmode, hparent, hnew⟩

theorem succ (h : s.PassesOn id n) (hmet : s.chain id n = some met) (hget : s.get? met = some t)
    (hmode : t.quotaMode = .inherited) (hparent : t.parentId = some parent)
    (hnew : ∀ j < n, s.chain id j ≠ some met) : s.PassesOn id (n + 1) := by
  intro k hk
  rcases Nat.lt_succ_iff_lt_or_eq.1 hk with hlt | rfl
  · exact h k hlt
  · rw [hmet]
    exact ⟨⟨t, hget, hmode, by rw [hparent]; exact Option.some_ne_none parent⟩, hnew⟩

/-- The way so far leads to the next identifier on the chain. -/
theorem exists_chain_eq (h : s.PassesOn id n) : ∃ met, s.chain id n = some met := by
  cases n with
  | zero => exact ⟨id, rfl⟩
  | succ n =>
      obtain ⟨met, t, parent, hmet, hget, -, hparent, -⟩ := h.exists_last
      exact ⟨parent, by rw [chain_succ hmet hget, hparent]⟩

/-- **The search so far.** It has come to the next identifier on the chain, has visited those
before, and has met another stored tenant at each of them. -/
theorem exists_visited (h : s.PassesOn id n) (hmet : s.chain id n = some met) :
    ∃ visited, (∀ other, other ∈ visited ↔ ∃ k < n, s.chain id k = some other) ∧
      s.effectiveQuotas id = s.quotasFrom id visited met ∧
      (s.unvisited visited).length + n ≤ s.tenants.length := by
  induction n generalizing met with
  | zero =>
      cases hmet
      refine ⟨[], by simp, rfl, ?_⟩
      exact List.length_filter_le _ _
  | succ n ih =>
      -- one more step of the search visits the identifier before the one that is met
      obtain ⟨last, t, -, hlast, hget, hmode, -, hnew⟩ := h.exists_last
      have hnext : t.parentId = some met := by rw [← chain_succ hlast hget, hmet]
      obtain ⟨visited, hvisited, hquotas, hleft⟩ := ih h.of_succ hlast
      have hfresh : last ∉ visited := by
        rw [hvisited]
        rintro ⟨k, hk, hsame⟩
        exact hnew k hk hsame
      refine ⟨last :: visited, fun other => ?_, ?_, ?_⟩
      · rw [List.mem_cons, hvisited]
        constructor
        · rintro (rfl | ⟨k, hk, hsame⟩)
          · exact ⟨n, Nat.lt_succ_self n, hlast⟩
          · exact ⟨k, Nat.lt_succ_of_lt hk, hsame⟩
        · rintro ⟨k, hk, hsame⟩
          rcases Nat.lt_succ_iff_lt_or_eq.1 hk with hlt | rfl
          · exact .inr ⟨k, hlt, hsame⟩
          · exact .inl (Option.some.inj (hsame.symm.trans hlast))
      · have hinherits : t.inheritsFrom? = some met := by
          rw [Tenant.inheritsFrom?_of_inherited hmode, hnext]
        rw [hquotas, quotasFrom_eq, if_neg hfresh]
        simp only [hget, hinherits]
      · have hfewer := length_unvisited_lt hfresh hget
        omega

/-- On the way no more identifiers are met than there are tenants. -/
theorem le_length (h : s.PassesOn id n) : n ≤ s.tenants.length := by
  obtain ⟨met, hmet⟩ := h.exists_chain_eq
  obtain ⟨visited, -, -, hleft⟩ := h.exists_visited hmet
  omega

end PassesOn

/-- What ends the way along the chain: an identifier that was met before, a free one, or that of a
tenant that overrides or names no parent. -/
def EndsAt (s : TenantStore) (id : TenantId) (n : Nat) (met : TenantId) : Prop :=
  (∃ k < n, s.chain id k = some met) ∨ s.get? met = none ∨
    ∃ t, s.get? met = some t ∧ (t.quotaMode = .override ∨ t.parentId = none)

/-- **The way ends.** Something ends it after no more steps than there are tenants. -/
theorem exists_end (s : TenantStore) (id : TenantId) :
    ∃ n ≤ s.tenants.length, ∃ met, s.PassesOn id n ∧ s.chain id n = some met ∧
      s.EndsAt id n met := by
  have hgoes (m : Nat) : s.PassesOn id m ∨
      ∃ n met, s.PassesOn id n ∧ s.chain id n = some met ∧ s.EndsAt id n met := by
    induction m with
    | zero => exact .inl fun _ hk => absurd hk (Nat.not_lt_zero _)
    | succ m ih =>
        rcases ih with hpasses | hends
        · obtain ⟨met, hmet⟩ := hpasses.exists_chain_eq
          by_cases hend : s.EndsAt id m met
          · exact .inr ⟨m, met, hpasses, hmet, hend⟩
          · -- what does not end the way passes it on
            simp only [EndsAt, not_or, not_exists, not_and] at hend
            obtain ⟨hnew, hstored, hinherits⟩ := hend
            obtain ⟨t, hget⟩ := Option.ne_none_iff_exists'.1 hstored
            obtain ⟨hmode, hnamed⟩ := hinherits t hget
            obtain ⟨parent, hparent⟩ := Option.ne_none_iff_exists'.1 hnamed
            refine .inl (hpasses.succ hmet hget ?_ hparent hnew)
            cases hquotaMode : t.quotaMode with
            | inherited => rfl
            | override => exact absurd hquotaMode hmode
        · exact .inr hends
  rcases hgoes (s.tenants.length + 1) with hpasses | ⟨n, met, hpasses, hmet, hend⟩
  · have hlength := hpasses.le_length
    omega
  · exact ⟨n, hpasses.le_length, met, hpasses, hmet, hend⟩

/-- **What is at the end decides.** In any store, the chain of parents from any identifier comes
within the number of tenants to an identifier that was met before, to a free one, or to a tenant
that overrides or names no parent. The first such thing on the chain is what the quotas in force
come from: a repetition is an error about the repeated identifier, a free identifier is an error
about that one, and a tenant that ends the chain gives its quotas. The search takes at most one step
more than there are tenants, and no step changes the store. -/
theorem effectiveQuotas_end (s : TenantStore) (id : TenantId) :
    (∃ n ≤ s.tenants.length, ∃ met, s.PassesOn id n ∧ s.chain id n = some met ∧
      s.EndsAt id n met) ∧
    (∀ n met, s.PassesOn id n → s.chain id n = some met →
      ((∃ k < n, s.chain id k = some met) → s.effectiveQuotas id = .error (.cycle id met)) ∧
      ((∀ k < n, s.chain id k ≠ some met) →
        (s.get? met = none → s.effectiveQuotas id = .error (.missing met)) ∧
        ∀ t, s.get? met = some t → t.quotaMode = .override ∨ t.parentId = none →
          s.effectiveQuotas id = .ok t.quotas)) ∧
    (∀ met, Reported.toFault (QuotaError.missing met) = .notFound ("Tenant: " ++ met.text) ∧
      Reported.toFault (QuotaError.cycle id met) =
        .invalidParameter ("Tenant parent cycle at " ++ met.text)
          (some [("tenantId", .str id.text)])) ∧
    ∀ (config : Creation) (r : Creation.Request) (parent : Tenant) (log : List Log.Entry),
      r.parentId = id →
      let search := fun n =>
        (Creation.Progress.step config r)^[n] ⟨.followQuotas parent [] id, s, log⟩
      ∃ n ≤ s.tenants.length + 1,
        search n = ⟨.ofCheck ((s.effectiveQuotas id).mapError .quotas) (.countSiblings parent), s,
          log⟩ ∧
        ∀ k ≤ n, (search k).store = s := by
  refine ⟨exists_end s id, ?_, fun met => ⟨rfl, rfl⟩, ?_⟩
  · intro n met hpasses hmet
    obtain ⟨visited, hvisited, hquotas, -⟩ := hpasses.exists_visited hmet
    rw [hquotas, quotasFrom_eq]
    constructor
    · intro hrepeated
      rw [if_pos ((hvisited met).2 hrepeated)]
    · intro hnew
      have hfresh : met ∉ visited := by
        rw [hvisited]
        rintro ⟨k, hk, hsame⟩
        exact hnew k hk hsame
      rw [if_neg hfresh]
      refine ⟨fun hfree => by simp only [hfree], fun t hget hown => ?_⟩
      simp only [hget, Tenant.inheritsFrom?_eq_none_iff.2 hown]
  · rintro config r parent log rfl
    obtain ⟨n, hn, hsteps⟩ :=
      Creation.Progress.exists_steps_followQuotas config r s log parent [] r.parentId
    have hall : (s.unvisited []).length ≤ s.tenants.length := List.length_filter_le _ _
    refine ⟨n, by omega, hsteps, fun k hk => Creation.Progress.store_eq_of_le hk ?_⟩
    intro t
    rw [hsteps]
    exact Creation.Phase.ofCheck_ne_ended_ok fun _ hended => by cases hended

/-- Four ways along the chain: from `a` past a parent that inherits to a tenant that overrides, from
`d` to a parent that is not stored, from `e` round a circle of two and back to it, and from `g` into
the same circle, where `e` is the identifier that is repeated. -/
theorem effectiveQuotas_end_circles :
    let a : TenantId := .root ⟨"a", by decide, by decide⟩
    let b : TenantId := .root ⟨"b", by decide, by decide⟩
    let c : TenantId := .root ⟨"c", by decide, by decide⟩
    let d : TenantId := .root ⟨"d", by decide, by decide⟩
    let e : TenantId := .root ⟨"e", by decide, by decide⟩
    let f : TenantId := .root ⟨"f", by decide, by decide⟩
    let g : TenantId := .root ⟨"g", by decide, by decide⟩
    let gone : TenantId := .root ⟨"gone", by decide, by decide⟩
    let child (id parent : TenantId) : Tenant := .fresh id id.text (some parent) none ⟨0⟩
    let narrow : Tenant :=
      { child c gone with quotas := { maxSubTenants := 1 }, quotaMode := .override }
    let s : TenantStore :=
      ⟨[child a b, child b c, narrow, child d gone, child e f, child f e, child g e]⟩
    s.effectiveQuotas a = .ok { maxSubTenants := 1 } ∧
      s.effectiveQuotas d = .error (.missing gone) ∧
      s.effectiveQuotas e = .error (.cycle e e) ∧
      s.effectiveQuotas g = .error (.cycle g e) := by
  intro a b c d e f g gone child narrow s
  refine ⟨?_, ?_, ?_, ?_⟩
  · have hfirst := (effectiveQuotas_end s a).2.1 2 c (by decide +kernel) (by decide +kernel)
    exact (hfirst.2 (by decide +kernel)).2 narrow (by decide +kernel) (.inl rfl)
  · have hfirst := (effectiveQuotas_end s d).2.1 1 gone (by decide +kernel) (by decide +kernel)
    exact (hfirst.2 (by decide +kernel)).1 (by decide +kernel)
  · have hfirst := (effectiveQuotas_end s e).2.1 2 e (by decide +kernel) (by decide +kernel)
    exact hfirst.1 (by decide +kernel)
  · have hfirst := (effectiveQuotas_end s g).2.1 3 e (by decide +kernel) (by decide +kernel)
    exact hfirst.1 (by decide +kernel)

end TenantStore

end TenantIam
