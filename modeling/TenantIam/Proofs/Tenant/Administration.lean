import TenantIam.Proofs.Tenant.Keys
import TenantIam.Proofs.Tenant.Lineage
import TenantIam.Tenant.Lineage

/-!
# Who administers a tenant

A tenant is administered by the principals that it lists and by those that a tenant above it lists.
The tenants above are looked for one by one, from the root down, and some of them may not be stored,
nor need the tenant itself be. Nothing else counts: not the tenants beside it or below it, and not
those whose identifiers start alike without ending at a slash.
-/

namespace TenantIam

namespace TenantId

variable {id other : TenantId}

/-- Tenants with one parent, or with none, are equally deep. -/
theorem depth_eq_of_parent?_eq (h : other.parent? = id.parent?) : other.depth = id.depth := by
  cases hparent : id.parent? with
  | none => rw [depth_eq_zero_iff.2 hparent, depth_eq_zero_iff.2 (h.trans hparent)]
  | some parent =>
      obtain ⟨segment, rfl⟩ := parent?_eq_some_iff.1 hparent
      obtain ⟨segment', rfl⟩ := parent?_eq_some_iff.1 (h.trans hparent)
      rw [depth_child, depth_child]

/-- What is below a tenant is neither that tenant nor above it. -/
theorem not_eq_or_isBelow_of_isBelow (h : other.isBelow id = true) :
    ¬ (other = id ∨ id.isBelow other = true) := by
  have hdeeper := depth_lt_of_isBelow h
  rintro (rfl | habove)
  · exact lt_irrefl _ hdeeper
  · exact lt_asymm hdeeper (depth_lt_of_isBelow habove)

/-- What is beside a tenant is neither that tenant nor above it. -/
theorem not_eq_or_isBelow_of_parent?_eq (h : other.parent? = id.parent?) (hne : other ≠ id) :
    ¬ (other = id ∨ id.isBelow other = true) := by
  rintro (rfl | habove)
  · exact hne rfl
  · exact (depth_lt_of_isBelow habove).ne (depth_eq_of_parent?_eq h)

/-- What a tenant is below or equal to, so is everything below the tenant. -/
theorem isBelow_of_eq_or_isBelow {below : TenantId} (hbelow : below.isBelow id = true)
    (h : other = id ∨ id.isBelow other = true) : below.isBelow other = true := by
  rcases h with rfl | habove
  · exact hbelow
  · exact isBelow_trans hbelow habove

end TenantId

namespace TenantStore

variable {s : TenantStore} {principal : String} {id : TenantId} {t : Tenant}

/-- A tenant is administered by whom it lists, or a tenant above it that is stored. -/
theorem isAdmin_eq_true_iff :
    s.isAdmin principal id = true ↔
      ∃ t, (s.get? id = some t ∨ t ∈ s.ancestors id) ∧ principal ∈ t.adminPrincipals := by
  unfold isAdmin
  cases s.get? id with
  | none =>
      simp only [Bool.false_or, List.any_eq_true, List.contains_iff_mem, reduceCtorEq, false_or]
  | some own =>
      simp only [Bool.or_eq_true, List.any_eq_true, List.contains_iff_mem, Option.some.injEq,
        or_and_right, exists_or, exists_eq_left']

/-- The tenants above an identifier are found under the identifiers that it is below. -/
theorem mem_ancestors_iff_get? :
    t ∈ s.ancestors id ↔ id.isBelow t.id = true ∧ s.get? t.id = some t := by
  unfold ancestors
  rw [List.mem_filterMap]
  constructor
  · rintro ⟨above, habove, hget⟩
    rw [id_of_get? hget]
    exact ⟨TenantId.mem_ancestors_iff.1 habove, hget⟩
  · rintro ⟨hbelow, hget⟩
    exact ⟨t.id, TenantId.mem_ancestors_iff.2 hbelow, hget⟩

/-- **Administration.** The administrators of an identifier are listed by the stored tenants that it
is, or is below. -/
theorem Keyed.isAdmin_iff (h : s.Keyed) :
    s.isAdmin principal id = true ↔
      ∃ t ∈ s.tenants, (t.id = id ∨ id.isBelow t.id = true) ∧ principal ∈ t.adminPrincipals := by
  rw [isAdmin_eq_true_iff]
  apply exists_congr
  intro t
  rw [mem_ancestors_iff_get?, h.get?_eq_some_iff, h.get?_eq_some_iff]
  tauto

/-- **Administration passes down, and only down.** In any store that is made of a list of tenants
and of changes, a principal administers an identifier, stored or not, when some stored tenant that
has the identifier or is above it lists the principal. So it administers what is below, too, and a
principal that is listed elsewhere alone does not administer it. The tenants that count are those
whose segments come first in the identifier, which are none of those below it and none of those
beside it. -/
theorem isAdmin_inherited (initial : List Tenant) (operations : List Operation) (principal : String)
    (id : TenantId) :
    let s := (ofList initial).run operations
    (s.isAdmin principal id = true ↔
      ∃ t ∈ s.tenants, (t.id = id ∨ id.isBelow t.id = true) ∧ principal ∈ t.adminPrincipals) ∧
    (∀ below : TenantId, below.isBelow id = true → s.isAdmin principal id = true →
      s.isAdmin principal below = true) ∧
    ((∀ t ∈ s.tenants, principal ∈ t.adminPrincipals → ¬ (t.id = id ∨ id.isBelow t.id = true)) →
      s.isAdmin principal id = false) ∧
    ∀ other : TenantId,
      (other = id ∨ id.isBelow other = true ↔ other.segments <+: id.segments) ∧
      (other.isBelow id = true ∨ other.parent? = id.parent? ∧ other ≠ id →
        ¬ (other = id ∨ id.isBelow other = true)) := by
  intro s
  have hkeyed : s.Keyed := (keyed_ofList initial).run operations
  refine ⟨hkeyed.isAdmin_iff, ?_, ?_, fun other => ⟨TenantId.eq_or_isBelow_iff, ?_⟩⟩
  · intro below hbelow hadmin
    obtain ⟨t, ht, habove, hlisted⟩ := hkeyed.isAdmin_iff.1 hadmin
    exact hkeyed.isAdmin_iff.2
      ⟨t, ht, .inr (TenantId.isBelow_of_eq_or_isBelow hbelow habove), hlisted⟩
  · intro helsewhere
    rw [Bool.eq_false_iff]
    intro hadmin
    obtain ⟨t, ht, habove, hlisted⟩ := hkeyed.isAdmin_iff.1 hadmin
    exact helsewhere t ht hlisted habove
  · rintro (hbelow | ⟨hparent, hne⟩)
    · exact TenantId.not_eq_or_isBelow_of_isBelow hbelow
    · exact TenantId.not_eq_or_isBelow_of_parent?_eq hparent hne

/-- A root, and a tenant two levels below it, with nothing stored between them. Who administers the
root administers what is missing in between and what is below; who is listed beside it, by a tenant
whose identifier starts alike, or further down, does not. -/
theorem isAdmin_inherited_gap :
    let acme : TenantId := .root ⟨"acme", by decide, by decide⟩
    let eng : TenantId := acme.child ⟨"eng", by decide, by decide⟩
    let en : TenantId := acme.child ⟨"en", by decide, by decide⟩
    let web : TenantId := eng.child ⟨"web", by decide, by decide⟩
    let tenant (id : TenantId) (admin : String) : Tenant :=
      { Tenant.fresh id id.text none none ⟨0⟩ with adminPrincipals := [admin] }
    let s := (ofList [tenant web "bob", tenant en "mallory", tenant acme "alice"]).run
      [.create (tenant eng "carol"), .delete eng]
    s.get? eng = none ∧ s.isAdmin "alice" eng = true ∧ s.isAdmin "alice" web = true ∧
      s.isAdmin "mallory" eng = false ∧ s.isAdmin "bob" eng = false ∧
      en.text.toList.isPrefixOf eng.text.toList = true ∧
      ¬ (en = eng ∨ eng.isBelow en = true) ∧ ¬ (web = eng ∨ eng.isBelow web = true) := by
  intro acme eng en web tenant s
  have hlaw (principal : String) (id : TenantId) := isAdmin_inherited
    [tenant web "bob", tenant en "mallory", tenant acme "alice"]
    [.create (tenant eng "carol"), .delete eng] principal id
  have hstored : ∀ t ∈ s.tenants,
      t = tenant web "bob" ∨ t = tenant en "mallory" ∨ t = tenant acme "alice" := by decide +kernel
  have halice : s.isAdmin "alice" eng = true :=
    (hlaw "alice" eng).1.2 ⟨tenant acme "alice", by decide +kernel, by decide +kernel, by decide⟩
  have helsewhere (principal : String) (hne : principal ≠ "alice") :
      s.isAdmin principal eng = false := by
    refine (hlaw principal eng).2.2.1 fun t ht hlisted => ?_
    rcases hstored t ht with rfl | rfl | rfl
    · exact ((hlaw principal eng).2.2.2 web).2 (.inl (by decide +kernel))
    · exact ((hlaw principal eng).2.2.2 en).2 (.inr ⟨by decide +kernel, by decide +kernel⟩)
    · exact absurd (List.mem_singleton.1 hlisted) hne
  refine ⟨by decide +kernel, halice, ?_, helsewhere "mallory" (by decide),
    helsewhere "bob" (by decide), by decide +kernel, ?_, ?_⟩
  · exact (hlaw "alice" eng).2.1 web (by decide +kernel) halice
  · exact ((hlaw "alice" eng).2.2.2 en).2 (.inr ⟨by decide +kernel, by decide +kernel⟩)
  · exact ((hlaw "alice" eng).2.2.2 web).2 (.inl (by decide +kernel))

end TenantStore

end TenantIam
