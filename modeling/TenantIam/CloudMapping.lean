/-!
# Cloud mappings

A resource that is kept in step with a cloud provider carries the provider, the account there and
the region. A mapping without a region is global. Where a mapping is made from its parts, the region
`global` counts as none; a mapping that is given may spell it out.
-/

namespace TenantIam

/-- The place of a resource at a cloud provider. -/
structure CloudMapping where
  provider : String
  /-- The account at the provider. -/
  accountId : String
  /-- The region; a mapping without one is global. -/
  region : Option String
  deriving DecidableEq

namespace CloudMapping

/-- A mapping; the region `global` counts as none. -/
def of (provider accountId : String) (region : Option String) : CloudMapping where
  provider
  accountId
  region := region.filter (· ≠ "global")

/-- The mapping made from the parts of a mapping that is given. -/
def folded (m : CloudMapping) : CloudMapping := of m.provider m.accountId m.region

def isRegional (m : CloudMapping) : Bool := m.region.isSome

def regionText (m : CloudMapping) : String := m.region.getD "global"

/-- Whether two places are the same, where either may be absent. -/
def equals : Option CloudMapping → Option CloudMapping → Bool
  | some m, some n =>
    m.provider = n.provider && m.accountId = n.accountId && m.region = n.region
  | m, n => m.isNone && n.isNone

@[simp] theorem equals_iff {m n : Option CloudMapping} : equals m n = true ↔ m = n := by
  cases m with
  | none => cases n <;> simp [equals]
  | some m =>
      cases n with
      | none => simp [equals]
      | some n =>
          obtain ⟨provider, accountId, region⟩ := m
          obtain ⟨provider', accountId', region'⟩ := n
          simp [equals, and_assoc]

@[simp] theorem provider_folded (m : CloudMapping) : m.folded.provider = m.provider := rfl

@[simp] theorem accountId_folded (m : CloudMapping) : m.folded.accountId = m.accountId := rfl

theorem region_folded (m : CloudMapping) :
    m.folded.region = if m.region = some "global" then none else m.region := by
  show m.region.filter _ = _
  cases m.region with
  | none => rfl
  | some region => by_cases h : region = "global" <;> simp [h]

/-- A mapping whose region is not `global` is as it was made. -/
theorem folded_eq_iff {m : CloudMapping} : m.folded = m ↔ m.region ≠ some "global" := by
  have hregion := m.region_folded
  constructor
  · intro h
    rw [h] at hregion
    intro hglobal
    simp [hglobal] at hregion
  · intro h
    rw [if_neg h] at hregion
    obtain ⟨provider, accountId, region⟩ := m
    exact congrArg (mk provider accountId) hregion

@[simp] theorem folded_of (provider accountId : String) (region : Option String) :
    (of provider accountId region).folded = of provider accountId region := by
  rw [folded_eq_iff]
  simp [of, Option.filter_eq_some_iff]

@[simp] theorem folded_folded (m : CloudMapping) : m.folded.folded = m.folded :=
  folded_of m.provider m.accountId m.region

end CloudMapping

end TenantIam
