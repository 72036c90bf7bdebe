import Mathlib.Data.List.Basic
import TenantIam.Tenant.Tree

/-!
# Positions in a tree

A position says how to go down from the top of a tree: which child to take at every level. The
positions below the top, ordered like words by their first difference, are the order in which the
identifiers below the top are listed: each tenant comes before those below it, and all of those come
before the next one beside it.
-/

namespace TenantIam.TenantTree

/-- **The tree at a position.** The position lists the numbers of the children on the way down. -/
def at? (tree : TenantTree) : List Nat → Option TenantTree
  | [] => some tree
  | i :: p => tree.children[i]?.bind (at? · p)

/-- The position in the next tree on a list. -/
def beside : List Nat → List Nat
  | [] => []
  | i :: p => (i + 1) :: p

mutual

/-- The positions below the top. -/
def positions : TenantTree → List (List Nat)
  | node _ children => positionsOfAll children

def positionsOfAll : List TenantTree → List (List Nat)
  | [] => []
  | tree :: trees =>
    [0] :: (positions tree).map (0 :: ·) ++ (positionsOfAll trees).map beside

end

/-- **Induction over trees.** What passes to a list of trees from the trees below its first one and
from the others holds of every list. -/
@[elab_as_elim]
theorem listInduction {motive : List TenantTree → Prop} (nil : motive [])
    (cons : ∀ t below siblings, motive below → motive siblings →
      motive (node t below :: siblings)) (trees : List TenantTree) : motive trees := by
  cases trees with
  | nil => exact nil
  | cons tree siblings =>
      cases tree with
      | node t below =>
          exact cons t below siblings (listInduction nil cons below)
            (listInduction nil cons siblings)

variable {t top : Tenant} {below siblings trees : List TenantTree} {i : Nat} {p q : List Nat}

theorem at?_first : (node top (node t below :: siblings)).at? (0 :: p) = (node t below).at? p := rfl

theorem at?_beside (hp : p ≠ []) :
    (node top (node t below :: siblings)).at? (beside p) = (node top siblings).at? p := by
  cases p with
  | nil => exact absurd rfl hp
  | cons i p => rfl

theorem beside_lt_beside (h : p < q) : beside p < beside q := by
  cases p with
  | nil =>
      cases q with
      | nil => exact h
      | cons j q => exact List.nil_lt_cons _ _
  | cons i p =>
      cases q with
      | nil => exact absurd h (List.not_lt_nil _)
      | cons j q =>
          rw [List.cons_lt_cons_iff] at h
          unfold beside
          rw [List.cons_lt_cons_iff]
          rcases h with hlt | ⟨rfl, hlt⟩
          · exact .inl (Nat.succ_lt_succ hlt)
          · exact .inr ⟨rfl, hlt⟩

theorem beside_ne_nil (hp : p ≠ []) : beside p ≠ [] := by
  cases p with
  | nil => exact absurd rfl hp
  | cons i p => exact List.cons_ne_nil _ _

theorem zero_cons_lt_beside (hq : q ≠ []) : 0 :: p < beside q := by
  cases q with
  | nil => exact absurd rfl hq
  | cons j q => exact List.cons_lt_cons_iff.2 (.inl (Nat.succ_pos j))

theorem mem_positionsOfAll_cons_iff :
    p ∈ positionsOfAll (node t below :: siblings) ↔
      p = [0] ∨ (∃ q ∈ positionsOfAll below, 0 :: q = p) ∨
        ∃ q ∈ positionsOfAll siblings, beside q = p := by
  simp only [positionsOfAll, positions, List.cons_append, List.mem_cons, List.mem_append,
    List.mem_map]

theorem nil_notMem_positionsOfAll (trees : List TenantTree) : [] ∉ positionsOfAll trees := by
  induction trees using listInduction with
  | nil => exact List.not_mem_nil
  | cons t below siblings _ ih =>
      rw [mem_positionsOfAll_cons_iff]
      rintro (h | ⟨q, -, h⟩ | ⟨q, hq, h⟩)
      · cases h
      · cases h
      · refine beside_ne_nil ?_ h
        rintro rfl
        exact ih hq

/-- The positions are listed in the order of words. -/
theorem pairwise_positionsOfAll (trees : List TenantTree) :
    (positionsOfAll trees).Pairwise (· < ·) := by
  induction trees using listInduction with
  | nil => exact .nil
  | cons t below siblings ihbelow ihsiblings =>
      have hbeside : ∀ q ∈ (positionsOfAll siblings).map beside, ∀ p, 0 :: p < q := by
        intro q hq p
        obtain ⟨r, hr, rfl⟩ := List.mem_map.1 hq
        exact zero_cons_lt_beside fun hnil => nil_notMem_positionsOfAll siblings (hnil ▸ hr)
      simp only [positionsOfAll, positions, List.cons_append]
      refine List.pairwise_cons.2 ⟨fun q hq => ?_, List.pairwise_append.2 ⟨?_, ?_, ?_⟩⟩
      · rcases List.mem_append.1 hq with hq | hq
        · obtain ⟨r, hr, rfl⟩ := List.mem_map.1 hq
          cases r with
          | nil => exact absurd hr (nil_notMem_positionsOfAll below)
          | cons j r => exact List.cons_lt_cons_iff.2 (.inr ⟨rfl, List.nil_lt_cons j r⟩)
        · exact hbeside q hq []
      · refine List.pairwise_map.2 (ihbelow.imp fun h => ?_)
        exact List.cons_lt_cons_iff.2 (.inr ⟨rfl, h⟩)
      · exact List.pairwise_map.2 (ihsiblings.imp beside_lt_beside)
      · intro p hp q hq
        obtain ⟨p, -, rfl⟩ := List.mem_map.1 hp
        exact hbeside q hq p

/-- All positions below the top are listed. -/
theorem mem_positionsOfAll_iff :
    p ∈ positionsOfAll trees ↔ p ≠ [] ∧ ((node top trees).at? p).isSome := by
  induction trees using listInduction generalizing p top with
  | nil => cases p <;> simp [positionsOfAll, at?, children]
  | cons t below siblings ihbelow ihsiblings =>
      rcases p with _ | ⟨i, p⟩
      · exact iff_of_false (nil_notMem_positionsOfAll _) fun h => h.1 rfl
      · rw [mem_positionsOfAll_cons_iff]
        cases i with
        | zero =>
            rw [at?_first]
            constructor
            · rintro (h | ⟨q, hq, h⟩ | ⟨q, hq, h⟩)
              · cases h
                exact ⟨List.cons_ne_nil _ _, rfl⟩
              · cases h
                exact ⟨List.cons_ne_nil _ _, (ihbelow.1 hq).2⟩
              · cases q <;> cases h
            · rintro ⟨-, hat⟩
              cases p with
              | nil => exact .inl rfl
              | cons j p =>
                  exact .inr (.inl ⟨j :: p, ihbelow.2 ⟨List.cons_ne_nil _ _, hat⟩, rfl⟩)
        | succ i =>
            -- without the first tree the others are one place further to the front
            have hat : (node top (node t below :: siblings)).at? ((i + 1) :: p) =
                (node top siblings).at? (i :: p) := rfl
            rw [hat]
            constructor
            · rintro (h | ⟨q, hq, h⟩ | ⟨q, hq, h⟩)
              · cases h
              · cases h
              · cases q with
                | nil => cases h
                | cons j q =>
                    cases h
                    exact ⟨List.cons_ne_nil _ _, (ihsiblings.1 hq).2⟩
            · rintro ⟨-, hsome⟩
              exact .inr (.inr ⟨i :: p, ihsiblings.2 ⟨List.cons_ne_nil _ _, hsome⟩, rfl⟩)

/-- The identifiers at the positions are those of the descendants, in their order. -/
theorem map_positionsOfAll :
    (positionsOfAll trees).map (fun p => ((node top trees).at? p).map (·.tenant.id)) =
      (descendantsOfAll trees).map some := by
  induction trees using listInduction generalizing top with
  | nil => rfl
  | cons t below siblings ihbelow ihsiblings =>
      have hfirst : (positionsOfAll below).map
          (fun p => ((node top (node t below :: siblings)).at? (0 :: p)).map (·.tenant.id)) =
          (descendantsOfAll below).map some := @ihbelow t
      have hothers : (positionsOfAll siblings).map
          (fun p => ((node top (node t below :: siblings)).at? (beside p)).map (·.tenant.id)) =
          (descendantsOfAll siblings).map some := by
        rw [← @ihsiblings top]
        refine List.map_congr_left fun p hp => ?_
        rw [at?_beside fun hnil => nil_notMem_positionsOfAll siblings (hnil ▸ hp)]
      simp only [positionsOfAll, positions, descendantsOfAll, descendants, List.cons_append,
        List.map_cons, List.map_append, List.map_map, Function.comp_def, hfirst, hothers]
      rfl

end TenantIam.TenantTree
