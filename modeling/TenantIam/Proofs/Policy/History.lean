import Mathlib.Data.List.Induction
import Mathlib.Data.List.Nodup
import TenantIam.Proofs.Policy.Storing

/-!
# The history of a policy store

Every change of a policy store is about one thing, which it adds or removes: a managed policy, an
attachment or an inline policy. Which things are there after a list of changes, and since when, can
be read off the list without a store. A thing is there when the last change that is about it adds
it, and it came with the change that added it when it was not there and after which nothing removed
it.
-/

namespace TenantIam.PolicyStore

/-- What a change is about. -/
inductive Subject where
  /-- The managed policy of a resource name. -/
  | managed (arn : String)
  | attached (attachment : Attachment)
  /-- The inline policy of a principal under a name. -/
  | inlined (principal name : String)
  deriving DecidableEq

namespace Operation

def subject : Operation → Subject
  | .create record => .managed record.arn
  | .delete arn => .managed arn
  | .attach attachment => .attached attachment
  | .detach attachment => .attached attachment
  | .putInline policy => .inlined policy.principal policy.name
  | .deleteInline principal name => .inlined principal name

instance : DecidablePred Adds
  | .create _ | .attach _ | .putInline _ => .isTrue trivial
  | .delete _ | .detach _ | .deleteInline _ _ => .isFalse id

end Operation

variable {done before before' after : List Operation} {operation : Operation} {x y : Subject}

/-! ## The last change -/

/-- The last of the changes that are about a thing. -/
def latest? (done : List Operation) (x : Subject) : Option Operation :=
  (done.filter (·.subject = x)).getLast?

/-- The thing is there after the changes: the last one about it adds it. -/
def Stands (done : List Operation) (x : Subject) : Prop :=
  ∃ operation, latest? done x = some operation ∧ operation.Adds

@[simp] theorem latest?_nil (x : Subject) : latest? [] x = none := rfl

theorem latest?_concat (done : List Operation) (operation : Operation) (x : Subject) :
    latest? (done ++ [operation]) x =
      if operation.subject = x then some operation else latest? done x := by
  unfold latest?
  rw [List.filter_append]
  by_cases hsubject : operation.subject = x
  · rw [List.filter_cons_of_pos (by simpa using hsubject), List.filter_nil, if_pos hsubject,
      List.getLast?_concat]
  · rw [List.filter_cons_of_neg (by simpa using hsubject), List.filter_nil, if_neg hsubject,
      List.append_nil]

theorem not_stands_nil (x : Subject) : ¬ Stands [] x := by
  rintro ⟨operation, hlatest, -⟩
  cases hlatest

theorem stands_concat_iff :
    Stands (done ++ [operation]) x ↔
      if operation.subject = x then operation.Adds else Stands done x := by
  unfold Stands
  rw [latest?_concat]
  split <;> simp

/-- Changes of other things do not matter to the last one. -/
theorem latest?_filter {p : Subject → Prop} [DecidablePred p] (hx : p x) (done : List Operation) :
    latest? (done.filter fun o => p o.subject) x = latest? done x := by
  unfold latest?
  rw [List.filter_filter]
  congr 1
  apply List.filter_congr
  intro o _
  by_cases hsubject : o.subject = x
  · simp [hsubject, hx]
  · simp [hsubject]

theorem stands_filter_iff {p : Subject → Prop} [DecidablePred p] (hx : p x) :
    Stands (done.filter fun o => p o.subject) x ↔ Stands done x := by
  unfold Stands
  rw [latest?_filter hx]

theorem stands_of_adds (hsubject : operation.subject = x) (hadds : operation.Adds)
    (hafter : ∀ o ∈ after, o.subject = x → o.Adds) : Stands (before ++ operation :: after) x := by
  induction after using List.reverseRecOn with
  | nil =>
      rw [stands_concat_iff, if_pos hsubject]
      exact hadds
  | append_singleton after last ih =>
      rw [← List.cons_append, ← List.append_assoc, stands_concat_iff]
      split
      · next hlast => exact hafter last (by simp) hlast
      · exact ih fun o ho => hafter o (by simp [ho])

/-! ## The change by which a thing came -/

/-- **How a thing came.** The change that follows those before it adds the thing, which was not
there, and none that comes later removes it. -/
def CameAfter (done : List Operation) (x : Subject) (before : List Operation) : Prop :=
  ∃ operation after, done = before ++ operation :: after ∧
    operation.subject = x ∧ operation.Adds ∧ ¬ Stands before x ∧
      ∀ o ∈ after, o.subject = x → o.Adds

/-- One thing came with an earlier change than the other. -/
def Precedes (done : List Operation) (x y : Subject) : Prop :=
  ∃ before before', CameAfter done x before ∧ CameAfter done y before' ∧
    before.length < before'.length

namespace CameAfter

theorem length_lt (h : CameAfter done x before) : before.length < done.length := by
  obtain ⟨operation, after, rfl, -⟩ := h
  rw [List.length_append, List.length_cons]
  omega

theorem concat (h : CameAfter done x before) (hkeeps : operation.subject = x → operation.Adds) :
    CameAfter (done ++ [operation]) x before := by
  obtain ⟨first, after, rfl, hsubject, hadds, hnew, hafter⟩ := h
  refine ⟨first, after ++ [operation], by simp, hsubject, hadds, hnew, fun o ho => ?_⟩
  rcases List.mem_append.1 ho with ho | ho
  · exact hafter o ho
  · rw [List.mem_singleton.1 ho]
    exact hkeeps

theorem last (hnew : ¬ Stands done operation.subject) (hadds : operation.Adds) :
    CameAfter (done ++ [operation]) operation.subject done :=
  ⟨operation, [], rfl, rfl, hadds, hnew, fun _ ho => absurd ho List.not_mem_nil⟩

/-- A thing that came does not come again later, for it is there all the time. -/
theorem not_length_lt (h : CameAfter done x before) (h' : CameAfter done x before') :
    ¬ before.length < before'.length := by
  intro hlt
  obtain ⟨first, after, rfl, hsubject, hadds, -, hafter⟩ := h
  obtain ⟨second, after', hsplit, -, -, hnew, -⟩ := h'
  -- the changes before the second one go on with the first one
  rcases List.append_eq_append_iff.1 hsplit with ⟨between, rfl, hbetween⟩ | ⟨between, rfl, -⟩
  · cases between with
    | nil => simp at hlt
    | cons head between =>
        rw [List.cons_append, List.cons.injEq] at hbetween
        obtain ⟨rfl, rfl⟩ := hbetween
        exact hnew (stands_of_adds hsubject hadds fun o ho => hafter o (by simp [ho]))
  · rw [List.length_append] at hlt
    omega

/-- There is one change by which a thing came. -/
theorem unique (h : CameAfter done x before) (h' : CameAfter done x before') :
    before = before' := by
  have hlength : before.length = before'.length :=
    Nat.le_antisymm (Nat.not_lt.1 (h'.not_length_lt h)) (Nat.not_lt.1 (h.not_length_lt h'))
  obtain ⟨first, after, rfl, -⟩ := h
  obtain ⟨second, after', hsplit, -⟩ := h'
  exact (List.append_inj hsplit hlength).1

end CameAfter

namespace Precedes

theorem concat (h : Precedes done x y) (hx : operation.subject = x → operation.Adds)
    (hy : operation.subject = y → operation.Adds) : Precedes (done ++ [operation]) x y := by
  obtain ⟨before, before', hcame, hcame', hlt⟩ := h
  exact ⟨before, before', hcame.concat hx, hcame'.concat hy, hlt⟩

theorem ne (h : Precedes done x y) : x ≠ y := by
  rintro rfl
  obtain ⟨before, before', hcame, hcame', hlt⟩ := h
  exact hcame.not_length_lt hcame' hlt

end Precedes

/-! ## The things that are there -/

/-- A list of things after a change: what is added goes to the end, unless it is there. -/
def track (l : List Subject) (operation : Operation) : List Subject :=
  if operation.Adds then if operation.subject ∈ l then l else l ++ [operation.subject]
  else l.filter (· ≠ operation.subject)

/-- The things that are there after a list of changes, in the order in which they came. -/
def standing (done : List Operation) : List Subject := done.foldl track []

theorem standing_concat (done : List Operation) (operation : Operation) :
    standing (done ++ [operation]) = track (standing done) operation := by
  rw [standing, List.foldl_append]
  rfl

theorem mem_track_iff {l : List Subject} :
    x ∈ track l operation ↔ if operation.subject = x then operation.Adds else x ∈ l := by
  unfold track
  by_cases hadds : operation.Adds
  · by_cases hmem : operation.subject ∈ l
    · rw [if_pos hadds, if_pos hmem]
      split
      · next hsubject => simp [← hsubject, hmem, hadds]
      · rfl
    · rw [if_pos hadds, if_neg hmem, List.mem_append, List.mem_singleton]
      split
      · next hsubject => simp [hsubject, hadds]
      · next hsubject => simp [Ne.symm hsubject]
  · rw [if_neg hadds, List.mem_filter]
    split
    · next hsubject => simp [hsubject, hadds]
    · next hsubject => simp [Ne.symm hsubject]

/-- The things listed are those that are there. -/
theorem mem_standing_iff : x ∈ standing done ↔ Stands done x := by
  induction done using List.reverseRecOn with
  | nil => exact iff_of_false List.not_mem_nil (not_stands_nil x)
  | append_singleton done operation ih =>
      rw [standing_concat, mem_track_iff, stands_concat_iff]
      split
      · rfl
      · exact ih

theorem exists_cameAfter (h : Stands done x) : ∃ before, CameAfter done x before := by
  induction done using List.reverseRecOn with
  | nil => exact absurd h (not_stands_nil x)
  | append_singleton done operation ih =>
      rw [stands_concat_iff] at h
      by_cases hstood : Stands done x
      · obtain ⟨before, hcame⟩ := ih hstood
        refine ⟨before, hcame.concat fun hsubject => ?_⟩
        rwa [if_pos hsubject] at h
      · split at h
        · next hsubject =>
          subst hsubject
          exact ⟨done, .last hstood h⟩
        · exact absurd h hstood

/-- **In order.** The things that are there are listed in the order in which they came. -/
theorem pairwise_standing (done : List Operation) :
    (standing done).Pairwise (Precedes done) := by
  induction done using List.reverseRecOn with
  | nil => exact .nil
  | append_singleton done operation ih =>
      rw [standing_concat, track]
      by_cases hadds : operation.Adds
      · have hkept : (standing done).Pairwise (Precedes (done ++ [operation])) :=
          ih.imp fun h => h.concat (fun _ => hadds) fun _ => hadds
        rw [if_pos hadds]
        split
        · exact hkept
        · next hnew =>
          -- the new thing came last
          rw [mem_standing_iff] at hnew
          refine List.pairwise_append.2 ⟨hkept, List.pairwise_singleton _ _, fun x hx y hy => ?_⟩
          obtain ⟨before, hcame⟩ := exists_cameAfter (mem_standing_iff.1 hx)
          rw [List.mem_singleton.1 hy]
          exact ⟨before, done, hcame.concat fun _ => hadds, .last hnew hadds, hcame.length_lt⟩
      · rw [if_neg hadds]
        refine (ih.filter _).imp_of_mem fun hx hy h => h.concat ?_ ?_
        · exact fun hsubject => absurd hsubject.symm (by simpa using (List.mem_filter.1 hx).2)
        · exact fun hsubject => absurd hsubject.symm (by simpa using (List.mem_filter.1 hy).2)

theorem nodup_standing (done : List Operation) : (standing done).Nodup :=
  (pairwise_standing done).imp Precedes.ne

/-- **Of one kind.** Of some of the things, those are there that the changes about them leave. -/
theorem standing_filter {p : Subject → Prop} [DecidablePred p] (done : List Operation) :
    standing (done.filter fun o => p o.subject) = (standing done).filter p := by
  induction done using List.reverseRecOn with
  | nil => rfl
  | append_singleton done operation ih =>
      rw [List.filter_append, standing_concat, track]
      -- a change of a thing that passes is made on both sides, any other on neither
      by_cases hp : p operation.subject
      · rw [List.filter_cons_of_pos (by simpa using hp), List.filter_nil, standing_concat, ih,
          track]
        simp only [List.mem_filter, hp, decide_true, and_true]
        split
        · split
          · rfl
          · rw [List.filter_append, List.filter_cons_of_pos (by simpa using hp), List.filter_nil]
        · rw [List.filter_filter, List.filter_filter]
          simp only [Bool.and_comm]
      · rw [List.filter_cons_of_neg (by simpa using hp), List.filter_nil, List.append_nil, ih]
        split
        · split
          · rfl
          · rw [List.filter_append, List.filter_cons_of_neg (by simpa using hp), List.filter_nil,
              List.append_nil]
        · rw [List.filter_filter]
          apply List.filter_congr
          intro x _
          by_cases hx : p x
          · have hne : x ≠ operation.subject := fun h => hp (h ▸ hx)
            simp [hx, hne]
          · simp [hx]

/-! ## Names of things -/

/-- Names of some of the things: `f` gives the name of a thing, if it has one, and `g` the thing of
a name. -/
def Names {β : Type} (f : Subject → Option β) (g : β → Subject) : Prop :=
  ∀ x b, f x = some b ↔ x = g b

namespace Names

variable {β : Type} {f : Subject → Option β} {g : β → Subject} {b : β} {l : List Subject}

theorem mem_filterMap_iff (h : Names f g) : b ∈ l.filterMap f ↔ g b ∈ l := by
  rw [List.mem_filterMap]
  simp only [h _ b, exists_eq_right]

/-- The names of the things that are there. -/
theorem mem_standing_iff (h : Names f g) : b ∈ (standing done).filterMap f ↔ Stands done (g b) := by
  rw [h.mem_filterMap_iff, PolicyStore.mem_standing_iff]

theorem nodup_standing (h : Names f g) (done : List Operation) :
    ((standing done).filterMap f).Nodup := by
  refine (PolicyStore.nodup_standing done).filterMap fun x y b hx hy => ?_
  rw [(h x b).1 hx, (h y b).1 hy]

theorem pairwise_standing (h : Names f g) (done : List Operation) :
    ((standing done).filterMap f).Pairwise fun a b => Precedes done (g a) (g b) := by
  refine (PolicyStore.pairwise_standing done).filterMap f fun x y hxy a ha b hb => ?_
  rwa [← (h x a).1 ha, ← (h y b).1 hb]

/-- Leaving names out leaves out the changes of their things. -/
theorem filter_standing {p : Subject → Prop} [DecidablePred p] (h : Names f g)
    (done : List Operation) :
    ((standing done).filterMap f).filter (fun b => p (g b)) =
      (standing (done.filter fun o => p o.subject)).filterMap f := by
  rw [standing_filter, List.filter_filterMap, List.filterMap_filter]
  apply List.filterMap_congr
  intro x _
  cases hx : f x with
  | none => simp
  | some b =>
      rw [(h x b).1 hx]
      simp [Option.filter]

/-- A change of a thing without a name is not noticed. -/
theorem filterMap_track_of_none (hnone : f operation.subject = none) :
    (track l operation).filterMap f = l.filterMap f := by
  unfold track
  split
  · split
    · rfl
    · rw [List.filterMap_append, List.filterMap_cons_none hnone, List.filterMap_nil,
        List.append_nil]
  · rw [List.filterMap_filter]
    apply List.filterMap_congr
    intro x _
    by_cases hx : x = operation.subject
    · simp [hx, hnone]
    · simp [hx]

/-- The name of a thing that is added stays where it is or goes to the end. -/
theorem filterMap_track_of_adds [Decidable (b ∈ l.filterMap f)] (h : Names f g)
    (hsubject : operation.subject = g b) (hadds : operation.Adds) :
    (track l operation).filterMap f =
      if b ∈ l.filterMap f then l.filterMap f else l.filterMap f ++ [b] := by
  rw [track, if_pos hadds, hsubject]
  simp only [h.mem_filterMap_iff]
  split
  · rfl
  · rw [List.filterMap_append, List.filterMap_cons_some ((h _ b).2 rfl), List.filterMap_nil]

/-- The name of a thing that is removed is gone, and the others are in place. -/
theorem filterMap_track_of_not_adds [DecidableEq β] (h : Names f g)
    (hsubject : operation.subject = g b) (hremoves : ¬ operation.Adds) :
    (track l operation).filterMap f = (l.filterMap f).filter (· ≠ b) := by
  rw [track, if_neg hremoves, hsubject, List.filterMap_filter, List.filter_filterMap]
  apply List.filterMap_congr
  intro x _
  cases hx : f x with
  | none => simp
  | some c =>
      have hne : x ≠ g b ↔ c ≠ b := by
        rw [ne_eq, ← h x b, hx, Option.some.injEq]
      simp [Option.filter, hne]

end Names

end TenantIam.PolicyStore
