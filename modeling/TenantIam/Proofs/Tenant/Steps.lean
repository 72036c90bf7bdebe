import Mathlib.Logic.Function.Iterate
import TenantIam.Proofs.Tenant.Creation
import TenantIam.Tenant.Queue

/-!
# One creation, step by step

A creation reads the store in many steps and writes to it in one. Here it is followed from its first
step to its end while no other creation takes a step: it finds out what `Creation.plan` says, ends
as `Creation.createRequested` says, and on the way the store is what it was until the sub-tenant is
in it.
-/

namespace TenantIam.Creation

/-- How far a creation has come, with the store and what it has logged. -/
structure Progress where
  /-- What is to be done next. -/
  phase : Phase
  store : TenantStore
  /-- What has been logged. -/
  log : List Log.Entry

theorem Phase.ofCheck_bind {α β : Type} (check : Except Error α) (next : α → Except Error β)
    (phase : β → Phase) :
    ofCheck (check >>= next) phase = ofCheck check fun a => ofCheck (next a) phase := by
  cases check <;> rfl

theorem Phase.ofCheck_ne_ended_ok {α : Type} {check : Except Error α} {next : α → Phase}
    {t : Tenant} (hnext : ∀ a, next a ≠ .ended (.ok t)) : ofCheck check next ≠ .ended (.ok t) := by
  cases check with
  | error error => exact fun hended => by cases hended
  | ok a => exact hnext a

namespace Progress

def step (config : Creation) (r : Request) (p : Progress) : Progress :=
  let (phase, store, entries) := p.phase.step config r p.store
  { phase, store, log := p.log ++ entries }

variable {config : Creation} {r : Request} {s : TenantStore} {log : List Log.Entry} {p q : Progress}

/-- Every step but the one that adds the sub-tenant leaves store and log as they are. -/
theorem step_of_ne_add {phase : Phase} (hphase : ∀ t, phase ≠ .add t) :
    step config r ⟨phase, s, log⟩ = ⟨phase.next config r s, s, log⟩ := by
  cases phase with
  | add t => exact absurd rfl (hphase t)
  | _ => simp [step, Phase.step]

/-- The step that adds the sub-tenant ends the creation. -/
theorem step_add (t : Tenant) :
    step config r ⟨.add t, s, log⟩ =
      match insert s t with
      | .ok created => ⟨.ended (.ok t), created.store, log ++ [entry r]⟩
      | .error error => ⟨.ended (.error error), s, log⟩ := by
  cases hinsert : insert s t <;> simp [step, Phase.step, hinsert]

theorem steps_of_ended {result : Except Error Tenant} (hended : p.phase = .ended result) (n : Nat) :
    (step config r)^[n] p = p := by
  obtain ⟨phase, s, log⟩ := p
  subst hended
  exact Function.iterate_fixed (step_of_ne_add fun _ => by simp) n

/-- **What a creation comes to** in some number of steps. -/
def Reaches (config : Creation) (r : Request) (p q : Progress) : Prop :=
  ∃ n, (step config r)^[n] p = q

namespace Reaches

theorem refl (p : Progress) : Reaches config r p p := ⟨0, rfl⟩

theorem trans {o : Progress} (h : Reaches config r o p) (h' : Reaches config r p q) :
    Reaches config r o q := by
  obtain ⟨m, rfl⟩ := h
  obtain ⟨n, rfl⟩ := h'
  exact ⟨n + m, Function.iterate_add_apply _ n m o⟩

theorem head (h : Reaches config r (step config r p) q) : Reaches config r p q :=
  trans ⟨1, rfl⟩ h

/-- A check that fails ends the creation, so only its success has to be followed. -/
theorem ofCheck {α : Type} {check : Except Error α} {next next' : α → Phase}
    (h : ∀ a, Reaches config r ⟨next a, s, log⟩ ⟨next' a, s, log⟩) :
    Reaches config r ⟨Phase.ofCheck check next, s, log⟩ ⟨Phase.ofCheck check next', s, log⟩ := by
  cases check with
  | error error => exact refl _
  | ok a => exact h a

theorem eq_of_ended {q' : Progress} {result result' : Except Error Tenant}
    (h : Reaches config r p q) (h' : Reaches config r p q') (hended : q.phase = .ended result)
    (hended' : q'.phase = .ended result') : q = q' := by
  obtain ⟨m, rfl⟩ := h
  obtain ⟨n, rfl⟩ := h'
  -- both stay what they are while as many steps are taken as for the other
  calc (step config r)^[m] p
      = (step config r)^[n] ((step config r)^[m] p) := (steps_of_ended hended n).symm
    _ = (step config r)^[m] ((step config r)^[n] p) := by
      rw [← Function.iterate_add_apply, Nat.add_comm, Function.iterate_add_apply]
    _ = (step config r)^[n] p := steps_of_ended hended' m

end Reaches

/-- The tenants above are read one after another. -/
theorem reaches_readAncestors (parent : Tenant) (left : List TenantId) (found : List Tenant) :
    Reaches config r ⟨.readAncestors parent left found, s, log⟩
      ⟨.readAncestors parent [] (found ++ left.filterMap s.get?), s, log⟩ := by
  induction left generalizing found with
  | nil =>
      rw [List.filterMap_nil, List.append_nil]
      exact .refl _
  | cons id left ih =>
      apply Reaches.head
      rw [step_of_ne_add (fun _ => by simp)]
      have hfound : found ++ (id :: left).filterMap s.get? =
          (found ++ (s.get? id).toList) ++ left.filterMap s.get? := by
        cases hget : s.get? id <;> simp [hget]
      rw [hfound]
      exact ih _

variable (config r s log) in
/-- **The way up ends.** The quotas in force are found, or found not to be known, in at most one
step more than there are tenants that have not been visited. -/
theorem exists_steps_followQuotas (parent : Tenant) (visited : List TenantId) (current : TenantId) :
    ∃ n ≤ (s.unvisited visited).length + 1,
      (step config r)^[n] ⟨.followQuotas parent visited current, s, log⟩ =
        ⟨.ofCheck ((s.quotasFrom r.parentId visited current).mapError .quotas)
          (.countSiblings parent), s, log⟩ := by
  -- every step that does not end the search leaves fewer tenants unvisited
  induction hleft : (s.unvisited visited).length using Nat.strongRecOn
    generalizing visited current with
  | _ left ih =>
      have hstep : step config r ⟨.followQuotas parent visited current, s, log⟩ =
          ⟨(Phase.followQuotas parent visited current).next config r s, s, log⟩ :=
        step_of_ne_add fun _ => by simp
      rw [TenantStore.quotasFrom_eq]
      by_cases hvisited : current ∈ visited
      · refine ⟨1, by omega, ?_⟩
        rw [Function.iterate_one, hstep, if_pos hvisited]
        simp only [Phase.next, if_pos hvisited]
        rfl
      · rw [if_neg hvisited]
        cases hget : s.get? current with
        | none =>
            refine ⟨1, by omega, ?_⟩
            rw [Function.iterate_one, hstep]
            simp only [Phase.next, if_neg hvisited, hget]
            rfl
        | some t =>
            cases hinherits : t.inheritsFrom? with
            | none =>
                refine ⟨1, by omega, ?_⟩
                rw [Function.iterate_one, hstep]
                simp only [Phase.next, if_neg hvisited, hget, hinherits]
                rfl
            | some above =>
                have hfewer : (s.unvisited (current :: visited)).length < left := by
                  rw [← hleft]
                  exact TenantStore.length_unvisited_lt hvisited hget
                obtain ⟨n, hn, hsteps⟩ := ih _ hfewer (current :: visited) above rfl
                refine ⟨n + 1, by omega, ?_⟩
                rw [Function.iterate_succ_apply, hstep]
                simp only [Phase.next, if_neg hvisited, hget, hinherits]
                exact hsteps

/-- **What is found out.** A creation comes to the point where it adds the sub-tenant that is
planned, or it ends with the first thing that is in the way. -/
theorem reaches_plan :
    Reaches config r ⟨.readParent, s, log⟩ ⟨.ofCheck (config.plan s r) .add, s, log⟩ := by
  simp only [plan, Phase.ofCheck_bind]
  apply Reaches.head
  rw [step_of_ne_add (fun _ => by simp)]
  refine .ofCheck fun parent => ?_
  refine (reaches_readAncestors parent _ []).trans (.head ?_)
  rw [step_of_ne_add (fun _ => by simp)]
  refine .ofCheck fun _ => .ofCheck fun _ => ?_
  obtain ⟨n, -, hsteps⟩ := exists_steps_followQuotas config r s log parent [] r.parentId
  refine Reaches.trans ⟨n, hsteps⟩ (.ofCheck fun limits => .head ?_)
  rw [step_of_ne_add (fun _ => by simp)]
  exact .refl _

/-- Where an outcome leaves a creation that has run alone. -/
def finish (s : TenantStore) (outcome : Logged (Except Error Created)) : Progress where
  phase := .ended (outcome.value.map (·.tenant))
  store :=
    match outcome.value with
    | .ok created => created.store
    | .error _ => s
  log := outcome.entries

/-- **How it ends.** A creation that runs alone ends as the request does. -/
theorem reaches_finish :
    Reaches config r ⟨.readParent, s, []⟩ (finish s (config.createRequested s r)) := by
  refine reaches_plan.trans ?_
  unfold createRequested
  cases hplan : config.plan s r with
  | error error => exact .refl _
  | ok t =>
      refine ⟨1, ?_⟩
      show step config r ⟨.add t, s, []⟩ = finish s (match insert s t with
        | .ok created => ⟨.ok created, [entry r]⟩
        | .error error => ⟨.error error, []⟩)
      rw [step_add]
      unfold insert
      cases s.perform (.create t) <;> rfl

variable (config r s log) in
/-- **Nothing before the end.** The store is what it was until the creation has ended well. -/
theorem store_steps (phase : Phase) (n : Nat) :
    ((step config r)^[n] ⟨phase, s, log⟩).store = s ∨
      ∃ t, ((step config r)^[n] ⟨phase, s, log⟩).phase = .ended (.ok t) := by
  induction n with
  | zero => exact .inl rfl
  | succ n ih =>
      rw [Function.iterate_succ_apply']
      generalize (step config r)^[n] ⟨phase, s, log⟩ = p at ih ⊢
      obtain ⟨now, store, entries⟩ := p
      dsimp only at ih
      rcases ih with rfl | ⟨t, rfl⟩
      · by_cases hadd : ∃ t, now = .add t
        · obtain ⟨t, rfl⟩ := hadd
          rw [step_add]
          cases insert store t with
          | error error => exact .inl rfl
          | ok created => exact .inr ⟨t, rfl⟩
        · rw [step_of_ne_add fun t ht => hadd ⟨t, ht⟩]
          exact .inl rfl
      · rw [step_of_ne_add fun _ => by simp]
        exact .inr ⟨t, rfl⟩

/-- Up to a moment at which it has not ended well, a creation leaves the store alone. -/
theorem store_eq_of_le {phase : Phase} {k n : Nat} (hk : k ≤ n)
    (hn : ∀ t, ((step config r)^[n] ⟨phase, s, log⟩).phase ≠ .ended (.ok t)) :
    ((step config r)^[k] ⟨phase, s, log⟩).store = s := by
  rcases store_steps config r s log phase k with hsame | ⟨t, hended⟩
  · exact hsame
  · have hstays : (step config r)^[n] ⟨phase, s, log⟩ = (step config r)^[k] ⟨phase, s, log⟩ := by
      rw [← Nat.sub_add_cancel hk, Function.iterate_add_apply]
      exact steps_of_ended hended (n - k)
    rw [hstays] at hn
    exact absurd hended (hn t)

/-- At every moment a creation that runs alone has either not touched the store or is over. -/
theorem store_eq_or_finish (n : Nat) :
    ((step config r)^[n] ⟨.readParent, s, []⟩).store = s ∨
      (step config r)^[n] ⟨.readParent, s, []⟩ = finish s (config.createRequested s r) := by
  rcases store_steps config r s [] .readParent n with hsame | ⟨t, hended⟩
  · exact .inl hsame
  · exact .inr (Reaches.eq_of_ended ⟨n, rfl⟩ reaches_finish hended rfl)

end Progress

end TenantIam.Creation
