import TenantIam.Proofs.Tenant.Creation
import TenantIam.Tenant.Queue

/-!
# Taking turns

Creations side by side wait for each other when they are below the same tenant. Which one waits for
which is kept in a table with the last creation started below each tenant, from which entries are
taken out again. The invariant here says that this table suffices: a creation that may begin is the
first one below its tenant that has not ended.
-/

namespace TenantIam

/-- The phases in which a creation reads the store. -/
def Creation.Phase.IsReading : Creation.Phase → Prop
  | .readParent | .readAncestors .. | .followQuotas .. | .countSiblings .. => True
  | .add _ | .ended _ => False

namespace CreationQueue

/-- Whether a creation has begun, and possibly ended since. -/
def State.hasBegun : State → Bool
  | waiting _ => false
  | _ => true

theorem State.hasBegun_of_hasEnded {state : State} (hended : state.hasEnded = true) :
    state.hasBegun = true := by
  cases state with
  | waiting before => cases hended
  | _ => rfl

/-- Something that happens while calls are served: a call is made, a creation takes its next step at
some time, or one that has ended is forgotten. -/
inductive Moment where
  | call (parentId : TenantId) (name : String) (options : Creation.Options)
  | advance (now : Instant) (job : Nat)
  | release (job : Nat)

/-- The request of a call whose name is admissible. -/
def Moment.request? : Moment → Option Creation.Request
  | .call parentId name options =>
    (TenantName.of name).toOption.map fun name => { parentId, name, options }
  | .advance .. | .release _ => none

def pass (maxDepth : Number) (q : CreationQueue) : Moment → CreationQueue
  | .call parentId name options => (q.call parentId options name).2
  | .advance now job => q.handle { maxDepth, now } (.advance job)
  | .release job => q.release job

def history (maxDepth : Number) (q : CreationQueue) (moments : List Moment) : CreationQueue :=
  moments.foldl (pass maxDepth) q

variable {q q' : CreationQueue} {maxDepth : Number} {job i k : Nat} {j first later : Job}
variable {state : State} {before : Option Nat}

section Turns

/-- **Turns.** All that a moment can do to a queue. -/
inductive Turn (maxDepth : Number) (q : CreationQueue) : CreationQueue → Prop
  | idle : Turn maxDepth q q
  | start (r : Creation.Request) : Turn maxDepth q (q.start r)
  | begins {job : Nat} {j : Job} {before : Option Nat} (hjob : q.jobs[job]? = some j)
      (hstate : j.state = .waiting before) (hmay : q.mayBegin before = true) :
      Turn maxDepth q (q.setState job (.running .readParent))
  | reads {job : Nat} {j : Job} {phase : Creation.Phase} (now : Instant)
      (hjob : q.jobs[job]? = some j) (hstate : j.state = .running phase)
      (hreading : phase.IsReading) :
      Turn maxDepth q
        (q.setState job (.running (phase.next { maxDepth, now } j.request q.store)))
  | adds {job : Nat} {j : Job} {tenant : Tenant} (hjob : q.jobs[job]? = some j)
      (hstate : j.state = .running (.add tenant)) (hfree : q.store.get? tenant.id = none) :
      Turn maxDepth q
        { q.setState job (.running (.ended (.ok tenant))) with
          store := q.store.add tenant, log := q.log ++ [Creation.entry j.request] }
  | refused {job : Nat} {j : Job} {tenant : Tenant} (hjob : q.jobs[job]? = some j)
      (hstate : j.state = .running (.add tenant)) (error : Creation.Error) :
      Turn maxDepth q (q.setState job (.running (.ended (.error error))))
  | settles {job : Nat} {j : Job} {result : Except Creation.Error Tenant}
      (hjob : q.jobs[job]? = some j) (hstate : j.state = .running (.ended result)) :
      Turn maxDepth q (q.setState job (.settled result))
  | releases {job : Nat} {j : Job} {result : Except Creation.Error Tenant}
      (hjob : q.jobs[job]? = some j) (hstate : j.state = .settled result) :
      Turn maxDepth q
        { q.setState job (.released result) with
          pending := q.pending.filter (· ≠ (j.request.parentId, job)) }

theorem turn_advance (now : Instant) (job : Nat) :
    q.Turn maxDepth (q.advance { maxDepth, now } job) := by
  unfold advance
  cases hjob : q.jobs[job]? with
  | none => exact .idle
  | some j =>
      dsimp only
      cases hstate : j.state with
      | waiting before =>
          dsimp only
          by_cases hmay : q.mayBegin before = true
          · rw [if_pos hmay]
            exact .begins hjob hstate hmay
          · rw [if_neg hmay]
            exact .idle
      | running phase =>
          -- the phases that only read the store make one kind of turn
          have hread (hreading : phase.IsReading) : q.Turn maxDepth
              { q.setState job (.running (phase.next { maxDepth, now } j.request q.store)) with
                store := q.store, log := q.log ++ [] } := by
            rw [List.append_nil]
            exact .reads now hjob hstate hreading
          cases phase with
          | ended result => exact .settles hjob hstate
          | add tenant =>
              cases hfree : q.store.get? tenant.id with
              | none =>
                  simp only [Creation.Phase.step, Creation.insert_of_free hfree]
                  exact .adds hjob hstate hfree
              | some other =>
                  have hrefused : Creation.insert q.store tenant =
                      .error (.store (.tenantExists tenant.id)) := by
                    simp [Creation.insert, TenantStore.perform, hfree]
                  simp only [Creation.Phase.step, hrefused, List.append_nil]
                  exact .refused hjob hstate _
          | readParent => exact hread trivial
          | readAncestors parent left found => exact hread trivial
          | followQuotas parent visited current => exact hread trivial
          | countSiblings parent limits => exact hread trivial
      | settled result => exact .idle
      | released result => exact .idle

theorem turn_release (job : Nat) : q.Turn maxDepth (q.release job) := by
  unfold release
  cases hjob : q.jobs[job]? with
  | none => exact .idle
  | some j =>
      dsimp only
      cases hstate : j.state with
      | settled result => exact .releases hjob hstate
      | waiting before => exact .idle
      | running phase => exact .idle
      | released result => exact .idle

theorem turn_pass (maxDepth : Number) (q : CreationQueue) (moment : Moment) :
    q.Turn maxDepth (q.pass maxDepth moment) := by
  cases moment with
  | call parentId name options =>
      show q.Turn maxDepth (q.call parentId options name).2
      unfold call
      cases TenantName.of name with
      | error flaw => exact .idle
      | ok name => exact .start _
  | advance now job => exact turn_advance now job
  | release job => exact turn_release job

/-- **Induction along a history.** -/
theorem history_induction {motive : CreationQueue → Prop}
    (hturn : ∀ q q' : CreationQueue, motive q → q.Turn maxDepth q' → motive q')
    (hstart : motive q) (moments : List Moment) : motive (q.history maxDepth moments) := by
  unfold history
  induction moments generalizing q with
  | nil => exact hstart
  | cons moment moments ih => exact ih (hturn q _ hstart (turn_pass maxDepth q moment))

theorem history_append (moments moments' : List Moment) :
    q.history maxDepth (moments ++ moments') =
      history maxDepth (q.history maxDepth moments) moments' :=
  List.foldl_append

theorem callAll_eq_history (q : CreationQueue) (parentId : TenantId) (options : Creation.Options)
    (names : List String) :
    (callAll q parentId options names).2 =
      q.history maxDepth (names.map fun name => .call parentId name options) := by
  induction names generalizing q with
  | nil => rfl
  | cons name names ih => exact ih (q.call parentId options name).2

/-- Letting one creation end is a history in which no other one takes a step. -/
theorem exists_history_settleJob (config : Creation) (q : CreationQueue) (job : Nat) :
    ∃ moments, q.settleJob config job = q.history config.maxDepth moments := by
  unfold settleJob
  cases q.jobs[job]? with
  | none => exact ⟨[], rfl⟩
  | some j =>
      have hadvances (n : Nat) (q : CreationQueue) :
          q.run config (List.replicate n (.advance job)) =
            q.history config.maxDepth (List.replicate n (.advance config.now job)) := by
        induction n generalizing q with
        | zero => rfl
        | succ n ih => exact ih _
      refine ⟨List.replicate (q.stepBound j) (.advance config.now job) ++ [.release job], ?_⟩
      rw [history_append, ← hadvances]
      exact List.foldl_append

/-- **Creations started at once.** Letting them end one after another is one history among all. -/
theorem exists_history_createAll (config : Creation) (s : TenantStore) (parentId : TenantId)
    (options : Creation.Options) (names : List String) :
    ∃ moments, (createAll config s parentId options names).2 =
      history config.maxDepth { store := s } moments := by
  have hsettle (jobs : List Nat) (q : CreationQueue) :
      ∃ moments, jobs.foldl (settleJob config) q = q.history config.maxDepth moments := by
    induction jobs generalizing q with
    | nil => exact ⟨[], rfl⟩
    | cons job jobs ih =>
        obtain ⟨first, hfirst⟩ := exists_history_settleJob config q job
        obtain ⟨rest, hrest⟩ := ih (q.settleJob config job)
        exact ⟨first ++ rest, by rw [List.foldl_cons, hrest, hfirst, history_append]⟩
  obtain ⟨moments, hmoments⟩ := hsettle (List.range (callAll { store := s } parentId options
    names).2.jobs.length) (callAll { store := s } parentId options names).2
  refine ⟨names.map (fun name => .call parentId name options) ++ moments, ?_⟩
  rw [history_append, ← callAll_eq_history]
  exact hmoments

end Turns

/-- A creation is what it was, except for the one whose state is set. -/
def Moved (job : Nat) (state : State) (i : Nat) (j j' : Job) : Prop :=
  (i = job ∧ j' = { j with state }) ∨ (i ≠ job ∧ j' = j)

theorem Moved.request_eq {j' : Job} (h : Moved job state i j j') : j'.request = j.request := by
  rcases h with ⟨-, rfl⟩ | ⟨-, rfl⟩ <;> rfl

theorem getElem?_setState_eq_some_iff {j' : Job} :
    (q.setState job state).jobs[i]? = some j' ↔
      ∃ j, q.jobs[i]? = some j ∧ Moved job state i j j' := by
  unfold setState
  rw [List.getElem?_modify]
  cases hget : q.jobs[i]? with
  | none => simp
  | some j =>
      by_cases hi : i = job
      · simp [Moved, hi, eq_comm]
      · have hi' : ¬ job = i := fun h => hi h.symm
        simp [Moved, hi, hi', eq_comm]

theorem getElem?_start_eq_some_iff {r : Creation.Request} :
    (q.start r).jobs[i]? = some j ↔ q.jobs[i]? = some j ∨ i = q.jobs.length ∧
      j = { request := r, state := .waiting (q.pending.lookup r.parentId) } := by
  unfold start
  rw [List.getElem?_append]
  split
  · next hlt =>
    have hne : i ≠ q.jobs.length := by omega
    simp [hne]
  · next hle =>
    have hnone : q.jobs[i]? = none := List.getElem?_eq_none (by omega)
    rw [hnone, List.getElem?_singleton]
    have hindex : i - q.jobs.length = 0 ↔ i = q.jobs.length := by omega
    by_cases hi : i = q.jobs.length
    · simp [hi, eq_comm]
    · simp [hindex, hi]

theorem mem_pending_start_iff {r : Creation.Request} {id : TenantId} {p : Nat} :
    (id, p) ∈ (q.start r).pending ↔
      id = r.parentId ∧ p = q.jobs.length ∨ (id, p) ∈ q.pending ∧ id ≠ r.parentId := by
  unfold start
  rw [List.mem_cons, List.mem_filter, Prod.mk.injEq]
  simp

theorem map_request_setState :
    (q.setState job state).jobs.map (·.request) = q.jobs.map (·.request) := by
  apply List.ext_getElem?
  intro i
  unfold setState
  rw [List.getElem?_map, List.getElem?_map, List.getElem?_modify]
  cases q.jobs[i]? with
  | none => rfl
  | some j => by_cases hi : job = i <;> simp [hi]

theorem map_request_pass (maxDepth : Number) (q : CreationQueue) (moment : Moment) :
    (q.pass maxDepth moment).jobs.map (·.request) =
      q.jobs.map (·.request) ++ moment.request?.toList := by
  cases moment with
  | call parentId name options =>
      simp only [pass, call, Moment.request?]
      cases TenantName.of name with
      | error flaw => simp [Except.toOption]
      | ok name => simp [Except.toOption, start]
  | advance now job =>
      show (q.advance { maxDepth, now } job).jobs.map (·.request) = q.jobs.map (·.request) ++ []
      rw [List.append_nil]
      unfold advance
      split
      · rfl
      · split
        · split
          · exact map_request_setState
          · rfl
        · exact map_request_setState
        · exact map_request_setState
        · rfl
  | release job =>
      show (q.release job).jobs.map (·.request) = q.jobs.map (·.request) ++ []
      rw [List.append_nil]
      unfold release
      split
      · rfl
      · split
        · exact map_request_setState
        · rfl

/-- The creations are the calls with admissible names, in the order in which they were made. -/
theorem map_request_history (maxDepth : Number) (q : CreationQueue) (moments : List Moment) :
    (history maxDepth q moments).jobs.map (·.request) =
      q.jobs.map (·.request) ++ moments.filterMap Moment.request? := by
  unfold history
  induction moments generalizing q with
  | nil => exact (List.append_nil _).symm
  | cons moment moments ih =>
      rw [List.foldl_cons, ih, map_request_pass, List.append_assoc]
      cases hrequest : moment.request? <;> simp [hrequest]

/-- **Ahead.** One creation was started before another one below the same tenant. -/
structure Ahead (q : CreationQueue) (i : Nat) (first : Job) (k : Nat) (later : Job) : Prop where
  first_mem : q.jobs[i]? = some first
  later_mem : q.jobs[k]? = some later
  lt : i < k
  same : first.request.parentId = later.request.parentId

/-- **A move.** One creation whose turn it is stands elsewhere, and nothing else changes, except
that its entry in the table of pending creations may be taken out when it has ended. -/
structure Moves (q q' : CreationQueue) (job : Nat) (j : Job) (state : State) : Prop where
  job_mem : q.jobs[job]? = some j
  turn : ∀ i first, q.Ahead i first job j → first.state.hasEnded = true
  begun : state.hasBegun = true
  ended : j.state.hasEnded = true → state.hasEnded = true
  jobs_eq : q'.jobs = (q.setState job state).jobs
  old : ∀ entry ∈ q'.pending, entry ∈ q.pending
  kept : ∀ entry ∈ q.pending,
    entry ∈ q'.pending ∨ entry = (j.request.parentId, job) ∧ state.hasEnded = true
  gone : ∀ id result, state = .released result → (id, job) ∉ q'.pending

namespace Moves

theorem of_pending_eq (hjob : q.jobs[job]? = some j)
    (hturn : ∀ i first, q.Ahead i first job j → first.state.hasEnded = true)
    (hbegun : state.hasBegun = true) (hended : j.state.hasEnded = true → state.hasEnded = true)
    (hknown : ∀ result, state ≠ .released result)
    (hjobs : q'.jobs = (q.setState job state).jobs) (hpending : q'.pending = q.pending) :
    q.Moves q' job j state where
  job_mem := hjob
  turn := hturn
  begun := hbegun
  ended := hended
  jobs_eq := hjobs
  old _ hmem := hpending ▸ hmem
  kept _ hmem := .inl (hpending ▸ hmem)
  gone _ result hstate := absurd hstate (hknown result)

variable {j' : Job}

theorem exists_before (h : q.Moves q' job j state) (hget : q'.jobs[i]? = some j') :
    ∃ j₀, q.jobs[i]? = some j₀ ∧ Moved job state i j₀ j' := by
  rw [h.jobs_eq] at hget
  exact getElem?_setState_eq_some_iff.1 hget

theorem exists_after {j₀ : Job} (h : q.Moves q' job j state) (hget : q.jobs[i]? = some j₀) :
    ∃ j', q'.jobs[i]? = some j' ∧ Moved job state i j₀ j' := by
  have hset {j' : Job} (hmove : Moved job state i j₀ j') : q'.jobs[i]? = some j' := by
    rw [h.jobs_eq]
    exact getElem?_setState_eq_some_iff.2 ⟨j₀, hget, hmove⟩
  by_cases hi : i = job
  · have hmove : Moved job state i j₀ { j₀ with state } := .inl ⟨hi, rfl⟩
    exact ⟨_, hset hmove, hmove⟩
  · have hmove : Moved job state i j₀ j₀ := .inr ⟨hi, rfl⟩
    exact ⟨_, hset hmove, hmove⟩

theorem hasEnded {j₀ : Job} (h : q.Moves q' job j state) (hget : q.jobs[i]? = some j₀)
    (hmove : Moved job state i j₀ j') (hended : j₀.state.hasEnded = true) :
    j'.state.hasEnded = true := by
  rcases hmove with ⟨rfl, rfl⟩ | ⟨-, rfl⟩
  · obtain rfl : j₀ = j := Option.some.inj (hget.symm.trans h.job_mem)
    exact h.ended hended
  · exact hended

/-- Only a creation that has not moved is still waiting. -/
theorem eq_of_waiting {j₀ : Job} (h : q.Moves q' job j state) (hmove : Moved job state i j₀ j')
    (hstate : j'.state = .waiting before) : j' = j₀ := by
  rcases hmove with ⟨-, rfl⟩ | ⟨-, rfl⟩
  · have hwaiting : state = .waiting before := hstate
    have hbegun := h.begun
    rw [hwaiting] at hbegun
    cases hbegun
  · rfl

theorem ahead_of_ahead {first' later' : Job} (h : q.Moves q' job j state)
    (hahead : q'.Ahead i first' k later') :
    ∃ first later, q.Ahead i first k later ∧ Moved job state i first first' ∧
      Moved job state k later later' := by
  obtain ⟨first, hfirst, hmoveFirst⟩ := h.exists_before hahead.first_mem
  obtain ⟨later, hlater, hmoveLater⟩ := h.exists_before hahead.later_mem
  have hsame : first.request.parentId = later.request.parentId := by
    rw [← hmoveFirst.request_eq, ← hmoveLater.request_eq]
    exact hahead.same
  exact ⟨first, later, ⟨hfirst, hlater, hahead.lt, hsame⟩, hmoveFirst, hmoveLater⟩

end Moves

/-- **The order of creations.** No creation begins before those ahead of it have ended. One that
waits does so for a creation ahead of it, unless all of them have ended, and every other one ahead
was started still earlier or has ended. The table of pending creations has at most one entry for
each tenant; its creation is not forgotten, and no creation that has not ended was started later. -/
structure Serialized (q : CreationQueue) : Prop where
  ordered : ∀ {i k first later}, q.Ahead i first k later → later.state.hasBegun = true →
    first.state.hasEnded = true
  linked : ∀ {k later b}, q.jobs[k]? = some later → later.state = .waiting (some b) →
    ∃ first, q.Ahead b first k later
  nearest : ∀ {i k first later before}, q.Ahead i first k later → later.state = .waiting before →
    first.state.hasEnded = true ∨ ∃ b, before = some b ∧ i ≤ b
  remembered : ∀ {id p}, (id, p) ∈ q.pending →
    ∃ j, q.jobs[p]? = some j ∧ j.request.parentId = id ∧ ∀ result, j.state ≠ .released result
  unique : ∀ {id p p'}, (id, p) ∈ q.pending → (id, p') ∈ q.pending → p = p'
  covered : ∀ {i j}, q.jobs[i]? = some j → j.state.hasEnded = false →
    ∃ p, i ≤ p ∧ (j.request.parentId, p) ∈ q.pending

namespace Serialized

theorem empty (s : TenantStore) : Serialized { store := s } where
  ordered hahead := by cases hahead.first_mem
  linked hjob := by cases hjob
  nearest hahead := by cases hahead.first_mem
  remembered hmem := by cases hmem
  unique hmem := by cases hmem
  covered hjob := by cases hjob

/-- **Who may begin.** What a creation waits for has ended exactly when all those ahead have. -/
theorem mayBegin_iff (h : q.Serialized) (hjob : q.jobs[k]? = some later)
    (hstate : later.state = .waiting before) :
    q.mayBegin before = true ↔
      ∀ i first, q.Ahead i first k later → first.state.hasEnded = true := by
  constructor
  · intro hmay i first hahead
    rcases h.nearest hahead hstate with hended | ⟨b, rfl, hib⟩
    · exact hended
    · obtain ⟨last, hlast⟩ := h.linked hjob hstate
      have hlastEnded : last.state.hasEnded = true := by
        simpa [mayBegin, hlast.first_mem] using hmay
      rcases Nat.eq_or_lt_of_le hib with rfl | hlt
      · have hsame : first = last := Option.some.inj (hahead.first_mem.symm.trans hlast.first_mem)
        rw [hsame]
        exact hlastEnded
      · -- the one that is waited for has begun, so those ahead of it have ended
        have hbetween : q.Ahead i first b last :=
          ⟨hahead.first_mem, hlast.first_mem, hlt, hahead.same.trans hlast.same.symm⟩
        exact h.ordered hbetween (State.hasBegun_of_hasEnded hlastEnded)
  · intro hall
    cases before with
    | none => rfl
    | some b =>
        obtain ⟨last, hlast⟩ := h.linked hjob hstate
        have hlastEnded := hall b last hlast
        simpa [mayBegin, hlast.first_mem] using hlastEnded

/-- **One move** keeps the order of creations. -/
theorem move (h : q.Serialized) (hmoves : q.Moves q' job j state) : q'.Serialized := by
  constructor
  case ordered =>
    intro i k first' later' hahead' hlaterBegun
    obtain ⟨first, later, hahead, hmoveFirst, hmoveLater⟩ := hmoves.ahead_of_ahead hahead'
    apply hmoves.hasEnded hahead.first_mem hmoveFirst
    rcases hmoveLater with ⟨rfl, rfl⟩ | ⟨-, rfl⟩
    · obtain rfl : later = j := Option.some.inj (hahead.later_mem.symm.trans hmoves.job_mem)
      exact hmoves.turn i first hahead
    · exact h.ordered hahead hlaterBegun
  case linked =>
    intro k later' b hget hstate
    obtain ⟨later, hlater, hmove⟩ := hmoves.exists_before hget
    obtain rfl := hmoves.eq_of_waiting hmove hstate
    obtain ⟨first, hahead⟩ := h.linked hlater hstate
    obtain ⟨first', hfirst', hmoveFirst⟩ := hmoves.exists_after hahead.first_mem
    refine ⟨first', hfirst', hget, hahead.lt, ?_⟩
    rw [hmoveFirst.request_eq]
    exact hahead.same
  case nearest =>
    intro i k first' later' before hahead' hstate
    obtain ⟨first, later, hahead, hmoveFirst, hmoveLater⟩ := hmoves.ahead_of_ahead hahead'
    obtain rfl := hmoves.eq_of_waiting hmoveLater hstate
    rcases h.nearest hahead hstate with hended | hlink
    · exact .inl (hmoves.hasEnded hahead.first_mem hmoveFirst hended)
    · exact .inr hlink
  case remembered =>
    intro id p hmem
    obtain ⟨j₀, hget, hid, hknown⟩ := h.remembered (hmoves.old _ hmem)
    obtain ⟨j', hget', hmove⟩ := hmoves.exists_after hget
    refine ⟨j', hget', by rw [hmove.request_eq, hid], ?_⟩
    rcases hmove with ⟨rfl, rfl⟩ | ⟨-, rfl⟩
    · exact fun result hresult => hmoves.gone id result hresult hmem
    · exact hknown
  case unique =>
    intro id p p' hmem hmem'
    exact h.unique (hmoves.old _ hmem) (hmoves.old _ hmem')
  case covered =>
    intro i j' hget' hopen'
    obtain ⟨j₀, hget, hmove⟩ := hmoves.exists_before hget'
    have hopen : j₀.state.hasEnded = false := by
      rw [← Bool.not_eq_true] at hopen' ⊢
      exact fun hended => hopen' (hmoves.hasEnded hget hmove hended)
    obtain ⟨p, hip, hmem⟩ := h.covered hget hopen
    rw [hmove.request_eq]
    rcases hmoves.kept _ hmem with hmem' | ⟨hentry, hended⟩
    · exact ⟨p, hip, hmem'⟩
    · -- an entry goes with the end of its creation, and all those ahead have ended before
      exfalso
      obtain ⟨hparent, rfl⟩ := Prod.mk.inj hentry
      rcases hmove with ⟨rfl, rfl⟩ | ⟨hne, rfl⟩
      · have hopenState : state.hasEnded = false := hopen'
        rw [hopenState] at hended
        cases hended
      · have hlt : i < p := by omega
        have hahead : q.Ahead i j' p j := ⟨hget, hmoves.job_mem, hlt, hparent⟩
        rw [hmoves.turn i j' hahead] at hopen
        cases hopen

/-- The table names the last creation below a tenant. -/
theorem lookup_eq_some_iff (h : q.Serialized) {id : TenantId} {p : Nat} :
    q.pending.lookup id = some p ↔ (id, p) ∈ q.pending := by
  have hmem {p : Nat} (hlookup : q.pending.lookup id = some p) : (id, p) ∈ q.pending := by
    obtain ⟨above, below, hpending, -⟩ := List.lookup_eq_some_iff.1 hlookup
    rw [hpending]
    exact List.mem_append_right _ List.mem_cons_self
  constructor
  · exact hmem
  · intro hentry
    have hsome : (q.pending.lookup id).isSome = true :=
      List.lookup_isSome_iff.2 ⟨(id, p), hentry, beq_self_eq_true id⟩
    obtain ⟨p', hlookup⟩ := Option.isSome_iff_exists.1 hsome
    rw [hlookup, h.unique hentry (hmem hlookup)]

/-- A creation that is started waits for the last one below its tenant and takes its place in the
table. -/
theorem start (h : q.Serialized) (r : Creation.Request) : (q.start r).Serialized := by
  have hold {i : Nat} {j : Job} (hget : q.jobs[i]? = some j) :
      i < q.jobs.length ∧ (q.start r).jobs[i]? = some j :=
    ⟨(List.getElem?_eq_some_iff.1 hget).1, getElem?_start_eq_some_iff.2 (.inl hget)⟩
  -- the one ahead of another is never the last, so it was there before
  have hfirst {i k : Nat} {first later : Job} (hahead : (q.start r).Ahead i first k later) :
      q.jobs[i]? = some first := by
    rcases getElem?_start_eq_some_iff.1 hahead.first_mem with hget | ⟨hi, -⟩
    · exact hget
    · have hlt := hahead.lt
      rcases getElem?_start_eq_some_iff.1 hahead.later_mem with hget | ⟨hk, -⟩
      · have hk := (hold hget).1
        omega
      · omega
  constructor
  case ordered =>
    intro i k first later hahead hbegun
    rcases getElem?_start_eq_some_iff.1 hahead.later_mem with hlater | ⟨-, rfl⟩
    · exact h.ordered ⟨hfirst hahead, hlater, hahead.lt, hahead.same⟩ hbegun
    · cases hbegun
  case linked =>
    intro k later b hget hstate
    rcases getElem?_start_eq_some_iff.1 hget with hlater | ⟨rfl, rfl⟩
    · obtain ⟨first, hahead⟩ := h.linked hlater hstate
      exact ⟨first, (hold hahead.first_mem).2, hget, hahead.lt, hahead.same⟩
    · -- what the new one waits for is found in the table, and the table remembers who that is
      have hlookup : q.pending.lookup r.parentId = some b := State.waiting.inj hstate
      obtain ⟨first, hb, hid, -⟩ := h.remembered (h.lookup_eq_some_iff.1 hlookup)
      exact ⟨first, (hold hb).2, hget, (hold hb).1, hid⟩
  case nearest =>
    intro i k first later before hahead hstate
    rcases getElem?_start_eq_some_iff.1 hahead.later_mem with hlater | ⟨-, rfl⟩
    · exact h.nearest ⟨hfirst hahead, hlater, hahead.lt, hahead.same⟩ hstate
    · have hbefore : q.pending.lookup r.parentId = before := State.waiting.inj hstate
      cases hended : first.state.hasEnded with
      | true => exact .inl rfl
      | false =>
          obtain ⟨p, hip, hmem⟩ := h.covered (hfirst hahead) hended
          have hsame : first.request.parentId = r.parentId := hahead.same
          rw [hsame] at hmem
          exact .inr ⟨p, hbefore.symm.trans (h.lookup_eq_some_iff.2 hmem), hip⟩
  case remembered =>
    intro id p hmem
    rcases mem_pending_start_iff.1 hmem with ⟨rfl, rfl⟩ | ⟨hmem, -⟩
    · exact ⟨_, getElem?_start_eq_some_iff.2 (.inr ⟨rfl, rfl⟩), rfl, by simp⟩
    · obtain ⟨j, hget, hid, hknown⟩ := h.remembered hmem
      exact ⟨j, (hold hget).2, hid, hknown⟩
  case unique =>
    intro id p p' hmem hmem'
    rcases mem_pending_start_iff.1 hmem with ⟨hid, rfl⟩ | ⟨hmem, hid⟩
    · rcases mem_pending_start_iff.1 hmem' with ⟨-, rfl⟩ | ⟨-, hid'⟩
      · rfl
      · exact absurd hid hid'
    · rcases mem_pending_start_iff.1 hmem' with ⟨hid', -⟩ | ⟨hmem', -⟩
      · exact absurd hid' hid
      · exact h.unique hmem hmem'
  case covered =>
    intro i j hget hopen
    rcases getElem?_start_eq_some_iff.1 hget with hget | ⟨rfl, rfl⟩
    · by_cases hparent : j.request.parentId = r.parentId
      · -- below the same tenant the new entry is later than every creation so far
        have hi := (hold hget).1
        exact ⟨q.jobs.length, by omega, mem_pending_start_iff.2 (.inl ⟨hparent, rfl⟩)⟩
      · obtain ⟨p, hip, hmem⟩ := h.covered hget hopen
        exact ⟨p, hip, mem_pending_start_iff.2 (.inr ⟨hmem, hparent⟩)⟩
    · exact ⟨q.jobs.length, by omega, mem_pending_start_iff.2 (.inl ⟨rfl, rfl⟩)⟩

/-- A creation that has begun moves on while its entry stays. -/
theorem moves_of_running (h : q.Serialized) {phase : Creation.Phase} (hjob : q.jobs[job]? = some j)
    (hrunning : j.state = .running phase) (hbegun : state.hasBegun = true)
    (hknown : ∀ result, state ≠ .released result)
    (hjobs : q'.jobs = (q.setState job state).jobs) (hpending : q'.pending = q.pending) :
    q.Moves q' job j state := by
  have hbefore : j.state.hasBegun = true := by
    rw [hrunning]
    rfl
  have hopen : j.state.hasEnded ≠ true := by
    rw [hrunning]
    exact Bool.false_ne_true
  exact .of_pending_eq hjob (fun _ _ hahead => h.ordered hahead hbefore) hbegun
    (fun hended => absurd hended hopen) hknown hjobs hpending

/-- **Every turn** keeps the order of creations. -/
theorem turn (h : q.Serialized) (hturn : q.Turn maxDepth q') : q'.Serialized := by
  cases hturn with
  | idle => exact h
  | start r => exact h.start r
  | @begins job j before hjob hstate hmay =>
      have hahead := (h.mayBegin_iff hjob hstate).1 hmay
      have hopen : j.state.hasEnded ≠ true := by
        rw [hstate]
        exact Bool.false_ne_true
      exact h.move (.of_pending_eq hjob hahead rfl (fun hended => absurd hended hopen)
        (fun _ => State.noConfusion) rfl rfl)
  | reads now hjob hstate hreading =>
      exact h.move (h.moves_of_running hjob hstate rfl (fun _ => State.noConfusion) rfl rfl)
  | adds hjob hstate hfree =>
      exact h.move (h.moves_of_running hjob hstate rfl (fun _ => State.noConfusion) rfl rfl)
  | refused hjob hstate error =>
      exact h.move (h.moves_of_running hjob hstate rfl (fun _ => State.noConfusion) rfl rfl)
  | settles hjob hstate =>
      exact h.move (h.moves_of_running hjob hstate rfl (fun _ => State.noConfusion) rfl rfl)
  | @releases job j result hjob hstate =>
      have hbegun : j.state.hasBegun = true := by
        rw [hstate]
        rfl
      have hahead (i : Nat) (first : Job) (hahead : q.Ahead i first job j) :
          first.state.hasEnded = true := h.ordered hahead hbegun
      -- only the entry of the creation that is forgotten leaves the table
      apply h.move (?_ : q.Moves _ job j (.released result))
      refine ⟨hjob, hahead, rfl, fun _ => rfl, rfl, ?_, ?_, ?_⟩
      · exact fun entry hmem => (List.mem_filter.1 hmem).1
      · intro entry hmem
        by_cases hentry : entry = (j.request.parentId, job)
        · exact .inr ⟨hentry, rfl⟩
        · exact .inl (List.mem_filter.2 ⟨hmem, by simpa using hentry⟩)
      · intro id _ _ hmem
        obtain ⟨hmem, hentry⟩ := List.mem_filter.1 hmem
        obtain ⟨j', hjob', hid, -⟩ := h.remembered hmem
        rw [hjob] at hjob'
        cases hjob'
        rw [← hid] at hentry
        simp at hentry

/-- **One at a time.** Two creations below the same tenant are never under way together. -/
theorem eq_of_running (h : q.Serialized) {phase phase' : Creation.Phase}
    (hfirst : q.jobs[i]? = some first) (hlater : q.jobs[k]? = some later)
    (hsame : first.request.parentId = later.request.parentId)
    (hrunning : first.state = .running phase) (hrunning' : later.state = .running phase') :
    i = k := by
  have hnot {i k : Nat} {first later : Job} {phase phase' : Creation.Phase}
      (hahead : q.Ahead i first k later) (hrunning : first.state = .running phase)
      (hrunning' : later.state = .running phase') : False := by
    have hended := h.ordered hahead (by rw [hrunning']; rfl)
    rw [hrunning] at hended
    cases hended
  rcases Nat.lt_trichotomy i k with hlt | heq | hlt
  · exact (hnot ⟨hfirst, hlater, hlt, hsame⟩ hrunning hrunning').elim
  · exact heq
  · exact (hnot ⟨hlater, hfirst, hlt, hsame.symm⟩ hrunning' hrunning).elim

/-- **The next one begins.** When those ahead have ended, well or not, a creation that waits begins
with its next step. -/
theorem advance_of_ended (h : q.Serialized) (config : Creation) (hjob : q.jobs[k]? = some later)
    (hstate : later.state = .waiting before)
    (hended : ∀ i first, q.Ahead i first k later → first.state.hasEnded = true) :
    (q.advance config k).jobs[k]? = some { later with state := .running .readParent } := by
  have hmay : q.mayBegin before = true := (h.mayBegin_iff hjob hstate).2 hended
  have hbegins : q.advance config k = q.setState k (.running .readParent) := by
    simp only [advance, hjob, hstate, hmay, if_true]
  rw [hbegins, getElem?_setState_eq_some_iff]
  exact ⟨later, hjob, .inl ⟨rfl, rfl⟩⟩

/-- **Nothing is left over.** When all creations are forgotten, the table is empty. -/
theorem pending_eq_nil (h : q.Serialized)
    (hall : ∀ (i : Nat) (j : Job), q.jobs[i]? = some j → ∃ result, j.state = .released result) :
    q.pending = [] := by
  apply List.eq_nil_iff_forall_not_mem.2
  rintro ⟨id, p⟩ hmem
  obtain ⟨j, hjob, -, hknown⟩ := h.remembered hmem
  obtain ⟨result, hresult⟩ := hall p j hjob
  exact hknown result hresult

theorem history {s : TenantStore} (maxDepth : Number) (moments : List Moment) :
    (CreationQueue.history maxDepth { store := s } moments).Serialized :=
  history_induction (fun _ _ h hturn => h.turn hturn) (.empty s) moments

end Serialized

end CreationQueue

end TenantIam
