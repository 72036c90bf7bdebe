import TenantIam.Tenant.Creation

/-!
# Creations side by side

Several creations can be under way at once. Each of them reads the store step by step, and other
creations may take steps in between. Creations below the same tenant wait for each other: each one
begins when the one started before it has ended, well or not.
-/

namespace TenantIam

namespace Creation

/-- How far a creation has come. -/
inductive Phase where
  /-- The tenant above is to be read. -/
  | readParent
  /-- The tenants above that one are to be read, and then the sub-tenant. -/
  | readAncestors (parent : Tenant) (left : List TenantId) (found : List Tenant)
  /-- The way to the quotas in force is to be followed. -/
  | followQuotas (parent : Tenant) (visited : List TenantId) (current : TenantId)
  /-- The sub-tenants that there are are to be counted. -/
  | countSiblings (parent : Tenant) (limits : Quotas)
  /-- The sub-tenant is to be added. -/
  | add (tenant : Tenant)
  /-- The creation has ended. -/
  | ended (result : Except Error Tenant)

/-- The phase after a check. -/
def Phase.ofCheck {α : Type} (check : Except Error α) (next : α → Phase) : Phase :=
  match check with
  | .ok value => next value
  | .error error => .ended (.error error)

/-- The next step of a creation that only reads the store. -/
def Phase.next (config : Creation) (r : Request) (s : TenantStore) : Phase → Phase
  | .readParent =>
    ofCheck (config.checkParent r (s.get? r.parentId)) fun parent =>
      .readAncestors parent r.parentId.ancestors []
  | .readAncestors parent (id :: left) found =>
    .readAncestors parent left (found ++ (s.get? id).toList)
  | .readAncestors parent [] found =>
    ofCheck (checkLevels r (found ++ [parent])) fun () =>
      ofCheck (checkFree r (s.get? r.childId)) fun () => .followQuotas parent [] r.parentId
  | .followQuotas parent visited current =>
    if current ∈ visited then .ended (.error (.quotas (.cycle r.parentId current)))
    else
      match s.get? current with
      | none => .ended (.error (.quotas (.missing current)))
      | some t =>
        match t.inheritsFrom? with
        | none => .countSiblings parent t.quotas
        | some above => .followQuotas parent (current :: visited) above
  | .countSiblings parent limits =>
    ofCheck (checkRoom r limits (s.children r.parentId)) fun () =>
      ofCheck (checkGrant r limits) fun () => .add (config.subTenant r parent)
  | phase => phase

/-- The next step of a creation: the phase and the store after it, and what is logged. -/
def Phase.step (config : Creation) (r : Request) (s : TenantStore) :
    Phase → Phase × TenantStore × List Log.Entry
  | .add tenant =>
    match insert s tenant with
    | .ok created => (.ended (.ok tenant), created.store, [entry r])
    | .error error => (.ended (.error error), s, [])
  | phase => (phase.next config r s, s, [])

end Creation

namespace CreationQueue

/-- Where a creation stands. -/
inductive State where
  /-- It waits for the end of the one started before it, if there was one. -/
  | waiting (before : Option Nat)
  /-- It is under way. -/
  | running (phase : Creation.Phase)
  /-- It has ended. -/
  | settled (result : Except Creation.Error Tenant)
  /-- It has ended, and the queue has forgotten it. -/
  | released (result : Except Creation.Error Tenant)

def State.hasEnded : State → Bool
  | settled _ | released _ => true
  | _ => false

def State.result? : State → Option (Except Creation.Error Tenant)
  | settled result | released result => some result
  | _ => none

structure Job where
  /-- What is to be created. -/
  request : Creation.Request
  /-- Where it stands. -/
  state : State

end CreationQueue

structure CreationQueue where
  /-- The tenants. -/
  store : TenantStore
  /-- The creations, in the order in which they were started. -/
  jobs : List CreationQueue.Job := []
  /-- The last creation started below each tenant, while the queue remembers it. -/
  pending : List (TenantId × Nat) := []
  /-- What has been logged. -/
  log : List Log.Entry := []

namespace CreationQueue

inductive Event where
  /-- A creation is started. -/
  | start (request : Creation.Request)
  /-- A creation takes its next step. -/
  | advance (job : Nat)
  /-- The queue forgets a creation that has ended. -/
  | release (job : Nat)

def setState (q : CreationQueue) (job : Nat) (state : State) : CreationQueue :=
  { q with jobs := q.jobs.modify job fun j => { j with state } }

def start (q : CreationQueue) (request : Creation.Request) : CreationQueue :=
  { q with
    jobs := q.jobs ++ [{ request, state := .waiting (q.pending.lookup request.parentId) }]
    pending :=
      (request.parentId, q.jobs.length) :: q.pending.filter fun (id, _) => id ≠ request.parentId }

/-- Whether the creation that one waits for has ended. -/
def mayBegin (q : CreationQueue) : Option Nat → Bool
  | none => true
  | some before => (q.jobs[before]?).all (·.state.hasEnded)

/-- Lets a creation take its next step, if there is one. -/
def advance (config : Creation) (q : CreationQueue) (job : Nat) : CreationQueue :=
  match q.jobs[job]? with
  | none => q
  | some j =>
    match j.state with
    | .waiting before => if q.mayBegin before then q.setState job (.running .readParent) else q
    | .running (.ended result) => q.setState job (.settled result)
    | .running phase =>
      let (phase, store, entries) := phase.step config j.request q.store
      { q.setState job (.running phase) with store, log := q.log ++ entries }
    | _ => q

/-- Forgets a creation that has ended. -/
def release (q : CreationQueue) (job : Nat) : CreationQueue :=
  match q.jobs[job]? with
  | none => q
  | some j =>
    match j.state with
    | .settled result =>
      { q.setState job (.released result) with
        pending := q.pending.filter (· ≠ (j.request.parentId, job)) }
    | _ => q

def handle (config : Creation) (q : CreationQueue) : Event → CreationQueue
  | .start request => q.start request
  | .advance job => q.advance config job
  | .release job => q.release job

def run (config : Creation) (q : CreationQueue) (events : List Event) : CreationQueue :=
  events.foldl (handle config) q

/-- The steps that a creation takes at most while no other one takes any. -/
def stepBound (q : CreationQueue) (job : Job) : Nat :=
  q.store.tenants.length + job.request.parentId.ancestors.length + 8

/-- The events that let every creation end, one after another. -/
def settleJob (config : Creation) (q : CreationQueue) (job : Nat) : CreationQueue :=
  match q.jobs[job]? with
  | none => q
  | some j => q.run config (List.replicate (q.stepBound j) (.advance job) ++ [.release job])

/-- Lets all creations end, in the order in which they were started. -/
def settle (config : Creation) (q : CreationQueue) : CreationQueue :=
  (List.range q.jobs.length).foldl (settleJob config) q

/-- Asks for a sub-tenant of a name: the creation that was started, unless the name is not
admissible. -/
def call (q : CreationQueue) (parentId : TenantId) (options : Creation.Options) (name : String) :
    Except TenantName.Flaw Nat × CreationQueue :=
  match TenantName.of name with
  | .error flaw => (.error flaw, q)
  | .ok name => (.ok q.jobs.length, q.start { parentId, name, options })

/-- What has become of a call, once it has ended. -/
def result? (q : CreationQueue) (called : Except TenantName.Flaw Nat) :
    Option (Except Creation.Error Tenant) :=
  match called with
  | .error flaw => some (.error (.name flaw))
  | .ok job => q.jobs[job]?.bind (·.state.result?)

def callAll (q : CreationQueue) (parentId : TenantId) (options : Creation.Options) :
    List String → List (Except TenantName.Flaw Nat) × CreationQueue
  | [] => ([], q)
  | name :: names =>
    let (called, q) := q.call parentId options name
    let (others, q) := callAll q parentId options names
    (called :: others, q)

/-- Creates sub-tenants of several names side by side: what becomes of each call, and the queue
when all of them have ended. -/
def createAll (config : Creation) (s : TenantStore) (parentId : TenantId)
    (options : Creation.Options) (names : List String) :
    List (Option (Except Creation.Error Tenant)) × CreationQueue :=
  let (called, q) := callAll { store := s } parentId options names
  let q := q.settle config
  (called.map q.result?, q)

end CreationQueue

end TenantIam
