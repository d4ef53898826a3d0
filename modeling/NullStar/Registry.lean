/-
**The capability registry.**

The registry holds one table of capabilities for each process and the objects that the capabilities
name.  A handle is a slot of the table together with a generation number that is never given out
twice.  Objects that no table entry and no kernel root reaches are dropped by a collection.

The other parts of the kernel that the calls read or change stand beside the registry in
`System`: the objects the kernel itself keeps alive, the processes, the executions that wait
for objects, and the clock.  Waking is a pass over the waiting executions: the event ports look at their
targets first, and then every execution whose request is met is taken from the list with its result.

* `Registry` — tables and objects;
* `Registry.collectGarbage` — the collection;
* `Registry.jobSubtree`, `Registry.jobAncestorsInclusive` — walks of the tree of jobs;
* `Registry.signalState` — the signals an object asserts, read off its state;
* `Registry.refreshEventPorts` — every event port looks at its targets;
* `System` — the registry with its surroundings.
-/

import NullStar.KernelObject
import NullStar.Keyed

set_option autoImplicit false

namespace Kernel

open Rust Keyed Option

/-! ### Handles -/

/-- The handle of a slot in a generation. -/
def capabilityHandle (slot generation : ℕ) : Option ℕ :=
  if slot = 0 ∨ maxCapabilitiesPerProcess < slot ∨ generation = 0 then none
  else some (generation * 2 ^ 16 + slot)

/-- The slot of a well-formed handle. -/
def capabilityHandleSlot (handle : ℕ) : Option ℕ :=
  let slot := handle % 2 ^ 16
  let generation := handle / 2 ^ 16
  if slot = 0 ∨ maxCapabilitiesPerProcess < slot ∨ generation = 0 ∨ 2 ^ 32 - 1 < generation then none
  else some slot

/-- The handle that stands for no capability. -/
def invalidHandle : ℕ := 0

/-! ### Tables and objects -/

structure CapabilityEntry where
  handle : ℕ
  object : ObjectRef
  rights : Bits
  deriving DecidableEq

structure ProcessCapabilityTable where
  processId : ℕ
  entries : List CapabilityEntry
  deriving DecidableEq

structure CapabilityObjectRecord where
  reference : ObjectRef
  data : ObjectData
  deriving DecidableEq

namespace ProcessCapabilityTable

def slotInUse (table : ProcessCapabilityTable) (slot : ℕ) : Bool :=
  table.entries.any fun entry => capabilityHandleSlot entry.handle = some slot

/-- The first free slots, at most as many as asked for. -/
def freeSlots (table : ProcessCapabilityTable) (count : ℕ) : List ℕ :=
  (((List.range maxCapabilitiesPerProcess).map (· + 1)).filter fun slot =>
    !table.slotInUse slot).take count

def handleAtSlot (table : ProcessCapabilityTable) (slot : ℕ) : Option ℕ :=
  (table.entries.find? fun entry => capabilityHandleSlot entry.handle = some slot).map (·.handle)

end ProcessCapabilityTable

structure Registry where
  nextObjectId : ℕ
  /-- The next generation of handles; zero when all have been used. -/
  nextHandleGeneration : ℕ
  tables : List ProcessCapabilityTable
  objects : List CapabilityObjectRecord
  deriving DecidableEq

namespace Registry

def new : Registry := ⟨1, 1, [], []⟩

variable (r : Registry) (processId : ℕ)

def table : Option ProcessCapabilityTable :=
  Keyed.lookup (·.processId) processId r.tables

def entriesOf : List CapabilityEntry :=
  match r.table processId with
  | some table => table.entries
  | none => []

def entry (handle : ℕ) : Option CapabilityEntry :=
  Keyed.lookup (·.handle) handle (r.entriesOf processId)

variable (reference : ObjectRef)

def data : Option ObjectData :=
  (Keyed.lookup (·.reference) reference r.objects).map (·.data)

def updateEntries (f : List CapabilityEntry → List CapabilityEntry) : Registry :=
  { r with
    tables := Keyed.adjust (·.processId) processId
      (fun table => { table with entries := f table.entries }) r.tables }

def setData (data : ObjectData) : Registry :=
  { r with
    objects := Keyed.adjust (·.reference) reference
      (fun record => { record with data := data }) r.objects }

def objectKindCount (kind : ObjectKind) : ℕ :=
  (r.objects.filter fun record => record.reference.kind = kind).length

def sharedMemoryBytes : ℕ :=
  (r.objects.map fun record =>
    match record.data with
    | .sharedMemory bytes => bytes.length
    | _ => 0).sum

/-! ### Collection -/

/-- The objects that an object keeps alive; none when it is missing. -/
def links : List ObjectRef :=
  match r.data reference with
  | some data => data.links
  | none => []

variable (roots : List ObjectRef)

/-- What a collection starts from: the objects of all table entries, and the kernel's own. -/
def collectionRoots : List ObjectRef :=
  (r.tables.flatMap fun table => table.entries.map (·.object)) ++ roots

/-- Every reference that a collection can meet. -/
def allReferences : List ObjectRef :=
  r.collectionRoots roots ++ r.objects.flatMap fun record => record.data.links

/-- The references that a collection keeps. -/
def reachable : List ObjectRef :=
  Worklist.explore r.links ((r.allReferences roots).length + 1)
    ((r.collectionRoots roots).foldl Worklist.pushUnique []) 0

def collectGarbage : Registry :=
  { r with objects := r.objects.filter fun record => record.reference ∈ r.reachable roots }

/-! ### The tree of jobs -/

/-- The state of a job, as the walks read it. -/
def jobState (job : ObjectRef) : Outcome Errno Job.State := do
  match ← okOr (r.data job) .io with
  | .job state => return state
  | _ => fail .invalidArgument

/-- Appends the children of a job; a child that is there already makes the walk fail. -/
def pushChildren : List ℕ → List ObjectRef → Outcome Errno (List ObjectRef)
  | [], jobs => .ok jobs
  | id :: rest, jobs =>
    if ⟨id, .job⟩ ∈ jobs then fail .io else pushChildren rest (jobs ++ [⟨id, .job⟩])

/-- The cursor visits the list from left to right and appends the children of what it visits. -/
def jobSubtreeFrom (r : Registry) : ℕ → List ObjectRef → ℕ → Outcome Errno (List ObjectRef)
  | 0, _, _ => trapped
  | rounds + 1, jobs, cursor =>
    match jobs[cursor]? with
    | none => .ok jobs
    | some current => do
      let state ← r.jobState current
      let jobs ← pushChildren state.children jobs
      jobSubtreeFrom r rounds jobs (cursor + 1)

/-- A job and all jobs below it.  The jobs on the list are distinct and the visited ones are
present, so there are no more rounds than objects, and one that finds the end. -/
def jobSubtree (root : ObjectRef) : Outcome Errno (List ObjectRef) := do
  rejectIf (root.kind ≠ .job) .invalidArgument
  r.jobSubtreeFrom (r.objects.length + 1) [root] 0

/-- The members of all jobs in the list, and whether one of them has an exit record. -/
def jobTotals (r : Registry) : List ObjectRef → Outcome Errno (ℕ × Bool)
  | [] => .ok (0, false)
  | job :: rest => do
    let state ← r.jobState job
    let (active, completion) ← jobTotals r rest
    return (state.members.length + active, !state.completions.isEmpty || completion)

def jobSubtreeActiveMembers (root : ObjectRef) : Outcome Errno ℕ := do
  let jobs ← r.jobSubtree root
  let (active, _) ← r.jobTotals jobs
  return active

/-- The walk from a job to the root of its tree. -/
def jobAncestorsFrom (r : Registry) : ℕ → ObjectRef → List ObjectRef → Outcome Errno (List ObjectRef)
  | 0, _, _ => trapped
  | rounds + 1, job, jobs => do
    rejectIf (job ∈ jobs) .io
    let state ← r.jobState job
    match state.parent with
    | none => return jobs ++ [job]
    | some parent => jobAncestorsFrom r rounds ⟨parent, .job⟩ (jobs ++ [job])

def jobAncestorsInclusive (leaf : ObjectRef) : Outcome Errno (List ObjectRef) := do
  rejectIf (leaf.kind ≠ .job) .invalidArgument
  r.jobAncestorsFrom (r.objects.length + 1) leaf []

/-- Whether every job in the list still has room for a process below it. -/
def jobsAdmit (r : Registry) : List ObjectRef → Outcome Errno Bool
  | [] => .ok true
  | job :: rest => do
    let state ← r.jobState job
    if state.retired then return false
    else
      let active ← r.jobSubtreeActiveMembers job
      if state.processLimit ≤ active then return false else jobsAdmit r rest

def jobAdmitsProcess (leaf : ObjectRef) : Outcome Errno Bool := do
  r.jobsAdmit (← r.jobAncestorsInclusive leaf)

/-! ### Signals -/

/-- The signals of an endpoint whose messages go to the given queue; `none` when the other side is
gone. -/
def endpointSignals (queue : List EndpointMessage) (target : Option (List EndpointMessage)) : Bits :=
  (if queue.isEmpty then Signal.none else Signal.readable) |||
    match target with
    | none => Signal.peerClosed
    | some target => if target.length < maxEndpointMessages then Signal.writable else Signal.none

def signalState (object : ObjectRef) : Outcome Errno Bits := do
  match ← okOr (r.data object) .io with
  | .endpoint endpoint =>
    match endpoint.peer with
    | .loopback => return endpointSignals endpoint.queue (some endpoint.queue)
    | .connected peer =>
      match r.data peer with
      | none => return endpointSignals endpoint.queue none
      | some (.endpoint other) => return endpointSignals endpoint.queue (some other.queue)
      | some _ => fail .io
  | .notification pending => return if pending = 0 then Signal.none else Signal.signaled
  | .job _ => do
    let jobs ← r.jobSubtree object
    let (active, completion) ← r.jobTotals jobs
    return (if completion then Signal.readable else Signal.none) |||
      if active = 0 then Signal.terminated else Signal.none
  | .eventPort port => return if port.events.isEmpty then Signal.none else Signal.readable
  | .timer timer => return if timer.fired then Signal.timerFired else Signal.none
  | .event event => return if event.signaled then Signal.signaled else Signal.none
  | .sharedMemory _ | .kernelEarlyLogReader | .waitSet _ => fail .invalidArgument

/-! ### Event ports -/

/-- The event ports with their targets, in the order in which they are refreshed. -/
def portTargets : List (ObjectRef × ObjectRef) :=
  r.objects.flatMap fun record =>
    match record.data with
    | .eventPort port => port.registrations.map fun registration =>
      (record.reference, registration.target)
    | _ => []

/-- Every port in the list looks at its target; the first failure ends the loop. -/
def refreshTargets : List (ObjectRef × ObjectRef) → Registry → Registry × Option Errno
  | [], r => (r, none)
  | (port, target) :: rest, r =>
    match r.signalState target with
    | .error (.err e) => (r, some e)
    | .error .trap => (r, some .io)
    | .ok current =>
      match r.data port with
      | some (.eventPort state) =>
        let (state', fits) := state.observe target current
        let r' := r.setData port (.eventPort state')
        if fits then refreshTargets rest r' else (r', some .noSpace)
      | _ => (r, some .io)

def refreshEventPorts : Registry × Option Errno := refreshTargets r.portTargets r

/-! ### Reading a changed registry -/

section

variable {r} {processId} {other handle : ℕ} {reference} {reference' : ObjectRef} {d : ObjectData}
  {f : List CapabilityEntry → List CapabilityEntry} {roots}

theorem entry_mem {entry : CapabilityEntry} (h : r.entry processId handle = some entry) :
    entry ∈ r.entriesOf processId ∧ entry.handle = handle :=
  ⟨mem_of_lookup h, key_of_lookup h⟩

theorem entriesOf_of_none (h : r.table processId = none) : r.entriesOf processId = [] := by
  rw [entriesOf, h]

theorem entriesOf_updateEntries_self (h : (r.table processId).isSome) :
    (r.updateEntries processId f).entriesOf processId = f (r.entriesOf processId) := by
  obtain ⟨table, htable⟩ := isSome_iff_exists.1 h
  have hnew : (r.updateEntries processId f).table processId =
      some { table with entries := f table.entries } := by
    change lookup _ _ (adjust _ _ _ _) = _
    rw [lookup_adjust_self]
    · exact congrArg (Option.map _) htable
    · intro; rfl
  rw [entriesOf, entriesOf, hnew, htable]

/-- A process without a table has no entries to change. -/
theorem entriesOf_updateEntries (hf : f [] = []) :
    (r.updateEntries processId f).entriesOf processId = f (r.entriesOf processId) := by
  cases ht : r.table processId with
  | some => exact entriesOf_updateEntries_self (by rw [ht]; rfl)
  | none =>
    have hsame : r.updateEntries processId f = r := by
      unfold updateEntries
      rw [adjust_of_lookup_none ht]
    rw [hsame, entriesOf_of_none ht, hf]

theorem tables_updateEntries :
    (r.updateEntries processId f).tables.map (·.processId) = r.tables.map (·.processId) :=
  map_key_adjust fun _ => rfl

theorem entriesOf_updateEntries_ne (h : other ≠ processId) :
    (r.updateEntries processId f).entriesOf other = r.entriesOf other := by
  have hnew : (r.updateEntries processId f).table other = r.table other := lookup_adjust_ne (fun _ => rfl) h
  rw [entriesOf, entriesOf, hnew]

theorem updateEntries_updateEntries {g : List CapabilityEntry → List CapabilityEntry} :
    (r.updateEntries processId f).updateEntries processId g = r.updateEntries processId (g ∘ f) := by
  unfold updateEntries
  rw [adjust_adjust]
  · rfl
  · intro; rfl

@[simp] theorem entriesOf_setData : (r.setData reference d).entriesOf processId = r.entriesOf processId :=
  rfl

theorem data_setData_self : (r.setData reference d).data reference = (r.data reference).map fun _ => d := by
  change Option.map _ (lookup _ _ (adjust _ _ _ _)) = _
  rw [lookup_adjust_self, data, map_map, map_map]
  · rfl
  · intro; rfl

theorem data_setData_ne (h : reference' ≠ reference) :
    (r.setData reference d).data reference' = r.data reference' := by
  change Option.map _ (lookup _ _ (adjust _ _ _ _)) = _
  rw [lookup_adjust_ne _ h, data]
  intro; rfl

/-- The objects that are present. -/
theorem isSome_data : (r.data reference).isSome ↔ reference ∈ r.objects.map (·.reference) := by
  rw [data, isSome_map, lookup_isSome]

theorem jobState_eq_ok {state : Job.State} (h : r.jobState reference = .ok state) :
    r.data reference = some (.job state) := by
  simp only [jobState, run_eq_ok] at h
  obtain ⟨d, hd, h⟩ := h
  cases d with
  | job =>
    cases h
    exact hd
  | _ => simp at h

theorem references_setData :
    (r.setData reference d).objects.map (·.reference) = r.objects.map (·.reference) :=
  map_key_adjust fun _ => rfl

theorem isSome_setData {x : ObjectRef} : ((r.setData reference d).data x).isSome ↔ (r.data x).isSome := by
  rw [isSome_data, isSome_data, references_setData]

def objectIds (r : Registry) : List ℕ := (r.objects.map (·.reference)).map (·.id)

theorem objectIds_setData : (r.setData reference d).objectIds = r.objectIds :=
  congrArg (List.map _) references_setData

@[simp] theorem entriesOf_collectGarbage : (r.collectGarbage roots).entriesOf processId =
    r.entriesOf processId := rfl

theorem data_collectGarbage : (r.collectGarbage roots).data reference =
    if reference ∈ r.reachable roots then r.data reference else none := by
  change Option.map _ (lookup _ _ (List.filter _ _)) = _
  have h : lookup (·.reference) reference
      (r.objects.filter fun record => record.reference ∈ r.reachable roots) = _ :=
    lookup_filter fun reference => decide (reference ∈ r.reachable roots)
  rw [h]
  by_cases hr : reference ∈ r.reachable roots
  · simp [hr, data]
  · simp [hr]

end

end Registry

/-! ### The surroundings of the registry -/

/-- An object that the kernel keeps alive, with the number of reasons for it. -/
structure KernelCapabilityRoot where
  object : ObjectRef
  references : ℕ
  deriving DecidableEq

/-- What the process manager records of a process, as far as the calls read it. -/
structure Process where
  processId : ℕ
  parentProcessId : Option ℕ
  live : Bool
  job : Option ObjectRef
  deriving DecidableEq

/-- The thread of a process that executes a call. -/
structure ExecutionTarget where
  (processId thread : ℕ)
  deriving DecidableEq

structure ObjectWaitRegistration where
  object : ObjectRef
  requested : Bits
  key : ℕ
  deriving DecidableEq

inductive ObjectWaitReturn where
  | signals | index | waitSetEvent | eventPortEvent
  deriving DecidableEq

structure ObjectWaiter where
  registrations : List ObjectWaitRegistration
  returnKind : ObjectWaitReturn
  target : ExecutionTarget
  deadlineNs : ℕ
  deriving DecidableEq

/-- A value that a call copies to the memory of a process. -/
inductive UserValue where
  | bytes (bytes : List UInt8)
  | info (object : ObjectRef) (rights : Bits) (size : ℕ)
  | endpointPair (first second : ℕ)
  | messageInfo (senderProcessId byteCount transferredHandle : ℕ) (transferredRights : Bits)
  | messageInfoMany (senderProcessId byteCount handleCount : ℕ)
  | receivedHandle (handle : ℕ) (rights : Bits)
  | exit (record : Job.ExitRecord)
  deriving DecidableEq

structure UserWrite where
  (processId address : ℕ)
  value : UserValue
  deriving DecidableEq

inductive BlockDeviceAccess where
  | readOnly | writable
  deriving DecidableEq

/-- A partition that the kernel serves, with the endpoint on which it takes requests. -/
structure BlockDevice where
  partitionIndex : ℕ
  access : BlockDeviceAccess
  endpoint : Option ObjectRef
  online : Bool
  /-- The endpoints that calls have made for the device and not yet given to it. -/
  opened : List ObjectRef
  deriving DecidableEq

def BlockDevice.key (device : BlockDevice) : ℕ × BlockDeviceAccess := (device.partitionIndex, device.access)

/-- What the file system proxies of the kernel make for themselves. -/
inductive KernelObject where
  | replyEndpoint (id : ℕ)
  | bulkBuffer (id : ℕ)
  deriving DecidableEq

/-- The capability on its own object that a proxy puts into a request. -/
def KernelObject.capability : KernelObject → TransferredCapability
  | .replyEndpoint id => ⟨⟨id, .endpoint⟩, Right.send⟩
  | .bulkBuffer id => ⟨⟨id, .sharedMemory⟩, Right.read ||| Right.write⟩

/-- The registry and what the calls use beside it. -/
structure System where
  registry : Registry
  roots : List KernelCapabilityRoot
  devices : List BlockDevice
  kernelObjects : List KernelObject
  processes : List Process
  waiters : List ObjectWaiter
  now : ℕ
  /-- What was put into the registers of the executions that were woken, oldest first. -/
  results : List (ExecutionTarget × Except Errno ℕ)
  /-- The events that were taken from event ports, oldest first. -/
  popped : List (ObjectRef × EventPort.Event)
  /-- What was copied to the memory of processes, oldest first. -/
  writes : List UserWrite

namespace System

variable (s : System)

def rootObjects : List ObjectRef := s.roots.map (·.object)

/-- The kernel keeps an object alive, for one more reason. -/
def kernelCapabilityRootAdd (object : ObjectRef) : System :=
  if object ∈ s.rootObjects then
    { s with
      roots := Keyed.adjust (·.object) object
        (fun root => { root with references := root.references + 1 }) s.roots }
  else { s with roots := s.roots ++ [⟨object, 1⟩] }

/-- The kernel keeps an object alive, for one reason less. -/
def kernelCapabilityRootRemove (object : ObjectRef) : System :=
  match Keyed.lookup (·.object) object s.roots with
  | none => s
  | some root =>
    if 1 < root.references then
      { s with
        roots := Keyed.adjust (·.object) object
          (fun root => { root with references := root.references - 1 }) s.roots }
    else { s with roots := s.roots.eraseP fun root => root.object = object }

def collectGarbage : System :=
  { s with registry := s.registry.collectGarbage s.rootObjects }

end System

/-! ### Executions that wait -/

/-- The result of a wait that carries a key and its signals: the signals are the low byte. -/
def packEvent (key : ℕ) (signals : Bits) : Option ℕ :=
  if maxKey < key ∨ signals = 0 ∨ ¬ Within signals 0xff then none
  else some (key * 2 ^ 8 + signals.toNat)

/-- The first request that is met, by its position, with the signals that meet it. -/
def Registry.firstSatisfiedObjectWait (r : Registry) :
    List ObjectWaitRegistration → ℕ → Outcome Errno (Option (ℕ × Bits))
  | [], _ => .ok none
  | registration :: rest, index => do
    let current ← r.signalState registration.object
    let asserted := current &&& registration.requested
    if asserted ≠ 0 then return some (index, asserted)
    else r.firstSatisfiedObjectWait rest (index + 1)

/-- The number of an error that a call returns. -/
def faultErrno : Fault Errno → Errno
  | .err e => e
  | .trap => .io

/-- What a satisfied request returns. -/
def satisfiedResult (waiter : ObjectWaiter) (index : ℕ) (asserted : Bits) : Except Errno ℕ :=
  match waiter.returnKind with
  | .signals => .ok asserted.toNat
  | .index => .ok index
  | .waitSetEvent | .eventPortEvent =>
    match (waiter.registrations[index]?).bind fun r => packEvent r.key asserted with
    | some result => .ok result
    | none => .error .io

namespace System

variable (s : System)

/-- Takes the oldest event from a port. -/
def popEvent (port : ObjectRef) (state : EventPort.State) : System × Option EventPort.Event :=
  match state.popEvent with
  | none => (s, none)
  | some (event, state') =>
    ({ s with
      registry := s.registry.setData port (.eventPort state')
      popped := s.popped ++ [(port, event)] }, some event)

/-- What the waiting execution would be given now; nothing when its request is not met.  A wait on
an event port takes the oldest event. -/
def objectWaiterResult (waiter : ObjectWaiter) : System × Except Errno (Option ℕ) :=
  match waiter.returnKind with
  | .eventPortEvent =>
    match waiter.registrations with
    | [] => (s, .error .io)
    | registration :: _ =>
      match s.registry.data registration.object with
      | none => (s, .error .io)
      | some (.eventPort state) =>
        match s.popEvent registration.object state with
        | (s', none) => (s', .ok none)
        | (s', some event) =>
          match packEvent event.key event.signals with
          | some result => (s', .ok (some result))
          | none => (s', .error .io)
      | some _ => (s, .error .invalidArgument)
  | .signals | .index | .waitSetEvent =>
    match s.registry.firstSatisfiedObjectWait waiter.registrations 0 with
    | .error e => (s, .error (faultErrno e))
    | .ok none => (s, .ok none)
    | .ok (some (index, asserted)) => (s, (satisfiedResult waiter index asserted).map some)

/-- What a waiting execution is given after the event ports were refreshed; an error of the refresh
goes to everybody. -/
def wakeResult (refreshError : Option Errno) (s : System) (waiter : ObjectWaiter) :
    System × Except Errno (Option ℕ) :=
  match refreshError with
  | some e => (s, .error e)
  | none => s.objectWaiterResult waiter

/-- The system after an execution was woken with a result. -/
def finish (target : ExecutionTarget) (result : Except Errno ℕ) : System :=
  { s with results := s.results ++ [(target, result)] }

/-- The pass over the waiting executions.  Returns those that go on waiting. -/
def wakeFrom (refreshError : Option Errno) : List ObjectWaiter → System → System × List ObjectWaiter
  | [], s => (s, [])
  | waiter :: rest, s =>
    match wakeResult refreshError s waiter with
    | (s', .ok none) =>
      let (s'', waiting) := wakeFrom refreshError rest s'
      (s'', waiter :: waiting)
    | (s', .ok (some value)) => wakeFrom refreshError rest (s'.finish waiter.target (.ok value))
    | (s', .error e) => wakeFrom refreshError rest (s'.finish waiter.target (.error e))

/-- The event ports look at their targets, and the executions whose request is met are woken. -/
def wakeSatisfiedObjectWaiters : System :=
  let (registry, refreshError) := s.registry.refreshEventPorts
  let (s', waiting) := wakeFrom refreshError s.waiters { s with registry := registry }
  { s' with waiters := waiting }

/-- The endpoints whose other side is gone. -/
def peerClosedEndpointObjects : List ObjectRef :=
  s.registry.objects.filterMap fun record =>
    match record.data with
    | .endpoint ⟨_, .connected peer⟩ =>
      if s.registry.data peer = none then some record.reference else none
    | _ => none

/-- Wakes once for every endpoint whose other side is gone. -/
def wakePeerClosed : System :=
  s.peerClosedEndpointObjects.foldl (fun s _ => s.wakeSatisfiedObjectWaiters) s

end System

end Kernel
