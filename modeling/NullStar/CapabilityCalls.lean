/-
**The capability calls.**

Each call reads the registry, rejects what it must reject, and then changes it.  A call that fails
keeps the changes it has made so far; most failures come before the first change, but a table that
was added for a new entry stays, and a failed creation is followed by a collection.

The checks that stand at the start of many calls are functions of the registry here, in the order
in which the calls make them.  Calls that look up an object, check one right and its kind and then
run one operation of the object are instances of `withObject`; those that create an object
and hand it to the caller are instances of `createWith`.

* `insertEntry`, `insertEntries`, `insertEntryAt` — new table entries;
* `createObject`, `createEndpointPair` — new objects;
* `endpointSendWithDisposition`, `endpointSendMoveMany`, `endpointReceive`,
  `endpointReceiveMany` — messages;
* `jobCreateChild`, `jobRetire`, `jobAssign`, `jobTryWait` — jobs;
* `objectWaitOne`, `objectWaitMany`, `waitSetWait`, `eventPortWait` —
  waiting.
-/

import NullStar.Machine
import NullStar.Registry

set_option autoImplicit false

namespace Kernel

open Rust Hoare

/-! ### Calls and the memory of processes -/

/-- A call: it changes the system and returns a value or fails. -/
abbrev Syscall := EStateM (Fault Errno) System

/-- A computation that does not look at the system. -/
def check {α : Type} (x : Outcome Errno α) : Syscall α := fun s =>
  match x with
  | .ok a => .ok a s
  | .error e => .error e s

/-- A computation that looks at the system and does not change it. -/
def read {α : Type} (f : System → Outcome Errno α) : Syscall α := fun s => check (f s) s

def modifyRegistry (f : Registry → Registry) : Syscall Unit :=
  modify fun s => { s with registry := f s.registry }

variable (processId : ℕ)

/-- Copies a value to the memory of a process. -/
def copyOut (address : ℕ) (value : UserValue) : Syscall Unit :=
  modify fun s => { s with writes := s.writes ++ [⟨processId, address, value⟩] }

/-! ### Rules for calls

Each rule takes one step of a call from a known system. -/

section Rules

variable {α β : Type} {s : System} {Q : β → System → Prop} {E : Fault Errno → System → Prop}

theorem triple_check_bind {x : Outcome Errno α} {f : α → Syscall β}
    (hok : ∀ a, x = .ok a → Triple (· = s) (f a) Q E) (herr : ∀ e, x = .error e → E e s) :
    Triple (· = s) (check x >>= f) Q E := by
  rintro _ rfl
  cases hx : x with
  | ok a => exact hok a hx _ rfl
  | error e => exact herr e hx

theorem triple_read_bind {x : System → Outcome Errno α} {f : α → Syscall β}
    (hok : ∀ a, x s = .ok a → Triple (· = s) (f a) Q E) (herr : ∀ e, x s = .error e → E e s) :
    Triple (· = s) (read x >>= f) Q E := by
  rintro _ rfl
  exact triple_check_bind hok herr _ rfl

theorem triple_modify_bind {g : System → System} {f : PUnit → Syscall β}
    (h : Triple (· = g s) (f ⟨⟩) Q E) : Triple (· = s) (modify g >>= f) Q E := by
  rintro _ rfl
  exact h _ rfl

theorem triple_modifyRegistry_bind {g : Registry → Registry} {f : Unit → Syscall β}
    (h : Triple (· = { s with registry := g s.registry }) (f ()) Q E) :
    Triple (· = s) (modifyRegistry g >>= f) Q E := triple_modify_bind h

theorem triple_copyOut_bind {processId address : ℕ} {value : UserValue} {f : Unit → Syscall β}
    (h : Triple (· = { s with writes := s.writes ++ [⟨processId, address, value⟩] }) (f ()) Q E) :
    Triple (· = s) (copyOut processId address value >>= f) Q E := triple_modify_bind h

theorem triple_get_bind {f : System → Syscall β} (h : Triple (· = s) (f s) Q E) :
    Triple (· = s) (get >>= f) Q E := by
  rintro _ rfl
  exact h _ rfl

theorem triple_set_bind {s' : System} {f : PUnit → Syscall β}
    (h : Triple (· = s') (f ⟨⟩) Q E) : Triple (· = s) (set s' >>= f) Q E := by
  rintro _ rfl
  exact h _ rfl

theorem triple_return {b : β} (h : Q b s) : Triple (· = s) (pure b : Syscall β) Q E := by
  rintro _ rfl
  exact h

theorem triple_check {x : Outcome Errno β} (hok : ∀ b, x = .ok b → Q b s)
    (herr : ∀ e, x = .error e → E e s) : Triple (· = s) (check x) Q E := by
  rintro _ rfl
  cases hx : x with
  | ok b => exact hok b hx
  | error e => exact herr e hx

theorem triple_read {x : System → Outcome Errno β} (hok : ∀ b, x s = .ok b → Q b s)
    (herr : ∀ e, x s = .error e → E e s) : Triple (· = s) (read x) Q E := by
  rintro _ rfl
  exact triple_check hok herr _ rfl

theorem triple_modify {g : System → System} {Q : PUnit → System → Prop} (h : Q ⟨⟩ (g s)) :
    Triple (· = s) (modify g : Syscall PUnit) Q E := by
  rintro _ rfl
  exact h

/-- One call after another: the second starts where the first ended. -/
theorem triple_bind {x : Syscall α} {f : α → Syscall β} {R : α → System → Prop}
    (hx : Triple (· = s) x R E) (hf : ∀ a s', R a s' → Triple (· = s') (f a) Q E) :
    Triple (· = s) (x >>= f) Q E :=
  hx.bind fun a s' hs' => hf a s' hs' s' rfl

end Rules

/-- The memory of the processes: which ranges a process may use, and the bytes in it. -/
structure UserMemory where
  allows : ℕ → ℕ → ℕ → Bool → Bool
  load : ℕ → ℕ → UInt8

variable (m : UserMemory)

namespace UserMemory

def bytes (processId address length : ℕ) : List UInt8 :=
  (List.range length).map fun i => m.load processId (address + i)

def word (processId address : ℕ) : ℕ := Bytes.ofLe (m.bytes processId address 8)

/-- An array of pairs of words. -/
def pairs (processId address count : ℕ) : List (ℕ × Bits) :=
  (List.range count).map fun i =>
    (m.word processId (address + 16 * i), .ofNat 64 (m.word processId (address + 16 * i + 8)))

end UserMemory

section

variable (processId address length : ℕ)

def capabilityUserLength (maximum : ℕ) : Outcome Errno ℕ := do
  rejectIf (maximum < length) .argumentTooLarge
  return length

def capabilityUserRange (writable : Bool) : Bool :=
  length = 0 ∨ m.allows processId address length writable

def capabilityReadMessage : Outcome Errno (List UInt8) := do
  let length ← capabilityUserLength length maxIpcMessageBytes
  rejectIf (¬ capabilityUserRange m processId address length false) .badAddress
  return m.bytes processId address length

/-- Copies a value of the given size to a buffer of the caller. -/
def platformWriteValue (required : ℕ) (value : UserValue) : Syscall ℕ := do
  check (rejectIf (length < required) .range)
  check (rejectIf (¬ m.allows processId address required true) .badAddress)
  copyOut processId address value
  return 0

end

/-! ### Rights -/

def capabilityHasRight (entry : CapabilityEntry) (right : Bits) : Outcome Errno Unit :=
  rejectIf (entry.rights &&& right ≠ right) .permission

/-- The rights can be passed on from the source. -/
def checkNarrowing (rights : Bits) (source : CapabilityEntry) : Outcome Errno Unit :=
  rejectIf (rights = 0 ∨ ¬ Within rights source.rights ∨
    ¬ Within rights (capabilityAllowedRights source.object.kind)) .permission

namespace Registry

variable (r : Registry) (processId handle : ℕ) (right : Bits)

/-- The entry of a handle that carries the right. -/
def entryWithRight : Outcome Errno CapabilityEntry := do
  let entry ← okOr (r.entry processId handle) .badFileDescriptor
  capabilityHasRight entry right
  return entry

/-- The entry of a handle that carries the right and names an object of the kind. -/
def authorize (kind : ObjectKind) : Outcome Errno CapabilityEntry := do
  let entry ← r.entryWithRight processId handle right
  rejectIf (entry.object.kind ≠ kind) .invalidArgument
  return entry

/-- The source of a copy with fewer rights. -/
def narrowedSource (rights : Bits) : Outcome Errno CapabilityEntry := do
  let source ← r.entryWithRight processId handle right
  checkNarrowing rights source
  return source

/-- The rights are a proper set for the object, and the object exists. -/
def checkEntry (capability : TransferredCapability) : Outcome Errno Unit := do
  rejectIf (capability.rights = 0 ∨
    ¬ Within capability.rights (capabilityAllowedRights capability.object.kind)) .invalidArgument
  rejectIf (r.data capability.object = none) .noEntry

end Registry

/-! ### Table entries -/

def ensureTable : Syscall Unit := do
  let s ← get
  if (s.registry.table processId).isSome then return ()
  else
    check (rejectIf (maxProcessSlots ≤ s.registry.tables.length) .noSpace)
    modifyRegistry fun r => { r with tables := r.tables ++ [⟨processId, []⟩] }

/-- Takes generation numbers; none is taken twice. -/
def takeHandleGenerations (count : ℕ) : Syscall (List ℕ) := do
  if count = 0 then return []
  else
    let start := (← get).registry.nextHandleGeneration
    check (rejectIf (start = 0) .noSpace)
    let last := start + (count - 1)
    check (rejectIf (2 ^ 32 ≤ last) .noSpace)
    modifyRegistry fun r =>
      { r with nextHandleGeneration := if last + 1 < 2 ^ 32 then last + 1 else 0 }
    return (List.range count).map (start + ·)

variable (handle : ℕ)

/-- Adds an entry under the given handle. -/
def pushEntry (capability : TransferredCapability) : Syscall Unit :=
  modifyRegistry fun r => r.updateEntries processId
    (· ++ [⟨handle, capability.object, capability.rights⟩])

/-- The slots of a table, all of them free when there is none. -/
def Registry.freeSlots (r : Registry) (processId count : ℕ) : List ℕ :=
  match r.table processId with
  | some table => table.freeSlots count
  | none => []

variable (object : ObjectRef)

def insertEntry (rights : Bits) : Syscall ℕ := do
  read fun s => s.registry.checkEntry ⟨object, rights⟩
  ensureTable processId
  read fun s =>
    rejectIf (maxCapabilitiesPerProcess ≤ (s.registry.entriesOf processId).length) .noSpace
  let slot ← read fun s => okOr (s.registry.freeSlots processId 1).head? .noSpace
  let generations ← takeHandleGenerations 1
  let handle ← check (okOr (capabilityHandle slot (generations.headD 0)) .noSpace)
  pushEntry processId handle ⟨object, rights⟩
  return handle

/-- Adds an entry in the slot that the caller asks for, or in any when it asks for none. -/
def insertEntryAt (rights : Bits) (requestedSlot : ℕ) : Syscall ℕ := do
  if requestedSlot = invalidHandle then insertEntry processId object rights
  else
    read fun s => s.registry.checkEntry ⟨object, rights⟩
    check (rejectIf (maxCapabilitiesPerProcess < requestedSlot) .invalidArgument)
    ensureTable processId
    read fun s =>
      rejectIf (maxCapabilitiesPerProcess ≤ (s.registry.entriesOf processId).length) .noSpace
    read fun s =>
      rejectIf ((s.registry.entriesOf processId).any fun entry =>
        capabilityHandleSlot entry.handle = some requestedSlot) .noSpace
    let generations ← takeHandleGenerations 1
    let handle ← check (okOr (capabilityHandle requestedSlot (generations.headD 0)) .noSpace)
    pushEntry processId handle ⟨object, rights⟩
    return handle

def removeEntry (missing : Errno) : Syscall Unit := do
  read fun s => rejectIf (s.registry.entry processId handle = none) missing
  modifyRegistry fun r => r.updateEntries processId (·.eraseP fun entry => entry.handle = handle)

/-- Removes several entries, or none when a handle is missing or occurs twice. -/
def removeEntries (handles : List ℕ) : Syscall Unit := do
  read fun s => rejectIf (¬ handles.Nodup ∨
    ¬ ∀ handle ∈ handles, handle ∈ (s.registry.entriesOf processId).map (·.handle)) .io
  modifyRegistry fun r => r.updateEntries processId
    (·.filter fun entry => entry.handle ∉ handles)

def capabilityHandles : List ℕ → List ℕ → Option (List ℕ)
  | slot :: slots, generation :: generations => do
    let handle ← capabilityHandle slot generation
    let handles ← capabilityHandles slots generations
    return handle :: handles
  | _, _ => some []

/-- The slots of as many new entries as the process has room for. -/
def Registry.slotsFor (r : Registry) (processId count : ℕ) : Outcome Errno (List ℕ) := do
  rejectIf (maxCapabilitiesPerProcess < (r.entriesOf processId).length + count) .noSpace
  let slots := r.freeSlots processId count
  rejectIf (slots.length ≠ count) .noSpace
  return slots

/-- Adds several entries, or none. -/
def insertEntries (capabilities : List TransferredCapability) : Syscall (List ℕ) := do
  read fun s => each s.registry.checkEntry capabilities
  ensureTable processId
  let slots ← read fun s => s.registry.slotsFor processId capabilities.length
  let generations ← takeHandleGenerations capabilities.length
  let handles ← check (okOr (capabilityHandles slots generations) .noSpace)
  modifyRegistry fun r => r.updateEntries processId
    (· ++ (handles.zip capabilities).map fun (handle, capability) =>
      ⟨handle, capability.object, capability.rights⟩)
  return handles

/-! ### New objects -/

def createObject (kind : ObjectKind) (data : ObjectData) : Syscall ObjectRef := do
  modify System.collectGarbage
  read fun s => rejectIf (kind.limit ≤ s.registry.objectKindCount kind) .noSpace
  let objectId := (← get).registry.nextObjectId
  check (rejectIf (2 ^ 64 ≤ objectId + 1) .noSpace)
  modifyRegistry fun r =>
    { r with nextObjectId := objectId + 1, objects := r.objects ++ [⟨⟨objectId, kind⟩, data⟩] }
  return ⟨objectId, kind⟩

/-- Creates an object and gives it to the caller. -/
def createWithRights (rights : Bits) (kind : ObjectKind) (data : ObjectData) : Syscall (ObjectRef × ℕ) := do
  let object ← createObject kind data
  let handle ← onError System.collectGarbage (insertEntry processId object rights)
  return (object, handle)

/-- Creates an object and gives it to the caller with all rights of its kind. -/
def createWith (kind : ObjectKind) (data : ObjectData) : Syscall ℕ :=
  return (← createWithRights processId (capabilityAllowedRights kind) kind data).2

def createEndpointPair : Syscall (ℕ × ℕ) := do
  modify System.collectGarbage
  read fun s => rejectIf
    (ObjectKind.limit .endpoint < s.registry.objectKindCount .endpoint + 2) .noSpace
  ensureTable processId
  let slots ← read fun s => s.registry.slotsFor processId 2
  let generations ← takeHandleGenerations 2
  let handles ← check (okOr (capabilityHandles slots generations) .noSpace)
  let firstId := (← get).registry.nextObjectId
  check (rejectIf (2 ^ 64 ≤ firstId + 2) .noSpace)
  let first : ObjectRef := ⟨firstId, .endpoint⟩
  let second : ObjectRef := ⟨firstId + 1, .endpoint⟩
  modifyRegistry fun r =>
    { r with
      nextObjectId := firstId + 2
      objects := r.objects ++
        [⟨first, .endpoint ⟨[], .connected second⟩⟩, ⟨second, .endpoint ⟨[], .connected first⟩⟩] }
  pushEntry processId (handles.getD 0 0) ⟨first, capabilityAllowedRights .endpoint⟩
  pushEntry processId (handles.getD 1 0) ⟨second, capabilityAllowedRights .endpoint⟩
  return (handles.getD 0 0, handles.getD 1 0)

def endpointCreate : Syscall ℕ :=
  createWith processId .endpoint (.endpoint ⟨[], .loopback⟩)

def notificationCreate : Syscall ℕ :=
  createWith processId .notification (.notification 0)

def jobCreate : Syscall ℕ :=
  createWith processId .job (.job (.new maxProcessSlots maxJobObjects))

def waitSetCreate : Syscall ℕ :=
  createWith processId .waitSet (.waitSet (.new maxWaitSetRegistrations maxKey))

def eventPortCreate : Syscall ℕ :=
  createWith processId .eventPort
    (.eventPort (.new maxEventPortRegistrations maxEventPortEvents maxKey))

def timerCreate : Syscall ℕ := createWith processId .timer (.timer .new)

def eventCreate : Syscall ℕ := createWith processId .event (.event .new)

def sharedMemoryCreate (length : ℕ) : Syscall ℕ := do
  let length ← check (capabilityUserLength length maxSharedMemoryBytes)
  check (rejectIf (length = 0) .invalidArgument)
  modify System.collectGarbage
  read fun s => rejectIf
    (maxSharedMemoryTotalBytes < s.registry.sharedMemoryBytes + length) .noSpace
  createWith processId .sharedMemory (.sharedMemory (List.replicate length 0))

/-- The first process. -/
def initProcessId : ℕ := 1

def openKernelEarlyLogReader : Syscall ℕ := do
  check (rejectIf (processId ≠ initProcessId) .permission)
  createWith processId .kernelEarlyLogReader .kernelEarlyLogReader

def System.adjustDevice (s : System) (key : ℕ × BlockDeviceAccess) (f : BlockDevice → BlockDevice) : System :=
  { s with devices := Keyed.adjust BlockDevice.key key f s.devices }

/-- The endpoint of a block device, if it has one already. -/
def System.blockDeviceEndpoint (s : System) (partitionIndex : ℕ) (access : BlockDeviceAccess) :
    Outcome Errno (Option ObjectRef) :=
  match Keyed.lookup BlockDevice.key (partitionIndex, access) s.devices with
  | some device => do
    rejectIf (device.online = false) .io
    return device.endpoint
  | none =>
    if access = .writable ∧ s.devices.any (·.partitionIndex = partitionIndex) then fail .permission
    else fail .noEntry

def blockDeviceRights : Bits := Right.send ||| Right.transfer

/-- Gives the first process the endpoint of a block device.  A new endpoint becomes a root, and that of
the device, only after the call has released the registry. -/
def openBlockDeviceEndpoint (partitionIndex : ℕ) (access : BlockDeviceAccess) : Syscall ℕ := do
  check (rejectIf (processId ≠ initProcessId) .permission)
  check (rejectIf (2 ^ 32 ≤ partitionIndex) .invalidArgument)
  match ← read (·.blockDeviceEndpoint partitionIndex access) with
  | some endpoint => insertEntry processId endpoint blockDeviceRights
  | none =>
    let (endpoint, handle) ← createWithRights processId blockDeviceRights .endpoint
      (.endpoint ⟨[], .loopback⟩)
    modify (·.adjustDevice (partitionIndex, access) fun device =>
      { device with opened := device.opened ++ [endpoint] })
    return handle

def endpointCreatePair (processId address length : ℕ) : Syscall ℕ := do
  check (rejectIf (length < 16) .range)
  check (rejectIf (¬ m.allows processId address 16 true) .badAddress)
  let (first, second) ← createEndpointPair processId
  copyOut processId address (.endpointPair first second)
  return 0

/-! ### Capabilities -/

def capabilityDuplicate (rights : Bits) : Syscall ℕ := do
  let source ← read fun s => s.registry.narrowedSource processId handle Right.duplicate rights
  insertEntry processId source.object rights

def capabilityReplace (rights : Bits) : Syscall ℕ := do
  let _ ← read fun s => s.registry.narrowedSource processId handle Right.duplicate rights
  modifyRegistry fun r => r.updateEntries processId
    (Keyed.adjust (·.handle) handle fun entry => { entry with rights := rights })
  return handle

def capabilityClose : Syscall ℕ := do
  check (rejectIf (handle = invalidHandle) .badFileDescriptor)
  removeEntry processId handle .badFileDescriptor
  modify System.collectGarbage
  modify System.wakePeerClosed
  return 0

def capabilityHandleAtSlot (slot : ℕ) : Syscall ℕ := do
  check (rejectIf (slot = 0 ∨ maxCapabilitiesPerProcess < slot) .invalidArgument)
  read fun s =>
    okOr ((s.registry.table processId).bind fun table => table.handleAtSlot slot) .noEntry

/-- The number that the information about an object reports for its state. -/
def Registry.objectSize (r : Registry) (object : ObjectRef) : ObjectData → Outcome Errno ℕ
  | .endpoint endpoint => .ok endpoint.queue.length
  | .notification pending => .ok pending
  | .sharedMemory bytes => .ok bytes.length
  | .kernelEarlyLogReader => .ok 64
  | .job _ => r.jobSubtreeActiveMembers object
  | .waitSet state => .ok state.registrations.length
  | .eventPort state => .ok state.events.length
  | .timer state => .ok (if state.deadlineNs.isSome then 1 else 0)
  | .event state => .ok (if state.signaled then 1 else 0)

def capabilityInfo (processId handle address length : ℕ) : Syscall ℕ := do
  let (entry, size) ← read fun s => do
    let entry ← okOr (s.registry.entry processId handle) .badFileDescriptor
    let data ← okOr (s.registry.data entry.object) .io
    let size ← s.registry.objectSize entry.object data
    return (entry, size)
  platformWriteValue m processId address length 32 (.info entry.object entry.rights size)

def capabilitySignalState : Syscall ℕ :=
  read fun s => do
    let entry ← s.registry.entryWithRight processId handle Right.wait
    let signals ← s.registry.signalState entry.object
    return signals.toNat

/-- The call of a process that gives a capability to one of its children. -/
def capabilityGrantChild (ownerProcessId childProcessId sourceHandle : ℕ) (rights : Bits)
    (requestedChildSlot : ℕ) : Syscall ℕ := do
  read fun s => rejectIf (¬ s.processes.any fun process => process.processId = childProcessId ∧
    process.parentProcessId = some ownerProcessId ∧ process.live) .noChild
  let source ← read fun s =>
    s.registry.narrowedSource ownerProcessId sourceHandle Right.transfer rights
  insertEntryAt childProcessId source.object rights requestedChildSlot

/-! ### Calls on one object -/

/-- Looks up an object for which the caller has a right, and runs one operation on its state. -/
def withObject (right : Bits) (kind : ObjectKind)
    (operation : ObjectData → Outcome Errno (ℕ × ObjectData)) : Syscall ℕ := do
  let (object, result, data) ← read fun s => do
    let entry ← s.registry.authorize processId handle right kind
    let data ← okOr (s.registry.data entry.object) .io
    let (result, data) ← operation data
    return (entry.object, result, data)
  modifyRegistry (·.setData object data)
  return result

def notificationSignal (amount : ℕ) : Syscall ℕ := do
  check (rejectIf (amount = 0) .invalidArgument)
  withObject processId handle Right.signal .notification fun
    | .notification pending => do
      let pending ← okOr (checkedAdd 64 pending amount) .range
      return (pending, .notification pending)
    | _ => fail .invalidArgument

def notificationTryWait : Syscall ℕ :=
  withObject processId handle Right.wait .notification fun
    | .notification pending => do
      rejectIf (pending = 0) .tryAgain
      return (pending - 1, .notification (pending - 1))
    | _ => fail .invalidArgument

def eventSet : Syscall ℕ :=
  withObject processId handle Right.signal .event fun
    | .event state => return (0, .event state.set)
    | _ => fail .invalidArgument

def eventReset : Syscall ℕ :=
  withObject processId handle Right.signal .event fun
    | .event state => return (0, .event state.reset)
    | _ => fail .invalidArgument

def timerCancel : Syscall ℕ :=
  withObject processId handle Right.manage .timer fun
    | .timer state => return (0, .timer state.cancel)
    | _ => fail .invalidArgument

def jobSetProcessLimit (limit : ℕ) : Syscall ℕ :=
  withObject processId handle Right.manage .job fun
    | .job state => do
      let state ← mapErr (fun
        | .outOfRange => Errno.range
        | .relaxation | .retired => .permission) (state.setProcessLimit limit)
      return (limit, .job state)
    | _ => fail .invalidArgument

def sharedMemoryWrite (processId handle offset address length : ℕ) : Syscall ℕ := do
  let length ← check (capabilityUserLength length maxSharedMemoryBytes)
  check (rejectIf (¬ capabilityUserRange m processId address length false) .badAddress)
  withObject processId handle Right.write .sharedMemory fun
    | .sharedMemory bytes => do
      rejectIf (bytes.length < offset + length) .range
      return (length, .sharedMemory
        (bytes.take offset ++ m.bytes processId address length ++ bytes.drop (offset + length)))
    | _ => fail .invalidArgument

/-- The timer is first canceled and the event ports look at it, so that arming it again is a new
edge for them. -/
def timerArm (deadlineNs : ℕ) : Syscall ℕ := do
  check (rejectIf (deadlineNs = 2 ^ 64 - 1) .invalidArgument)
  let object ← read fun s => do
    let entry ← s.registry.authorize processId handle Right.manage .timer
    match ← okOr (s.registry.data entry.object) .io with
    | .timer _ => return entry.object
    | _ => fail .invalidArgument
  modifyRegistry (·.setData object (.timer ⟨none, false⟩))
  let refreshError := (← get).registry.refreshEventPorts.2
  modifyRegistry (·.refreshEventPorts.1)
  match refreshError with
  | some e => check (fail e)
  | none =>
    let state ← read fun s => do
      match ← okOr (s.registry.data object) .io with
      | .timer state => okOr (state.arm deadlineNs s.now) .invalidArgument
      | _ => fail .invalidArgument
    modifyRegistry (·.setData object (.timer state))
    return 0

def sharedMemoryRead (processId handle offset address length : ℕ) : Syscall ℕ := do
  let length ← check (capabilityUserLength length maxSharedMemoryBytes)
  check (rejectIf (¬ capabilityUserRange m processId address length true) .badAddress)
  let source ← read fun s => do
    let entry ← s.registry.authorize processId handle Right.read .sharedMemory
    match ← okOr (s.registry.data entry.object) .io with
    | .sharedMemory bytes => do
      rejectIf (bytes.length < offset + length) .range
      return Bytes.slice bytes offset length
    | _ => fail .invalidArgument
  copyOut processId address (.bytes source)
  return source.length

def jobGetProcessLimit : Syscall ℕ :=
  read fun s => do
    let entry ← s.registry.authorize processId handle Right.wait .job
    let state ← s.registry.jobState entry.object
    return state.processLimit

/-! ### Registrations -/

/-- The signals of a request: some, and only known ones. -/
def checkRequested (requested : Bits) : Outcome Errno Unit :=
  rejectIf (requested = 0 ∨ ¬ Within requested Signal.all) .invalidArgument

/-- The object behind a handle that may be waited for, with the signals it supports. -/
def Registry.waitTarget (r : Registry) (processId handle : ℕ) (requested : Bits) :
    Outcome Errno ObjectRef := do
  let entry ← r.entryWithRight processId handle Right.wait
  rejectIf (¬ Within requested (capabilityObjectSupportedSignals entry.object.kind))
    .invalidArgument
  return entry.object

def waitSetAdd (waitSetHandle targetHandle : ℕ) (requested : Bits) (key : ℕ) : Syscall ℕ := do
  check (checkRequested requested)
  let (object, state) ← read fun s => do
    let entry ← s.registry.authorize processId waitSetHandle Right.manage .waitSet
    let target ← s.registry.waitTarget processId targetHandle requested
    match ← okOr (s.registry.data entry.object) .io with
    | .waitSet state => do
      let state ← mapErr (fun
        | .full => Errno.noSpace
        | .invalidTarget | .invalidSignals | .invalidKey | .duplicateKey => .invalidArgument)
        (state.add ⟨target, requested, key⟩)
      return (entry.object, state)
    | _ => fail .invalidArgument
  modifyRegistry (·.setData object (.waitSet state))
  return 0

def waitSetRemove (waitSetHandle key : ℕ) : Syscall ℕ := do
  let result ← withObject processId waitSetHandle Right.manage .waitSet fun
    | .waitSet state => do
      let state ← okOr (state.remove key) .noEntry
      return (0, .waitSet state)
    | _ => fail .invalidArgument
  modify System.collectGarbage
  return result

def eventPortAdd (eventPortHandle targetHandle : ℕ) (requested : Bits) (key : ℕ) : Syscall ℕ := do
  check (checkRequested requested)
  let (object, state) ← read fun s => do
    let entry ← s.registry.authorize processId eventPortHandle Right.manage .eventPort
    let targetEntry ← s.registry.entryWithRight processId targetHandle Right.wait
    let target := targetEntry.object
    rejectIf (target.kind = .eventPort) .invalidArgument
    rejectIf (¬ Within requested (capabilityObjectSupportedSignals target.kind)) .invalidArgument
    let current ← s.registry.signalState target
    match ← okOr (s.registry.data entry.object) .io with
    | .eventPort state => do
      let state ← mapErr (fun
        | .full | .eventQueueFull => Errno.noSpace
        | .invalidTarget | .invalidSignals | .invalidKey | .duplicateKey => .invalidArgument)
        (state.add target requested key current)
      return (entry.object, state)
    | _ => fail .invalidArgument
  modifyRegistry (·.setData object (.eventPort state))
  return 0

def eventPortRemove (eventPortHandle key : ℕ) : Syscall ℕ := do
  let result ← withObject processId eventPortHandle Right.manage .eventPort fun
    | .eventPort state => do
      let state ← okOr (state.remove key) .noEntry
      return (0, .eventPort state)
    | _ => fail .invalidArgument
  modify System.collectGarbage
  return result

/-! ### Messages -/

namespace Registry

variable (r : Registry) (endpoint : ObjectRef)

/-- Where a message sent through the endpoint goes. -/
def endpointDestination : Outcome Errno ObjectRef := do
  match ← okOr (r.data endpoint) .io with
  | .endpoint state =>
    let destination := match state.peer with
      | .loopback => endpoint
      | .connected peer => peer
    match ← okOr (r.data destination) .brokenPipe with
    | .endpoint _ => return destination
    | _ => fail .io
  | _ => fail .invalidArgument

/-- The destination of a message, when it has room for one more. -/
def openDestination : Outcome Errno ObjectRef := do
  let destination ← r.endpointDestination endpoint
  match ← okOr (r.data destination) .io with
  | .endpoint state => do
    rejectIf (maxEndpointMessages ≤ state.queue.length) .tryAgain
    return destination
  | _ => fail .invalidArgument

/-- The capability that a message of `endpoint_send` or `endpoint_send_move` carries. -/
def resolveTransfer (processId transferHandle : ℕ) (transferRights : Bits) (moveTransfer : Bool) :
    Outcome Errno (Option TransferredCapability) :=
  if transferHandle = invalidHandle then do
    rejectIf (transferRights ≠ 0 ∨ moveTransfer) .invalidArgument
    return none
  else do
    let source ← r.narrowedSource processId transferHandle Right.transfer transferRights
    return some ⟨source.object, transferRights⟩

/-- The capabilities that a message of `endpoint_send_move_many` carries, with their handles. -/
def resolveDispositions (r : Registry) (processId : ℕ) :
    List (ℕ × Bits) → List ℕ → Outcome Errno (List (ℕ × TransferredCapability))
  | [], _ => .ok []
  | (handle, rights) :: rest, seen => do
    rejectIf (handle = invalidHandle ∨ handle ∈ seen) .invalidArgument
    let source ← r.narrowedSource processId handle Right.transfer rights
    let transfers ← resolveDispositions r processId rest (seen ++ [handle])
    return (handle, ⟨source.object, rights⟩) :: transfers

def frontMessage : Outcome Errno EndpointMessage := do
  match ← okOr (r.data endpoint) .io with
  | .endpoint ⟨message :: _, _⟩ => return message
  | .endpoint ⟨[], .connected peer⟩ =>
    if r.data peer = none then fail .brokenPipe else fail .tryAgain
  | .endpoint ⟨[], .loopback⟩ => fail .tryAgain
  | _ => fail .invalidArgument

end Registry

def pushMessage (destination : ObjectRef) (message : EndpointMessage) : Syscall Unit := do
  let endpoint ← read fun s =>
    match s.registry.data destination with
    | some (.endpoint endpoint) => .ok endpoint
    | _ => fail .io
  modifyRegistry (·.setData destination
    (.endpoint { endpoint with queue := endpoint.queue ++ [message] }))

def popMessage : Syscall EndpointMessage := do
  let (message, endpoint) ← read fun s =>
    match s.registry.data object with
    | some (.endpoint ⟨message :: rest, peer⟩) => .ok (message, ⟨rest, peer⟩)
    | some (.endpoint ⟨[], _⟩) => trapped
    | _ => fail .io
  modifyRegistry (·.setData object (.endpoint endpoint))
  return message

def endpointSendWithDisposition (processId endpointHandle address length transferHandle : ℕ)
    (transferRights : Bits) (moveTransfer : Bool) : Syscall ℕ := do
  let bytes ← check (capabilityReadMessage m processId address length)
  let (destination, transfer) ← read fun s => do
    let entry ← s.registry.authorize processId endpointHandle Right.send .endpoint
    let transfer ←
      s.registry.resolveTransfer processId transferHandle transferRights moveTransfer
    let destination ← s.registry.openDestination entry.object
    return (destination, transfer)
  onlyIf moveTransfer (removeEntry processId transferHandle .io)
  pushMessage destination ⟨processId, bytes, transfer.toList⟩
  return 0

def endpointSend (processId endpointHandle address length transferHandle : ℕ) (transferRights : Bits) :
    Syscall ℕ :=
  endpointSendWithDisposition m processId endpointHandle address length transferHandle
    transferRights false

def endpointSendMove (processId endpointHandle address length transferHandle : ℕ)
    (transferRights : Bits) : Syscall ℕ :=
  endpointSendWithDisposition m processId endpointHandle address length transferHandle
    transferRights true

def endpointSendMoveMany
    (processId endpointHandle address length dispositionsAddress dispositionCount : ℕ) : Syscall ℕ := do
  let bytes ← check (capabilityReadMessage m processId address length)
  let count ← check (capabilityUserLength dispositionCount maxIpcMessageHandles)
  check (rejectIf (count = 0) .invalidArgument)
  check (rejectIf (¬ capabilityUserRange m processId dispositionsAddress (count * 16) false)
    .badAddress)
  let (destination, transfers) ← read fun s => do
    let entry ← s.registry.authorize processId endpointHandle Right.send .endpoint
    let transfers ←
      s.registry.resolveDispositions processId (m.pairs processId dispositionsAddress count) []
    let destination ← s.registry.openDestination entry.object
    return (destination, transfers)
  removeEntries processId (transfers.map (·.1))
  pushMessage destination ⟨processId, bytes, transfers.map (·.2)⟩
  return 0

def endpointReceive (processId endpointHandle bufferAddress bufferLength infoAddress : ℕ) : Syscall ℕ := do
  let bufferLength ← check (capabilityUserLength bufferLength maxIpcMessageBytes)
  check (rejectIf (¬ capabilityUserRange m processId bufferAddress bufferLength true ∨
    ¬ m.allows processId infoAddress 32 true) .badAddress)
  let (object, front) ← read fun s => do
    let entry ← s.registry.authorize processId endpointHandle Right.receive .endpoint
    let message ← s.registry.frontMessage entry.object
    rejectIf (1 < message.capabilities.length) .range
    rejectIf (bufferLength < message.bytes.length) .range
    return (entry.object, message)
  let handles ← insertEntries processId front.capabilities.head?.toList
  let message ← popMessage object
  onlyIf (message.bytes ≠ []) (copyOut processId bufferAddress (.bytes message.bytes))
  copyOut processId infoAddress (.messageInfo message.senderProcessId message.bytes.length
    (handles.headD invalidHandle) ((message.capabilities.head?.map (·.rights)).getD 0))
  modify System.collectGarbage
  return message.bytes.length

/-- Copies the handles of received capabilities to an array of the caller. -/
def copyHandles (processId address : ℕ) : List (ℕ × TransferredCapability) → Syscall Unit
  | [] => return ()
  | (handle, capability) :: rest => do
    copyOut processId address (.receivedHandle handle capability.rights)
    copyHandles processId (address + 16) rest

/-- The sizes of the message are written before it is known whether it fits. -/
def endpointReceiveMany
    (processId endpointHandle bufferAddress bufferLength handlesAddress handleCapacity
      infoAddress : ℕ) : Syscall ℕ := do
  let bufferLength ← check (capabilityUserLength bufferLength maxIpcMessageBytes)
  let handleCapacity ← check (capabilityUserLength handleCapacity maxIpcMessageHandles)
  check (rejectIf (¬ capabilityUserRange m processId bufferAddress bufferLength true ∨
    ¬ capabilityUserRange m processId handlesAddress (handleCapacity * 16) true ∨
    ¬ m.allows processId infoAddress 32 true) .badAddress)
  let (object, front) ← read fun s => do
    let entry ← s.registry.authorize processId endpointHandle Right.receive .endpoint
    let message ← s.registry.frontMessage entry.object
    return (entry.object, message)
  copyOut processId infoAddress (.messageInfoMany front.senderProcessId front.bytes.length
    front.capabilities.length)
  check (rejectIf (bufferLength < front.bytes.length ∨ handleCapacity < front.capabilities.length)
    .range)
  let handles ← insertEntries processId front.capabilities
  let message ← popMessage object
  onlyIf (message.bytes ≠ []) (copyOut processId bufferAddress (.bytes message.bytes))
  copyHandles processId handlesAddress (handles.zip message.capabilities)
  modify System.collectGarbage
  return message.bytes.length

/-! ### Jobs -/

variable (s : System)

/-- What happens when a new child cannot be given to the caller: its parent forgets it again. -/
def System.detachChild (parent child : ObjectRef) : System :=
  match s.registry.data parent with
  | some (.job state) =>
    let state := (state.removeChild child.id).getD state
    { s with registry := s.registry.setData parent (.job state) }
  | _ => s

def jobCreateChild (parentHandle : ℕ) : Syscall ℕ := do
  let (parent, childState) ← read fun s => do
    let entry ← s.registry.authorize processId parentHandle Right.manage .job
    let parentState ← s.registry.jobState entry.object
    let child ← mapErr (fun _ => Errno.invalidArgument)
      ((Job.State.new maxProcessSlots maxJobObjects).setParent entry.object.id)
    let child ← mapErr (fun _ => Errno.io) (child.setProcessLimit parentState.processLimit)
    return (entry.object, child)
  let child ← createObject .job (.job childState)
  onError System.collectGarbage do
    let state ← read fun s =>
      match s.registry.data parent with
      | some (.job state) => mapErr (fun
          | .invalidJob => Errno.invalidArgument
          | .full => .noSpace
          | .alreadyChild | .retired => .permission) (state.attachChild child.id)
      | _ => fail .invalidArgument
    modifyRegistry (·.setData parent (.job state))
  onError (fun s => (s.detachChild parent child).collectGarbage)
    (insertEntry processId child (capabilityAllowedRights .job))

def jobRetire : Syscall ℕ := do
  let (child, parent, childState) ← read fun s => do
    let entry ← s.registry.authorize processId handle Right.manage .job
    let childState ← s.registry.jobState entry.object
    let parentId ← mapErr (fun
      | .root => Errno.invalidArgument
      | .notEmpty => .tryAgain
      | .retired => .permission) childState.retirementParent
    let parentState ← s.registry.jobState ⟨parentId, .job⟩
    rejectIf (entry.object.id ∉ parentState.children) .io
    let (retiredParent, retired) ← mapErr (fun _ => Errno.io) childState.retire
    rejectIf (retiredParent ≠ parentId) .io
    return (entry.object, (⟨parentId, .job⟩ : ObjectRef), retired)
  modifyRegistry (·.setData child (.job childState))
  let parentState ← read fun s =>
    match s.registry.data parent with
    | some (.job state) => okOr (state.removeChild child.id) .io
    | _ => fail .io
  modifyRegistry (·.setData parent (.job parentState))
  modify System.collectGarbage
  return 0

variable (job : ObjectRef)

/-- Makes a process a member of a job; the kernel keeps the job alive as long as it is one. -/
def capabilityJobAddMember (processId : ℕ) : Syscall Unit := do
  let state ← read fun s => do
    let state ← s.registry.jobState job
    rejectIf state.retired .permission
    rejectIf (¬ (← s.registry.jobAdmitsProcess job)) .noSpace
    mapErr (fun
      | .invalidProcess => Errno.invalidArgument
      | .full => .noSpace
      | .alreadyMember | .retired => .permission) (state.assign processId)
  modifyRegistry (·.setData job (.job state))
  modify (·.kernelCapabilityRootAdd job)

/-- Removes a member of a job by one of the two operations for it. -/
def System.jobRemoveMember (operation : Job.State → Option Job.State) : Option System :=
  match s.registry.data job with
  | some (.job state) => (operation state).map fun state =>
    { s with registry := s.registry.setData job (.job state) }.kernelCapabilityRootRemove job
  | _ => none

def System.capabilityJobRemoveUnstarted (processId : ℕ) : System :=
  (s.jobRemoveMember job (·.removeUnstarted processId)).getD s

def System.capabilityJobRecordExit (processId status : ℕ) : System :=
  match s.jobRemoveMember job (·.complete ⟨processId, status⟩) with
  | some s => s.wakeSatisfiedObjectWaiters
  | none => s

/-- The live child of the caller that the calls about children look for. -/
def System.liveChild (processId childProcessId : ℕ) : Option Process :=
  s.processes.find? fun process => process.processId = childProcessId ∧
    process.parentProcessId = some processId ∧ process.live

def jobAssign (childProcessId : ℕ) : Syscall ℕ := do
  check (rejectIf (childProcessId = 0 ∨ childProcessId = processId) .invalidArgument)
  let job ← read fun s => do
    let entry ← s.registry.authorize processId handle Right.manage .job
    return entry.object
  let child ← read fun s => okOr (s.liveChild processId childProcessId) .noChild
  if child.job = some job then return childProcessId
  else
    check (rejectIf child.job.isSome .permission)
    capabilityJobAddMember job childProcessId
    let s ← get
    match Keyed.lookup (·.processId) childProcessId s.processes with
    | some ⟨_, parent, live, none⟩ =>
      if parent = some processId ∧ live then
        modify fun s => { s with
          processes := Keyed.adjust (·.processId) childProcessId
            (fun process => { process with job := some job }) s.processes }
        return childProcessId
      else
        modify (·.capabilityJobRemoveUnstarted job childProcessId)
        check (fail .noChild)
    | _ =>
      modify (·.capabilityJobRemoveUnstarted job childProcessId)
      check (fail .noChild)

/-- The first exit record in a list of jobs, and the registry without it. -/
def Registry.takeCompletion (r : Registry) :
    List ObjectRef → Outcome Errno (Option (Job.ExitRecord × Registry))
  | [] => .ok none
  | job :: rest => do
    let state ← r.jobState job
    match state.takeCompletion with
    | some (record, state') => return some (record, r.setData job (.job state'))
    | none => r.takeCompletion rest

def jobTryWait (processId handle address length : ℕ) : Syscall ℕ := do
  check (rejectIf (length ≠ 16) .invalidArgument)
  check (rejectIf (¬ m.allows processId address 16 true) .badAddress)
  let (record, registry) ← read fun s => do
    let entry ← s.registry.authorize processId handle Right.wait .job
    let jobs ← s.registry.jobSubtree entry.object
    match ← s.registry.takeCompletion jobs with
    | some result => return result
    | none =>
      let active ← s.registry.jobSubtreeActiveMembers entry.object
      if active = 0 then fail .noChild else fail .tryAgain
  modifyRegistry fun _ => registry
  copyOut processId address (.exit record)
  return 0

def Registry.jobMembers (r : Registry) : List ObjectRef → Outcome Errno (List ℕ)
  | [] => .ok []
  | job :: rest => do
    let state ← r.jobState job
    let members ← r.jobMembers rest
    return state.members ++ members

def System.endProcess (s : System) (id : ℕ) : System :=
  { s with processes :=
      Keyed.adjust (·.processId) id (fun process => { process with live := false }) s.processes }

/-- Ends a process, unless it is the caller or has ended before. -/
def terminateProcess (member : ℕ) : Syscall Bool := do
  match Keyed.lookup (·.processId) member (← get).processes with
  | some process =>
    if member = processId ∨ process.live = false then return false
    else
      modify (·.endProcess member)
      return true
  | none => return false

/-- Ends one process after the other, and counts those that it ends. -/
def terminateProcesses : List ℕ → Syscall ℕ
  | [] => return 0
  | member :: rest => do
    let ended ← terminateProcess processId member
    let count ← terminateProcesses rest
    return if ended then count + 1 else count

/-- Ends the members of a job and of all jobs below it, except for the caller itself.  Their exits
are recorded when they are reaped. -/
def jobTerminate : Syscall ℕ := do
  let members ← read fun s => do
    let entry ← s.registry.authorize processId handle Right.signal .job
    let jobs ← s.registry.jobSubtree entry.object
    s.registry.jobMembers jobs
  terminateProcesses processId members

/-! ### Waiting -/

variable (target : ExecutionTarget)

/-- A thread waits for one request at a time. -/
def forgetWaiter : Syscall Unit :=
  modify fun s => { s with waiters := s.waiters.filter fun w => w.target.thread ≠ target.thread }

variable (waiter : ObjectWaiter)

/-- The execution goes on waiting, unless its deadline has passed. -/
def blockUntil : Syscall (Option ℕ) := do
  read fun s => rejectIf (waiter.deadlineNs = 0 ∨
    (waiter.deadlineNs ≠ 2 ^ 64 - 1 ∧ waiter.deadlineNs ≤ s.now)) .timedOut
  modify fun s => { s with waiters := s.waiters ++ [waiter] }
  return none

def Registry.resolveObjectWaitRegistration (r : Registry) (processId handle : ℕ) (requested : Bits)
    (key : ℕ) : Outcome Errno ObjectWaitRegistration := do
  checkRequested requested
  let object ← r.waitTarget processId handle requested
  return ⟨object, requested, key⟩

/-- The requests of a list of handles, numbered from the given one. -/
def Registry.resolveObjectWaitRegistrations (r : Registry) (processId : ℕ) :
    List (ℕ × Bits) → ℕ → Outcome Errno (List ObjectWaitRegistration)
  | [], _ => .ok []
  | (handle, requested) :: rest, index => do
    let registration ← r.resolveObjectWaitRegistration processId handle requested index
    let registrations ← r.resolveObjectWaitRegistrations processId rest (index + 1)
    return registration :: registrations

/-- Returns what is met already, and waits otherwise.  The waits on objects and on wait sets end
like this. -/
def waitFor : Syscall (Option ℕ) := do
  match ← read fun s => s.registry.firstSatisfiedObjectWait waiter.registrations 0 with
  | some (index, asserted) =>
    match satisfiedResult waiter index asserted with
    | .ok result => return some result
    | .error e => check (fail e)
  | none => blockUntil waiter

/-- The value is missing when the execution waits. -/
def objectWaitOne (handle : ℕ) (requested : Bits) (deadlineNs : ℕ) : Syscall (Option ℕ) := do
  forgetWaiter target
  let registration ← read fun s =>
    s.registry.resolveObjectWaitRegistration target.processId handle requested 0
  waitFor ⟨[registration], .signals, target, deadlineNs⟩

def objectWaitMany (itemsAddress itemCount deadlineNs : ℕ) : Syscall (Option ℕ) := do
  check (rejectIf (itemCount = 0) .invalidArgument)
  check (rejectIf (maxObjectWaitItems < itemCount) .argumentTooLarge)
  check (rejectIf (¬ capabilityUserRange m target.processId itemsAddress (itemCount * 16) false)
    .badAddress)
  forgetWaiter target
  let registrations ← read fun s => s.registry.resolveObjectWaitRegistrations target.processId
    (m.pairs target.processId itemsAddress itemCount) 0
  waitFor ⟨registrations, .index, target, deadlineNs⟩

def waitSetWait (waitSetHandle deadlineNs : ℕ) : Syscall (Option ℕ) := do
  forgetWaiter target
  let registrations ← read fun s => do
    let entry ← s.registry.authorize target.processId waitSetHandle Right.wait .waitSet
    match ← okOr (s.registry.data entry.object) .io with
    | .waitSet state => do
      rejectIf state.registrations.isEmpty .invalidArgument
      return state.registrations.map fun r => (⟨r.target, r.requested, r.key⟩ : ObjectWaitRegistration)
    | _ => fail .invalidArgument
  waitFor ⟨registrations, .waitSetEvent, target, deadlineNs⟩

def eventPortWait (eventPortHandle deadlineNs : ℕ) : Syscall (Option ℕ) := do
  forgetWaiter target
  let refreshError := (← get).registry.refreshEventPorts.2
  modifyRegistry (·.refreshEventPorts.1)
  match refreshError with
  | some e => check (fail e)
  | none =>
    let (object, state) ← read fun s => do
      let entry ← s.registry.authorize target.processId eventPortHandle Right.wait .eventPort
      match ← okOr (s.registry.data entry.object) .io with
      | .eventPort state => return (entry.object, state)
      | _ => fail .invalidArgument
    let s ← get
    match s.popEvent object state with
    | (s, some event) =>
      set s
      check (okOr ((packEvent event.key event.signals).map some) .io)
    | (_, none) =>
      blockUntil ⟨[⟨object, Signal.readable, 0⟩], .eventPortEvent, target, deadlineNs⟩

/-! ### The end of processes, and the clock -/

namespace System

/-- Drops the tables of processes that are gone, and what they kept alive. -/
def retainTables (keep : ℕ → Bool) : System :=
  { s with registry := { s.registry with
      tables := s.registry.tables.filter fun table => keep table.processId } }.collectGarbage

def capabilityRemoveProcess (processId : ℕ) : System :=
  (s.retainTables fun id => id ≠ processId).wakePeerClosed

def liveProcesses : List ℕ := (s.processes.filter (·.live)).map (·.processId)

/-- Every capability call starts with this. -/
def capabilityReapDeadProcesses : System :=
  let live := s.liveProcesses
  ({ s with waiters := s.waiters.filter fun w => w.target.processId ∈ live }.retainTables
    fun id => id ∈ live).wakePeerClosed

/-- The process that takes the children of those that ended. -/
def kernelReaperProcessId : ℕ := 0

/-- The end of a process: it and its waits are gone, and its job records the exit. -/
def reapProcess (process : Process) (status : ℕ) : System :=
  let s := { s with
    processes := s.processes.eraseP fun p => p.processId = process.processId
    waiters := s.waiters.filter fun w => w.target.processId ≠ process.processId }
  let s := s.capabilityRemoveProcess process.processId
  let s := match process.job with
    | some job => s.capabilityJobRecordExit job process.processId status
    | none => s
  { s with
    processes := s.processes.map fun p =>
      if p.parentProcessId = some process.processId then
        { p with parentProcessId := some kernelReaperProcessId }
      else p }

/-- All timers at once; says whether one of them fired. -/
def advanceTimers (nowNs : ℕ) : System × Bool :=
  ({ s with registry := { s.registry with
      objects := s.registry.objects.map fun record =>
        match record.data with
        | .timer timer => { record with data := .timer (timer.advance nowNs).1 }
        | _ => record } },
    s.registry.objects.any fun record =>
      match record.data with
      | .timer timer => (timer.advance nowNs).2
      | _ => false)

/-- The clock reaches a time. -/
def serviceObjectWaitDeadlines (nowNs : ℕ) : System :=
  let (s, fired) := { s with now := nowNs }.advanceTimers nowNs
  let s := if fired then s.wakeSatisfiedObjectWaiters else s
  let expired := fun w : ObjectWaiter => w.deadlineNs ≠ 2 ^ 64 - 1 ∧ w.deadlineNs ≤ nowNs
  { s with
    waiters := s.waiters.filter fun w => ¬ expired w
    results := s.results ++
      (s.waiters.filter fun w => expired w).map fun w => (w.target, .error .timedOut) }

end System

end Kernel
