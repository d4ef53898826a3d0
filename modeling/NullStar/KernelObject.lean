/-
**The objects behind kernel capabilities.**

A capability names an object by its number and its kind.  The state of an object is that of one of
nine small state machines: endpoints hold queued messages, jobs hold members and their exit records,
wait sets and event ports hold registrations, and so on.  Each machine is given with its own
operations; the registry that holds the objects is in `NullStar/Registry.lean`.

* `Right`, `capabilityAllowedRights` — rights, and those a kind of object allows;
* `Signal`, `capabilityObjectSupportedSignals` — signals, and those of a kind;
* `EndpointObject`, `Job.State`, `WaitSet.State`, `EventPort.State`,
  `Timer.State`, `Event.State` — the state machines;
* `ObjectData` — the state of an object of any kind.
-/

import NullStar.Outcome

set_option autoImplicit false

namespace Kernel

open Rust

/-! ### Errors, kinds, rights and signals -/

/-- The error numbers that the calls of this layer return. -/
inductive Errno where
  | noEntry | io | argumentTooLarge | badFileDescriptor | noChild | tryAgain | permission
  | badAddress | invalidArgument | noSpace | brokenPipe | range | timedOut
  deriving DecidableEq

/-- What a capability can name. -/
inductive ObjectKind where
  | endpoint | notification | sharedMemory | kernelEarlyLogReader | job | waitSet | eventPort
  | timer | event
  deriving DecidableEq

/-- Names an object. -/
structure ObjectRef where
  id : ℕ
  kind : ObjectKind
  deriving DecidableEq

/-- A word of flags. -/
abbrev Bits := BitVec 64

/-- Every flag of the first word is set in the second. -/
def Within (a b : Bits) : Prop := a &&& ~~~b = 0

instance (a b : Bits) : Decidable (Within a b) := inferInstanceAs (Decidable (_ = _))

theorem within_iff {a b : Bits} : Within a b ↔ ∀ i, a.getLsbD i = true → b.getLsbD i = true := by
  constructor
  · intro h i ha
    have hi : (a &&& ~~~b).getLsbD i = false := by rw [h]; simp
    have hlt : i < 64 := BitVec.lt_of_getLsbD ha
    simpa [ha, hlt] using hi
  · intro h
    refine BitVec.eq_of_getLsbD_eq fun i hi => ?_
    have := h i
    cases ha : a.getLsbD i with
    | false => simp [ha]
    | true => simp [this ha]

theorem Within.refl (a : Bits) : Within a a := within_iff.2 fun _ h => h

theorem Within.trans {a b c : Bits} (hab : Within a b) (hbc : Within b c) : Within a c :=
  within_iff.2 fun i h => within_iff.1 hbc i (within_iff.1 hab i h)

namespace Right

def duplicate : Bits := 1
def transfer : Bits := 2
def send : Bits := 4
def receive : Bits := 8
def signal : Bits := 16
def wait : Bits := 32
def read : Bits := 64
def write : Bits := 128
def manage : Bits := 256

end Right

/-- All rights that a capability to an object of the kind can carry. -/
def capabilityAllowedRights : ObjectKind → Bits
  | .endpoint => Right.duplicate ||| Right.transfer ||| Right.send ||| Right.receive ||| Right.wait
  | .notification => Right.duplicate ||| Right.transfer ||| Right.signal ||| Right.wait
  | .sharedMemory => Right.duplicate ||| Right.transfer ||| Right.read ||| Right.write
  | .kernelEarlyLogReader => Right.transfer ||| Right.read
  | .job => Right.duplicate ||| Right.transfer ||| Right.signal ||| Right.wait ||| Right.manage
  | .waitSet | .eventPort | .timer =>
    Right.duplicate ||| Right.transfer ||| Right.wait ||| Right.manage
  | .event => Right.duplicate ||| Right.transfer ||| Right.signal ||| Right.wait

theorem capabilityAllowedRights_ne_zero (kind : ObjectKind) : capabilityAllowedRights kind ≠ 0 := by
  cases kind <;> decide

namespace Signal

def none : Bits := 0
def readable : Bits := 1
def writable : Bits := 2
def peerClosed : Bits := 4
def signaled : Bits := 8
def terminated : Bits := 16
def timerFired : Bits := 32
def all : Bits := readable ||| writable ||| peerClosed ||| signaled ||| terminated ||| timerFired

end Signal

/-- The signals that an object of the kind can assert. -/
def capabilityObjectSupportedSignals : ObjectKind → Bits
  | .endpoint => Signal.readable ||| Signal.writable ||| Signal.peerClosed
  | .notification => Signal.signaled
  | .job => Signal.readable ||| Signal.terminated
  | .eventPort => Signal.readable
  | .timer => Signal.timerFired
  | .event => Signal.signaled
  | .sharedMemory | .kernelEarlyLogReader | .waitSet => Signal.none

/-! ### Limits -/

def maxCapabilitiesPerProcess : ℕ := 64
def maxProcessSlots : ℕ := 64
def maxJobObjects : ℕ := 32
def maxEndpointMessages : ℕ := 8
def maxIpcMessageBytes : ℕ := 256
def maxIpcMessageHandles : ℕ := 4
def maxSharedMemoryBytes : ℕ := 16 * 1024
def maxSharedMemoryTotalBytes : ℕ := 256 * 1024
def maxObjectWaitItems : ℕ := 16
def maxWaitSetRegistrations : ℕ := 64
def maxEventPortRegistrations : ℕ := 64
def maxEventPortEvents : ℕ := 64

/-- The largest key of a registration; larger ones would make a packed result negative. -/
def maxKey : ℕ := (2 ^ 63 - 1) / 2 ^ 8

/-- How many objects of a kind there may be. -/
def ObjectKind.limit : ObjectKind → ℕ
  | .endpoint => 32
  | .notification => 32
  | .sharedMemory => 16
  | .kernelEarlyLogReader => 1
  | .job => maxJobObjects
  | .waitSet => 16
  | .eventPort => 16
  | .timer => 64
  | .event => 64

/-! ### Endpoints -/

structure TransferredCapability where
  object : ObjectRef
  rights : Bits
  deriving DecidableEq

structure EndpointMessage where
  senderProcessId : ℕ
  bytes : List UInt8
  capabilities : List TransferredCapability
  deriving DecidableEq

/-- Where messages sent through an endpoint go. -/
inductive EndpointPeer where
  | loopback
  | connected (peer : ObjectRef)
  deriving DecidableEq

structure EndpointObject where
  queue : List EndpointMessage
  peer : EndpointPeer
  deriving DecidableEq

/-! ### Jobs -/

namespace Job

/-- The exit of a member that nobody has collected yet. -/
structure ExitRecord where
  (processId status : ℕ)
  deriving DecidableEq

inductive AssignError where
  | invalidProcess | alreadyMember | full | retired
  deriving DecidableEq

inductive ChildError where
  | invalidJob | alreadyChild | full | retired
  deriving DecidableEq

inductive LimitError where
  | outOfRange | relaxation | retired
  deriving DecidableEq

inductive RetireError where
  | root | notEmpty | retired
  deriving DecidableEq

structure State where
  (memberCapacity processLimit childCapacity : ℕ)
  parent : Option ℕ
  retired : Bool
  members : List ℕ
  completions : List ExitRecord
  children : List ℕ
  deriving DecidableEq

namespace State

variable (s : State) (processId jobId : ℕ)

def new (memberCapacity childCapacity : ℕ) : State where
  memberCapacity := memberCapacity
  processLimit := memberCapacity
  childCapacity := childCapacity
  parent := none
  retired := false
  members := []
  completions := []
  children := []

def setParent : Outcome ChildError State := do
  rejectIf (jobId = 0) .invalidJob
  rejectIf s.parent.isSome .alreadyChild
  return { s with parent := some jobId }

def retirementParent : Outcome RetireError ℕ := do
  rejectIf s.retired .retired
  let parent ← okOr s.parent .root
  rejectIf (s.members ≠ [] ∨ s.completions ≠ [] ∨ s.children ≠ []) .notEmpty
  return parent

def retire : Outcome RetireError (ℕ × State) := do
  let parent ← s.retirementParent
  return (parent, { s with parent := none, retired := true })

def setProcessLimit (limit : ℕ) : Outcome LimitError State := do
  rejectIf s.retired .retired
  rejectIf (s.memberCapacity < limit) .outOfRange
  rejectIf (s.processLimit < limit) .relaxation
  return { s with processLimit := limit }

def attachChild : Outcome ChildError State := do
  rejectIf s.retired .retired
  rejectIf (jobId = 0) .invalidJob
  rejectIf (jobId ∈ s.children) .alreadyChild
  rejectIf (s.childCapacity ≤ s.children.length) .full
  return { s with children := s.children ++ [jobId] }

/-- Removes a child; `none` when the job has no such child. -/
def removeChild : Option State :=
  if jobId ∈ s.children then some { s with children := s.children.erase jobId } else none

def assign : Outcome AssignError State := do
  rejectIf s.retired .retired
  rejectIf (processId = 0) .invalidProcess
  rejectIf (processId ∈ s.members) .alreadyMember
  rejectIf (s.memberCapacity ≤ s.members.length + s.completions.length) .full
  return { s with members := s.members ++ [processId] }

/-- Removes a member that never ran; `none` when there is no such member. -/
def removeUnstarted : Option State :=
  if processId ∈ s.members then some { s with members := s.members.erase processId } else none

/-- Turns a member into an exit record; `none` when there is no such member. -/
def complete (record : ExitRecord) : Option State :=
  if record.processId ∈ s.members then
    some { s with
      members := s.members.erase record.processId
      completions := s.completions ++ [record] }
  else none

/-- The oldest exit record, and the job without it. -/
def takeCompletion : Option (ExitRecord × State) :=
  match s.completions with
  | [] => none
  | record :: rest => some (record, { s with completions := rest })

/-- The jobs that this one refers to. -/
def links : List ObjectRef := (s.parent.toList ++ s.children).map fun id => ⟨id, .job⟩

end State

end Job

/-! ### Wait sets -/

namespace WaitSet

structure Registration where
  target : ObjectRef
  requested : Bits
  key : ℕ
  deriving DecidableEq

inductive AddError where
  | invalidTarget | invalidSignals | invalidKey | duplicateKey | full
  deriving DecidableEq

structure State where
  (capacity maximumKey : ℕ)
  registrations : List Registration
  deriving DecidableEq

namespace State

def new (capacity maximumKey : ℕ) : State := ⟨capacity, maximumKey, []⟩

def add (s : State) (registration : Registration) : Outcome AddError State := do
  rejectIf (registration.target.id = 0) .invalidTarget
  rejectIf (registration.requested = 0) .invalidSignals
  rejectIf (s.maximumKey < registration.key) .invalidKey
  rejectIf (registration.key ∈ s.registrations.map (·.key)) .duplicateKey
  rejectIf (s.capacity ≤ s.registrations.length) .full
  return { s with registrations := s.registrations ++ [registration] }

/-- Removes the registration with the key; `none` when there is none. -/
def remove (s : State) (key : ℕ) : Option State :=
  if key ∈ s.registrations.map (·.key) then
    some { s with registrations := s.registrations.eraseP fun r => r.key = key }
  else none

end State

end WaitSet

/-! ### Event ports -/

namespace EventPort

structure Registration where
  target : ObjectRef
  requested : Bits
  key : ℕ
  /-- The requested signals that were asserted when the target was last looked at. -/
  observed : Bits
  deriving DecidableEq

structure Event where
  key : ℕ
  signals : Bits
  deriving DecidableEq

inductive AddError where
  | invalidTarget | invalidSignals | invalidKey | duplicateKey | full | eventQueueFull
  deriving DecidableEq

structure State where
  (registrationCapacity eventCapacity maximumKey : ℕ)
  registrations : List Registration
  events : List Event
  deriving DecidableEq

/-- Adds signals to the queued event of the key, or queues a new event; `none` when the queue is
full. -/
def queueEvent (capacity : ℕ) (events : List Event) (key : ℕ) (signals : Bits) : Option (List Event) :=
  if key ∈ events.map (·.key) then
    some (events.modify (events.findIdx fun e => e.key = key)
      fun e => { e with signals := e.signals ||| signals })
  else if capacity ≤ events.length then none
  else some (events ++ [⟨key, signals⟩])

/-- The loop of `observe` over the registrations.  It stops at the first event that does not fit,
with the registrations before it updated. -/
def observeFrom (capacity : ℕ) (target : ObjectRef) (current : Bits) :
    List Registration → List Event → List Registration × List Event × Bool
  | [], events => ([], events, true)
  | registration :: rest, events =>
    if registration.target ≠ target then
      let (rest', events', fits) := observeFrom capacity target current rest events
      (registration :: rest', events', fits)
    else
      let asserted := current &&& registration.requested
      let rising := asserted &&& ~~~registration.observed
      let queued :=
        if rising ≠ 0 then queueEvent capacity events registration.key rising else some events
      match queued with
      | none => (registration :: rest, events, false)
      | some events =>
        let (rest', events', fits) := observeFrom capacity target current rest events
        ({ registration with observed := asserted } :: rest', events', fits)

namespace State

variable (s : State) (target : ObjectRef)

def new (registrationCapacity eventCapacity maximumKey : ℕ) : State :=
  ⟨registrationCapacity, eventCapacity, maximumKey, [], []⟩

def add (requested : Bits) (key : ℕ) (current : Bits) : Outcome AddError State := do
  rejectIf (target.id = 0) .invalidTarget
  rejectIf (requested = 0) .invalidSignals
  rejectIf (s.maximumKey < key) .invalidKey
  rejectIf (key ∈ s.registrations.map (·.key)) .duplicateKey
  rejectIf (s.registrationCapacity ≤ s.registrations.length) .full
  let observed := current &&& requested
  let events ←
    okOr (if observed ≠ 0 then queueEvent s.eventCapacity s.events key observed else some s.events)
      .eventQueueFull
  return { s with
    registrations := s.registrations ++ [⟨target, requested, key, observed⟩]
    events := events }

/-- Removes the registration with the key, and the event queued for it; `none` when there is no
registration. -/
def remove (key : ℕ) : Option State :=
  if key ∈ s.registrations.map (·.key) then
    some { s with
      registrations := s.registrations.eraseP fun r => r.key = key
      events := s.events.filter fun e => e.key ≠ key }
  else none

/-- Looks at one target and queues its newly asserted signals; `false` when an event did not
fit. -/
def observe (current : Bits) : State × Bool :=
  let (registrations, events, fits) :=
    observeFrom s.eventCapacity target current s.registrations s.events
  ({ s with registrations := registrations, events := events }, fits)

/-- The oldest event, and the port without it. -/
def popEvent : Option (Event × State) :=
  match s.events with
  | [] => none
  | event :: rest => some (event, { s with events := rest })

end State

end EventPort

/-! ### Timers and events -/

namespace Timer

structure State where
  deadlineNs : Option ℕ
  fired : Bool
  deriving DecidableEq

namespace State

def new : State := ⟨none, false⟩

/-- Arms the timer; `none` for the deadline that stands for no deadline. -/
def arm (_ : State) (deadlineNs nowNs : ℕ) : Option State :=
  if deadlineNs = 2 ^ 64 - 1 then none
  else if deadlineNs ≤ nowNs then some ⟨none, true⟩
  else some ⟨some deadlineNs, false⟩

def cancel (_ : State) : State := ⟨none, false⟩

/-- Fires the timer when its deadline has passed, and says whether it did. -/
def advance (s : State) (nowNs : ℕ) : State × Bool :=
  match s.deadlineNs with
  | none => (s, false)
  | some deadline => if nowNs < deadline then (s, false) else (⟨none, true⟩, true)

end State

end Timer

namespace Event

structure State where
  signaled : Bool
  deriving DecidableEq

def State.new : State := ⟨false⟩

def State.set (_ : State) : State := ⟨true⟩

def State.reset (_ : State) : State := ⟨false⟩

end Event

/-! ### Objects -/

inductive ObjectData where
  | endpoint (endpoint : EndpointObject)
  | notification (pending : ℕ)
  | sharedMemory (bytes : List UInt8)
  | kernelEarlyLogReader
  | job (state : Job.State)
  | waitSet (state : WaitSet.State)
  | eventPort (state : EventPort.State)
  | timer (state : Timer.State)
  | event (state : Event.State)
  deriving DecidableEq

namespace ObjectData

/-- The kind of object that has such a state. -/
def kind : ObjectData → ObjectKind
  | endpoint _ => .endpoint
  | notification _ => .notification
  | sharedMemory _ => .sharedMemory
  | kernelEarlyLogReader => .kernelEarlyLogReader
  | job _ => .job
  | waitSet _ => .waitSet
  | eventPort _ => .eventPort
  | timer _ => .timer
  | event _ => .event

/-- The objects that an object keeps alive. -/
def links : ObjectData → List ObjectRef
  | endpoint e => e.queue.flatMap fun message => message.capabilities.map (·.object)
  | job state => state.links
  | waitSet state => state.registrations.map (·.target)
  | eventPort state => state.registrations.map (·.target)
  | notification _ | sharedMemory _ | kernelEarlyLogReader | timer _ | event _ => []

end ObjectData

end Kernel
