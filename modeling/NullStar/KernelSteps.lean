/-
**Runs of the kernel.**

The calls of the processes, the kernel's own steps between them, and the states that they reach.  A
call is described by what it does with capabilities: it moves none, or it creates objects, opens a
device, copies a capability, narrows one in place, sends a message or receives one.

* `Action`, `Reachable` — the steps and the states they reach;
* `callEffect_run`, `effect_apply` — every call, and every step, has one of these effects;
* `sound_of_reachable`, `anchored_of_careful` — what holds in the states that are reached.
-/

import NullStar.CallSafety

set_option autoImplicit false

namespace Kernel

open Rust Hoare List Registry Kernel.System

variable {s s' : System} {processId handle : ℕ}

/-! ### Capabilities that a process gains -/

/-- The process gets capabilities, each for the reason, and nobody else gets any. -/
structure System.Gained (s : System) (processId : ℕ) (reason : TransferredCapability → Prop)
    (s' : System) : Prop where
  made : ∃ r₁ capabilities handles, s.Safe { s with registry := r₁ } ∧
    r₁.Inserted processId capabilities handles s'.registry ∧ ∀ c ∈ capabilities, reason c
  roots : s'.roots = s.roots

/-- All rights on an object with a new number. -/
def System.Fresh (s : System) (c : TransferredCapability) : Prop :=
  s.registry.nextObjectId ≤ c.object.id ∧ c.rights = capabilityAllowedRights c.object.kind

/-- The rights to send to the endpoint of a device and to pass it on; without one it is a new endpoint. -/
def System.Opens (s : System) (partitionIndex : ℕ) (access : BlockDeviceAccess)
    (c : TransferredCapability) : Prop :=
  ∃ existing, s.blockDeviceEndpoint partitionIndex access = .ok existing ∧
    c = ⟨existing.getD ⟨s.registry.nextObjectId, .endpoint⟩, blockDeviceRights⟩

theorem gained_createWithRights {kind : ObjectKind} {data : ObjectData} {rights : Bits} (h : s.Sound)
    (hd : NewData kind data) : Triple (· = s) (createWithRights processId rights kind data)
      (fun _ s' => s.Gained processId (· = ⟨⟨s.registry.nextObjectId, kind⟩, rights⟩) s')
      (fun _ s' => s.Safe s') := by
  have hsafe := (Safe.refl h).addNew hd
  refine triple_bind (createObject_spec (.refl h)) ?_
  rintro _ _ ⟨rfl, rfl⟩
  refine triple_bind (.onError ?_ fun _ _ hs' => Safe.collectGarbage hs') fun _ _ hs' => triple_return hs'
  refine insertEntry_spec.imp ?_ fun _ _ hq => hsafe.quiet hq
  rintro handle s' ⟨hs', hinserted⟩
  exact ⟨⟨_, _, _, hsafe, hinserted, fun c hc => mem_singleton.1 hc⟩, by rw [hs']; rfl⟩

theorem created_createWith {kind : ObjectKind} {data : ObjectData} (h : s.Sound) (hd : NewData kind data) :
    Triple (· = s) (createWith processId kind data) (fun _ s' => s.Gained processId s.Fresh s')
      (fun _ s' => s.Safe s') := by
  refine triple_bind (gained_createWithRights h hd) fun _ s' hgained => triple_return ?_
  obtain ⟨⟨r1, capabilities, handles, hsafe, hinserted, hnew⟩, hroots⟩ := hgained
  refine ⟨⟨r1, capabilities, handles, hsafe, hinserted, fun c hc => ?_⟩, hroots⟩
  rw [hnew c hc]
  exact ⟨le_rfl, rfl⟩

/-- A new endpoint on its own. -/
theorem newData_loopback : NewData .endpoint (.endpoint ⟨[], .loopback⟩) :=
  ⟨rfl, rfl, fun _ _ => ⟨Nat.zero_le _, by simp, by simp⟩, rfl⟩

theorem opened_openBlockDeviceEndpoint {partitionIndex : ℕ} {access : BlockDeviceAccess} (h : s.Sound) :
    Triple (· = s) (openBlockDeviceEndpoint processId partitionIndex access)
      (fun _ s' => processId = initProcessId ∧ s.Gained processId (s.Opens partitionIndex access) s')
      (fun _ s' => s.Safe s') := by
  refine triple_check_bind (fun _ hinit => ?_) fun _ _ => .refl h
  obtain rfl := not_not.1 (rejectIf_eq_ok.1 hinit)
  refine triple_check_bind (fun _ _ => ?_) fun _ _ => .refl h
  refine triple_read_bind (fun existing hexisting => ?_) fun _ _ => .refl h
  cases existing with
  | some endpoint =>
    refine insertEntry_spec.imp ?_ fun _ _ hq => (Safe.refl h).quiet hq
    rintro handle s' ⟨hs', hinserted⟩
    refine ⟨rfl, ⟨_, _, _, .refl h, hinserted, fun c hc => ?_⟩, by rw [hs']⟩
    exact ⟨_, hexisting, mem_singleton.1 hc⟩
  | none =>
    refine triple_bind (gained_createWithRights h newData_loopback) fun p s1 h1 => ?_
    obtain ⟨⟨r1, capabilities, handles, hsafe, hinserted, hnew⟩, hroots⟩ := h1
    refine triple_modify_bind (triple_return ⟨rfl, ⟨_, _, _, hsafe, hinserted, fun c hc => ?_⟩, hroots⟩)
    exact ⟨none, hexisting, hnew c hc⟩

theorem created_createEndpointPair (h : s.Sound) :
    Triple (· = s) (createEndpointPair processId) (fun _ s' => s.Gained processId s.Fresh s')
      (fun _ s' => s.Safe s') := by
  have hsafe := (Safe.refl h).collectGarbage.addEndpointPair
  refine (createEndpointPair_spec h).imp_ok ?_
  rintro handles s' ⟨hs', hinserted⟩
  refine ⟨⟨_, _, _, hsafe, hinserted, fun c hc => ?_⟩, by rw [hs']⟩
  rcases mem_pair.1 hc with rfl | rfl
  · exact ⟨le_rfl, rfl⟩
  · exact ⟨Nat.le_succ _, rfl⟩

/-- The state of a new job below another. -/
theorem childState_eq_ok {parentId limit : ℕ} {child child' : Job.State}
    (hparent : (Job.State.new maxProcessSlots maxJobObjects).setParent parentId = .ok child)
    (hlimit : child.setProcessLimit limit = .ok child') :
    child'.parent = some parentId ∧ child'.children = [] := by
  simp only [Job.State.setParent, run_eq_ok] at hparent
  obtain ⟨-, -, rfl⟩ := hparent
  simp only [Job.State.setProcessLimit, run_eq_ok] at hlimit
  obtain ⟨-, -, -, rfl⟩ := hlimit
  exact ⟨rfl, rfl⟩

variable {parent : ObjectRef} {s0 : System} {call : Syscall ℕ} {m : UserMemory}

/-- A new job below another, which does not know of it yet. -/
theorem System.Safe.addChildJob {parentState childState : Job.State} (h : s0.Safe s)
    (hparent : s.registry.data parent = some (.job parentState))
    (hlink : childState.parent = some parent.id) (hempty : childState.children = []) :
    s0.Safe { s with registry := s.registry.addObject .job (.job childState) } := by
  have hkind : parent.kind = .job := (h.1.kind_eq parent _ hparent).symm
  have href : (⟨parent.id, .job⟩ : ObjectRef) = parent := by rw [← hkind]
  refine h.addObject rfl ?_ ?_ rfl
  · intro x hx
    obtain rfl : x = ⟨parent.id, .job⟩ := by
      simpa [ObjectData.names, ObjectData.links, Job.State.links, hlink, hempty] using hx
    rw [href, hparent]
    rfl
  · change childState.children.Nodup ∧ _
    rw [hempty]
    exact ⟨nodup_nil, fun c hc => absurd hc not_mem_nil⟩

theorem attachChild_eq_ok {state state' : Job.State} {id : ℕ} (h : state.attachChild id = .ok state') :
    id ∉ state.children ∧ state' = { state with children := state.children ++ [id] } := by
  simp only [Job.State.attachChild, run_eq_ok] at h
  obtain ⟨-, -, hfresh, -, rfl⟩ := h
  exact ⟨hfresh, rfl⟩

/-- A job that was created below another is linked from it. -/
theorem System.Safe.attachChild {childId : ℕ} {state state' childState : Job.State} (h : s0.Safe s)
    (hparent : s.registry.data parent = some (.job state))
    (hchild : s.registry.data ⟨childId, .job⟩ = some (.job childState))
    (hlink : childState.parent = some parent.id) (hlt : parent.id < childId)
    (hattach : state.attachChild childId = .ok state') :
    s0.Safe { s with registry := s.registry.setData parent (.job state') } := by
  obtain ⟨hfresh, rfl⟩ := attachChild_eq_ok hattach
  obtain ⟨hnodup, hbelow⟩ := h.1.valid parent _ hparent
  refine h.setData hparent rfl ?_ rfl ⟨?_, ?_⟩ rfl
  · intro x hx
    simp only [ObjectData.names, ObjectData.links, Job.State.links, ← append_assoc] at hx
    rw [map_append, mem_append] at hx
    rcases hx with hx | hx
    · exact h.1.name_present parent _ hparent x hx
    · obtain rfl := mem_singleton.1 hx
      rw [hchild]
      rfl
  · rw [← concat_eq_append]
    exact .concat hfresh hnodup
  · intro c hc
    rcases mem_append.1 hc with hc | hc
    · exact hbelow c hc
    · obtain rfl := mem_singleton.1 hc
      refine ⟨hlt, ?_⟩
      rw [jobParent, hchild]
      exact hlink

theorem System.Safe.detachChild {child : ObjectRef} (h : s0.Safe s) :
    s0.Safe (s.detachChild parent child) := by
  unfold System.detachChild
  split
  · next state hparent =>
      obtain ⟨hnodup, hbelow⟩ := h.1.valid parent _ hparent
      unfold Job.State.removeChild
      split
      · refine h.replace hparent ⟨rfl, ?_, rfl, ⟨hnodup.erase _, ?_⟩, rfl⟩
        · intro x hx
          refine map_subset _ ?_ hx
          exact append_subset.2 ⟨subset_append_left _ _, fun c hc => mem_append_right _ (mem_of_mem_erase hc)⟩
        · exact fun c hc => hbelow c (mem_of_mem_erase hc)
      · exact h.replace hparent (replaces_job ⟨hnodup, hbelow⟩ rfl rfl)
  · exact h

theorem created_jobCreateChild (h : s.Sound) :
    Triple (· = s) (jobCreateChild processId handle) (fun _ s' => s.Gained processId s.Fresh s')
      (fun _ s' => s.Safe s') := by
  have hcollect : s.Safe s.collectGarbage := (Safe.refl h).collectGarbage
  refine triple_read_bind (fun p hp => ?_) fun _ _ => .refl h
  simp only [run_eq_ok] at hp
  obtain ⟨entry, hentry, parentState, hparent, child, hchild, childState, hlimit, rfl⟩ := hp
  obtain ⟨hlink, hempty⟩ := childState_eq_ok hchild hlimit
  have hparent : s.collectGarbage.registry.data entry.object = some (.job parentState) := by
    have hmem := (entry_mem (authorize_eq_ok.1 hentry).1).1
    exact (data_collectGarbage_of_reaches (.of_entry hmem)).trans
      (jobState_eq_ok hparent)
  have hadded := hcollect.addChildJob hparent hlink hempty
  refine triple_bind (createObject_spec (.refl h)) ?_
  rintro _ _ ⟨rfl, rfl⟩
  -- the new job is linked from its parent
  refine triple_bind (R := fun _ s' => s.Safe s' ∧ s' = { s with registry := s'.registry }) ?_
    fun _ s2 hs2 => ?_
  · refine .onError ?_ fun _ _ hs' => .collectGarbage hs'
    refine triple_read_bind (fun state' hstate' => ?_) fun _ _ => hadded
    split at hstate'
    · next state hstate =>
        rw [mapErr_eq_ok] at hstate'
        have hnew : (s.collectGarbage.registry.addObject .job (.job childState)).data
            ⟨s.registry.nextObjectId, .job⟩ = some (.job childState) :=
          hcollect.1.data_addObject_self
        have hlt : entry.object.id < s.registry.nextObjectId := hcollect.1.id_lt _ _ hparent
        exact triple_modify ⟨hadded.attachChild hstate hnew hlink hlt hstate', rfl⟩
    · simp at hstate'
  · refine Triple.onError ?_ fun _ _ hs' => (Safe.detachChild hs').collectGarbage
    refine insertEntry_spec.imp ?_ fun _ _ hq => hs2.1.quiet hq
    rintro handle' s' ⟨hs', hinserted⟩
    have hsafe : s.Safe { s with registry := s2.registry } := hs2.2 ▸ hs2.1
    refine ⟨⟨s2.registry, _, _, hsafe, hinserted, fun c hc => ?_⟩, by rw [hs', hs2.2]⟩
    obtain rfl := mem_singleton.1 hc
    exact ⟨le_rfl, rfl⟩

/-! ### The calls -/

/-- The calls of a process, with their arguments. -/
inductive Call where
  | endpointCreate
  | endpointCreatePair (address length : ℕ)
  | notificationCreate
  | sharedMemoryCreate (length : ℕ)
  | openKernelEarlyLogReader
  | openBlockDeviceEndpoint (partitionIndex : ℕ) (access : BlockDeviceAccess)
  | jobCreate
  | jobCreateChild (parentHandle : ℕ)
  | waitSetCreate | eventPortCreate | timerCreate | eventCreate
  | capabilityDuplicate (handle : ℕ) (rights : Bits)
  | capabilityReplace (handle : ℕ) (rights : Bits)
  | capabilityClose (handle : ℕ)
  | capabilityHandleAtSlot (slot : ℕ)
  | capabilityInfo (handle address length : ℕ)
  | capabilitySignalState (handle : ℕ)
  | capabilityGrantChild (childProcessId sourceHandle : ℕ) (rights : Bits) (requestedChildSlot : ℕ)
  | notificationSignal (handle amount : ℕ)
  | notificationTryWait (handle : ℕ)
  | eventSet (handle : ℕ)
  | eventReset (handle : ℕ)
  | timerArm (handle deadlineNs : ℕ)
  | timerCancel (handle : ℕ)
  | sharedMemoryRead (handle offset address length : ℕ)
  | sharedMemoryWrite (handle offset address length : ℕ)
  | waitSetAdd (waitSetHandle targetHandle : ℕ) (requested : Bits) (key : ℕ)
  | waitSetRemove (waitSetHandle key : ℕ)
  | eventPortAdd (eventPortHandle targetHandle : ℕ) (requested : Bits) (key : ℕ)
  | eventPortRemove (eventPortHandle key : ℕ)
  | endpointSend (endpointHandle address length transferHandle : ℕ) (transferRights : Bits)
  | endpointSendMove (endpointHandle address length transferHandle : ℕ) (transferRights : Bits)
  | endpointSendMoveMany (endpointHandle address length dispositionsAddress dispositionCount : ℕ)
  | endpointReceive (endpointHandle bufferAddress bufferLength infoAddress : ℕ)
  | endpointReceiveMany (endpointHandle bufferAddress bufferLength handlesAddress handleCapacity
      infoAddress : ℕ)
  | jobSetProcessLimit (handle limit : ℕ)
  | jobGetProcessLimit (handle : ℕ)
  | jobAssign (handle childProcessId : ℕ)
  | jobTryWait (handle address length : ℕ)
  | jobTerminate (handle : ℕ)
  | jobRetire (handle : ℕ)
  | objectWaitOne (handle : ℕ) (requested : Bits) (deadlineNs : ℕ)
  | objectWaitMany (itemsAddress itemCount deadlineNs : ℕ)
  | waitSetWait (waitSetHandle deadlineNs : ℕ)
  | eventPortWait (eventPortHandle deadlineNs : ℕ)
  deriving DecidableEq

def atOnce (call : Syscall ℕ) : Syscall (Option ℕ) := do return some (← call)

/-- Runs a call of an execution.  The value is missing when the execution waits. -/
def Call.run (m : UserMemory) (target : ExecutionTarget) : Call → Syscall (Option ℕ) :=
  let p := target.processId
  fun
  | .endpointCreate => atOnce (Kernel.endpointCreate p)
  | .endpointCreatePair address length => atOnce (Kernel.endpointCreatePair m p address length)
  | .notificationCreate => atOnce (Kernel.notificationCreate p)
  | .sharedMemoryCreate length => atOnce (Kernel.sharedMemoryCreate p length)
  | .openKernelEarlyLogReader => atOnce (Kernel.openKernelEarlyLogReader p)
  | .openBlockDeviceEndpoint partitionIndex access =>
    atOnce (Kernel.openBlockDeviceEndpoint p partitionIndex access)
  | .jobCreate => atOnce (Kernel.jobCreate p)
  | .jobCreateChild parentHandle => atOnce (Kernel.jobCreateChild p parentHandle)
  | .waitSetCreate => atOnce (Kernel.waitSetCreate p)
  | .eventPortCreate => atOnce (Kernel.eventPortCreate p)
  | .timerCreate => atOnce (Kernel.timerCreate p)
  | .eventCreate => atOnce (Kernel.eventCreate p)
  | .capabilityDuplicate handle rights => atOnce (Kernel.capabilityDuplicate p handle rights)
  | .capabilityReplace handle rights => atOnce (Kernel.capabilityReplace p handle rights)
  | .capabilityClose handle => atOnce (Kernel.capabilityClose p handle)
  | .capabilityHandleAtSlot slot => atOnce (Kernel.capabilityHandleAtSlot p slot)
  | .capabilityInfo handle address length =>
    atOnce (Kernel.capabilityInfo m p handle address length)
  | .capabilitySignalState handle => atOnce (Kernel.capabilitySignalState p handle)
  | .capabilityGrantChild child source rights slot =>
    atOnce (Kernel.capabilityGrantChild p child source rights slot)
  | .notificationSignal handle amount => atOnce (Kernel.notificationSignal p handle amount)
  | .notificationTryWait handle => atOnce (Kernel.notificationTryWait p handle)
  | .eventSet handle => atOnce (Kernel.eventSet p handle)
  | .eventReset handle => atOnce (Kernel.eventReset p handle)
  | .timerArm handle deadlineNs => atOnce (Kernel.timerArm p handle deadlineNs)
  | .timerCancel handle => atOnce (Kernel.timerCancel p handle)
  | .sharedMemoryRead handle offset address length =>
    atOnce (Kernel.sharedMemoryRead m p handle offset address length)
  | .sharedMemoryWrite handle offset address length =>
    atOnce (Kernel.sharedMemoryWrite m p handle offset address length)
  | .waitSetAdd waitSet item requested key => atOnce (Kernel.waitSetAdd p waitSet item requested key)
  | .waitSetRemove waitSet key => atOnce (Kernel.waitSetRemove p waitSet key)
  | .eventPortAdd port item requested key => atOnce (Kernel.eventPortAdd p port item requested key)
  | .eventPortRemove port key => atOnce (Kernel.eventPortRemove p port key)
  | .endpointSend endpoint address length transfer rights =>
    atOnce (Kernel.endpointSend m p endpoint address length transfer rights)
  | .endpointSendMove endpoint address length transfer rights =>
    atOnce (Kernel.endpointSendMove m p endpoint address length transfer rights)
  | .endpointSendMoveMany endpoint address length dispositions count =>
    atOnce (Kernel.endpointSendMoveMany m p endpoint address length dispositions count)
  | .endpointReceive endpoint buffer length info =>
    atOnce (Kernel.endpointReceive m p endpoint buffer length info)
  | .endpointReceiveMany endpoint buffer length handles capacity info =>
    atOnce (Kernel.endpointReceiveMany m p endpoint buffer length handles capacity info)
  | .jobSetProcessLimit handle limit => atOnce (Kernel.jobSetProcessLimit p handle limit)
  | .jobGetProcessLimit handle => atOnce (Kernel.jobGetProcessLimit p handle)
  | .jobAssign handle child => atOnce (Kernel.jobAssign p handle child)
  | .jobTryWait handle address length => atOnce (Kernel.jobTryWait m p handle address length)
  | .jobTerminate handle => atOnce (Kernel.jobTerminate p handle)
  | .jobRetire handle => atOnce (Kernel.jobRetire p handle)
  | .objectWaitOne handle requested deadlineNs =>
    Kernel.objectWaitOne target handle requested deadlineNs
  | .objectWaitMany items count deadlineNs => Kernel.objectWaitMany m target items count deadlineNs
  | .waitSetWait handle deadlineNs => Kernel.waitSetWait target handle deadlineNs
  | .eventPortWait handle deadlineNs => Kernel.eventPortWait target handle deadlineNs

theorem triple_atOnce {Q : System → Prop} {E : Fault Errno → System → Prop}
    (h : Triple (· = s) call (fun _ => Q) E) : Triple (· = s) (atOnce call) (fun _ => Q) E :=
  triple_bind h fun _ _ hs' => triple_return hs'

/-! ### What a call does with capabilities -/

/-- The calls that make objects for the caller. -/
def Call.Creates : Call → Prop
  | .endpointCreate | .endpointCreatePair .. | .notificationCreate | .sharedMemoryCreate _
  | .openKernelEarlyLogReader | .jobCreate | .jobCreateChild _ | .waitSetCreate | .eventPortCreate
  | .timerCreate | .eventCreate => True
  | _ => False

/-- What a send asks for. -/
structure SendRequest where
  (endpointHandle address length : ℕ)
  dispositions : List (ℕ × Bits)
  move : Bool

/-- The request of a send; the dispositions of the last call are in the memory of the process. -/
def Call.sendRequest (m : UserMemory) (processId : ℕ) : Call → Option SendRequest
  | .endpointSend endpoint address length transfer rights =>
    some ⟨endpoint, address, length, singleDisposition transfer rights, false⟩
  | .endpointSendMove endpoint address length transfer rights =>
    some ⟨endpoint, address, length, singleDisposition transfer rights, true⟩
  | .endpointSendMoveMany endpoint address length dispositions count =>
    some ⟨endpoint, address, length, m.pairs processId dispositions count, true⟩
  | _ => none

/-- The endpoint that a receive names. -/
def Call.receiveHandle : Call → Option ℕ
  | .endpointReceive endpoint _ _ _ => some endpoint
  | .endpointReceiveMany endpoint _ _ _ _ _ => some endpoint
  | _ => none

/-- The ways in which a call of a process can change who has which capability. -/
inductive CallEffect (m : UserMemory) (s : System) (processId : ℕ) : Call → System → Prop where
  | safe {c : Call} {s' : System} (h : s.Safe s') : CallEffect m s processId c s'
  | created {c : Call} {s' : System} (hc : c.Creates) (h : s.Gained processId s.Fresh s') :
      CallEffect m s processId c s'
  | opened {partitionIndex : ℕ} {access : BlockDeviceAccess} {s' : System}
      (hinit : processId = initProcessId) (h : s.Gained processId (s.Opens partitionIndex access) s') :
      CallEffect m s processId (.openBlockDeviceEndpoint partitionIndex access) s'
  | duplicated {handle handle' : ℕ} {rights : Bits} {source : CapabilityEntry} {s' : System}
      (hsource : s.registry.Source processId handle Right.duplicate rights source)
      (hinserted : s.registry.Inserted processId [⟨source.object, rights⟩] [handle'] s'.registry)
      (hroots : s'.roots = s.roots) : CallEffect m s processId (.capabilityDuplicate handle rights) s'
  | granted {handle handle' childProcessId slot : ℕ} {rights : Bits} {source : CapabilityEntry}
      {s' : System} (hsource : s.registry.Source processId handle Right.transfer rights source)
      (hinserted : s.registry.Inserted childProcessId [⟨source.object, rights⟩] [handle']
        s'.registry) (hroots : s'.roots = s.roots) :
      CallEffect m s processId (.capabilityGrantChild childProcessId handle rights slot) s'
  | replaced {handle : ℕ} {rights : Bits} {source : CapabilityEntry} {s' : System}
      (hsource : s.registry.Source processId handle Right.duplicate rights source)
      (hregistry : s'.registry = s.registry.replaceRights processId handle rights)
      (hroots : s'.roots = s.roots) : CallEffect m s processId (.capabilityReplace handle rights) s'
  | sent {c : Call} {request : SendRequest} {message : EndpointMessage} {destination : ObjectRef}
      {s' : System} (hc : c.sendRequest m processId = some request)
      (hsent : s.registry.SendEffect processId request.endpointHandle request.dispositions request.move
        message destination s'.registry) (hroots : s'.roots = s.roots) : CallEffect m s processId c s'
  | received {c : Call} {endpointHandle : ℕ} {object : ObjectRef} {message : EndpointMessage}
      {handles : List ℕ} {s' : System} (hc : c.receiveHandle = some endpointHandle)
      (hreceived : s.registry.ReceiveEffect s.rootObjects processId endpointHandle object message
        handles s'.registry) (hroots : s'.roots = s.roots) : CallEffect m s processId c s'

variable {c : Call}

theorem SafeCall.effect {call : Syscall (Option ℕ)} (hcall : SafeCall call) (h : s.Sound) :
    Triple (· = s) call (fun _ s' => CallEffect m s processId c s') (fun _ s' => s.Safe s') :=
  (hcall s s (.refl h)).imp_ok fun _ _ h => .safe h

theorem SafeCall.atOnce (hcall : SafeCall call) : SafeCall (atOnce call) :=
  fun s0 s h => triple_atOnce (hcall s0 s h)

/-- A creation, as a call of a process. -/
theorem created_effect (hc : c.Creates)
    (hcall : Triple (· = s) call (fun _ s' => s.Gained processId s.Fresh s') (fun _ s' => s.Safe s')) :
    Triple (· = s) (atOnce call) (fun _ s' => CallEffect m s processId c s') (fun _ s' => s.Safe s') :=
  triple_atOnce (hcall.imp_ok fun _ _ h => .created hc h)

/-- A send, as a call of a process. -/
theorem sent_effect {request : SendRequest} {P : EndpointMessage → Prop}
    (hc : c.sendRequest m processId = some request) (h : s.Sound) (hcall : Triple (· = s) call
      (fun result s' => result = 0 ∧ s' = { s with registry := s'.registry } ∧ ∃ message destination,
        P message ∧ s.registry.SendEffect processId request.endpointHandle request.dispositions
          request.move message destination s'.registry) (fun _ s' => s' = s)) :
    Triple (· = s) (atOnce call) (fun _ s' => CallEffect m s processId c s') (fun _ s' => s.Safe s') := by
  refine triple_atOnce (hcall.imp ?_ ?_)
  · rintro _ s' ⟨-, hs', message, destination, -, heffect⟩
    exact .sent hc heffect (by rw [hs'])
  · rintro _ _ rfl
    exact .refl h

theorem created_endpointCreatePair {address length : ℕ} (h : s.Sound) :
    Triple (· = s) (endpointCreatePair m processId address length)
      (fun _ s' => s.Gained processId s.Fresh s') (fun _ s' => s.Safe s') := by
  refine triple_check_bind (fun _ _ => ?_) fun _ _ => .refl h
  refine triple_check_bind (fun _ _ => ?_) fun _ _ => .refl h
  refine triple_bind (created_createEndpointPair h) fun _ s1 h1 => ?_
  exact triple_copyOut_bind (triple_return ⟨h1.made, h1.roots⟩)

theorem created_sharedMemoryCreate {length : ℕ} (h : s.Sound) :
    Triple (· = s) (sharedMemoryCreate processId length)
      (fun _ s' => s.Gained processId s.Fresh s') (fun _ s' => s.Safe s') := by
  refine triple_check_bind (fun length' _ => ?_) fun _ _ => .refl h
  refine triple_check_bind (fun _ _ => ?_) fun _ _ => .refl h
  have hcollect : s.Safe s.collectGarbage := (Safe.refl h).collectGarbage
  refine triple_modify_bind (triple_read_bind (fun _ _ => ?_) fun _ _ => hcollect)
  have hmade : Triple (· = s.collectGarbage)
      (createWith processId .sharedMemory (.sharedMemory (replicate length' 0)))
      (fun _ s' => s.collectGarbage.Gained processId s.collectGarbage.Fresh s') (fun _ s' => s.collectGarbage.Safe s') :=
    created_createWith hcollect.1 ⟨rfl, rfl, fun _ _ => trivial, rfl⟩
  refine hmade.imp ?_ fun _ _ hs' => hcollect.trans hs'
  rintro _ s' ⟨⟨r1, capabilities, handles, hsafe, hinserted, hfull⟩, hroots⟩
  exact ⟨⟨r1, capabilities, handles, hcollect.trans hsafe, hinserted, hfull⟩, hroots⟩

theorem created_openKernelEarlyLogReader (h : s.Sound) : Triple (· = s) (openKernelEarlyLogReader processId)
      (fun _ s' => s.Gained processId s.Fresh s') (fun _ s' => s.Safe s') :=
  triple_check_bind (fun _ _ => created_createWith h ⟨rfl, rfl, fun _ _ => trivial, rfl⟩)
    fun _ _ => .refl h

/-- **Every call** moves no capability, or moves capabilities in one of the known ways; a call that
fails moves none. -/
theorem callEffect_run {target : ExecutionTarget} (c : Call) (h : s.Sound) :
    Triple (· = s) (c.run m target) (fun _ s' => CallEffect m s target.processId c s')
      (fun _ s' => s.Safe s') := by
  have hquiet : ∀ {s' : System}, s.QuietStep s' → s.Safe s' := (Safe.refl h).quiet
  cases c with
  | endpointCreate =>
    exact created_effect trivial (created_createWith h newData_loopback)
  | endpointCreatePair => exact created_effect trivial (created_endpointCreatePair h)
  | sharedMemoryCreate => exact created_effect trivial (created_sharedMemoryCreate h)
  | openKernelEarlyLogReader => exact created_effect trivial (created_openKernelEarlyLogReader h)
  | openBlockDeviceEndpoint =>
    refine triple_atOnce ((opened_openBlockDeviceEndpoint h).imp_ok ?_)
    exact fun _ _ ⟨hinit, hgained⟩ => .opened hinit hgained
  | jobCreate =>
    refine created_effect trivial (created_createWith h ⟨rfl, rfl, fun r o => ?_, rfl⟩)
    exact ⟨nodup_nil, fun c hc => absurd hc (by simp [Job.State.new])⟩
  | jobCreateChild => exact created_effect trivial (created_jobCreateChild h)
  | waitSetCreate =>
    refine created_effect trivial (created_createWith h ⟨rfl, rfl, fun r o => ?_, rfl⟩)
    exact fun registration hr => absurd hr (by simp [WaitSet.State.new])
  | eventPortCreate =>
    refine created_effect trivial (created_createWith h ⟨rfl, rfl, fun r o => ?_, rfl⟩)
    exact EventPort.State.valid_new (by decide) (by decide)
  | notificationCreate | timerCreate | eventCreate =>
    exact created_effect trivial (created_createWith h ⟨rfl, rfl, fun _ _ => trivial, rfl⟩)
  | capabilityDuplicate =>
    refine triple_atOnce (capabilityDuplicate_spec.imp ?_ fun _ _ => hquiet)
    rintro handle' s' ⟨hs', source, hsource, hinserted⟩
    exact .duplicated hsource hinserted (by rw [hs'])
  | capabilityReplace =>
    refine triple_atOnce (capabilityReplace_spec.imp ?_ ?_)
    · rintro _ _ ⟨rfl, source, hsource⟩
      exact .replaced hsource rfl rfl
    · rintro _ _ rfl
      exact .refl h
  | capabilityGrantChild child source =>
    refine triple_atOnce (capabilityGrantChild_spec.imp ?_ fun _ _ => hquiet)
    rintro handle' s' ⟨hs', source, hsource, hinserted⟩
    exact .granted hsource hinserted (by rw [hs'])
  | endpointSend | endpointSendMove => exact sent_effect rfl h (endpointSendWithDisposition_spec h)
  | endpointSendMoveMany => exact sent_effect rfl h endpointSendMoveMany_spec
  | endpointReceive =>
    refine triple_atOnce (endpointReceive_spec.imp ?_ fun _ _ => hquiet)
    rintro _ s' ⟨hs', object, message, handles, -, heffect, -⟩
    exact .received rfl heffect (by rw [hs'])
  | endpointReceiveMany endpoint buffer length handles =>
    refine triple_atOnce (endpointReceiveMany_spec.imp ?_ ?_)
    · rintro _ s' ⟨hs', object, message, handles, -, heffect, -⟩
      exact .received rfl heffect (by rw [hs'])
    · rintro _ s' ⟨writes, hq⟩
      have hwrites : s.Safe { s with writes := writes } := (Safe.refl h).of_eq rfl rfl
      exact hwrites.quiet hq
  | capabilityClose => exact safeCall_capabilityClose.atOnce.effect h
  | capabilityHandleAtSlot => exact safeCall_capabilityHandleAtSlot.atOnce.effect h
  | capabilityInfo => exact safeCall_capabilityInfo.atOnce.effect h
  | capabilitySignalState => exact safeCall_capabilitySignalState.atOnce.effect h
  | notificationSignal => exact safeCall_notificationSignal.atOnce.effect h
  | notificationTryWait => exact safeCall_notificationTryWait.atOnce.effect h
  | eventSet => exact safeCall_eventSet.atOnce.effect h
  | eventReset => exact safeCall_eventReset.atOnce.effect h
  | timerArm => exact safeCall_timerArm.atOnce.effect h
  | timerCancel => exact safeCall_timerCancel.atOnce.effect h
  | sharedMemoryRead => exact safeCall_sharedMemoryRead.atOnce.effect h
  | sharedMemoryWrite => exact safeCall_sharedMemoryWrite.atOnce.effect h
  | waitSetAdd => exact safeCall_waitSetAdd.atOnce.effect h
  | waitSetRemove => exact safeCall_waitSetRemove.atOnce.effect h
  | eventPortAdd => exact safeCall_eventPortAdd.atOnce.effect h
  | eventPortRemove => exact safeCall_eventPortRemove.atOnce.effect h
  | jobSetProcessLimit => exact safeCall_jobSetProcessLimit.atOnce.effect h
  | jobGetProcessLimit => exact safeCall_jobGetProcessLimit.atOnce.effect h
  | jobAssign => exact safeCall_jobAssign.atOnce.effect h
  | jobTryWait => exact safeCall_jobTryWait.atOnce.effect h
  | jobTerminate => exact safeCall_jobTerminate.atOnce.effect h
  | jobRetire => exact safeCall_jobRetire.atOnce.effect h
  | objectWaitOne => exact safeCall_objectWaitOne.effect h
  | objectWaitMany => exact safeCall_objectWaitMany.effect h
  | waitSetWait => exact safeCall_waitSetWait.effect h
  | eventPortWait => exact safeCall_eventPortWait.effect h

/-! ### Soundness of the effects -/

section Replace

variable {r : Registry} {roots : List ObjectRef} {right rights : Bits} {source : CapabilityEntry}

theorem entriesOf_replaceRights : (r.replaceRights processId handle rights).entriesOf processId =
    Keyed.adjust (·.handle) handle (fun entry => { entry with rights := rights })
      (r.entriesOf processId) := entriesOf_updateEntries rfl

/-- The entries of a process when the rights of one of them are replaced. -/
theorem mem_replaceRights (hsource : r.Source processId handle right rights source) {p : ℕ}
    {e : CapabilityEntry} (he : e ∈ (r.replaceRights processId handle rights).entriesOf p) :
    e ∈ r.entriesOf p ∨ (p = processId ∧ e = { source with rights := rights }) := by
  by_cases hp : p = processId
  · subst hp
    rw [entriesOf_replaceRights] at he
    refine (Keyed.mem_adjust he).imp_right fun ⟨e0, he0, heq⟩ => ⟨rfl, ?_⟩
    obtain rfl : source = e0 := Option.some.inj (hsource.entry.symm.trans he0)
    exact heq
  · exact .inl (entriesOf_updateEntries_ne hp ▸ he)

theorem Registry.Sound.replaceRights (h : r.Sound)
    (hsource : r.Source processId handle right rights source) :
    (r.replaceRights processId handle rights).Sound := by
  have htables : ((r.replaceRights processId handle rights).tables.map (·.processId)).Nodup := by
    rw [Registry.replaceRights, tables_updateEntries]
    exact h.tables_nodup
  refine h.withTables rfl rfl htables ?_ ?_
  · intro p
    by_cases hp : p = processId
    · subst hp
      have hhandle : ∀ entry : CapabilityEntry,
          ({ entry with rights := rights } : CapabilityEntry).handle = entry.handle := fun _ => rfl
      rw [entriesOf_replaceRights, Keyed.map_key_adjust hhandle]
      exact h.handles_nodup p
    · have hsame : (r.replaceRights processId handle rights).entriesOf p = r.entriesOf p :=
        entriesOf_updateEntries_ne hp
      rw [hsame]
      exact h.handles_nodup p
  · intro p e he
    rcases mem_replaceRights hsource he with he | ⟨rfl, rfl⟩
    · exact ⟨h.entry_present p e he, h.entry_rights p e he⟩
    · exact ⟨h.entry_present p source (entry_mem hsource.entry).1, hsource.proper⟩

end Replace

/-- What a call does with capabilities keeps the registry sound. -/
theorem CallEffect.sound (h : s.Sound) (he : CallEffect m s processId c s') : s'.Sound := by
  cases he with
  | safe hsafe => exact hsafe.1
  | created hc hgained | opened hinit hgained =>
    obtain ⟨r1, capabilities, handles, hsafe, hinserted, -⟩ := hgained.made
    exact Sound.insert hsafe.1 hinserted
  | duplicated hsource hinserted | granted hsource hinserted => exact Sound.insert h hinserted
  | replaced hsource hregistry =>
    unfold System.Sound
    rw [hregistry]
    exact Sound.replaceRights h hsource
  | sent hc hsent => exact Sound.sent h hsent.sent fun c hc => (hsent.proper h c hc).1
  | received hc hreceived => exact Sound.receive h hreceived

section Anchored

variable (ha : s.Anchored) (hroots : s'.roots = s.roots)

include ha hroots

/-- A step that keeps the objects as they are. -/
theorem System.Anchored.of_objects (hobjects : s'.registry.objects = s.registry.objects) : s'.Anchored := by
  have hdata : ∀ o, s'.registry.data o = s.registry.data o := fun o => by rw [data, data, hobjects]
  refine ha.mono (fun o ho => ?_) (fun o message hm => ?_) fun o ho => hdata o ▸ ho
  · rwa [rootObjects, hroots] at ho
  · rwa [messages, hdata] at hm

/-- A message that names what is present was queued. -/
theorem System.Anchored.sent {moved : List ℕ} {message : EndpointMessage} {destination : ObjectRef}
    (hsent : s.registry.Sent processId moved message destination s'.registry)
    (hmessage : ∀ c ∈ message.capabilities, (s.registry.data c.object).isSome) : s'.Anchored where
  roots o ho := by
    rw [rootObjects, hroots] at ho
    exact hsent.present.2 (ha.roots o ho)
  queued o other hother c hc := by
    refine hsent.present.2 ?_
    rw [hsent.messages] at hother
    split at hother
    · rcases mem_append.1 hother with hother | hother
      · exact ha.queued o other hother c hc
      · obtain rfl := mem_singleton.1 hother
        exact hmessage c hc
    · exact ha.queued o other hother c hc

end Anchored

/-- The oldest message of an endpoint was taken, and no object is gone. -/
theorem System.Anchored.dequeued {endpoint : ObjectRef} {message : EndpointMessage}
    {rest : List EndpointMessage} {peer : EndpointPeer} (ha : s.Anchored)
    (hdata : s.registry.data endpoint = some (.endpoint ⟨message :: rest, peer⟩)) :
    ({ s with registry := s.registry.setData endpoint (.endpoint ⟨rest, peer⟩) } : System).Anchored :=
  ha.mono (fun _ ho => ho) (fun _ _ hm => (dequeued_setData hdata).mem hm) fun _ => isSome_setData.2

/-- A call loses nothing that the kernel or a message needs. -/
theorem CallEffect.anchored (h : s.Sound) (ha : s.Anchored) (he : CallEffect m s processId c s') :
    s'.Anchored := by
  cases he with
  | safe hsafe => exact hsafe.3 ha
  | created hc hgained | opened hinit hgained =>
    obtain ⟨r1, capabilities, handles, hsafe, hinserted, -⟩ := hgained.made
    exact (hsafe.3 ha).of_objects hgained.roots hinserted.objects
  | duplicated hsource hinserted hroots | granted hsource hinserted hroots =>
    exact ha.of_objects hroots hinserted.objects
  | replaced hsource hregistry hroots => exact ha.of_objects hroots (by rw [hregistry]; rfl)
  | sent hc hsent hroots => exact ha.sent hroots hsent.sent fun c hc => (hsent.proper h c hc).2
  | received hc hreceived hroots =>
    obtain ⟨rest, peer, r1, hdata, hinserted, hregistry⟩ := hreceived.taken
    have h1 : ({ s with registry := r1 } : System).Anchored := ha.of_objects rfl hinserted.objects
    have h2 := (h1.dequeued ((hinserted.data _).trans hdata)).collectGarbage
    exact h2.of_objects hroots (by rw [hregistry]; rfl)

/-! ### Steps and runs -/

/-- A new process joins the job of its parent before it starts; without room there it does not
start. -/
def spawnProcess (process : Process) : Syscall Unit := do
  match process.job with
  | some job => capabilityJobAddMember job process.processId
  | none => pure ()
  modify fun s => { s with processes := s.processes ++ [process] }

theorem safeCall_spawnProcess {process : Process} : SafeCall (spawnProcess process) := by
  have hstart : SafeCall (modify fun s => { s with processes := s.processes ++ [process] }) :=
    .modify fun h => h.of_eq rfl rfl
  unfold spawnProcess
  split
  · exact safeCall_capabilityJobAddMember.bind fun _ => hstart
  · exact (SafeCall.return ()).bind fun _ => hstart

/-- A proxy of the kernel makes an endpoint for replies.  The registry is free again before the endpoint
becomes a root. -/
def kernelCreateReplyEndpoint : Syscall Unit := do
  let object ← createObject .endpoint (.endpoint ⟨[], .loopback⟩)
  modify fun s => { s with kernelObjects := s.kernelObjects ++ [.replyEndpoint object.id] }

/-- A proxy of the kernel makes a buffer, which also becomes a root later. -/
def kernelCreateBuffer (length : ℕ) : Syscall Unit := do
  modify System.collectGarbage
  read fun s => rejectIf
    (maxSharedMemoryTotalBytes < s.registry.sharedMemoryBytes + length) .noSpace
  let object ← createObject .sharedMemory (.sharedMemory (List.replicate length 0))
  modify fun s => { s with kernelObjects := s.kernelObjects ++ [.bulkBuffer object.id] }

/-- A service of the kernel queues a message in the endpoint itself, not in that of its peer.  It offers only
what it has made and keeps as a root. -/
def kernelSend (endpoint : ObjectRef) (bytes : List UInt8) (offered : Option KernelObject) :
    Syscall Unit := do
  read fun s => do
    rejectIf (offered.any fun made =>
      made ∉ s.kernelObjects ∨ made.capability.object ∉ s.rootObjects) .io
    match s.registry.data endpoint with
    | some (.endpoint state) => rejectIf (maxEndpointMessages ≤ state.queue.length) .tryAgain
    | _ => fail .io
  pushMessage endpoint ⟨0, bytes, offered.toList.map KernelObject.capability⟩

/-- A service of the kernel takes the oldest message of an endpoint that it serves. -/
def kernelTake (endpoint : ObjectRef) : Syscall EndpointMessage := do
  let _ ← read fun s => s.registry.frontMessage endpoint
  popMessage endpoint

/-- A device gets the endpoint that a call has made for it, unless another call was faster. -/
def System.commitBlockDevice (s : System) (key : ℕ × BlockDeviceAccess) (endpoint : ObjectRef) : System :=
  s.adjustDevice key fun device =>
    if endpoint ∈ device.opened then
      { device with endpoint := device.endpoint.or (some endpoint), opened := device.opened.erase endpoint }
    else device

/-- What can happen: calls, and what the kernel does between them. -/
inductive Action where
  | call (m : UserMemory) (target : ExecutionTarget) (c : Call)
  | spawnProcess (process : Process)
  | exitProcess (processId : ℕ)
  | reapProcess (process : Process) (status : ℕ)
  | reapDeadProcesses
  | removeProcess (processId : ℕ)
  | serviceObjectWaitDeadlines (nowNs : ℕ)
  | wakeSatisfiedObjectWaiters
  | kernelCreateReplyEndpoint
  | kernelCreateBuffer (length : ℕ)
  | kernelRootAdd (object : ObjectRef)
  | kernelRootRemove (object : ObjectRef)
  | kernelSend (endpoint : ObjectRef) (bytes : List UInt8) (offered : Option KernelObject)
  | kernelTake (endpoint : ObjectRef)
  | commitBlockDevice (key : ℕ × BlockDeviceAccess) (endpoint : ObjectRef)
  | offlineBlockDevice (key : ℕ × BlockDeviceAccess)
  | collectGarbage

def endState {α : Type} (call : Syscall α) (s : System) : System :=
  match call s with
  | .ok _ s' => s'
  | .error _ s' => s'

namespace Action

/-- The kernel adds no root for an object that is gone. -/
def Careful (s : System) : Action → Prop
  | .kernelRootAdd object => (s.registry.data object).isSome
  | _ => True

def apply (s : System) : Action → System
  | .call m target c => endState (c.run m target) s
  | .spawnProcess process => endState (Kernel.spawnProcess process) s
  | .exitProcess processId => { s with
      processes := s.processes.map fun process =>
        if process.processId = processId then { process with live := false } else process }
  | .reapProcess process status => s.reapProcess process status
  | .reapDeadProcesses => s.capabilityReapDeadProcesses
  | .removeProcess processId => s.capabilityRemoveProcess processId
  | .serviceObjectWaitDeadlines nowNs => s.serviceObjectWaitDeadlines nowNs
  | .wakeSatisfiedObjectWaiters => s.wakeSatisfiedObjectWaiters
  | .kernelCreateReplyEndpoint => endState Kernel.kernelCreateReplyEndpoint s
  | .kernelCreateBuffer length => endState (Kernel.kernelCreateBuffer length) s
  | .kernelRootAdd object => s.kernelCapabilityRootAdd object
  | .kernelRootRemove object => s.kernelCapabilityRootRemove object
  | .kernelSend endpoint bytes offered => endState (Kernel.kernelSend endpoint bytes offered) s
  | .kernelTake endpoint => endState (Kernel.kernelTake endpoint) s
  | .commitBlockDevice key endpoint => s.commitBlockDevice key endpoint
  | .offlineBlockDevice key => s.adjustDevice key fun device => { device with online := false }
  | .collectGarbage => s.collectGarbage

end Action

/-- Before the first step there are no objects, and no device is open. -/
structure System.Initial (s : System) : Prop where
  registry : s.registry = .new
  roots : s.roots = []
  waiters : s.waiters = []
  kernelObjects : s.kernelObjects = []
  devices : ∀ device ∈ s.devices, device.endpoint = none ∧ device.opened = []

/-- The states that are reached. -/
def Reachable : System → Prop :=
  Machine.Reachable System.Initial (fun _ _ => True) fun s (a : Action) => a.apply s

/-- The states that are reached while the kernel adds roots for present objects only. -/
def CarefullyReachable : System → Prop :=
  Machine.Reachable System.Initial (fun s a => a.Careful s) fun s (a : Action) => a.apply s

theorem Reachable.step {a : Action} (h : Reachable s) : Reachable (a.apply s) :=
  Machine.Reachable.step h trivial

theorem endState_of_triple {α : Type} {call : Syscall α} {Q : System → Prop}
    (h : Triple (· = s) call (fun _ => Q) (fun _ => Q)) : Q (endState call s) := by
  have hs := h s rfl
  unfold endState
  cases hcall : call s with
  | ok | error => rwa [hcall] at hs

theorem endState_of_ok {α : Type} {call : Syscall α} {v : α} (h : call s = .ok v s') :
    endState call s = s' := by rw [endState, h]

theorem triple_of_ok {α : Type} {call : Syscall α} {v : α} {Q : α → System → Prop}
    {E : Fault Errno → System → Prop} (h : Triple (· = s) call Q E) (hrun : call s = .ok v s') : Q v s' := by
  have hs := h s rfl
  rwa [hrun] at hs

theorem triple_of_error {α : Type} {call : Syscall α} {e : Fault Errno} {Q : α → System → Prop}
    {E : Fault Errno → System → Prop} (h : Triple (· = s) call Q E)
    (hrun : call s = .error e s') : E e s' := by
  have hs := h s rfl
  rwa [hrun] at hs

theorem exists_ok_of_triple {α : Type} {call : Syscall α} {Q : α → System → Prop}
    (h : Triple (· = s) call Q fun _ _ => False) : ∃ v s', call s = .ok v s' ∧ Q v s' := by
  cases hrun : call s with
  | ok v s' => exact ⟨v, s', rfl, triple_of_ok h hrun⟩
  | error => exact (triple_of_error h hrun).elim

theorem SafeCall.endState {α : Type} {call : Syscall α} (hcall : SafeCall call) (h : s.Sound) :
    s.Safe (endState call s) := endState_of_triple (hcall s s (.refl h))

theorem safeCall_createObject {kind : ObjectKind} {data : ObjectData} (hd : NewData kind data) :
    SafeCall (createObject kind data) := by
  intro s0 s h
  refine (createObject_spec h).imp_ok ?_
  rintro _ _ ⟨-, rfl⟩
  exact h.addNew hd

theorem safeCall_kernelCreateReplyEndpoint : SafeCall kernelCreateReplyEndpoint :=
  (safeCall_createObject newData_loopback).bind fun _ => .modify fun h => h.of_eq rfl rfl

theorem safeCall_kernelCreateBuffer {length : ℕ} : SafeCall (kernelCreateBuffer length) := by
  have hd : NewData .sharedMemory (.sharedMemory (replicate length 0)) :=
    ⟨rfl, rfl, fun _ _ => trivial, rfl⟩
  refine (SafeCall.modify fun h => h.collectGarbage).bind fun _ => SafeCall.read_only.bind fun _ => ?_
  exact (safeCall_createObject hd).bind fun _ => .modify fun h => h.of_eq rfl rfl

variable {endpoint : ObjectRef} {bytes : List UInt8} {offered : Option KernelObject}

theorem kernelSend_spec : Triple (· = s) (kernelSend endpoint bytes offered)
      (fun _ s' => (∀ made ∈ offered, made ∈ s.kernelObjects ∧ made.capability.object ∈ s.rootObjects) ∧
        s'.roots = s.roots ∧ s.registry.Sent 0 [] ⟨0, bytes, offered.toList.map KernelObject.capability⟩
          endpoint s'.registry) (fun _ s' => s' = s) := by
  refine triple_read_bind (fun _ hp => ?_) fun _ _ => rfl
  simp only [run_eq_ok] at hp
  obtain ⟨hoffered, hp⟩ := hp
  cases hdata : s.registry.data endpoint with
  | none => simp [hdata] at hp
  | some d =>
    cases d with
    | endpoint state =>
      simp only [hdata, rejectIf_eq_ok, not_le] at hp
      refine (pushMessage_spec hdata).imp_ok ?_
      rintro _ _ rfl
      refine ⟨fun made hmade => ?_, rfl, sent_of_setData hdata hp⟩
      obtain rfl := Option.mem_def.1 hmade
      simpa using hoffered
    | _ => simp [hdata] at hp

theorem kernelTake_spec : Triple (· = s) (kernelTake endpoint) (fun message s' => ∃ rest peer,
      s.registry.data endpoint = some (.endpoint ⟨message :: rest, peer⟩) ∧
      s' = { s with registry := s.registry.setData endpoint (.endpoint ⟨rest, peer⟩) })
      (fun _ s' => s' = s) := by
  refine triple_read_bind (fun message hfront => ?_) fun _ _ => rfl
  obtain ⟨rest, peer, hdata⟩ := frontMessage_eq_ok hfront
  refine (popMessage_spec hdata).imp_ok ?_
  rintro _ _ ⟨rfl, rfl⟩
  exact ⟨rest, peer, hdata, rfl⟩

/-- What a step does with capabilities: a call that succeeds has its own effect, a service of the kernel sends
or takes a message, a root is added, or no capability is moved. -/
inductive Effect (s : System) : Action → System → Prop where
  | call {m : UserMemory} {target : ExecutionTarget} {c : Call} {v : Option ℕ} {s' : System}
      (hrun : c.run m target s = .ok v s') (he : CallEffect m s target.processId c s') :
      Effect s (.call m target c) s'
  | safe {a : Action} {s' : System} (h : s.Safe s') : Effect s a s'
  | rootAdded {object : ObjectRef} : Effect s (.kernelRootAdd object) (s.kernelCapabilityRootAdd object)
  | kernelSent {endpoint : ObjectRef} {bytes : List UInt8} {offered : Option KernelObject} {v : Unit}
      {s' : System} (hrun : kernelSend endpoint bytes offered s = .ok v s')
      (hoffered : ∀ made ∈ offered, made ∈ s.kernelObjects ∧ made.capability.object ∈ s.rootObjects)
      (hroots : s'.roots = s.roots) (hsent : s.registry.Sent 0 []
        ⟨0, bytes, offered.toList.map KernelObject.capability⟩ endpoint s'.registry) :
      Effect s (.kernelSend endpoint bytes offered) s'
  | kernelTaken {endpoint : ObjectRef} {message : EndpointMessage} {rest : List EndpointMessage}
      {peer : EndpointPeer} {s' : System} (hrun : kernelTake endpoint s = .ok message s')
      (hdata : s.registry.data endpoint = some (.endpoint ⟨message :: rest, peer⟩))
      (hs' : s' = { s with registry := s.registry.setData endpoint (.endpoint ⟨rest, peer⟩) }) :
      Effect s (.kernelTake endpoint) s'

/-- **Every step** has one of these effects. -/
theorem effect_apply (h : s.Sound) (a : Action) : Effect s a (a.apply s) := by
  have hrefl := Safe.refl h
  cases a with
  | call m target c =>
    have heffect : Triple (· = s) (c.run m target)
        (fun _ s' => CallEffect m s target.processId c s') (fun _ s' => s.Safe s') := callEffect_run c h
    change Effect s _ (endState (c.run m target) s)
    cases hrun : c.run m target s with
    | ok =>
      rw [endState_of_ok hrun]
      have he := triple_of_ok heffect hrun
      exact .call hrun he
    | error =>
      rw [endState, hrun]
      exact .safe (triple_of_error heffect hrun)
  | kernelSend endpoint bytes offered =>
    change Effect s _ (endState (kernelSend endpoint bytes offered) s)
    cases hrun : kernelSend endpoint bytes offered s with
    | ok =>
      rw [endState_of_ok hrun]
      obtain ⟨hoffered, hroots, hsent⟩ := triple_of_ok kernelSend_spec hrun
      exact .kernelSent hrun hoffered hroots hsent
    | error =>
      rw [endState, hrun]
      obtain rfl := triple_of_error kernelSend_spec hrun
      exact .safe hrefl
  | kernelTake endpoint =>
    change Effect s _ (endState (kernelTake endpoint) s)
    cases hrun : kernelTake endpoint s with
    | ok =>
      rw [endState_of_ok hrun]
      obtain ⟨rest, peer, hdata, hs'⟩ := triple_of_ok kernelTake_spec hrun
      exact .kernelTaken hrun hdata hs'
    | error =>
      rw [endState, hrun]
      obtain rfl := triple_of_error kernelTake_spec hrun
      exact .safe hrefl
  | kernelRootAdd => exact .rootAdded
  | spawnProcess => exact .safe (safeCall_spawnProcess.endState h)
  | exitProcess => exact .safe (hrefl.of_eq rfl rfl)
  | reapProcess => exact .safe hrefl.reapProcess
  | reapDeadProcesses => exact .safe hrefl.reapDeadProcesses
  | removeProcess processId => exact .safe (hrefl.removeProcess processId)
  | serviceObjectWaitDeadlines => exact .safe hrefl.serviceObjectWaitDeadlines
  | wakeSatisfiedObjectWaiters => exact .safe hrefl.wakeSatisfiedObjectWaiters
  | kernelCreateReplyEndpoint => exact .safe (safeCall_kernelCreateReplyEndpoint.endState h)
  | kernelCreateBuffer => exact .safe (safeCall_kernelCreateBuffer.endState h)
  | kernelRootRemove => exact .safe hrefl.rootRemove
  | commitBlockDevice | offlineBlockDevice => exact .safe (hrefl.of_eq rfl rfl)
  | collectGarbage => exact .safe hrefl.collectGarbage

@[simp] theorem registry_rootAdd {object : ObjectRef} :
    (s.kernelCapabilityRootAdd object).registry = s.registry := by
  unfold kernelCapabilityRootAdd
  split <;> rfl

/-- The capability that a proxy offers is a proper one. -/
theorem properRights_capability (made : KernelObject) :
    ProperRights made.capability.object made.capability.rights := by
  cases made with
  | replyEndpoint =>
    have hrights : Right.send ≠ 0 ∧ Within Right.send (capabilityAllowedRights .endpoint) := by decide
    exact hrights
  | bulkBuffer =>
    have hrights : Right.read ||| Right.write ≠ 0 ∧
        Within (Right.read ||| Right.write) (capabilityAllowedRights .sharedMemory) := by decide
    exact hrights

variable {a : Action}

theorem Effect.sound (h : s.Sound) (he : Effect s a s') : s'.Sound := by
  cases he with
  | call hrun he => exact he.sound h
  | safe hsafe => exact hsafe.1
  | rootAdded =>
    unfold System.Sound
    rwa [registry_rootAdd]
  | kernelSent hrun hoffered hroots hsent =>
    refine Sound.sent h hsent fun c hc => ?_
    obtain ⟨made, -, rfl⟩ := mem_map.1 hc
    exact properRights_capability made
  | kernelTaken hrun hdata hs' =>
    rw [hs']
    exact Sound.dequeue h hdata

theorem Effect.anchored (h : s.Sound) (ha : s.Anchored) (hcareful : a.Careful s) (he : Effect s a s') :
    s'.Anchored := by
  cases he with
  | call hrun he => exact he.anchored h ha
  | safe hsafe => exact hsafe.3 ha
  | rootAdded => exact ((Safe.refl h).rootAdd hcareful).3 ha
  | kernelSent hrun hoffered hroots hsent =>
    refine ha.sent hroots hsent fun c hc => ?_
    obtain ⟨made, hmade, rfl⟩ := mem_map.1 hc
    exact ha.roots _ (hoffered made (Option.mem_toList.1 hmade)).2
  | kernelTaken hrun hdata hs' =>
    rw [hs']
    exact ha.dequeued hdata

theorem System.Initial.sound (h : s.Initial) : s.Sound := by
  unfold System.Sound
  rw [h.registry]
  exact sound_new

/-- **Every state that is reached is sound.** -/
theorem sound_of_reachable (h : Reachable s) : s.Sound := by
  induction h with
  | start h => exact h.sound
  | step _ _ ih => exact (effect_apply ih _).sound ih

/-- **Without a root for a missing object** everything that the kernel or a message needs is there. -/
theorem anchored_of_careful (h : CarefullyReachable s) : s.Sound ∧ s.Anchored := by
  induction h with
  | start h =>
    refine ⟨h.sound, fun o ho => ?_, fun o message hm => ?_⟩
    · simp [rootObjects, h.roots] at ho
    · simp [h.registry, messages, data, Registry.new] at hm
  | @step s a _ ha ih =>
    have he := effect_apply ih.1 a
    exact ⟨he.sound ih.1, he.anchored ih.1 ih.2 ha⟩

/-! ### A small system

The first process alone, with a memory that is all zero. -/

def zeroMemory : UserMemory where
  allows _ _ _ _ := true
  load _ _ := 0

def bootSystem : System where
  registry := .new
  roots := []
  devices := [⟨3, .writable, none, true, []⟩]
  kernelObjects := []
  processes := [⟨initProcessId, none, true, none⟩]
  waiters := []
  now := 0
  results := []
  popped := []
  writes := []

theorem initial_bootSystem : bootSystem.Initial := ⟨rfl, rfl, rfl, rfl, by decide⟩

def bootCall (c : Call) : Action := .call zeroMemory ⟨initProcessId, 0⟩ c

def afterActions (actions : List Action) : System := actions.foldl (fun s a => a.apply s) bootSystem

/-- The system after calls of the first process. -/
def afterCalls (calls : List Call) : System := afterActions (calls.map bootCall)

theorem reachable_afterActions (actions : List Action) : Reachable (afterActions actions) :=
  Machine.Reachable.foldl (.start initial_bootSystem) actions

theorem reachable_afterCalls (calls : List Call) : Reachable (afterCalls calls) := reachable_afterActions _

end Kernel
