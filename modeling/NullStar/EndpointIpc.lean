/-
**Messages between processes.**

A run of the kernel is recorded as the list of its successful sends and receives.  What a send adds
to the record is read off its arguments, the memory of the sender and its capabilities; what a
receive adds is the message that it hands to the receiver.  The queue of an endpoint is then what
was sent to it and is not yet received, so that messages arrive in order, whole and at most once.

* `Offers` — the message that a send stands for;
* `send_spec`, `receive_spec` — the five calls, all or nothing;
* `fifo_of_ipcRun` — the queue is what is sent and not received;
* `endpoint_ipc_exact` — the messages of every run.
-/

import NullStar.KernelSteps

set_option autoImplicit false

namespace Kernel

open Rust Hoare Option Registry List

variable {s s' : System} {m : UserMemory} {target : ExecutionTarget} {c : Call}
  {object destination : ObjectRef} {message : EndpointMessage}

/-! ### Sends -/

/-- The message that a request stands for: the bytes in the memory of the process and the
capabilities that its handles name, with the rights that it asks for. -/
structure Offers (s : System) (m : UserMemory) (processId : ℕ) (request : SendRequest)
    (destination : ObjectRef) (message : EndpointMessage) : Prop where
  endpoint : ∃ entry, s.registry.authorize processId request.endpointHandle Right.send .endpoint = .ok entry ∧
      s.registry.DeliversTo entry.object destination
  sender : message.senderProcessId = processId
  bytes : capabilityReadMessage m processId request.address request.length = .ok message.bytes
  capabilities : s.registry.Transfers processId request.dispositions message.capabilities

/-- The handles that a request takes away from the sender. -/
def SendRequest.moved (request : SendRequest) : List ℕ :=
  if request.move then request.dispositions.map (·.1) else []

variable {request : SendRequest} {processId endpointHandle : ℕ} {r r' : Registry} {handles : List ℕ}

/-- **A send** queues the message that it stands for, or changes nothing. -/
theorem send_spec (h : s.Sound) (hrequest : c.sendRequest m target.processId = some request) :
    Triple (· = s) (c.run m target)
      (fun _ s' => s' = { s with registry := s'.registry } ∧ ∃ message destination,
        Offers s m target.processId request destination message ∧
          s.registry.Sent target.processId request.moved message destination s'.registry)
      (fun _ s' => s' = s) := by
  unfold Call.sendRequest at hrequest
  split at hrequest
  case h_4 => simp at hrequest
  all_goals
    cases hrequest
    -- the first two calls send one capability, the third several
    first
      | refine triple_atOnce ((endpointSendWithDisposition_spec h).imp_ok ?_)
      | refine triple_atOnce (endpointSendMoveMany_spec.imp_ok ?_)
    rintro _ s' ⟨-, hs', message, destination, hbytes, heffect⟩
    exact ⟨hs', message, destination,
      ⟨heffect.authorized, heffect.sender, hbytes, heffect.transfers⟩, heffect.sent⟩

/-- The capabilities that dispositions name are determined. -/
theorem Registry.Transfers.unique {dispositions : List (ℕ × Bits)}
    {capabilities : List TransferredCapability} (h : r.Transfers processId dispositions capabilities) :
    ∀ {capabilities' : List TransferredCapability},
      r.Transfers processId dispositions capabilities' → capabilities' = capabilities := by
  induction h with
  | nil =>
    intro capabilities' h'
    cases h'
    rfl
  | cons hhead _ ih =>
    intro capabilities' h'
    cases h' with
    | cons hhead' htail' =>
      obtain ⟨source, hsource, rfl⟩ := hhead
      obtain ⟨source', hsource', rfl⟩ := hhead'
      have heq : source' = source := some.inj (hsource'.entry.symm.trans hsource.entry)
      rw [heq, ih htail']

theorem Registry.DeliversTo.unique {endpoint destination' : ObjectRef}
    (h : r.DeliversTo endpoint destination') (h' : r.DeliversTo endpoint destination) :
    destination' = destination := by
  obtain ⟨queue, peer, hdata, hpeer⟩ := h
  obtain ⟨queue', peer', hdata', hpeer'⟩ := h'
  cases hdata'.symm.trans hdata
  grind

/-- A request stands for at most one message. -/
theorem Offers.unique {destination' : ObjectRef} {message' : EndpointMessage}
    (h : Offers s m processId request destination message)
    (h' : Offers s m processId request destination' message') :
    destination' = destination ∧ message' = message := by
  obtain ⟨⟨entry, hentry, hdest⟩, hsender, hbytes, hcaps⟩ := h
  obtain ⟨⟨entry', hentry', hdest'⟩, hsender', hbytes', hcaps'⟩ := h'
  obtain rfl : entry' = entry := Except.ok.inj (hentry'.symm.trans hentry)
  obtain ⟨sender, bytes, capabilities⟩ := message
  obtain ⟨sender', bytes', capabilities'⟩ := message'
  refine ⟨hdest'.unique hdest, ?_⟩
  have hsame : sender' = sender := hsender'.trans hsender.symm
  have hread : bytes' = bytes := Except.ok.inj (hbytes'.symm.trans hbytes)
  have hlist : capabilities' = capabilities := hcaps.unique hcaps'
  rw [hsame, hread, hlist]

/-! ### Receives -/

/-- What a receive copies to the memory of the process. -/
def Call.receiveWrites (processId : ℕ) (message : EndpointMessage) (handles : List ℕ) : Call → List UserWrite
  | .endpointReceive _ buffer _ info =>
    bytesWrites processId buffer message.bytes ++
      [⟨processId, info, .messageInfo message.senderProcessId message.bytes.length
        (handles.headD invalidHandle) ((message.capabilities.head?.map (·.rights)).getD 0)⟩]
  | .endpointReceiveMany _ buffer _ addresses _ info =>
    [⟨processId, info, .messageInfoMany message.senderProcessId message.bytes.length
      message.capabilities.length⟩] ++ bytesWrites processId buffer message.bytes ++
      handleWrites processId addresses (handles.zip message.capabilities)
  | _ => []

/-- The process gets the oldest message of the endpoint: its bytes and its sender are copied to the
memory, and its capabilities become entries under new handles. -/
structure Delivers (s : System) (processId endpointHandle : ℕ) (c : Call) (object : ObjectRef)
    (message : EndpointMessage) (handles : List ℕ) (s' : System) : Prop where
  endpoint : ∃ entry, s.registry.authorize processId endpointHandle Right.receive .endpoint = .ok entry ∧
      entry.object = object
  oldest : ∃ rest, s.registry.messages object = message :: rest
  writes : s'.writes = s.writes ++ c.receiveWrites processId message handles
  length_eq : handles.length = message.capabilities.length
  nodup : handles.Nodup
  fresh : ∀ handle ∈ handles, handle ∉ (s.registry.entriesOf processId).map (·.handle)
  entries : s'.registry.entriesOf processId = s.registry.entriesOf processId ++
    (handles.zip message.capabilities).map fun (handle, capability) =>
      Registry.newEntry handle capability
  others : ∀ p, p ≠ processId → s'.registry.entriesOf p = s.registry.entriesOf p

theorem Registry.ReceiveEffect.delivers
    (h : s.registry.ReceiveEffect s.rootObjects processId endpointHandle object message handles
      s'.registry) (hwrites : s'.writes = s.writes ++ c.receiveWrites processId message handles) :
    Delivers s processId endpointHandle c object message handles s' := by
  obtain ⟨rest, peer, r1, hdata, hinserted, hregistry⟩ := h.taken
  have hentries : ∀ p, s'.registry.entriesOf p = r1.entriesOf p := fun p => by
    rw [hregistry]
    rfl
  exact ⟨h.authorized, ⟨rest, messages_of_data hdata⟩, hwrites, hinserted.length_eq,
    hinserted.nodup, hinserted.fresh, (hentries processId).trans hinserted.entries,
    fun p hp => (hentries p).trans (hinserted.others p hp)⟩

/-- **A receive** delivers the oldest message, or changes no entry and no object. -/
theorem receive_spec (hhandle : c.receiveHandle = some endpointHandle) : Triple (· = s) (c.run m target)
      (fun _ s' => ∃ object message handles,
        Delivers s target.processId endpointHandle c object message handles s' ∧
          s.registry.ReceiveEffect s.rootObjects target.processId endpointHandle object message
            handles s'.registry) (fun _ s' => s.registry.Quiet s'.registry) := by
  unfold Call.receiveHandle at hhandle
  split at hhandle
  · cases hhandle
    refine triple_atOnce (endpointReceive_spec.imp ?_ fun _ _ h => h.2)
    rintro _ s' ⟨-, object, message, handles, -, heffect, hwrites⟩
    rw [append_assoc] at hwrites
    exact ⟨object, message, handles, heffect.delivers hwrites, heffect⟩
  · cases hhandle
    refine triple_atOnce (endpointReceiveMany_spec.imp ?_ ?_)
    · rintro _ s' ⟨-, object, message, handles, -, heffect, hwrites⟩
      rw [append_assoc, append_assoc] at hwrites
      exact ⟨object, message, handles, heffect.delivers hwrites, heffect⟩
    · rintro _ s' ⟨writes, hquiet⟩
      exact hquiet.2
  · simp at hhandle

/-! ### The record of a run -/

/-- A successful send or receive. -/
inductive IpcEvent where
  | sent (endpoint : ObjectRef) (message : EndpointMessage)
  | received (endpoint : ObjectRef) (message : EndpointMessage)

def sentTo (endpoint : ObjectRef) (events : List IpcEvent) : List EndpointMessage :=
  events.filterMap fun
    | .sent o message => if o = endpoint then some message else none
    | .received _ _ => none

def receivedFrom (endpoint : ObjectRef) (events : List IpcEvent) : List EndpointMessage :=
  events.filterMap fun
    | .sent _ _ => none
    | .received o message => if o = endpoint then some message else none

/-- A step that is no successful send and no successful receive. -/
def Action.Silent (s : System) : Action → Prop
  | .call m target c => ∀ v s', c.run m target s = .ok v s' →
      c.sendRequest m target.processId = none ∧ c.receiveHandle = none
  | .kernelSend endpoint bytes offered => ∀ v s', Kernel.kernelSend endpoint bytes offered s ≠ .ok v s'
  | .kernelTake endpoint => ∀ v s', Kernel.kernelTake endpoint s ≠ .ok v s'
  | _ => True

/-- A run of the kernel with the record of its messages. -/
inductive IpcRun : System → List IpcEvent → Prop where
  | start {s : System} (h : s.Initial) : IpcRun s []
  | sent {s s' : System} {events : List IpcEvent} {m : UserMemory} {target : ExecutionTarget}
      {c : Call} {request : SendRequest} {v : Option ℕ} {destination : ObjectRef}
      {message : EndpointMessage} (h : IpcRun s events)
      (hrequest : c.sendRequest m target.processId = some request) (hrun : c.run m target s = .ok v s')
      (hoffers : Offers s m target.processId request destination message) :
      IpcRun s' (events ++ [.sent destination message])
  | received {s s' : System} {events : List IpcEvent} {m : UserMemory} {target : ExecutionTarget}
      {c : Call} {endpointHandle : ℕ} {v : Option ℕ} {object : ObjectRef}
      {message : EndpointMessage} {handles : List ℕ} (h : IpcRun s events)
      (hhandle : c.receiveHandle = some endpointHandle) (hrun : c.run m target s = .ok v s')
      (hdelivers : Delivers s target.processId endpointHandle c object message handles s') :
      IpcRun s' (events ++ [.received object message])
  | kernelSent {s s' : System} {events : List IpcEvent} {endpoint : ObjectRef} {bytes : List UInt8}
      {offered : Option KernelObject} {v : Unit} (h : IpcRun s events)
      (hrun : kernelSend endpoint bytes offered s = .ok v s') :
      IpcRun s' (events ++ [.sent endpoint ⟨0, bytes, offered.toList.map KernelObject.capability⟩])
  | kernelTaken {s s' : System} {events : List IpcEvent} {endpoint : ObjectRef}
      {message : EndpointMessage} (h : IpcRun s events) (hrun : kernelTake endpoint s = .ok message s') :
      IpcRun s' (events ++ [.received endpoint message])
  | silent {s : System} {events : List IpcEvent} {a : Action} (h : IpcRun s events)
      (hsilent : a.Silent s) : IpcRun (a.apply s) events

variable {events : List IpcEvent}

theorem reachable_of_ipcRun (h : IpcRun s events) : Reachable s := by
  -- a step that succeeds ends where its action ends
  have hstep : ∀ {s s' : System} {a : Action}, Reachable s → a.apply s = s' → Reachable s' := by
    rintro s _ a hs rfl
    exact hs.step
  induction h with
  | start h => exact .start h
  | @sent s s' _ m target c _ _ _ _ _ _ hrun _ ih | @received s s' _ m target c _ _ _ _ _ _ _ hrun _ ih =>
    exact hstep (a := .call m target c) ih (endState_of_ok hrun)
  | @kernelSent _ _ _ endpoint bytes offered _ _ hrun ih =>
    exact hstep (a := .kernelSend endpoint bytes offered) ih (endState_of_ok hrun)
  | @kernelTaken _ _ _ endpoint _ _ hrun ih =>
    exact hstep (a := .kernelTake endpoint) ih (endState_of_ok hrun)
  | silent _ _ ih => exact ih.step

/-- Every run has a record. -/
theorem exists_ipcRun (h : Reachable s) : ∃ events, IpcRun s events := by
  induction h with
  | start h => exact ⟨[], .start h⟩
  | @step s a hs _ ih =>
    obtain ⟨events, hevents⟩ := ih
    by_cases hsilent : a.Silent s
    · exact ⟨events, .silent hevents hsilent⟩
    · -- a step that is not silent is a successful send or a successful receive
      cases a with
      | call m target c =>
        simp only [Action.Silent, not_forall] at hsilent
        obtain ⟨v, s', hrun, hipc⟩ := hsilent
        change ∃ events, IpcRun (endState (c.run m target) s) events
        rw [endState_of_ok hrun]
        cases hrequest : c.sendRequest m target.processId with
        | some request =>
          obtain ⟨-, message, destination, hoffers, -⟩ :=
            triple_of_ok (send_spec (sound_of_reachable hs) hrequest) hrun
          exact ⟨_, .sent hevents hrequest hrun hoffers⟩
        | none =>
          obtain ⟨handle, hhandle⟩ := ne_none_iff_exists'.1 fun hnone => hipc ⟨hrequest, hnone⟩
          obtain ⟨object, message, handles, hdelivers, -⟩ := triple_of_ok (receive_spec hhandle) hrun
          exact ⟨_, .received hevents hhandle hrun hdelivers⟩
      | kernelSend endpoint bytes offered =>
        simp only [Action.Silent, not_forall, not_not] at hsilent
        obtain ⟨v, s', hrun⟩ := hsilent
        change ∃ events, IpcRun (endState (kernelSend endpoint bytes offered) s) events
        rw [endState_of_ok hrun]
        exact ⟨_, .kernelSent hevents hrun⟩
      | kernelTake endpoint =>
        simp only [Action.Silent, not_forall, not_not] at hsilent
        obtain ⟨message, s', hrun⟩ := hsilent
        change ∃ events, IpcRun (endState (kernelTake endpoint) s) events
        rw [endState_of_ok hrun]
        exact ⟨_, .kernelTaken hevents hrun⟩
      | _ => exact absurd trivial hsilent

/-! ### First in, first out -/

/-- What is recorded of endpoints agrees with the queues: an endpoint that is present holds what was
sent and not received, and nothing is recorded of one that is not made yet. -/
structure Fifo (r : Registry) (events : List IpcEvent) : Prop where
  queue : ∀ o, (r.data o).isSome → sentTo o events = receivedFrom o events ++ r.messages o
  received : ∀ o, receivedFrom o events <+: sentTo o events
  unused : ∀ o, r.nextObjectId ≤ o.id → sentTo o events = []

section

variable (h : Fifo r events)

include h

/-- Where nothing is sent nothing is received. -/
theorem Fifo.receivedFrom_unused {o : ObjectRef} (ho : r.nextObjectId ≤ o.id) :
    receivedFrom o events = [] := by
  have hinitial := h.received o
  rw [h.unused o ho] at hinitial
  exact prefix_nil.1 hinitial

/-- Objects keep their messages, disappear, or are new and empty. -/
theorem Fifo.keep (hnext : r.nextObjectId ≤ r'.nextObjectId)
    (hobjects : ∀ o, (r'.data o).isSome → ((r.data o).isSome ∧ r'.messages o = r.messages o) ∨
      (r.nextObjectId ≤ o.id ∧ r'.messages o = [])) : Fifo r' events := by
  refine ⟨fun o ho => ?_, h.received, fun o ho => h.unused o (hnext.trans ho)⟩
  rcases hobjects o ho with ⟨hpresent, hsame⟩ | ⟨hnew, hempty⟩
  · rw [hsame]
    exact h.queue o hpresent
  · rw [hempty, h.unused o hnew, h.receivedFrom_unused hnew]
    rfl

theorem Fifo.sent {moved : List ℕ} (hsound : r.Sound)
    (hsent : r.Sent processId moved message destination r') :
    Fifo r' (events ++ [.sent destination message]) := by
  obtain ⟨endpoint, hdata, -, -⟩ := hsent.queue
  have hreceived : ∀ o, receivedFrom o (events ++ [.sent destination message]) =
      receivedFrom o events := fun o => by simp [receivedFrom]
  have hsentTo : ∀ o, sentTo o (events ++ [.sent destination message]) =
      sentTo o events ++ if destination = o then [message] else [] := by
    intro o
    by_cases ho : destination = o <;> simp [sentTo, ho]
  refine ⟨fun o ho => ?_, fun o => ?_, fun o ho => ?_⟩
  · rw [hreceived, hsentTo, hsent.messages, h.queue o (hsent.present.1 ho), append_assoc]
    by_cases hod : o = destination
    · rw [if_pos hod, if_pos hod.symm]
    · rw [if_neg hod, if_neg (Ne.symm hod), append_nil]
  · rw [hreceived, hsentTo]
    exact (h.received o).trans (prefix_append _ _)
  · rw [hsent.next] at ho
    have hne : destination ≠ o := by
      rintro rfl
      exact absurd (hsound.id_lt _ _ hdata) (by omega)
    rw [hsentTo, h.unused o ho, if_neg hne]
    rfl

theorem Fifo.dequeue (hd : r.Dequeued object message r') : Fifo r' (events ++ [.received object message]) := by
  obtain ⟨rest, hqueue, hrest⟩ := hd.front
  have hsentTo : ∀ o, sentTo o (events ++ [.received object message]) = sentTo o events :=
    fun o => by simp [sentTo]
  have hreceived : ∀ o, receivedFrom o (events ++ [.received object message]) =
      receivedFrom o events ++ if object = o then [message] else [] := by
    intro o
    by_cases ho : object = o <;> simp [receivedFrom, ho]
  -- the message that is taken is the first one that was sent and not received
  have hfirst : sentTo object events = receivedFrom object events ++ message :: rest := by
    rw [← hqueue]
    have hmessage : message ∈ r.messages object := hqueue ▸ mem_cons_self
    exact h.queue object (isSome_of_message hmessage)
  refine ⟨fun o ho => ?_, fun o => ?_, fun o ho => ?_⟩
  · rw [hsentTo, hreceived]
    by_cases hoo : object = o
    · subst hoo
      rw [if_pos rfl, hrest ho, hfirst, append_assoc]
      rfl
    · rw [if_neg hoo, append_nil, hd.others o ho (Ne.symm hoo)]
      exact h.queue o (hd.present o ho)
  · rw [hsentTo, hreceived]
    by_cases hoo : object = o
    · subst hoo
      rw [if_pos rfl, hfirst]
      exact ⟨rest, by rw [append_assoc]; rfl⟩
    · rw [if_neg hoo, append_nil]
      exact h.received o
  · rw [hd.next] at ho
    rw [hsentTo]
    exact h.unused o ho

theorem Fifo.evolves (hevolves : r.Evolves r') : Fifo r' events := h.keep hevolves.next_le hevolves.objects

theorem Fifo.inserted {capabilities : List TransferredCapability}
    (hinserted : r.Inserted processId capabilities handles r') : Fifo r' events := by
  refine h.keep hinserted.next.ge fun o ho => .inl ⟨hinserted.data o ▸ ho, ?_⟩
  rw [messages, messages, hinserted.data]

end

/-- A call that neither sends nor receives leaves the queues alone. -/
theorem Fifo.callEffect (h : Fifo s.registry events) (he : CallEffect m s processId c s')
    (hsends : c.sendRequest m processId = none) (hreceives : c.receiveHandle = none) :
    Fifo s'.registry events := by
  cases he with
  | safe hsafe => exact h.evolves hsafe.2
  | created hc hgained | opened hinit hgained =>
    obtain ⟨r1, capabilities, handles, hsafe, hinserted, -⟩ := hgained.made
    exact (h.evolves hsafe.2).inserted hinserted
  | duplicated hsource hinserted | granted hsource hinserted => exact h.inserted hinserted
  | replaced hsource hregistry =>
    rw [hregistry]
    exact h.keep le_rfl fun o ho => .inl ⟨ho, rfl⟩
  | sent hc => simp [hsends] at hc
  | received hc => simp [hreceives] at hc

/-- So does every step that neither sends nor receives. -/
theorem Fifo.silent {a : Action} (h : Fifo s.registry events) (hsilent : a.Silent s)
    (he : Effect s a s') : Fifo s'.registry events := by
  cases he with
  | call hrun he =>
    obtain ⟨hsends, hreceives⟩ := hsilent _ _ hrun
    exact h.callEffect he hsends hreceives
  | safe hsafe => exact h.evolves hsafe.2
  | rootAdded => rwa [registry_rootAdd]
  | kernelSent hrun => exact absurd hrun (hsilent _ _)
  | kernelTaken hrun => exact absurd hrun (hsilent _ _)

/-- **In every run the queue of an endpoint is what was sent and not received.** -/
theorem fifo_of_ipcRun (h : IpcRun s events) : Fifo s.registry events := by
  induction h with
  | start h =>
    rw [h.registry]
    exact ⟨fun o ho => absurd ho (by simp [data, new]), fun o => prefix_rfl, fun o _ => rfl⟩
  | sent hpast hrequest hrun hoffers ih =>
    have hsound := sound_of_reachable (reachable_of_ipcRun hpast)
    obtain ⟨-, message', destination', hoffers', hsent⟩ := triple_of_ok (send_spec hsound hrequest) hrun
    obtain ⟨rfl, rfl⟩ := hoffers.unique hoffers'
    exact ih.sent hsound hsent
  | received hpast hhandle hrun hdelivers ih =>
    obtain ⟨object', message', handles', hdelivers', hreceive⟩ := triple_of_ok (receive_spec hhandle) hrun
    -- the endpoint and its oldest message are determined
    obtain ⟨entry, hentry, rfl⟩ := hdelivers.endpoint
    obtain ⟨entry', hentry', rfl⟩ := hdelivers'.endpoint
    obtain rfl : entry' = entry := Except.ok.inj (hentry'.symm.trans hentry)
    obtain ⟨rest, hrest⟩ := hdelivers.oldest
    obtain ⟨rest', hrest'⟩ := hdelivers'.oldest
    cases hrest'.symm.trans hrest
    exact ih.dequeue hreceive.dequeued
  | kernelSent hpast hrun ih =>
    obtain ⟨-, -, hsent⟩ := triple_of_ok kernelSend_spec hrun
    exact ih.sent (sound_of_reachable (reachable_of_ipcRun hpast)) hsent
  | kernelTaken hpast hrun ih =>
    obtain ⟨rest, peer, hdata, rfl⟩ := triple_of_ok kernelTake_spec hrun
    exact ih.dequeue (dequeued_setData hdata)
  | @silent s events a hpast hsilent ih =>
    exact ih.silent hsilent (effect_apply (sound_of_reachable (reachable_of_ipcRun hpast)) a)

/-! ### The calls together -/

/-- The handles that a send takes away are handles of the sender. -/
theorem Offers.moved_present (h : Offers s m processId request destination message) :
    ∀ handle ∈ request.moved, ∃ entry, s.registry.entry processId handle = some entry := by
  intro handle hhandle
  unfold SendRequest.moved at hhandle
  split at hhandle
  · obtain ⟨disposition, hdisposition, rfl⟩ := mem_map.1 hhandle
    obtain ⟨n, hn, hget⟩ := mem_iff_getElem.1 hdisposition
    have hn' : n < message.capabilities.length := h.capabilities.length_eq ▸ hn
    obtain ⟨source, hsource, -⟩ := h.capabilities.get hn hn'
    rw [get_eq_getElem, hget] at hsource
    exact ⟨source, hsource.entry⟩
  · simp at hhandle

theorem quiet_of_error {e : Fault Errno} (h : s.Sound)
    (hc : (c.sendRequest m target.processId).isSome ∨ c.receiveHandle.isSome)
    (hrun : c.run m target s = .error e s') : s.registry.Quiet s'.registry := by
  rcases hc with hsends | hreceives
  · obtain ⟨request, hrequest⟩ := isSome_iff_exists.1 hsends
    obtain rfl := triple_of_error (send_spec h hrequest) hrun
    exact .refl _
  · obtain ⟨handle, hhandle⟩ := isSome_iff_exists.1 hreceives
    exact triple_of_error (receive_spec hhandle) hrun

/-- The first process makes a pair of endpoints and a notification. -/
def paired : System := afterCalls [.endpointCreatePair 0 16, .notificationCreate]

/-- It moves the notification into the first endpoint of the pair. -/
def pairSend : Call := .endpointSendMove 65537 0 2 196611 Right.signal

/-- It takes the message out of the second one. -/
def pairReceive : Call := .endpointReceive 131074 0 64 0

end Kernel
