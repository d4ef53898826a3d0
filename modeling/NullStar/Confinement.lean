/-
**Capabilities are confined.**

A capability is held by a process, as an entry of its table, or by an endpoint, in a message that
waits there.  Every capability that appears in a step of the kernel is accounted for: its object was
just created by the process that gets it, or it was narrowed from a capability that the acting
process had, or it was in the message that the process received.  So a right on an object is held
only at the end of a chain of sends, receives and grants that starts at its creator.

* `CallEffect.justified` — the capabilities that appear in a call;
* `chain_of_history` — every right has a chain;
* `capabilities_confined` — all of it, for every run.
-/

import NullStar.KernelSteps

set_option autoImplicit false

namespace Kernel

open Registry List

/-! ### Who has which capability -/

/-- What holds a capability: a process, or an endpoint with a message that carries it. -/
inductive Holder where
  | process (processId : ℕ)
  | queue (endpoint : ObjectRef)
  deriving DecidableEq

/-- The holder has a capability on the object with exactly these rights. -/
def System.Holds (s : System) (holder : Holder) (object : ObjectRef) (rights : Bits) : Prop :=
  match holder with
  | .process processId =>
    ∃ entry ∈ s.registry.entriesOf processId, entry.object = object ∧ entry.rights = rights
  | .queue endpoint =>
    ∃ message ∈ s.registry.messages endpoint, ⟨object, rights⟩ ∈ message.capabilities

variable {s s' : System} {processId : ℕ} {holder : Holder} {object : ObjectRef} {rights right : Bits}

theorem holds_process_of_mem {entry : CapabilityEntry} (h : entry ∈ s.registry.entriesOf processId) :
    s.Holds (.process processId) entry.object entry.rights := ⟨entry, h, rfl, rfl⟩

/-- No table entry and no queued capability has more rights than its kind allows. -/
theorem System.Sound.properRights (h : s.Sound) (hheld : s.Holds holder object rights) :
    ProperRights object rights := by
  cases holder with
  | process p =>
    obtain ⟨entry, hentry, rfl, rfl⟩ := hheld
    exact h.entry_rights p entry hentry
  | queue endpoint =>
    obtain ⟨message, hmessage, hmem⟩ := hheld
    cases hd : s.registry.data endpoint with
    | none =>
      rw [messages_of_none hd] at hmessage
      simp at hmessage
    | some d =>
      rw [messages_of_data hd] at hmessage
      cases d with
      | endpoint => exact (h.valid endpoint _ hd).2.1 message hmessage _ hmem
      | _ => exact absurd hmessage (by simp [ObjectData.messages])

/-! ### Capabilities that appear -/

section Reasons

variable (s : System) (m : UserMemory) (processId : ℕ) (c : Call) (object : ObjectRef) (rights : Bits)

/-- The process copies a capability that it may copy, or narrows it in place. -/
def System.Copies : Prop :=
  ∃ handle source, (c = .capabilityDuplicate handle rights ∨ c = .capabilityReplace handle rights) ∧
    s.registry.Source processId handle Right.duplicate rights source ∧ source.object = object

/-- The process gives a copy of a capability that it may pass on to its child. -/
def System.Grants (childProcessId : ℕ) : Prop :=
  ∃ handle slot source, c = .capabilityGrantChild childProcessId handle rights slot ∧
    s.registry.Source processId handle Right.transfer rights source ∧ source.object = object

/-- The process names a capability that it may pass on in a send, and the message goes to the destination. -/
def System.Sends (destination : ObjectRef) : Prop :=
  ∃ request entry handle source, c.sendRequest m processId = some request ∧
    s.registry.authorize processId request.endpointHandle Right.send .endpoint = .ok entry ∧
    s.registry.DeliversTo entry.object destination ∧ (handle, rights) ∈ request.dispositions ∧
    s.registry.Source processId handle Right.transfer rights source ∧ source.object = object

/-- The process receives the message that waits longest in the endpoint, and it carries the capability. -/
def System.Receives (endpoint : ObjectRef) : Prop :=
  ∃ endpointHandle entry message rest, c.receiveHandle = some endpointHandle ∧
    s.registry.authorize processId endpointHandle Right.receive .endpoint = .ok entry ∧
    entry.object = endpoint ∧ s.registry.messages endpoint = message :: rest ∧
    ⟨object, rights⟩ ∈ message.capabilities

end Reasons

/-- Why a capability may appear in a step, and where. -/
inductive Justified (s : System) : Action → Holder → ObjectRef → Bits → Prop where
  /-- All rights on an object with a new number, for its creator. -/
  | created {m : UserMemory} {target : ExecutionTarget} {c : Call} {object : ObjectRef} {rights : Bits}
      (hc : c.Creates) (hfresh : s.Fresh ⟨object, rights⟩) :
      Justified s (.call m target c) (.process target.processId) object rights
  | copied {m : UserMemory} {target : ExecutionTarget} {c : Call} {object : ObjectRef} {rights : Bits}
      (h : s.Copies target.processId c object rights) :
      Justified s (.call m target c) (.process target.processId) object rights
  | granted {m : UserMemory} {target : ExecutionTarget} {c : Call} {object : ObjectRef} {rights : Bits}
      {childProcessId : ℕ} (h : s.Grants target.processId c object rights childProcessId) :
      Justified s (.call m target c) (.process childProcessId) object rights
  | sent {m : UserMemory} {target : ExecutionTarget} {c : Call} {object destination : ObjectRef}
      {rights : Bits} (h : s.Sends m target.processId c object rights destination) :
      Justified s (.call m target c) (.queue destination) object rights
  | received {m : UserMemory} {target : ExecutionTarget} {c : Call} {object endpoint : ObjectRef}
      {rights : Bits} (h : s.Receives target.processId c object rights endpoint) :
      Justified s (.call m target c) (.process target.processId) object rights
  /-- The endpoint of a block device, for the first process. -/
  | opened {m : UserMemory} {target : ExecutionTarget} {object : ObjectRef} {rights : Bits}
      {partitionIndex : ℕ} {access : BlockDeviceAccess} (hinit : target.processId = initProcessId)
      (h : s.Opens partitionIndex access ⟨object, rights⟩) :
      Justified s (.call m target (.openBlockDeviceEndpoint partitionIndex access))
        (.process target.processId) object rights
  /-- What a service of the kernel has made for itself, in a request of that service. -/
  | offered {endpoint : ObjectRef} {bytes : List UInt8} {made : KernelObject}
      (hmade : made ∈ s.kernelObjects) :
      Justified s (.kernelSend endpoint bytes (some made)) (.queue endpoint) made.capability.object
        made.capability.rights

/-- A step that moves no capability lets none appear. -/
theorem System.Safe.holds (h : s.Safe s') (hheld : s'.Holds holder object rights) :
    s.Holds holder object rights := by
  cases holder with
  | process p =>
    obtain ⟨entry, hentry, rfl, rfl⟩ := hheld
    exact holds_process_of_mem (h.2.entries p entry hentry)
  | queue endpoint =>
    obtain ⟨message, hmessage, hmem⟩ := hheld
    exact ⟨message, messages_of_evolves h.2 hmessage, hmem⟩

/-- The capabilities after an insertion: those from before, and the inserted ones. -/
theorem holds_of_inserted {r : Registry} {capabilities : List TransferredCapability}
    {handles : List ℕ} (hinserted : r.Inserted processId capabilities handles s'.registry)
    (hheld : s'.Holds holder object rights) : { s with registry := r }.Holds holder object rights ∨
      (holder = .process processId ∧ ⟨object, rights⟩ ∈ capabilities) := by
  cases holder with
  | process p =>
    obtain ⟨entry, hentry, rfl, rfl⟩ := hheld
    by_cases hp : p = processId
    · subst hp
      rw [hinserted.entries] at hentry
      rcases mem_append.1 hentry with hentry | hentry
      · exact .inl ⟨entry, hentry, rfl, rfl⟩
      · obtain ⟨⟨handle, c⟩, hmem, rfl⟩ := mem_map.1 hentry
        exact .inr ⟨rfl, (of_mem_zip hmem).2⟩
    · rw [hinserted.others p hp] at hentry
      exact .inl ⟨entry, hentry, rfl, rfl⟩
  | queue =>
    obtain ⟨message, hmessage, hmem⟩ := hheld
    refine .inl ⟨message, ?_, hmem⟩
    rwa [messages, hinserted.data] at hmessage

/-- The source of a copy is held by the acting process. -/
theorem Registry.Source.holds {handle : ℕ} {source : CapabilityEntry}
    (h : s.registry.Source processId handle right rights source) :
    s.Holds (.process processId) source.object source.rights :=
  holds_process_of_mem (entry_mem h.entry).1

/-- A message that is queued lets its capabilities appear in the queue, and nothing else. -/
theorem holds_of_sent {moved : List ℕ} {message : EndpointMessage} {destination : ObjectRef}
    (hsent : s.registry.Sent processId moved message destination s'.registry)
    (hheld : s'.Holds holder object rights) :
    s.Holds holder object rights ∨ (holder = .queue destination ∧ ⟨object, rights⟩ ∈ message.capabilities) := by
  cases holder with
  | process p =>
    obtain ⟨entry, hentry, rfl, rfl⟩ := hheld
    refine .inl (holds_process_of_mem ?_)
    by_cases hp : p = processId
    · subst hp
      rw [hsent.entries] at hentry
      exact mem_of_mem_filter hentry
    · rwa [hsent.others p hp] at hentry
  | queue endpoint =>
    obtain ⟨other, hother, hmem⟩ := hheld
    rw [hsent.messages] at hother
    split at hother
    · next heq =>
        rcases mem_append.1 hother with hother | hother
        · exact .inl ⟨other, hother, hmem⟩
        · obtain rfl := mem_singleton.1 hother
          exact .inr ⟨by rw [heq], hmem⟩
    · exact .inl ⟨other, hother, hmem⟩

/-- A receive lets the capabilities of the message appear in the table of the receiver, and nothing else. -/
theorem holds_of_received {endpointHandle : ℕ} {endpoint : ObjectRef} {message : EndpointMessage}
    {handles : List ℕ} (hreceived : s.registry.ReceiveEffect s.rootObjects processId endpointHandle endpoint
      message handles s'.registry) (hheld : s'.Holds holder object rights) :
    s.Holds holder object rights ∨
      (holder = .process processId ∧ ⟨object, rights⟩ ∈ message.capabilities) := by
  cases holder with
  | process p =>
    obtain ⟨_, _, r1, -, hinserted, hregistry⟩ := hreceived.taken
    have hheld1 : { s with registry := r1 }.Holds (.process p) object rights := by
      obtain ⟨entry, hentry, hobject, hrights⟩ := hheld
      rw [hregistry] at hentry
      exact ⟨entry, hentry, hobject, hrights⟩
    exact holds_of_inserted hinserted hheld1
  | queue =>
    obtain ⟨other, hother, hmem⟩ := hheld
    exact .inl ⟨other, hreceived.dequeued.mem hother, hmem⟩

/-- The capabilities that appear in a call. -/
theorem CallEffect.justified {m : UserMemory} {target : ExecutionTarget} {c : Call}
    (he : CallEffect m s target.processId c s') (hheld : s'.Holds holder object rights)
    (hnew : ¬ s.Holds holder object rights) : Justified s (.call m target c) holder object rights := by
  cases he with
  | safe hsafe => exact absurd (hsafe.holds hheld) hnew
  | created hc hgained =>
    obtain ⟨r1, capabilities, handles, hsafe, hinserted, hfresh⟩ := hgained.made
    rcases holds_of_inserted hinserted hheld with hold | ⟨rfl, hmem⟩
    · exact absurd (hsafe.holds hold) hnew
    · exact .created hc (hfresh _ hmem)
  | opened hinit hgained =>
    obtain ⟨r1, capabilities, handles, hsafe, hinserted, hopens⟩ := hgained.made
    rcases holds_of_inserted hinserted hheld with hold | ⟨rfl, hmem⟩
    · exact absurd (hsafe.holds hold) hnew
    · exact .opened hinit (hopens _ hmem)
  | duplicated hsource hinserted =>
    rcases holds_of_inserted hinserted hheld with hold | ⟨rfl, hmem⟩
    · exact absurd hold hnew
    · cases mem_singleton.1 hmem
      exact .copied ⟨_, _, .inl rfl, hsource, rfl⟩
  | granted hsource hinserted =>
    rcases holds_of_inserted hinserted hheld with hold | ⟨rfl, hmem⟩
    · exact absurd hold hnew
    · cases mem_singleton.1 hmem
      exact .granted ⟨_, _, _, rfl, hsource, rfl⟩
  | replaced hsource hregistry =>
    cases holder with
    | process =>
      obtain ⟨entry, hentry, rfl, rfl⟩ := hheld
      rw [hregistry] at hentry
      rcases mem_replaceRights hsource hentry with hentry | ⟨rfl, rfl⟩
      · exact absurd (holds_process_of_mem hentry) hnew
      · exact .copied ⟨_, _, .inr rfl, hsource, rfl⟩
    | queue =>
      obtain ⟨message, hmessage, hmem⟩ := hheld
      rw [hregistry] at hmessage
      exact absurd ⟨message, hmessage, hmem⟩ hnew
  | sent hc hsent =>
    rcases holds_of_sent hsent.sent hheld with hold | ⟨rfl, hmem⟩
    · exact absurd hold hnew
    · obtain ⟨entry, hentry, hdest⟩ := hsent.authorized
      obtain ⟨handle, source, hnamed, hsource, hobject⟩ := hsent.transfers.source hmem
      exact .sent ⟨_, entry, handle, source, hc, hentry, hdest, hnamed, hsource, hobject⟩
  | received hc hreceived =>
    rcases holds_of_received hreceived hheld with hold | ⟨rfl, hmem⟩
    · exact absurd hold hnew
    · obtain ⟨entry, hentry, hendpoint⟩ := hreceived.authorized
      obtain ⟨rest, hfront, -⟩ := hreceived.dequeued.front
      exact .received ⟨_, entry, _, rest, hc, hentry, hendpoint, hfront, hmem⟩

/-- The capabilities that appear in a step. -/
theorem Effect.justified {a : Action} (he : Effect s a s') (hheld : s'.Holds holder object rights)
    (hnew : ¬ s.Holds holder object rights) : Justified s a holder object rights := by
  cases he with
  | call hrun he => exact he.justified hheld hnew
  | safe hsafe => exact absurd (hsafe.holds hheld) hnew
  | rootAdded =>
    cases holder <;> exact absurd (by simpa only [System.Holds, registry_rootAdd] using hheld) hnew
  | kernelSent hrun hoffered hroots hsent =>
    rcases holds_of_sent hsent hheld with hold | ⟨rfl, hmem⟩
    · exact absurd hold hnew
    · obtain ⟨made, hmade, heq⟩ := mem_map.1 hmem
      obtain rfl := Option.mem_toList.1 hmade
      obtain ⟨rfl, rfl⟩ := TransferredCapability.mk.inj heq.symm
      exact .offered (hoffered made rfl).1
  | kernelTaken hrun hdata hs' =>
    subst hs'
    cases holder with
    | process => exact absurd hheld hnew
    | queue =>
      obtain ⟨other, hother, hmem⟩ := hheld
      exact absurd ⟨other, (dequeued_setData hdata).mem hother, hmem⟩ hnew

/-! ### Chains -/

/-- The holder has the right on the object, perhaps among others. -/
def System.HoldsRight (s : System) (holder : Holder) (object : ObjectRef) (right : Bits) : Prop :=
  ∃ rights, s.Holds holder object rights ∧ Within right rights

/-- The systems of a run, the last one first. -/
inductive History : List System → Prop where
  | start {s : System} (h : s.Initial) : History [s]
  | step {s : System} {past : List System} {a : Action} (h : History (s :: past)) :
      History (a.apply s :: s :: past)

/-- The way of a right on an object through a run: from whoever made the object, through messages and
grants, to the holder. -/
inductive Chain (object : ObjectRef) (right : Bits) : List System → Holder → Prop where
  /-- The process creates the object. -/
  | created {s : System} {past : List System} {m : UserMemory} {target : ExecutionTarget} {c : Call}
      {rights : Bits} (hc : c.Creates) (hfresh : s.Fresh ⟨object, rights⟩) (hwithin : Within right rights) :
      Chain object right ((Action.call m target c).apply s :: s :: past) (.process target.processId)
  /-- The first process opens the block device whose endpoint the object is. -/
  | opened {s : System} {past : List System} {m : UserMemory} {target : ExecutionTarget} {rights : Bits}
      {partitionIndex : ℕ} {access : BlockDeviceAccess} (hinit : target.processId = initProcessId)
      (h : s.Opens partitionIndex access ⟨object, rights⟩) (hwithin : Within right rights) :
      Chain object right
        ((Action.call m target (.openBlockDeviceEndpoint partitionIndex access)).apply s :: s :: past)
        (.process target.processId)
  /-- A service of the kernel has made the object, and sends a capability on it. -/
  | offered {s : System} {past : List System} {endpoint : ObjectRef} {bytes : List UInt8}
      {made : KernelObject} (hmade : made ∈ s.kernelObjects) (hobject : made.capability.object = object)
      (hwithin : Within right made.capability.rights) :
      Chain object right ((Action.kernelSend endpoint bytes (some made)).apply s :: s :: past)
        (.queue endpoint)
  /-- The holder keeps the right, on the same capability or on a copy of it. -/
  | kept {s s' : System} {past : List System} {holder : Holder}
      (h : Chain object right (s :: past) holder) (hheld : s.HoldsRight holder object right) :
      Chain object right (s' :: s :: past) holder
  | sent {s : System} {past : List System} {m : UserMemory} {target : ExecutionTarget} {c : Call}
      {destination : ObjectRef} {rights : Bits}
      (h : Chain object right (s :: past) (.process target.processId))
      (hsends : s.Sends m target.processId c object rights destination) (hwithin : Within right rights) :
      Chain object right ((Action.call m target c).apply s :: s :: past) (.queue destination)
  | granted {s : System} {past : List System} {m : UserMemory} {target : ExecutionTarget} {c : Call}
      {childProcessId : ℕ} {rights : Bits} (h : Chain object right (s :: past) (.process target.processId))
      (hgrants : s.Grants target.processId c object rights childProcessId) (hwithin : Within right rights) :
      Chain object right ((Action.call m target c).apply s :: s :: past) (.process childProcessId)
  | received {s : System} {past : List System} {m : UserMemory} {target : ExecutionTarget} {c : Call}
      {endpoint : ObjectRef} {rights : Bits} (h : Chain object right (s :: past) (.queue endpoint))
      (hreceives : s.Receives target.processId c object rights endpoint) (hwithin : Within right rights) :
      Chain object right ((Action.call m target c).apply s :: s :: past) (.process target.processId)

theorem reachable_of_history {past : List System} (h : History (s :: past)) : Reachable s := by
  generalize hrun : s :: past = run at h
  induction h generalizing s past with
  | start h =>
    cases hrun
    exact .start h
  | step _ ih =>
    cases hrun
    exact (ih rfl).step

theorem exists_history (h : Reachable s) : ∃ past, History (s :: past) := by
  induction h with
  | start h => exact ⟨[], .start h⟩
  | @step s _ _ _ ih =>
    obtain ⟨past, hpast⟩ := ih
    exact ⟨s :: past, hpast.step⟩

/-- The process has the rights of the source, and more. -/
theorem Registry.Source.holdsRight {handle : ℕ} {needed : Bits} {source : CapabilityEntry}
    (h : s.registry.Source processId handle needed rights source) (hobject : source.object = object)
    (hwithin : Within right rights) : s.HoldsRight (.process processId) object right :=
  ⟨source.rights, hobject ▸ h.holds, hwithin.trans h.within⟩

/-- **Every right that is held has a chain to whoever made the object.** -/
theorem chain_of_history {past : List System} (h : History (s :: past))
    (hheld : s.HoldsRight holder object right) : Chain object right (s :: past) holder := by
  generalize hrun : s :: past = run at h
  induction h generalizing s past holder with
  | start h =>
    cases hrun
    -- there is nothing to hold at start
    obtain ⟨rights, hheld, -⟩ := hheld
    cases holder with
    | process =>
      obtain ⟨entry, hentry, -⟩ := hheld
      rw [h.registry] at hentry
      exact absurd hentry (by simp [entriesOf, table, new])
    | queue =>
      obtain ⟨message, hmessage, -⟩ := hheld
      rw [h.registry] at hmessage
      exact absurd hmessage (by simp [messages, data, new])
  | @step s0 past0 a hpast ih =>
    cases hrun
    obtain ⟨rights, hheld, hwithin⟩ := hheld
    by_cases hold : s0.Holds holder object rights
    · exact .kept (ih ⟨rights, hold, hwithin⟩ rfl) ⟨rights, hold, hwithin⟩
    · have hsound := sound_of_reachable (reachable_of_history hpast)
      cases (effect_apply hsound a).justified hheld hold with
      | created hc hfresh => exact .created hc hfresh hwithin
      | opened hinit hopens => exact .opened hinit hopens hwithin
      | offered hmade => exact .offered hmade rfl hwithin
      | copied hcopies =>
        obtain ⟨handle, source, -, hsource, hobject⟩ := hcopies
        have hsource := hsource.holdsRight hobject hwithin
        exact .kept (ih hsource rfl) hsource
      | granted hgrants =>
        obtain ⟨handle, slot, source, -, hsource, hobject⟩ := id hgrants
        exact .granted (ih (hsource.holdsRight hobject hwithin) rfl) hgrants hwithin
      | sent hsends =>
        obtain ⟨_, _, _, _, -, -, -, -, hsource, hobject⟩ := id hsends
        exact .sent (ih (hsource.holdsRight hobject hwithin) rfl) hsends hwithin
      | @received _ _ _ _ endpoint _ hreceives =>
        obtain ⟨_, _, message, rest, -, -, -, hfront, hmem⟩ := id hreceives
        have hqueued : s0.HoldsRight (.queue endpoint) object right :=
          ⟨rights, ⟨message, hfront ▸ mem_cons_self, hmem⟩, hwithin⟩
        exact .received (ih hqueued rfl) hreceives hwithin

/-- **Capabilities are confined.**  In every state that is reached, a step lets a capability appear
only as a full capability on a new object, as a narrowed copy of one that the acting process holds
with the right to copy it or to pass it on, out of the received message, as the endpoint of a device
that the first process opens, or as what a service of the kernel has made and sends.  So no capability
has more rights than its kind allows, and every right that is held is at the end of a chain that starts
at whoever made the object. -/
theorem capabilities_confined :
    (∀ (s : System) (a : Action), Reachable s → ∀ holder object rights,
      (a.apply s).Holds holder object rights → ¬ s.Holds holder object rights →
        Justified s a holder object rights) ∧
    (∀ s, Reachable s → ∀ holder object rights, s.Holds holder object rights →
      rights ≠ 0 ∧ Within rights (capabilityAllowedRights object.kind)) ∧
    ∀ s past, History (s :: past) → ∀ holder object right, s.HoldsRight holder object right →
      Chain object right (s :: past) holder := by
  refine ⟨fun s a h holder object rights hheld hnew => ?_, fun s h holder object rights hheld => ?_,
    fun s past h holder object right hheld => chain_of_history h hheld⟩
  · exact (effect_apply (sound_of_reachable h) a).justified hheld hnew
  · exact (sound_of_reachable h).properRights hheld

/-- The first process has a child, an endpoint and a notification. -/
def withChild : List Action :=
  [.spawnProcess ⟨2, some initProcessId, true, none⟩, bootCall .endpointCreate, bootCall .notificationCreate]

/-- It lets the child receive from the endpoint. -/
def grantStep : Action := bootCall (.capabilityGrantChild 2 65537 Right.receive invalidHandle)

/-- It sends the right to signal the notification. -/
def sendStep : Action := bootCall (.endpointSend 65537 0 2 131074 Right.signal)

/-- The child receives it. -/
def receiveStep : Action := .call zeroMemory ⟨2, 1⟩ (.endpointReceive 196609 0 64 0)

theorem capabilities_confined_delegated :
    Justified (afterActions withChild) grantStep (.process 2) ⟨1, .endpoint⟩ Right.receive ∧
    Justified (afterActions (withChild ++ [grantStep])) sendStep (.queue ⟨1, .endpoint⟩) ⟨2, .notification⟩
      Right.signal ∧
    Justified (afterActions (withChild ++ [grantStep, sendStep])) receiveStep (.process 2)
      ⟨2, .notification⟩ Right.signal ∧
    ∃ past, Chain ⟨2, .notification⟩ Right.signal
      (afterActions (withChild ++ [grantStep, sendStep, receiveStep]) :: past) (.process 2) := by
  have hreceived : (afterActions (withChild ++ [grantStep, sendStep, receiveStep])).Holds (.process 2)
      ⟨2, .notification⟩ Right.signal := by
    unfold System.Holds
    decide
  obtain ⟨hjustified, -, hchain⟩ := capabilities_confined
  refine ⟨hjustified _ _ (reachable_afterActions _) _ _ _ ?_ ?_,
    hjustified _ _ (reachable_afterActions _) _ _ _ ?_ ?_,
    hjustified _ _ (reachable_afterActions _) _ _ _ hreceived ?_, ?_⟩
  iterate 5
    unfold System.Holds
    decide
  obtain ⟨past, hpast⟩ := exists_history
    (reachable_afterActions (withChild ++ [grantStep, sendStep, receiveStep]))
  exact ⟨past, hchain _ _ hpast _ _ _ ⟨_, hreceived, by decide⟩⟩

/-- Nothing holds the object that no table names while no message waits. -/
theorem not_holds (htables : ∀ table ∈ s.registry.tables, ∀ entry ∈ table.entries, entry.object ≠ object)
    (hqueues : ∀ record ∈ s.registry.objects, record.data.messages = []) : ¬ s.Holds holder object rights := by
  cases holder with
  | process p =>
    rintro ⟨entry, hentry, hobject, -⟩
    unfold entriesOf at hentry
    split at hentry
    · next table htable => exact htables table (Keyed.mem_of_lookup htable) entry hentry hobject
    · simp at hentry
  | queue endpoint =>
    rintro ⟨message, hmessage, -⟩
    obtain ⟨d, hd⟩ := Option.isSome_iff_exists.1 (isSome_of_message hmessage)
    obtain ⟨record, hrecord, rfl⟩ := Option.map_eq_some_iff.1 hd
    rw [messages_of_data hd, hqueues record (Keyed.mem_of_lookup hrecord)] at hmessage
    simp at hmessage

/-- A proxy of the kernel has made an endpoint for replies, and the first process one of its own. -/
def withReply : System :=
  afterActions [.kernelCreateReplyEndpoint, .kernelRootAdd ⟨1, .endpoint⟩, bootCall .endpointCreate]

/-- When the first process opens a device, and when a proxy of the kernel sends a request, a capability
appears that is not a full one, on an object on which there was none. -/
theorem not_narrowed_device_and_reply :
    (Reachable bootSystem ∧ ((bootCall (.openBlockDeviceEndpoint 3 .writable)).apply bootSystem).Holds
        (.process initProcessId) ⟨1, .endpoint⟩ blockDeviceRights ∧
      blockDeviceRights ≠ capabilityAllowedRights .endpoint ∧
      ∀ holder rights, ¬ bootSystem.Holds holder ⟨1, .endpoint⟩ rights) ∧
    Reachable withReply ∧ ((Action.kernelSend ⟨2, .endpoint⟩ [] (some (.replyEndpoint 1))).apply
        withReply).Holds (.queue ⟨2, .endpoint⟩) ⟨1, .endpoint⟩ Right.send ∧
      Right.send ≠ capabilityAllowedRights .endpoint ∧
      ∀ holder rights, ¬ withReply.Holds holder ⟨1, .endpoint⟩ rights := by
  refine ⟨⟨.start initial_bootSystem, ?_, by decide, fun _ _ => not_holds (by decide) (by decide)⟩,
    reachable_afterActions _, ?_, by decide, fun _ _ => not_holds (by decide) (by decide)⟩
  iterate 2
    unfold System.Holds
    decide

end Kernel
