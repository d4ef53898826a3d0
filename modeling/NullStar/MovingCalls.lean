/-
**What the calls that move capabilities do.**

For each call that can give a process or a message a capability, its effect on the registry when it
succeeds, and that it changes nothing that can be seen when it fails.  A creation first collects, so
its failure may also drop what nobody uses.

* `Registry.SendEffect` — a message was queued, and the entries it moved are gone;
* `capabilityDuplicate_spec`, `capabilityReplace_spec`,
  `capabilityGrantChild_spec` — copies with fewer rights;
* `createObject_spec`, `createEndpointPair_spec` — creations;
* `endpointSendWithDisposition_spec`, `endpointSendMoveMany_spec` — sends;
* `endpointReceive_spec`, `endpointReceiveMany_spec` — receives.
-/

import NullStar.TableEntries

set_option autoImplicit false

namespace Kernel

open Rust Hoare Registry List

variable {s : System} {processId handle : ℕ} {right rights : Bits} {kind : ObjectKind}

/-! ### The checks at the start of a call -/

variable {r r' : Registry} {destination o endpoint object : ObjectRef} {message : EndpointMessage}
  {moved handles : List ℕ} {roots : List ObjectRef} {E : Fault Errno → System → Prop}
  {endpointHandle address transferHandle length bufferAddress bufferLength infoAddress : ℕ}
  {m : UserMemory} {entry : CapabilityEntry} {data : ObjectData} {dispositions : List (ℕ × Bits)}
  {moveTransfer : Bool} {transferRights : Bits} {peer : EndpointPeer} {rest : List EndpointMessage}

theorem entryWithRight_eq_ok : r.entryWithRight processId handle right = .ok entry ↔
      r.entry processId handle = some entry ∧ entry.rights &&& right = right := by
  simp only [entryWithRight, capabilityHasRight, run_eq_ok, not_not]
  constructor
  · rintro ⟨e, he, hr, rfl⟩
    exact ⟨he, hr⟩
  · rintro ⟨he, hr⟩
    exact ⟨entry, he, hr, rfl⟩

theorem authorize_eq_ok : r.authorize processId handle right kind = .ok entry ↔
      r.entry processId handle = some entry ∧ entry.rights &&& right = right ∧ entry.object.kind = kind := by
  simp only [authorize, run_eq_ok, entryWithRight_eq_ok, not_not]
  constructor
  · rintro ⟨e, ⟨he, hr⟩, hk, rfl⟩
    exact ⟨he, hr, hk⟩
  · rintro ⟨he, hr, hk⟩
    exact ⟨entry, ⟨he, hr⟩, hk, rfl⟩

/-- The entry is one of the process, carries the right, and has the rights that are passed on. -/
structure Registry.Source (r : Registry) (processId handle : ℕ) (right rights : Bits)
    (source : CapabilityEntry) : Prop where
  entry : r.entry processId handle = some source
  right : source.rights &&& right = right
  within : Within rights source.rights
  proper : ProperRights source.object rights

theorem narrowedSource_eq_ok {source : CapabilityEntry}
    (h : r.narrowedSource processId handle right rights = .ok source) :
    r.Source processId handle right rights source := by
  simp only [narrowedSource, checkNarrowing, run_eq_ok, entryWithRight_eq_ok] at h
  obtain ⟨e, ⟨he, hr⟩, hn, rfl⟩ := h
  simp only [not_or, not_not] at hn
  exact ⟨he, hr, hn.2.1, hn.1, hn.2.2⟩

/-! ### Copies -/

theorem capabilityDuplicate_spec : Triple (· = s) (capabilityDuplicate processId handle rights)
      (fun handle' s' => s' = { s with registry := s'.registry } ∧ ∃ source,
        s.registry.Source processId handle Right.duplicate rights source ∧
        s.registry.Inserted processId [⟨source.object, rights⟩] [handle'] s'.registry)
      (fun _ s' => s.QuietStep s') := by
  refine triple_read_bind (fun source hsource => ?_) fun _ _ => .refl s
  exact insertEntry_spec.imp_ok fun _ _ h => ⟨h.1, source, narrowedSource_eq_ok hsource, h.2⟩

theorem capabilityGrantChild_spec {childProcessId requestedChildSlot : ℕ} : Triple (· = s)
      (capabilityGrantChild processId childProcessId handle rights requestedChildSlot)
      (fun handle' s' => s' = { s with registry := s'.registry } ∧ ∃ source,
        s.registry.Source processId handle Right.transfer rights source ∧
        s.registry.Inserted childProcessId [⟨source.object, rights⟩] [handle'] s'.registry)
      (fun _ s' => s.QuietStep s') := by
  refine triple_read_bind (fun _ _ => ?_) fun _ _ => .refl s
  refine triple_read_bind (fun source hsource => ?_) fun _ _ => .refl s
  exact insertEntryAt_spec.imp_ok fun _ _ h => ⟨h.1, source, narrowedSource_eq_ok hsource, h.2⟩

/-- The entries of a process with the rights of one of them changed. -/
def Registry.replaceRights (r : Registry) (processId handle : ℕ) (rights : Bits) : Registry :=
  r.updateEntries processId
    (Keyed.adjust (·.handle) handle fun entry => { entry with rights := rights })

theorem capabilityReplace_spec : Triple (· = s) (capabilityReplace processId handle rights)
      (fun _ s' => s' = { s with registry := s.registry.replaceRights processId handle rights } ∧
        ∃ source, s.registry.Source processId handle Right.duplicate rights source) (fun _ s' => s' = s) := by
  refine triple_read_bind (fun source hsource => ?_) fun _ _ => rfl
  exact triple_modifyRegistry_bind (triple_return ⟨rfl, source, narrowedSource_eq_ok hsource⟩)

/-! ### Creations -/

/-- The state of a new object, which names no others and has no messages. -/
structure NewData (kind : ObjectKind) (data : ObjectData) : Prop where
  kind : data.kind = kind
  names : data.names = []
  valid : ∀ r o, Registry.ValidData r o data
  traffic : data.traffic = ([], none)

theorem System.Safe.addNew {s0 : System} (h : s0.Safe s) (hd : NewData kind data) : s0.Safe
    { s.collectGarbage with registry := s.collectGarbage.registry.addObject kind data } :=
  h.collectGarbage.addObject hd.kind (by simp [hd.names]) (hd.valid _ _) hd.traffic

theorem createObject_spec {s0 : System} (h : s0.Safe s) : Triple (· = s) (createObject kind data)
      (fun object s' => object = ⟨s.registry.nextObjectId, kind⟩ ∧
        s' = { s.collectGarbage with registry := s.collectGarbage.registry.addObject kind data })
      (fun _ s' => s0.Safe s') := by
  have hcollect := h.collectGarbage
  refine triple_modify_bind ?_
  refine triple_read_bind (fun _ _ => ?_) fun _ _ => hcollect
  refine triple_get_bind ?_
  refine triple_check_bind (fun _ _ => ?_) fun _ _ => hcollect
  exact triple_modifyRegistry_bind (triple_return ⟨rfl, rfl⟩)

/-- An endpoint that is connected to another. -/
def connectedEndpoint (peer : ℕ) : ObjectData := .endpoint ⟨[], .connected ⟨peer, .endpoint⟩⟩

theorem validData_connectedEndpoint (r : Registry) (o : ObjectRef) (peer : ℕ) :
    r.ValidData o (connectedEndpoint peer) := by
  refine ⟨Nat.zero_le _, by simp, fun peer' hp => ?_⟩
  cases hp
  rfl

def Registry.addEndpointPair (r : Registry) : Registry :=
  (r.addObject .endpoint (connectedEndpoint (r.nextObjectId + 1))).addObject .endpoint
    (connectedEndpoint r.nextObjectId)

theorem Registry.evolves_addEndpointPair (r : Registry) : r.Evolves r.addEndpointPair := by
  have hnext : r.addEndpointPair.nextObjectId = r.nextObjectId + 2 := rfl
  refine ⟨by omega, fun _ _ h => h, fun o ho => ?_, fun o p hp => ?_⟩
  · rcases objects_addObject rfl o ho with ⟨ho, hsame⟩ | ⟨hid, hempty⟩
    · unfold addEndpointPair
      rw [hsame]
      exact objects_addObject rfl o ho
    · exact .inr ⟨(Nat.le_succ _).trans hid, hempty⟩
  · -- the two endpoints are connected to each other
    rcases peer_addObject hp with hp | hp
    · refine (peer_addObject hp).imp_right fun hp => ?_
      cases hp
      exact hnext ▸ Nat.lt_succ_self _
    · cases hp
      exact .inr (hnext ▸ Nat.lt_succ_of_lt (Nat.lt_succ_self _))

theorem System.Safe.addEndpointPair {s0 : System} (h : s0.Safe s) :
    s0.Safe { s with registry := s.registry.addEndpointPair } := by
  have hnames : ∀ (r : Registry) (peer : ℕ), ∀ x ∈ (connectedEndpoint peer).names,
      (r.data x).isSome := by simp [ObjectData.names, connectedEndpoint]
  refine h.extend ?_ (evolves_addEndpointPair _) (fun _ ho => ho) fun _ ho =>
    isSome_addObject (isSome_addObject ho)
  exact (h.1.addObject rfl (hnames _ _)
    (validData_connectedEndpoint _ _ _)).addObject rfl (hnames _ _)
      (validData_connectedEndpoint _ _ _)

/-- What is invisible stays so when objects are added. -/
theorem Registry.Quiet.addEndpointPair (h : r.Quiet r') : r.addEndpointPair.Quiet r'.addEndpointPair := by
  refine ⟨?_, ?_, h.entries, h.tables⟩
  · simp only [Registry.addEndpointPair, addObject, h.objects, h.next]
  · simp only [Registry.addEndpointPair, addObject, h.next]

/-- All rights on the two endpoints of a pair. -/
def endpointPairCapabilities (firstId : ℕ) : List TransferredCapability :=
  [⟨⟨firstId, .endpoint⟩, capabilityAllowedRights .endpoint⟩,
    ⟨⟨firstId + 1, .endpoint⟩, capabilityAllowedRights .endpoint⟩]

theorem properRights_all (o : ObjectRef) : ProperRights o (capabilityAllowedRights o.kind) :=
  ⟨capabilityAllowedRights_ne_zero o.kind, .refl _⟩

theorem endpointPair_proper (r : Registry) : ∀ c ∈ endpointPairCapabilities r.nextObjectId,
      ProperRights c.object c.rights ∧ (r.addEndpointPair.data c.object).isSome := by
  intro c hc
  rcases mem_pair.1 hc with rfl | rfl
  · exact ⟨properRights_all _, isSome_addObject isSome_addObject_self⟩
  · exact ⟨properRights_all _, isSome_addObject_self⟩

theorem createEndpointPair_spec (h : s.Sound) : Triple (· = s) (createEndpointPair processId)
      (fun handles s' => s' = { s with registry := s'.registry } ∧
        s.collectGarbage.registry.addEndpointPair.Inserted processId
          (endpointPairCapabilities s.registry.nextObjectId) [handles.1, handles.2] s'.registry)
      (fun _ s' => s.Safe s') := by
  have hcollect : s.Safe s.collectGarbage := (System.Safe.refl h).collectGarbage
  refine triple_modify_bind ?_
  refine triple_read_bind (fun _ _ => ?_) fun _ _ => hcollect
  refine triple_bind (ensureTable_spec.imp_error fun _ _ hq => hcollect.quiet hq) ?_
  rintro _ s1 ⟨hq1, table, htable⟩
  refine triple_read_bind (fun slots hslots => ?_) fun _ _ => hcollect.quiet hq1
  simp only [slotsFor, run_eq_ok, freeSlots, htable] at hslots
  obtain ⟨-, hlen, rfl⟩ := hslots
  refine triple_bind ((takeHandleGenerations_spec hq1 htable).imp_error fun _ _ hq =>
    hcollect.quiet hq) ?_
  rintro generations s2 ⟨hq2, htable2, hglen, hgen⟩
  refine triple_check_bind (fun handles hhandles => ?_) fun _ _ => hcollect.quiet hq2
  obtain ⟨hhlen, hhslots⟩ := capabilityHandles_spec ((not_not.1 hlen).trans hglen.symm) hgen
    (okOr_eq_ok.1 hhandles)
  obtain ⟨first, second, rfl⟩ : ∃ first second, handles = [first, second] :=
    length_eq_two.1 (hhlen.trans (not_not.1 hlen))
  refine triple_get_bind ?_
  refine triple_check_bind (fun _ _ => ?_) fun _ _ => hcollect.quiet hq2
  refine triple_modifyRegistry_bind ?_
  refine triple_modifyRegistry_bind (triple_modifyRegistry_bind (triple_return ?_))
  have hnext : s2.registry.nextObjectId = s.registry.nextObjectId := hq2.2.next
  refine ⟨by rw [hq2.1]; rfl, ?_⟩
  have hproper : ∀ c ∈ endpointPairCapabilities s.registry.nextObjectId,
      ProperRights c.object c.rights ∧ (s2.registry.addEndpointPair.data c.object).isSome := by
    rw [← hnext]
    exact endpointPair_proper s2.registry
  have hinserted := hq2.2.addEndpointPair.inserted (inserted_of_slots htable2
    freeSlots_spec.1 freeSlots_spec.2 rfl hhslots hproper)
  -- the call adds both objects at once
  change s.collectGarbage.registry.addEndpointPair.Inserted processId _ [first, second] _
  convert hinserted using 1
  have hobjects : ({ s2.registry with
      nextObjectId := s2.registry.nextObjectId + 2
      objects := s2.registry.objects ++
        [⟨⟨s2.registry.nextObjectId, .endpoint⟩, connectedEndpoint (s2.registry.nextObjectId + 1)⟩,
          ⟨⟨s2.registry.nextObjectId + 1, .endpoint⟩, connectedEndpoint s2.registry.nextObjectId⟩] } :
      Registry) = s2.registry.addEndpointPair := by
    simp [addEndpointPair, addObject]
  set capabilities := endpointPairCapabilities s.registry.nextObjectId with hcapabilities
  have hentries : ((· ++ [⟨second, ⟨s2.registry.nextObjectId + 1, .endpoint⟩,
        capabilityAllowedRights .endpoint⟩]) ∘ (· ++ [⟨first, ⟨s2.registry.nextObjectId, .endpoint⟩,
        capabilityAllowedRights .endpoint⟩]) : List CapabilityEntry → List CapabilityEntry) =
      (· ++ zipWith newEntry [first, second] capabilities) := by
    funext l
    simp [hcapabilities, endpointPairCapabilities, newEntry, hnext]
  change _ = Registry.updateEntries _ _ (· ++ zipWith newEntry [first, second] capabilities)
  rw [← hobjects, ← hentries, ← updateEntries_updateEntries]
  rfl

/-! ### Sends -/

def EndpointObject.enqueue (e : EndpointObject) (message : EndpointMessage) : EndpointObject :=
  { e with queue := e.queue ++ [message] }

/-- The message was queued, and the entries under the moved handles are gone. -/
structure Registry.Sent (r : Registry) (processId : ℕ) (moved : List ℕ)
    (message : EndpointMessage) (destination : ObjectRef) (r' : Registry) : Prop where
  queue : ∃ endpoint, r.data destination = some (.endpoint endpoint) ∧
    endpoint.queue.length < maxEndpointMessages ∧
    r'.objects = (r.setData destination (.endpoint (endpoint.enqueue message))).objects
  next : r'.nextObjectId = r.nextObjectId
  entries : r'.entriesOf processId = (r.entriesOf processId).filter fun entry => entry.handle ∉ moved
  others : ∀ p, p ≠ processId → r'.entriesOf p = r.entriesOf p
  tables : r'.tables.map (·.processId) = r.tables.map (·.processId)

theorem Registry.Sound.sent (h : r.Sound) (hsent : r.Sent processId moved message destination r')
    (hmessage : ∀ c ∈ message.capabilities, ProperRights c.object c.rights) : r'.Sound := by
  obtain ⟨endpoint, hdata, hroom, hobjects⟩ := hsent.queue
  have hvalid := h.valid destination _ hdata
  have hqueue : (r.setData destination (.endpoint (endpoint.enqueue message))).Sound := by
    refine h.setData hdata rfl (fun _ hx => absurd hx not_mem_nil) rfl ⟨?_, ?_, hvalid.2.2⟩
    · rw [EndpointObject.enqueue, length_append]
      exact hroom
    · exact forall_mem_append.2 ⟨hvalid.2.1, forall_mem_singleton.2 hmessage⟩
  refine hqueue.shrinkTables hobjects hsent.next (hsent.tables ▸ h.tables_nodup) fun p => ?_
  by_cases hp : p = processId
  · subst hp
    rw [hsent.entries]
    exact filter_sublist
  · rw [hsent.others p hp]
    exact .refl _

theorem Registry.Sent.messages (h : r.Sent processId moved message destination r') (o : ObjectRef) :
    r'.messages o = if o = destination then r.messages o ++ [message] else r.messages o := by
  obtain ⟨endpoint, hdata, -, hobjects⟩ := h.queue
  have hread : r'.data o =
      if o = destination then some (.endpoint (endpoint.enqueue message)) else r.data o := by
    rw [data, hobjects]
    exact Sound.data_setData_of_present hdata
  by_cases ho : o = destination
  · rw [if_pos ho] at hread ⊢
    rw [messages_of_data hread, ho, messages_of_data hdata]
    rfl
  · rw [if_neg ho] at hread ⊢
    rw [Registry.messages, Registry.messages, hread]

/-- A send makes no object and loses none. -/
theorem Registry.Sent.present (h : r.Sent processId moved message destination r') :
    (r'.data o).isSome ↔ (r.data o).isSome := by
  obtain ⟨endpoint, -, -, hobjects⟩ := h.queue
  rw [data, hobjects]
  exact isSome_setData

/-- What is sent to the endpoint is queued in the destination: an endpoint on its own keeps it, one of a
pair hands it to its peer. -/
def Registry.DeliversTo (r : Registry) (endpoint destination : ObjectRef) : Prop :=
  ∃ queue peer, r.data endpoint = some (.endpoint ⟨queue, peer⟩) ∧
    (peer = .loopback ∧ destination = endpoint ∨ peer = .connected destination)

theorem openDestination_eq_ok (h : r.openDestination endpoint = .ok destination) :
    r.DeliversTo endpoint destination ∧ ∃ state,
      r.data destination = some (.endpoint state) ∧ state.queue.length < maxEndpointMessages := by
  simp only [openDestination, endpointDestination, run_eq_ok] at h
  obtain ⟨destination', ⟨source, hsource, hdest⟩, data, hdata, h⟩ := h
  cases data with
  | endpoint state =>
    simp only [run_eq_ok] at h
    obtain ⟨hroom, rfl⟩ := h
    refine ⟨?_, state, hdata, by omega⟩
    cases source with
    | endpoint source =>
      simp only [run_eq_ok] at hdest
      obtain ⟨d, -, hdest⟩ := hdest
      cases d with
      | endpoint =>
        rw [return_eq_ok] at hdest
        obtain ⟨queue, peer⟩ := source
        cases peer with
        | loopback => exact ⟨queue, _, hsource, .inl ⟨rfl, hdest.symm⟩⟩
        | connected => exact ⟨queue, _, hsource, .inr (congrArg _ hdest)⟩
      | _ => simp at hdest
    | _ => simp at hdest
  | _ => simp at h

/-- A message is queued where there is an endpoint; this does not fail. -/
theorem pushMessage_spec {endpoint : EndpointObject}
    (hdata : s.registry.data destination = some (.endpoint endpoint)) :
    Triple (· = s) (pushMessage destination message) (fun _ s' => s' = { s with
      registry := s.registry.setData destination (.endpoint (endpoint.enqueue message)) }) E := by
  refine triple_read_bind (fun state hstate => ?_) fun e herr => ?_
  · simp only [hdata, Except.ok.injEq] at hstate
    subst hstate
    exact triple_modify rfl
  · simp [hdata] at herr

theorem triple_pushMessage_bind {β : Type} {endpoint : EndpointObject} {f : Unit → Syscall β}
    {Q : β → System → Prop} (hdata : s.registry.data destination = some (.endpoint endpoint))
    (hf : Triple (· = { s with
      registry := s.registry.setData destination (.endpoint (endpoint.enqueue message)) })
      (f ()) Q E) : Triple (· = s) (pushMessage destination message >>= f) Q E :=
  triple_bind (pushMessage_spec hdata) (by rintro _ _ rfl; exact hf)

/-- The capabilities are what the dispositions ask for: each names a handle of the process that may
be passed on, and the rights that the message gets. -/
def Registry.Transfers (r : Registry) (processId : ℕ) (dispositions : List (ℕ × Bits))
    (capabilities : List TransferredCapability) : Prop :=
  List.Forall₂ (fun disposition capability => ∃ source,
    r.Source processId disposition.1 Right.transfer disposition.2 source ∧
      capability = ⟨source.object, disposition.2⟩) dispositions capabilities

theorem Registry.Transfers.source {capabilities : List TransferredCapability}
    (h : r.Transfers processId dispositions capabilities) {c : TransferredCapability}
    (hc : c ∈ capabilities) : ∃ handle source, (handle, c.rights) ∈ dispositions ∧
      r.Source processId handle Right.transfer c.rights source ∧ source.object = c.object := by
  induction h with
  | nil => simp at hc
  | cons hhead _ ih =>
    rcases mem_cons.1 hc with rfl | hc
    · obtain ⟨source, hsource, rfl⟩ := hhead
      exact ⟨_, source, mem_cons_self, hsource, rfl⟩
    · obtain ⟨handle, source, hmem, hsource⟩ := ih hc
      exact ⟨handle, source, mem_cons_of_mem _ hmem, hsource⟩

structure Registry.SendEffect (r : Registry) (processId endpointHandle : ℕ)
    (dispositions : List (ℕ × Bits)) (move : Bool) (message : EndpointMessage)
    (destination : ObjectRef) (r' : Registry) : Prop where
  authorized : ∃ entry, r.authorize processId endpointHandle Right.send .endpoint = .ok entry ∧
    r.DeliversTo entry.object destination
  sender : message.senderProcessId = processId
  transfers : r.Transfers processId dispositions message.capabilities
  sent : r.Sent processId (if move then dispositions.map (·.1) else []) message destination r'

/-- What a message names can be named by entries of the sender. -/
theorem Registry.SendEffect.proper {move : Bool} (h : r.Sound)
    (heffect : r.SendEffect processId endpointHandle dispositions move message destination r') :
    ∀ c ∈ message.capabilities, ProperRights c.object c.rights ∧ (r.data c.object).isSome := by
  intro c hc
  obtain ⟨handle, source, -, hsource, hobject⟩ := heffect.transfers.source hc
  rw [← hobject]
  exact ⟨hsource.proper, h.entry_present _ _ (entry_mem hsource.entry).1⟩

theorem resolveDispositions_eq_ok : ∀ {dispositions : List (ℕ × Bits)}
    {seen : List ℕ} {transfers : List (ℕ × TransferredCapability)},
    r.resolveDispositions processId dispositions seen = .ok transfers →
      transfers.map (·.1) = dispositions.map (·.1) ∧
        r.Transfers processId dispositions (transfers.map (·.2)) := by
  intro dispositions
  induction dispositions with
  | nil =>
    intro seen transfers h
    obtain rfl := (Except.ok.inj h).symm
    exact ⟨rfl, .nil⟩
  | cons disposition rest ih =>
    intro seen transfers h
    obtain ⟨handle, rights⟩ := disposition
    simp only [resolveDispositions, run_eq_ok] at h
    obtain ⟨-, source, hsource, transfers', hrest, rfl⟩ := h
    obtain ⟨hhandles, htransfers⟩ := ih hrest
    exact ⟨congrArg (handle :: ·) hhandles, .cons ⟨source, narrowedSource_eq_ok hsource, rfl⟩ htransfers⟩

/-- The disposition of a call that passes on at most one capability. -/
def singleDisposition (transferHandle : ℕ) (transferRights : Bits) : List (ℕ × Bits) :=
  if transferHandle = invalidHandle then [] else [(transferHandle, transferRights)]

theorem resolveTransfer_eq_ok {transfer : Option TransferredCapability}
    (h : r.resolveTransfer processId transferHandle transferRights moveTransfer = .ok transfer) :
    r.Transfers processId (singleDisposition transferHandle transferRights) transfer.toList ∧
      (moveTransfer → transferHandle ≠ invalidHandle) := by
  unfold resolveTransfer at h
  unfold singleDisposition
  split at h
  · next hinvalid =>
      simp only [run_eq_ok, not_or] at h
      obtain ⟨⟨-, hmove⟩, rfl⟩ := h
      rw [if_pos hinvalid]
      exact ⟨.nil, fun hm => absurd hm hmove⟩
  · next hvalid =>
      simp only [run_eq_ok] at h
      obtain ⟨source, hsource, rfl⟩ := h
      rw [if_neg hvalid]
      exact ⟨.cons ⟨source, narrowedSource_eq_ok hsource, rfl⟩ .nil, fun _ => hvalid⟩

/-- A message that is queued after entries were removed. -/
theorem sent_of_updateEntries {f : List CapabilityEntry → List CapabilityEntry}
    {endpoint : EndpointObject} (hdata : r.data destination = some (.endpoint endpoint))
    (hroom : endpoint.queue.length < maxEndpointMessages) (hnil : f [] = [])
    (hf : f (r.entriesOf processId) = (r.entriesOf processId).filter fun entry => entry.handle ∉ moved) :
    r.Sent processId moved message destination ((r.updateEntries processId f).setData destination
      (.endpoint (endpoint.enqueue message))) where
  queue := ⟨endpoint, hdata, hroom, rfl⟩
  next := rfl
  entries := (entriesOf_updateEntries hnil).trans hf
  others _ hp := entriesOf_updateEntries_ne hp
  tables := tables_updateEntries

/-- A message that is queued while the tables stay as they are. -/
theorem sent_of_setData {endpoint : EndpointObject}
    (hdata : r.data destination = some (.endpoint endpoint))
    (hroom : endpoint.queue.length < maxEndpointMessages) : r.Sent processId [] message destination
      (r.setData destination (.endpoint (endpoint.enqueue message))) where
  queue := ⟨endpoint, hdata, hroom, rfl⟩
  next := rfl
  entries := by simp
  others _ _ := rfl
  tables := rfl

theorem removeEntry_spec {missing : Errno} : Triple (· = s) (removeEntry processId handle missing)
      (fun _ s' => s' = { s with
        registry := s.registry.updateEntries processId (·.eraseP fun e => e.handle = handle) })
      (fun _ s' => s' = s) :=
  triple_read_bind (fun _ _ => triple_modify rfl) fun _ _ => rfl

theorem removeEntries_spec : Triple (· = s) (removeEntries processId handles)
      (fun _ s' => s' = { s with
        registry := s.registry.updateEntries processId (·.filter fun e => e.handle ∉ handles) })
      (fun _ s' => s' = s) :=
  triple_read_bind (fun _ _ => triple_modify rfl) fun _ _ => rfl

/-- Handles do not repeat, so removing the first entry of a handle removes them all. -/
theorem eraseP_handle {entries : List CapabilityEntry} (h : (entries.map (·.handle)).Nodup) :
    (entries.eraseP fun entry => entry.handle = handle) =
      entries.filter fun entry => entry.handle ∉ [handle] := by
  rw [Keyed.eraseP_eq_filter h]
  simp

theorem endpointSendWithDisposition_spec (h : s.Sound) :
    Triple (· = s) (endpointSendWithDisposition m processId endpointHandle address length
        transferHandle transferRights moveTransfer)
      (fun result s' => result = 0 ∧ s' = { s with registry := s'.registry } ∧ ∃ message destination,
          capabilityReadMessage m processId address length = .ok message.bytes ∧
          s.registry.SendEffect processId endpointHandle
            (singleDisposition transferHandle transferRights) moveTransfer message destination
            s'.registry) (fun _ s' => s' = s) := by
  refine triple_check_bind (fun bytes hbytes => ?_) fun _ _ => rfl
  refine triple_read_bind (fun p hp => ?_) fun _ _ => rfl
  simp only [run_eq_ok] at hp
  obtain ⟨entry, hentry, transfer, htransfer, destination, hopen, rfl⟩ := hp
  obtain ⟨hdest, endpoint, hdata, hroom⟩ := openDestination_eq_ok hopen
  obtain ⟨htransfers, hvalid⟩ := resolveTransfer_eq_ok htransfer
  cases moveTransfer with
  | false =>
    refine triple_bind (R := fun _ s' => s' = s) (triple_return rfl) ?_
    rintro _ _ rfl
    refine triple_pushMessage_bind hdata ?_
    exact triple_return ⟨rfl, rfl, ⟨processId, bytes, transfer.toList⟩, destination, hbytes,
      ⟨entry, hentry, hdest⟩, rfl, htransfers, sent_of_setData hdata hroom⟩
  | true =>
    refine triple_bind removeEntry_spec ?_
    rintro _ _ rfl
    refine triple_pushMessage_bind hdata ?_
    have hmoved : (singleDisposition transferHandle transferRights).map (·.1) = [transferHandle] := by
      rw [singleDisposition, if_neg (hvalid rfl)]
      rfl
    refine triple_return ⟨rfl, rfl, ⟨processId, bytes, transfer.toList⟩, destination, hbytes,
      ⟨entry, hentry, hdest⟩, rfl, htransfers, ?_⟩
    rw [hmoved]
    exact sent_of_updateEntries hdata hroom rfl (eraseP_handle (h.handles_nodup processId))

theorem endpointSendMoveMany_spec {dispositionsAddress dispositionCount : ℕ} :
    Triple (· = s) (endpointSendMoveMany m processId endpointHandle address length
        dispositionsAddress dispositionCount)
      (fun result s' => result = 0 ∧ s' = { s with registry := s'.registry } ∧ ∃ message destination,
          capabilityReadMessage m processId address length = .ok message.bytes ∧
          s.registry.SendEffect processId endpointHandle
            (m.pairs processId dispositionsAddress dispositionCount) true message destination
            s'.registry) (fun _ s' => s' = s) := by
  refine triple_check_bind (fun bytes hbytes => ?_) fun _ _ => rfl
  refine triple_check_bind (fun count hcount => ?_) fun _ _ => rfl
  obtain rfl : dispositionCount = count := by
    simp only [capabilityUserLength, run_eq_ok] at hcount
    exact hcount.2
  refine triple_check_bind (fun _ _ => ?_) fun _ _ => rfl
  refine triple_check_bind (fun _ _ => ?_) fun _ _ => rfl
  refine triple_read_bind (fun p hp => ?_) fun _ _ => rfl
  simp only [run_eq_ok] at hp
  obtain ⟨entry, hentry, transfers, htransfers, destination, hopen, rfl⟩ := hp
  obtain ⟨hdest, endpoint, hdata, hroom⟩ := openDestination_eq_ok hopen
  obtain ⟨hhandles, htransfers⟩ := resolveDispositions_eq_ok htransfers
  refine triple_bind removeEntries_spec ?_
  rintro _ _ rfl
  refine triple_pushMessage_bind hdata ?_
  refine triple_return ⟨rfl, rfl, ⟨processId, bytes, transfers.map (·.2)⟩, destination, hbytes,
    ⟨entry, hentry, hdest⟩, rfl, htransfers, ?_⟩
  rw [← hhandles]
  exact sent_of_updateEntries hdata hroom rfl rfl

/-! ### Receives -/

/-- What a successful receive does: the oldest message is gone, its capabilities have entries of the
receiver, and what nobody uses any more is collected. -/
structure Registry.ReceiveEffect (r : Registry) (roots : List ObjectRef)
    (processId endpointHandle : ℕ) (object : ObjectRef) (message : EndpointMessage)
    (handles : List ℕ) (r' : Registry) : Prop where
  authorized : ∃ entry, r.authorize processId endpointHandle Right.receive .endpoint = .ok entry ∧
    entry.object = object
  taken : ∃ rest peer r₁, r.data object = some (.endpoint ⟨message :: rest, peer⟩) ∧
    r.Inserted processId message.capabilities handles r₁ ∧
    r' = (r₁.setData object (.endpoint ⟨rest, peer⟩)).collectGarbage roots

/-- A queue without its oldest message. -/
theorem Registry.Sound.dequeue (h : r.Sound)
    (hdata : r.data object = some (.endpoint ⟨message :: rest, peer⟩)) :
    (r.setData object (.endpoint ⟨rest, peer⟩)).Sound := by
  obtain ⟨hlength, hproper, hpeer⟩ := h.valid object _ hdata
  refine h.setData hdata rfl (fun _ hx => absurd hx not_mem_nil) rfl
    ⟨(Nat.le_succ _).trans hlength, fun m hm => hproper m (mem_cons_of_mem _ hm), hpeer⟩

theorem Registry.Sound.receive (h : r.Sound)
    (heffect : r.ReceiveEffect roots processId endpointHandle object message handles r') :
    r'.Sound := by
  obtain ⟨rest, peer, r1, hdata, hinserted, rfl⟩ := heffect.taken
  exact ((h.insert hinserted).dequeue ((hinserted.data object).trans hdata)).collectGarbage

/-- The oldest message of the endpoint is gone.  The other queues are as before, as far as their
endpoints are still there. -/
structure Registry.Dequeued (r : Registry) (endpoint : ObjectRef) (message : EndpointMessage)
    (r' : Registry) : Prop where
  front : ∃ rest, r.messages endpoint = message :: rest ∧
    ((r'.data endpoint).isSome → r'.messages endpoint = rest)
  others : ∀ o, (r'.data o).isSome → o ≠ endpoint → r'.messages o = r.messages o
  present : ∀ o, (r'.data o).isSome → (r.data o).isSome
  next : r'.nextObjectId = r.nextObjectId

theorem dequeued_setData (hdata : r.data endpoint = some (.endpoint ⟨message :: rest, peer⟩)) :
    r.Dequeued endpoint message (r.setData endpoint (.endpoint ⟨rest, peer⟩)) where
  front := by
    refine ⟨rest, messages_of_data hdata, fun _ => messages_of_data (d := .endpoint ⟨rest, peer⟩) ?_⟩
    rw [Sound.data_setData_of_present hdata, if_pos rfl]
  others o _ ho := by rw [messages, messages, data_setData_ne ho]
  present _ := isSome_setData.1
  next := rfl

theorem Registry.Dequeued.collectGarbage (h : r.Dequeued endpoint message r') :
    r.Dequeued endpoint message (r'.collectGarbage roots) := by
  have hkept : ∀ o, ((r'.collectGarbage roots).data o).isSome →
      (r'.data o).isSome ∧ (r'.collectGarbage roots).messages o = r'.messages o := by
    intro o ho
    obtain ⟨d, hd⟩ := Option.isSome_iff_exists.1 ho
    have hd' := (data_collectGarbage_eq_some.1 hd).2
    exact ⟨Option.isSome_of_eq_some hd', by rw [messages_of_data hd, messages_of_data hd']⟩
  obtain ⟨rest, hfront, hrest⟩ := h.front
  refine ⟨⟨rest, hfront, fun ho => ?_⟩, fun o ho hne => ?_, fun o ho => h.present o (hkept o ho).1, h.next⟩
  · exact (hkept endpoint ho).2.trans (hrest (hkept endpoint ho).1)
  · exact (hkept o ho).2.trans (h.others o (hkept o ho).1 hne)

theorem Registry.ReceiveEffect.dequeued
    (h : r.ReceiveEffect roots processId endpointHandle endpoint message handles r') :
    r.Dequeued endpoint message r' := by
  obtain ⟨rest, peer, r1, hdata, hinserted, rfl⟩ := h.taken
  have hd : r1.Dequeued endpoint message (r1.setData endpoint (.endpoint ⟨rest, peer⟩)) :=
    dequeued_setData ((hinserted.data endpoint).trans hdata)
  have hsame : ∀ o, r1.messages o = r.messages o := fun o => by rw [messages, messages, hinserted.data]
  refine Dequeued.collectGarbage ⟨?_, fun o ho hne => ?_, fun o ho => ?_, hd.next.trans hinserted.next⟩
  · rw [← hsame]
    exact hd.front
  · rw [← hsame]
    exact hd.others o ho hne
  · rw [← hinserted.data]
    exact hd.present o ho

/-- A message that waits after the oldest one is gone waited before. -/
theorem Registry.Dequeued.mem (h : r.Dequeued endpoint message r') {other : EndpointMessage}
    (hother : other ∈ r'.messages o) : other ∈ r.messages o := by
  have ho := isSome_of_message hother
  by_cases heq : o = endpoint
  · subst heq
    obtain ⟨rest, hfront, hrest⟩ := h.front
    rw [hrest ho] at hother
    rw [hfront]
    exact mem_cons_of_mem _ hother
  · rwa [h.others o ho heq] at hother

theorem frontMessage_eq_ok (h : r.frontMessage endpoint = .ok message) :
    ∃ rest peer, r.data endpoint = some (.endpoint ⟨message :: rest, peer⟩) := by
  simp only [frontMessage, run_eq_ok] at h
  obtain ⟨data, hdata, h⟩ := h
  split at h
  · next front rest peer =>
      rw [return_eq_ok] at h
      subst h
      exact ⟨rest, peer, hdata⟩
  · split at h <;> simp at h
  · simp at h
  · simp at h

/-- Where the oldest message is known, taking it does not fail. -/
theorem popMessage_spec (hdata : s.registry.data object = some (.endpoint ⟨message :: rest, peer⟩)) :
    Triple (· = s) (popMessage object) (fun front s' => front = message ∧
      s' = { s with registry := s.registry.setData object (.endpoint ⟨rest, peer⟩) }) E := by
  refine triple_read_bind (fun pair hpair => ?_) fun e herr => ?_
  · simp only [hdata, Except.ok.injEq] at hpair
    subst hpair
    exact triple_modifyRegistry_bind (triple_return ⟨rfl, rfl⟩)
  · simp [hdata] at herr

theorem triple_popMessage_bind {β : Type} {f : EndpointMessage → Syscall β} {Q : β → System → Prop}
    (hdata : s.registry.data object = some (.endpoint ⟨message :: rest, peer⟩))
    (hf : Triple (· = { s with registry := s.registry.setData object (.endpoint ⟨rest, peer⟩) })
      (f message) Q E) : Triple (· = s) (popMessage object >>= f) Q E :=
  triple_bind (popMessage_spec hdata) (by rintro _ _ ⟨rfl, rfl⟩; exact hf)

/-- The bytes of a message, as a receive copies them out. -/
def bytesWrites (processId address : ℕ) (bytes : List UInt8) : List UserWrite :=
  if bytes = [] then [] else [⟨processId, address, .bytes bytes⟩]

/-- The handles of received capabilities, as a receive copies them out. -/
def handleWrites (processId : ℕ) : ℕ → List (ℕ × TransferredCapability) → List UserWrite
  | _, [] => []
  | address, (handle, capability) :: rest =>
    ⟨processId, address, .receivedHandle handle capability.rights⟩ ::
      handleWrites processId (address + 16) rest

theorem triple_copyBytes_bind {β : Type} {bytes : List UInt8} {f : Unit → Syscall β} {Q : β → System → Prop}
    (hf : Triple (· = { s with writes := s.writes ++ bytesWrites processId address bytes }) (f ()) Q E) :
    Triple (· = s) (onlyIf (bytes ≠ []) (copyOut processId address (.bytes bytes)) >>= f) Q E := by
  by_cases hbytes : bytes = []
  · rw [bytesWrites, if_pos hbytes, append_nil] at hf
    rw [onlyIf, if_neg (not_not.2 hbytes)]
    exact triple_bind (R := fun _ s' => s' = s) (triple_return rfl) (by rintro _ _ rfl; exact hf)
  · rw [bytesWrites, if_neg hbytes] at hf
    rw [onlyIf, if_pos hbytes]
    exact triple_copyOut_bind hf

theorem triple_copyHandles_bind {β : Type} {f : Unit → Syscall β} {Q : β → System → Prop}
    {pairs : List (ℕ × TransferredCapability)} : ∀ {address : ℕ} {s : System},
    Triple (· = { s with writes := s.writes ++ handleWrites processId address pairs }) (f ()) Q E →
    Triple (· = s) (copyHandles processId address pairs >>= f) Q E := by
  induction pairs with
  | nil =>
    intro address s hf
    rw [handleWrites, append_nil] at hf
    exact triple_bind (R := fun _ s' => s' = s) (triple_return rfl) (by rintro _ _ rfl; exact hf)
  | cons pair rest ih =>
    intro address s hf
    rw [copyHandles, bind_assoc]
    refine triple_copyOut_bind (ih ?_)
    rw [append_assoc]
    exact hf

theorem endpointReceive_spec : Triple (· = s)
      (endpointReceive m processId endpointHandle bufferAddress bufferLength infoAddress)
      (fun result s' => s' = { s with registry := s'.registry, writes := s'.writes } ∧
        ∃ object message handles, result = message.bytes.length ∧
          s.registry.ReceiveEffect s.rootObjects processId endpointHandle object message handles
            s'.registry ∧ s'.writes = s.writes ++ bytesWrites processId bufferAddress message.bytes ++
            [⟨processId, infoAddress, .messageInfo message.senderProcessId message.bytes.length
              (handles.headD invalidHandle) ((message.capabilities.head?.map (·.rights)).getD 0)⟩])
      (fun _ s' => s.QuietStep s') := by
  refine triple_check_bind (fun length _ => ?_) fun _ _ => .refl s
  refine triple_check_bind (fun _ _ => ?_) fun _ _ => .refl s
  refine triple_read_bind (fun p hp => ?_) fun _ _ => .refl s
  simp only [run_eq_ok] at hp
  obtain ⟨entry, hentry, message, hfront, hone, -, rfl⟩ := hp
  obtain ⟨rest, peer, hdata⟩ := frontMessage_eq_ok hfront
  have hcapabilities : message.capabilities.head?.toList = message.capabilities := by
    cases hc : message.capabilities with
    | nil => rfl
    | cons c rest =>
      cases rest with
      | nil => rfl
      | cons =>
        rw [hc] at hone
        simp at hone
  refine triple_bind insertEntries_spec fun handles s1 h1 => ?_
  obtain ⟨hs1, hinserted⟩ := h1
  rw [hcapabilities] at hinserted
  refine triple_popMessage_bind ((hinserted.data entry.object).trans hdata) ?_
  refine triple_copyBytes_bind (triple_copyOut_bind (triple_modify_bind (triple_return ?_)))
  refine ⟨by rw [hs1]; rfl, entry.object, message, handles, rfl,
    ⟨⟨entry, hentry, rfl⟩, rest, peer, s1.registry, hdata, hinserted, ?_⟩, by rw [hs1]; rfl⟩
  rw [hs1]
  rfl

theorem endpointReceiveMany_spec {handlesAddress handleCapacity : ℕ} :
    Triple (· = s) (endpointReceiveMany m processId endpointHandle bufferAddress bufferLength
        handlesAddress handleCapacity infoAddress)
      (fun result s' => s' = { s with registry := s'.registry, writes := s'.writes } ∧
        ∃ object message handles, result = message.bytes.length ∧
          s.registry.ReceiveEffect s.rootObjects processId endpointHandle object message handles
            s'.registry ∧ s'.writes = s.writes ++ [⟨processId, infoAddress, .messageInfoMany
              message.senderProcessId message.bytes.length message.capabilities.length⟩] ++
            bytesWrites processId bufferAddress message.bytes ++
            handleWrites processId handlesAddress (handles.zip message.capabilities))
      (fun _ s' => ∃ writes, { s with writes := writes }.QuietStep s') := by
  refine triple_check_bind (fun length _ => ?_) fun _ _ => ⟨s.writes, .refl s⟩
  refine triple_check_bind (fun capacity _ => ?_) fun _ _ => ⟨s.writes, .refl s⟩
  refine triple_check_bind (fun _ _ => ?_) fun _ _ => ⟨s.writes, .refl s⟩
  refine triple_read_bind (fun p hp => ?_) fun _ _ => ⟨s.writes, .refl s⟩
  simp only [run_eq_ok] at hp
  obtain ⟨entry, hentry, message, hfront, rfl⟩ := hp
  obtain ⟨rest, peer, hdata⟩ := frontMessage_eq_ok hfront
  refine triple_copyOut_bind ?_
  refine triple_check_bind (fun _ _ => ?_) fun _ _ => ⟨_, .refl _⟩
  refine triple_bind (insertEntries_spec.imp_error fun _ _ h => ⟨_, h⟩) fun handles s1 h1 => ?_
  obtain ⟨hs1, hinserted⟩ := h1
  refine triple_popMessage_bind ((hinserted.data entry.object).trans hdata) ?_
  refine triple_copyBytes_bind (triple_copyHandles_bind (triple_modify_bind (triple_return ?_)))
  refine ⟨by rw [hs1]; rfl, entry.object, message, handles, rfl,
    ⟨⟨entry, hentry, rfl⟩, rest, peer, s1.registry, hdata, hinserted, ?_⟩, by rw [hs1]; rfl⟩
  rw [hs1]
  rfl

end Kernel
