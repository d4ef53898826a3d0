/-
**How long objects live.**

A collection keeps exactly what a table entry or the kernel still reaches, through messages that
wait in endpoints, through jobs and through registrations.  Whatever is named is present, as long as
the kernel adds no root for an object that is gone; and a number that was given to an object is never
given to another.

* `Runs` — runs from any state;
* `Registry.mem_collectGarbage` — what a collection keeps;
* `System.Anchored.closed`, `careful_of_closed` — when nothing that is named is missing;
* `Runs.id_unused` — numbers are not used again;
* `jobTerminate_exact`, `pending_refreshEventPorts` — trees of jobs, and what event ports get to see.
-/

import NullStar.KernelSteps
import NullStar.Signals

set_option autoImplicit false

namespace Kernel

open Rust Hoare List Registry

namespace Registry

variable {r : Registry} {roots : List ObjectRef} {a b : ObjectRef}

/-! ### What keeps an object alive -/

/-- The first object keeps the second alive. -/
inductive Linked (r : Registry) : ObjectRef → ObjectRef → Prop where
  | queued {a : ObjectRef} {e : EndpointObject} {message : EndpointMessage}
      {capability : TransferredCapability} (hdata : r.data a = some (.endpoint e))
      (hmessage : message ∈ e.queue) (hcapability : capability ∈ message.capabilities) :
      Linked r a capability.object
  | jobParent {a : ObjectRef} {state : Job.State} {id : ℕ} (hdata : r.data a = some (.job state))
      (hparent : state.parent = some id) : Linked r a ⟨id, .job⟩
  | jobChild {a : ObjectRef} {state : Job.State} {id : ℕ} (hdata : r.data a = some (.job state))
      (hchild : id ∈ state.children) : Linked r a ⟨id, .job⟩
  | waitSet {a : ObjectRef} {state : WaitSet.State} {registration : WaitSet.Registration}
      (hdata : r.data a = some (.waitSet state)) (hr : registration ∈ state.registrations) :
      Linked r a registration.target
  | eventPort {a : ObjectRef} {state : EventPort.State} {registration : EventPort.Registration}
      (hdata : r.data a = some (.eventPort state)) (hr : registration ∈ state.registrations) :
      Linked r a registration.target

/-- The object is named by a table entry, or the kernel keeps it. -/
def Rooted (r : Registry) (roots : List ObjectRef) (o : ObjectRef) : Prop :=
  (∃ table ∈ r.tables, ∃ entry ∈ table.entries, entry.object = o) ∨ o ∈ roots

/-- The references that a collection follows are the links. -/
theorem mem_links : b ∈ r.links a ↔ r.Linked a b := by
  constructor
  · intro h
    unfold links at h
    cases hd : r.data a with
    | none =>
      rw [hd] at h
      simp at h
    | some d =>
      rw [hd] at h
      cases d with
      | endpoint =>
        obtain ⟨message, hmessage, h⟩ := mem_flatMap.1 h
        obtain ⟨capability, hcapability, rfl⟩ := mem_map.1 h
        exact .queued hd hmessage hcapability
      | job =>
        obtain ⟨id, hid, rfl⟩ := mem_map.1 h
        rcases mem_append.1 hid with hid | hid
        · exact .jobParent hd (by simpa using hid)
        · exact .jobChild hd hid
      | waitSet =>
        obtain ⟨registration, hr, rfl⟩ := mem_map.1 h
        exact .waitSet hd hr
      | eventPort =>
        obtain ⟨registration, hr, rfl⟩ := mem_map.1 h
        exact .eventPort hd hr
      | _ => exact absurd h (by simp [ObjectData.links])
  · intro h
    cases h with
    | queued hd hmessage hcapability =>
      rw [links_of_data hd]
      exact mem_flatMap.2 ⟨_, hmessage, mem_map_of_mem hcapability⟩
    | jobParent hd hparent =>
      rw [links_of_data hd]
      exact mem_map_of_mem (mem_append_left _ (by simpa using hparent))
    | jobChild hd hchild =>
      rw [links_of_data hd]
      exact mem_map_of_mem (mem_append_right _ hchild)
    | waitSet hd hr | eventPort hd hr =>
      rw [links_of_data hd]
      exact mem_map_of_mem hr

theorem mem_collectionRoots : a ∈ r.collectionRoots roots ↔ r.Rooted roots a := by
  simp [collectionRoots, Rooted]

theorem mem_collectGarbage {record : CapabilityObjectRecord} :
    record ∈ (r.collectGarbage roots).objects ↔ record ∈ r.objects ∧
      ∃ start, r.Rooted roots start ∧ Relation.ReflTransGen r.Linked start record.reference := by
  have hlinked : (fun a b => b ∈ r.links a) = r.Linked := by
    funext a b
    exact propext mem_links
  rw [collectGarbage, mem_filter, decide_eq_true_iff, mem_reachable, Reaches, hlinked]
  simp only [mem_collectionRoots]

/-! ### Everything that is named is present -/

/-- The object is there, and is what its reference says. -/
def Present (r : Registry) (o : ObjectRef) : Prop := ∃ d, r.data o = some d ∧ d.kind = o.kind

end Registry

variable {s s' s₁ s₂ : System}

/-- Everything that is named in the system is present, so that nobody who follows a reference finds
it missing. -/
structure System.Closed (s : System) : Prop where
  entries : ∀ processId, ∀ entry ∈ s.registry.entriesOf processId, s.registry.Present entry.object
  roots : ∀ o ∈ s.rootObjects, s.registry.Present o
  links : ∀ a b, s.registry.Linked a b → s.registry.Present b
  refresh : s.registry.refreshEventPorts.2 = none
  jobSubtree : ∀ o state, s.registry.data o = some (.job state) → ∃ jobs, s.registry.jobSubtree o = .ok jobs
  insertEntries : ∀ o e, s.registry.data o = some (.endpoint e) → ∀ message ∈ e.queue,
    each s.registry.checkEntry message.capabilities = .ok ()

theorem System.Anchored.closed (ha : s.Anchored) (h : s.Sound) : s.Closed := by
  have hpresent : ∀ o, (s.registry.data o).isSome → s.registry.Present o := by
    intro o ho
    obtain ⟨d, hd⟩ := Option.isSome_iff_exists.1 ho
    exact ⟨d, hd, h.kind_eq o d hd⟩
  have hlinks : ∀ a b, s.registry.Linked a b → (s.registry.data b).isSome := by
    intro a b hab
    have hmem := mem_links.2 hab
    cases hd : s.registry.data a with
    | none =>
      rw [links, hd] at hmem
      simp at hmem
    | some d =>
      rw [links_of_data hd] at hmem
      -- a message keeps what it carries, any other object what it names
      cases d with
      | endpoint =>
        obtain ⟨message, hmessage, hb⟩ := mem_flatMap.1 hmem
        obtain ⟨c, hc, rfl⟩ := mem_map.1 hb
        exact ha.queued a message (messages_of_data hd ▸ hmessage) c hc
      | _ => exact h.name_present a _ hd b hmem
  refine ⟨fun p e he => hpresent _ (h.entry_present p e he), fun o ho => hpresent o (ha.roots o ho),
    fun a b hab => hpresent b (hlinks a b hab), h.refreshEventPorts_spec.1, fun o state ho => ?_, ?_⟩
  · obtain ⟨jobs, hjobs, -⟩ := h.jobSubtree_ok ho
    exact ⟨jobs, hjobs⟩
  · intro o e ho message hmessage
    refine each_eq_ok.2 fun c hc => checkEntry_eq_ok.2 ⟨?_, ?_⟩
    · exact (h.valid o _ ho).2.1 message hmessage c hc
    · exact hlinks o c.object (.queued ho hmessage hc)

/-- A root for a missing object names something that is missing. -/
theorem careful_of_closed {a : Action} (h : (a.apply s).Closed) : a.Careful s := by
  cases a with
  | kernelRootAdd object =>
    change (s.kernelCapabilityRootAdd object).Closed at h
    have hroot : object ∈ (s.kernelCapabilityRootAdd object).rootObjects := by
      unfold System.kernelCapabilityRootAdd
      split
      · next hold =>
          have hmap : (Keyed.adjust (·.object) object (fun root : KernelCapabilityRoot =>
              { root with references := root.references + 1 }) s.roots).map (·.object) = s.rootObjects :=
            Keyed.map_key_adjust fun _ => rfl
          rwa [← hmap] at hold
      · simp [System.rootObjects]
    obtain ⟨d, hd, -⟩ := h.roots object hroot
    rw [registry_rootAdd] at hd
    exact Option.isSome_of_eq_some hd
  | _ => trivial

/-! ### Numbers are not used again -/

/-- Any number of steps. -/
def Runs : System → System → Prop := Relation.ReflTransGen fun s s' => ∃ a : Action, s' = a.apply s

/-- An object that is there was there before, or has a new number. -/
structure System.Grows (s s' : System) : Prop where
  next_le : s.registry.nextObjectId ≤ s'.registry.nextObjectId
  objects : ∀ o, (s'.registry.data o).isSome → (s.registry.data o).isSome ∨ s.registry.nextObjectId ≤ o.id

theorem System.Grows.refl (s : System) : s.Grows s := ⟨le_rfl, fun _ h => .inl h⟩

theorem System.Grows.trans (h : s.Grows s₁) (h' : s₁.Grows s₂) : s.Grows s₂ := by
  refine ⟨h.next_le.trans h'.next_le, fun o ho => ?_⟩
  rcases h'.objects o ho with ho | hid
  · exact h.objects o ho
  · exact .inr (h.next_le.trans hid)

theorem System.Safe.grows (h : s.Safe s') : s.Grows s' := by
  refine ⟨h.2.next_le, fun o ho => ?_⟩
  rcases h.2.objects o ho with ⟨ho, -⟩ | ⟨hid, -⟩
  · exact .inl ho
  · exact .inr hid

/-- Entries for present objects make no objects. -/
theorem grows_of_inserted {r : Registry} {processId : ℕ}
    {capabilities : List TransferredCapability} {handles : List ℕ} (h : s.Grows { s with registry := r })
    (hinserted : r.Inserted processId capabilities handles s'.registry) : s.Grows s' := by
  refine ⟨?_, fun o ho => ?_⟩
  · rw [hinserted.next]
    exact h.next_le
  · rw [hinserted.data] at ho
    exact h.objects o ho

/-- A step that makes no object. -/
theorem grows_of_present (hnext : s'.registry.nextObjectId = s.registry.nextObjectId)
    (hpresent : ∀ o, (s'.registry.data o).isSome → (s.registry.data o).isSome) : s.Grows s' :=
  ⟨hnext.ge, fun o ho => .inl (hpresent o ho)⟩

theorem CallEffect.grows {m : UserMemory} {c : Call} {processId : ℕ}
    (he : CallEffect m s processId c s') : s.Grows s' := by
  cases he with
  | safe hsafe => exact hsafe.grows
  | created hc hgained | opened hinit hgained =>
    obtain ⟨r1, capabilities, handles, hsafe, hinserted, -⟩ := hgained.made
    exact grows_of_inserted hsafe.grows hinserted
  | duplicated hsource hinserted | granted hsource hinserted =>
    exact grows_of_inserted (.refl s) hinserted
  | replaced hsource hregistry =>
    refine grows_of_present (by rw [hregistry]; rfl) fun o ho => ?_
    rwa [hregistry] at ho
  | sent hc hsent => exact grows_of_present hsent.sent.next fun _ => hsent.sent.present.1
  | received hc hreceived => exact grows_of_present hreceived.dequeued.next hreceived.dequeued.present

theorem Effect.grows {a : Action} (he : Effect s a s') : s.Grows s' := by
  cases he with
  | call hrun he => exact he.grows
  | safe hsafe => exact hsafe.grows
  | rootAdded =>
    refine grows_of_present (by rw [registry_rootAdd]) fun o ho => ?_
    rwa [registry_rootAdd] at ho
  | kernelSent hrun hoffered hroots hsent => exact grows_of_present hsent.next fun _ => hsent.present.1
  | kernelTaken hrun hdata hs' =>
    rw [hs']
    exact grows_of_present rfl fun _ => isSome_setData.1

/-- What a run keeps. -/
theorem Runs.sound (h : s.Sound) (hrun : Runs s s') : s'.Sound ∧ s.Grows s' := by
  induction hrun with
  | refl => exact ⟨h, .refl s⟩
  | tail _ hstep ih =>
    obtain ⟨a, rfl⟩ := hstep
    have he := effect_apply ih.1 a
    exact ⟨he.sound ih.1, ih.2.trans he.grows⟩

/-- Two present objects have different numbers. -/
theorem System.Sound.eq_of_id (h : s.Sound) {o o' : ObjectRef} (ho : (s.registry.data o).isSome)
    (ho' : (s.registry.data o').isSome) (hid : o.id = o'.id) : o = o' :=
  inj_on_of_nodup_map h.ids_nodup (isSome_data.1 ho) (isSome_data.1 ho') hid

/-- The number of an object that is gone stays unused. -/
theorem Runs.id_unused (h : s.Sound) (hrun : Runs s s₁) (hrun' : Runs s₁ s₂) {o : ObjectRef}
    (ho : (s.registry.data o).isSome) (hgone : s₁.registry.data o = none) (kind : ObjectKind) :
    s₂.registry.data ⟨o.id, kind⟩ = none := by
  obtain ⟨h1, hgrows⟩ := hrun.sound h
  obtain ⟨-, hgrows'⟩ := hrun'.sound h1
  have hlt : o.id < s.registry.nextObjectId := by
    obtain ⟨d, hd⟩ := Option.isSome_iff_exists.1 ho
    exact h.id_lt o d hd
  by_contra hne
  have hpresent : (s₂.registry.data ⟨o.id, kind⟩).isSome := Option.ne_none_iff_isSome.1 hne
  rcases hgrows'.objects _ hpresent with hpresent1 | hid
  · -- an object with this number was there before and was the one that is gone
    rcases hgrows.objects _ hpresent1 with hpresent0 | hid
    · have heq := h.eq_of_id hpresent0 ho rfl
      rw [heq, hgone] at hpresent1
      exact nomatch hpresent1
    · exact absurd (hlt.trans_le hid) (lt_irrefl _)
  · exact absurd (hlt.trans_le (hgrows.next_le.trans hid)) (lt_irrefl _)

/-- **Collections are exact, and nothing that is named is missing.**  A collection keeps exactly the
objects that are reached from a table entry or a root of the kernel.  As long as the kernel adds roots
only for present objects everything that is named is present, and the first root for a missing object
is the end of it.  A number that was used by an object is not used by another one, at the same time or
later. -/
theorem objects_exact_and_closed (h : CarefullyReachable s) (a : Action) :
    (s.Closed ∧ ((a.apply s).Closed ↔ a.Careful s)) ∧
    (∀ (r : Registry) (roots : List ObjectRef) (record : CapabilityObjectRecord),
      record ∈ (r.collectGarbage roots).objects ↔ record ∈ r.objects ∧ ∃ start, r.Rooted roots start ∧
          Relation.ReflTransGen r.Linked start record.reference) ∧
    (∀ s, Reachable s → ∀ o o', (s.registry.data o).isSome → (s.registry.data o').isSome →
      o.id = o'.id → o = o') ∧
    ∀ s s₁ s₂, Reachable s → Runs s s₁ → Runs s₁ s₂ → ∀ o, (s.registry.data o).isSome →
      s₁.registry.data o = none → ∀ kind, s₂.registry.data ⟨o.id, kind⟩ = none := by
  have hclosed : ∀ {s}, CarefullyReachable s → s.Closed := by
    intro s h
    obtain ⟨hsound, hanchored⟩ := anchored_of_careful h
    exact hanchored.closed hsound
  refine ⟨⟨hclosed h, careful_of_closed, fun ha => hclosed (.step h ha)⟩,
    fun r roots record => mem_collectGarbage, fun s h o o' => (sound_of_reachable h).eq_of_id, ?_⟩
  intro s s₁ s₂ h hrun hrun' o ho hgone kind
  exact hrun.id_unused (sound_of_reachable h) hrun' ho hgone kind

/-- The first endpoint of a pair is closed, and a notification is made: the number of the endpoint
is not used for it. -/
theorem objects_exact_and_closed_pair :
    ((afterCalls [.endpointCreatePair 0 16]).registry.data ⟨1, .endpoint⟩).isSome ∧
    (afterCalls [.endpointCreatePair 0 16, .capabilityClose 65537]).registry.data ⟨1, .endpoint⟩ = none ∧
    (afterCalls [.endpointCreatePair 0 16, .capabilityClose 65537, .notificationCreate]).registry.data
      ⟨3, .notification⟩ = some (.notification 0) ∧
    (afterCalls [.endpointCreatePair 0 16, .capabilityClose 65537, .notificationCreate]).registry.data
      ⟨1, .notification⟩ = none ∧
    ((Action.kernelRootAdd ⟨2, .endpoint⟩).apply
      (afterCalls [.endpointCreatePair 0 16, .capabilityClose 65537])).Closed := by
  have hrun : CarefullyReachable (afterCalls [.endpointCreatePair 0 16, .capabilityClose 65537]) :=
    .step (a := bootCall (.capabilityClose 65537)) (.step (a := bootCall (.endpointCreatePair 0 16))
      (.start initial_bootSystem) trivial) trivial
  obtain ⟨⟨-, hstep⟩, -, -, hunused⟩ := objects_exact_and_closed hrun (.kernelRootAdd ⟨2, .endpoint⟩)
  refine ⟨by decide, by decide, by decide, ?_, hstep.2 ?_⟩
  · exact hunused _ _ _ (reachable_afterCalls [.endpointCreatePair 0 16])
      (.single ⟨bootCall (.capabilityClose 65537), rfl⟩) (.single ⟨bootCall .notificationCreate, rfl⟩)
      ⟨1, .endpoint⟩ (by decide) (by decide) .notification
  · change (Registry.data _ _).isSome = true
    decide

/-- A proxy of the kernel makes an endpoint for replies; before it adds the root a process makes an
object, which collects garbage. -/
def raced : System :=
  afterActions [.kernelCreateReplyEndpoint, bootCall .notificationCreate, .kernelRootAdd ⟨1, .endpoint⟩]

theorem not_closed_raced : Reachable raced ∧ ⟨1, .endpoint⟩ ∈ raced.rootObjects ∧
    raced.registry.data ⟨1, .endpoint⟩ = none ∧ ¬ raced.Closed := by
  have hgone : raced.registry.data ⟨1, .endpoint⟩ = none := by decide
  have hroot : ⟨1, .endpoint⟩ ∈ raced.rootObjects := by decide
  refine ⟨reachable_afterActions _, hroot, hgone, fun h => ?_⟩
  obtain ⟨d, hd, -⟩ := h.roots _ hroot
  rw [hgone] at hd
  cases hd

/-! ### Jobs and event ports -/

theorem jobMembers_ok {r : Registry} : ∀ {jobs : List ObjectRef},
    (∀ x ∈ jobs, ∃ state, r.data x = some (.job state)) → ∃ members, r.jobMembers jobs = .ok members ∧
      ∀ id, id ∈ members ↔ ∃ x ∈ jobs, ∃ state, r.data x = some (.job state) ∧ id ∈ state.members := by
  intro jobs
  induction jobs with
  | nil => exact fun _ => ⟨[], rfl, by simp⟩
  | cons job rest ih =>
    intro h
    obtain ⟨state, hstate⟩ := h job mem_cons_self
    obtain ⟨members, hmembers, hmem⟩ := ih fun x hx => h x (mem_cons_of_mem _ hx)
    refine ⟨state.members ++ members, ?_, fun id => ?_⟩
    · simp only [Registry.jobMembers, jobState_ok hstate, hmembers]
      rfl
    · simp [hmem, hstate]

/-- The process is a member of the job, or of a job below it. -/
def Registry.MemberBelow (r : Registry) (job : ObjectRef) (id : ℕ) : Prop :=
  ∃ x state, Relation.ReflTransGen (fun a b => b ∈ r.childrenOf a) job x ∧ r.data x = some (.job state) ∧
    id ∈ state.members

/-- The process is there and has not ended. -/
def System.Alive (s : System) (id : ℕ) : Prop :=
  ∃ process, Keyed.lookup (·.processId) id s.processes = some process ∧ process.live

theorem alive_endProcess {id member : ℕ} : (s.endProcess member).Alive id ↔ s.Alive id ∧ id ≠ member := by
  unfold System.Alive
  by_cases hid : id = member
  · subst hid
    have hfound : Keyed.lookup (·.processId) id (s.endProcess id).processes =
        (Keyed.lookup (·.processId) id s.processes).map fun process => { process with live := false } :=
      Keyed.lookup_adjust_self fun _ => rfl
    simp [hfound]
  · have hfound : Keyed.lookup (·.processId) id (s.endProcess member).processes =
        Keyed.lookup (·.processId) id s.processes := Keyed.lookup_adjust_ne (fun _ => rfl) hid
    simp [hfound, hid]

theorem terminateProcess_spec {processId member : ℕ} : Triple (· = s) (terminateProcess processId member)
    (fun ended s' => ended = true ∧ s' = s.endProcess member ∧ member ≠ processId ∧ s.Alive member ∨
      ended = false ∧ s' = s ∧ ¬ (member ≠ processId ∧ s.Alive member)) (fun _ _ => False) := by
  refine triple_get_bind ?_
  split
  · next process hfound =>
      have halive : s.Alive member ↔ process.live = true := by simp [System.Alive, hfound]
      split
      · next hends => exact triple_return (.inr ⟨rfl, rfl, by rw [halive]; grind⟩)
      · next hends =>
          refine triple_modify_bind (triple_return (.inl ⟨rfl, rfl, ?_⟩))
          rw [halive]
          grind
  · next hnone => exact triple_return (.inr ⟨rfl, rfl, by simp [System.Alive, hnone]⟩)

/-- One process is ended after the other, and none twice. -/
theorem terminateProcesses_spec {processId : ℕ} (members : List ℕ) : ∀ {s : System},
    Triple (· = s) (terminateProcesses processId members) (fun count s' => ∃ ended : List ℕ,
      count = ended.length ∧ s' = ended.foldl System.endProcess s ∧ ended.Nodup ∧
        ∀ id, id ∈ ended ↔ id ∈ members ∧ id ≠ processId ∧ s.Alive id) (fun _ _ => False) := by
  induction members with
  | nil => exact triple_return ⟨[], rfl, rfl, nodup_nil, by simp⟩
  | cons member rest ih =>
    refine triple_bind terminateProcess_spec ?_
    rintro _ _ (⟨rfl, rfl, hne, halive⟩ | ⟨rfl, rfl, hends⟩)
    · refine triple_bind ih ?_
      rintro _ _ ⟨ended, rfl, rfl, hnodup, hended⟩
      refine triple_return ⟨member :: ended, rfl, rfl, nodup_cons.2 ⟨fun hmem => ?_, hnodup⟩, fun id => ?_⟩
      · exact (alive_endProcess.1 ((hended member).1 hmem).2.2).2 rfl
      · rw [mem_cons, hended, alive_endProcess]
        grind
    · refine triple_bind ih ?_
      rintro _ _ ⟨ended, rfl, rfl, hnodup, hended⟩
      refine triple_return ⟨ended, rfl, rfl, hnodup, fun id => ?_⟩
      rw [hended]
      grind

/-- **Terminating a job** succeeds for whoever has the right to it.  It ends the processes that are members of
the job or of a job below it, except for the caller, each once, and no other process. -/
theorem jobTerminate_exact (h : Reachable s) {processId handle : ℕ} {entry : CapabilityEntry}
    (hentry : s.registry.authorize processId handle Right.signal .job = .ok entry) : ∃ ended : List ℕ,
      jobTerminate processId handle s = .ok ended.length (ended.foldl System.endProcess s) ∧ ended.Nodup ∧
      ∀ id, id ∈ ended ↔ id ≠ processId ∧ s.Alive id ∧ s.registry.MemberBelow entry.object id := by
  have hs := sound_of_reachable h
  obtain ⟨hfound, -, hkind⟩ := authorize_eq_ok.1 hentry
  obtain ⟨d, hd⟩ := Option.isSome_iff_exists.1 (hs.entry_present _ _ (entry_mem hfound).1)
  obtain ⟨state, hstate⟩ : ∃ state, s.registry.data entry.object = some (.job state) := by
    have hk := (hs.kind_eq _ _ hd).trans hkind
    cases d with
    | job state => exact ⟨state, hd⟩
    | _ => cases hk
  -- no job below is missing, so the walk does not fail
  obtain ⟨jobs, hjobs, hinv⟩ := hs.jobSubtree_ok hstate
  obtain ⟨members, hmembers, hmem⟩ := jobMembers_ok hinv.present
  obtain ⟨_, _, hrun, ended, rfl, rfl, hnodup, hended⟩ :=
    exists_ok_of_triple (terminateProcesses_spec (s := s) members)
  refine ⟨ended, ?_, hnodup, fun id => ?_⟩
  · have hread : read (fun s => do
        let entry ← s.registry.authorize processId handle Right.signal .job
        let jobs ← s.registry.jobSubtree entry.object
        s.registry.jobMembers jobs) s = .ok members s := by
      simp only [read, hentry, ok_bind, hjobs, hmembers]
      rfl
    change EStateM.bind _ _ s = _
    rw [EStateM.bind, hread]
    exact hrun
  · have hbelow : id ∈ members ↔ s.registry.MemberBelow entry.object id := by
      rw [hmem]
      simp only [mem_of_jobSubtree_eq_ok hjobs, MemberBelow]
      grind
    rw [hended, hbelow]
    tauto

/-- A process is a member of the second job, which is below the first. -/
def supervised : System :=
  Action.apply (afterCalls [.jobCreate, .jobCreateChild 65537])
    (.spawnProcess ⟨2, some initProcessId, true, some ⟨2, .job⟩⟩)

theorem jobTerminate_supervised : ∃ ended : List ℕ, 2 ∈ ended ∧ ended.Nodup ∧
    jobTerminate initProcessId 65537 supervised =
      .ok ended.length (ended.foldl System.endProcess supervised) := by
  have hr : Reachable supervised := (reachable_afterCalls _).step
  obtain ⟨ended, hrun, hnodup, hended⟩ := @jobTerminate_exact _ hr initProcessId 65537 _ rfl
  refine ⟨ended, (hended 2).2 ⟨by decide, ⟨_, rfl, rfl⟩, ⟨2, .job⟩, ?_⟩, hnodup, hrun⟩
  exact ⟨_, .single (by decide), rfl, by decide⟩

/-- **A refresh of the event ports misses nothing.**  A port keeps what is queued for a key, and gets what
its target asserts, if it was asked for and the port had not seen it. -/
theorem pending_refreshEventPorts (h : Reachable s) {port : ObjectRef} {state : EventPort.State}
    (hport : s.registry.data port = some (.eventPort state)) {registration : EventPort.Registration}
    (hr : registration ∈ state.registrations) : ∃ current state',
      s.registry.signalState registration.target = .ok current ∧
      s.registry.refreshEventPorts.1.data port = some (.eventPort state') ∧ state'.Valid ∧
      { registration with observed := current &&& registration.requested } ∈ state'.registrations ∧
      EventPort.pending state'.events registration.key = EventPort.pending state.events registration.key |||
        (current &&& registration.requested &&& ~~~registration.observed) := by
  have hs := sound_of_reachable h
  obtain ⟨-, -, hlooked⟩ := hs.refreshEventPorts_spec
  obtain ⟨state', hport', hlook⟩ := hlooked.ports port state hport
  have hpair := hs.portPair hport hr
  obtain ⟨current, hcurrent⟩ := hs.signalState_ok hpair.present hpair.hasSignals
  have hsignals := signals_of_ok hcurrent
  have hmem : registration.target ∈ targetsOf port s.registry.portTargets := by
    refine mem_map.2 ⟨(port, registration.target), mem_filter.2 ⟨?_, by simp⟩, rfl⟩
    exact hs.mem_portTargets.2 ⟨state, hport, mem_map_of_mem hr⟩
  have hpending := hlook.pending registration hr
  rw [if_pos hmem, hsignals] at hpending
  refine ⟨current, state', hcurrent, hport', hlook.valid, ?_, hpending⟩
  rw [hlook.registrations]
  exact mem_map.2 ⟨registration, hr, by rw [if_pos hmem, hsignals]⟩

/-- A port looks at an event, which is set afterwards. -/
def watching : System := afterCalls
  [.eventPortCreate, .eventCreate, .eventPortAdd 65537 131074 Signal.signaled 7, .eventSet 131074]

theorem pending_refresh_watching : ∃ state,
    watching.registry.refreshEventPorts.1.data ⟨1, .eventPort⟩ = some (.eventPort state) ∧ state.Valid ∧
    ⟨⟨2, .event⟩, Signal.signaled, 7, Signal.signaled⟩ ∈ state.registrations ∧
    EventPort.pending state.events 7 = Signal.signaled := by
  obtain ⟨current, state, hcurrent, hport, hvalid, hmem, hpending⟩ :=
    @pending_refreshEventPorts watching (reachable_afterCalls _) ⟨1, .eventPort⟩ _ rfl
      ⟨⟨2, .event⟩, Signal.signaled, 7, 0⟩ (by decide)
  obtain rfl : Signal.signaled = current := Except.ok.inj hcurrent
  exact ⟨state, hport, hvalid, hmem, hpending⟩

end Kernel
