/-
**The calls that move no capability.**

A call that changes the state of one object, removes an entry, waits or ends a process gives nobody
a capability and leaves the registry sound, whether it succeeds or fails.  Each call is taken
through its elementary changes, one after the other; only the retirement of a job passes through a
state that is not sound, because the links between parent and child are removed one by one.

* `safeCall_withObject` — one operation on one object;
* `Registry.Sound.retireJob` — the retirement of a job;
* `safeCall_eventPortWait`, `safeCall_jobAssign` and one result for every other call;
* `System.Safe.reapProcess`, `System.Safe.serviceObjectWaitDeadlines` — the end of a
  process, and the clock.
-/

import NullStar.MovingCalls

set_option autoImplicit false

namespace Kernel

open Rust Hoare Registry List Option

variable {s₀ s : System} {o : ObjectRef} {d d' : ObjectData}

/-! ### Elementary changes -/

/-- A new state for an object: it names no more objects, and has the same messages and
the same peer. -/
structure Replaces (r : Registry) (o : ObjectRef) (d d' : ObjectData) : Prop where
  kind : d'.kind = d.kind
  names : ∀ x ∈ d'.names, x ∈ d.names
  jobParent : d'.jobParent = d.jobParent
  valid : r.ValidData o d'
  traffic : d'.traffic = d.traffic

namespace System

variable (h : s₀.Safe s)

include h

theorem Safe.replace (ho : s.registry.data o = some d) (hr : Replaces s.registry o d d') :
    s₀.Safe { s with registry := s.registry.setData o d' } :=
  h.setData_names ho hr.kind hr.names hr.jobParent hr.valid hr.traffic

theorem Safe.updateEntries {processId : ℕ} {f : List CapabilityEntry → List CapabilityEntry}
    (hf : ∀ l, (f l).Sublist l) : s₀.Safe { s with registry := s.registry.updateEntries processId f } := by
  have htables : ((s.registry.updateEntries processId f).tables.map (·.processId)).Nodup := by
    rw [tables_updateEntries]
    exact h.1.tables_nodup
  refine h.shrinkTables rfl rfl htables fun p => ?_
  by_cases hp : p = processId
  · subst hp
    rw [entriesOf_updateEntries (sublist_nil.1 (hf []))]
    exact hf _
  · rw [entriesOf_updateEntries_ne hp]

/-- The kernel counts its references to an object differently, or keeps fewer objects. -/
theorem Safe.withRoots {roots : List KernelCapabilityRoot}
    (hroots : ∀ x ∈ roots.map (·.object), x ∈ s.rootObjects) : s₀.Safe { s with roots := roots } :=
  h.extend h.1 (.refl _) hroots fun _ ho => ho

theorem Safe.adjustRoots {f : KernelCapabilityRoot → KernelCapabilityRoot}
    (hf : ∀ root, (f root).object = root.object) :
    s₀.Safe { s with roots := Keyed.adjust (·.object) o f s.roots } := by
  refine h.withRoots fun x hx => ?_
  rwa [Keyed.map_key_adjust hf] at hx

theorem Safe.rootAdd (ho : (s.registry.data o).isSome) : s₀.Safe (s.kernelCapabilityRootAdd o) := by
  unfold kernelCapabilityRootAdd
  split
  · exact h.adjustRoots fun _ => rfl
  · refine ⟨h.1, h.2, fun ha => ⟨fun x hx => ?_, (h.3 ha).queued⟩⟩
    obtain hx | rfl : x ∈ s.rootObjects ∨ x = o := by simpa [rootObjects] using hx
    · exact (h.3 ha).roots x hx
    · exact ho

theorem Safe.rootRemove : s₀.Safe (s.kernelCapabilityRootRemove o) := by
  unfold kernelCapabilityRootRemove
  split
  · exact h
  · split
    · exact h.adjustRoots fun _ => rfl
    · exact h.withRoots fun x hx => (eraseP_sublist.map _).subset hx

end System

/-! ### Safe calls -/

/-- The call keeps the registry sound and moves no capability. -/
def SafeCall {α : Type} (call : Syscall α) : Prop :=
  ∀ s₀ s : System, s₀.Safe s → Triple (· = s) call (fun _ s' => s₀.Safe s') (fun _ s' => s₀.Safe s')

section Rules

variable {α β : Type} {x : Syscall α} {f : α → Syscall β}

theorem SafeCall.bind (hx : SafeCall x) (hf : ∀ a, SafeCall (f a)) : SafeCall (x >>= f) :=
  fun s₀ s h => triple_bind (hx s₀ s h) fun a s' h' => hf a s₀ s' h'

theorem SafeCall.check_bind {y : Outcome Errno α} (hf : ∀ a, y = .ok a → SafeCall (f a)) :
    SafeCall (check y >>= f) :=
  fun s₀ s h => triple_check_bind (fun a ha => hf a ha s₀ s h) fun _ _ => h

theorem SafeCall.read_only {y : System → Outcome Errno α} : SafeCall (read y) :=
  fun _ _ h => triple_read (fun _ _ => h) fun _ _ => h

theorem SafeCall.return (a : α) : SafeCall (pure a) := fun _ _ h => triple_return h

theorem SafeCall.fail (e : Errno) : SafeCall (check (Rust.fail e) : Syscall α) :=
  fun _ _ h => triple_check (fun _ _ => h) fun _ _ => h

theorem SafeCall.modify {g : System → System} (hg : ∀ {s₀ s : System}, s₀.Safe s → s₀.Safe (g s)) :
    SafeCall (modify g) := fun _ _ h => triple_modify (hg h)

theorem SafeCall.copyOut {processId address : ℕ} {value : UserValue} :
    SafeCall (copyOut processId address value) := .modify fun h => h.of_eq rfl rfl

end Rules

/-- One operation on the state of one object. -/
theorem safeCall_withObject {processId handle : ℕ} {right : Bits} {kind : ObjectKind}
    {operation : ObjectData → Outcome Errno (ℕ × ObjectData)}
    (hop : ∀ {r : Registry} {o d result d'}, r.ValidData o d → operation d = .ok (result, d') →
      Replaces r o d d') : SafeCall (withObject processId handle right kind operation) := by
  intro s₀ s h
  refine triple_read_bind (fun p hp => ?_) fun _ _ => h
  simp only [run_eq_ok] at hp
  obtain ⟨entry, -, d, hd, ⟨result, d'⟩, hresult, rfl⟩ := hp
  exact triple_modifyRegistry_bind
    (triple_return (h.replace hd (hop (h.1.valid entry.object d hd) hresult)))

section Objects

variable {processId handle : ℕ}

theorem safeCall_notificationSignal {amount : ℕ} : SafeCall (notificationSignal processId handle amount) := by
  refine .check_bind fun _ _ => safeCall_withObject fun {r o d result d'} _ hd => ?_
  cases d with
  | notification =>
    simp only [run_eq_ok] at hd
    obtain ⟨pending', -, -, rfl⟩ := hd
    exact ⟨rfl, fun _ hx => hx, rfl, trivial, rfl⟩
  | _ => simp at hd

theorem safeCall_notificationTryWait : SafeCall (notificationTryWait processId handle) := by
  refine safeCall_withObject fun {r o d result d'} _ hd => ?_
  cases d with
  | notification =>
    simp only [run_eq_ok] at hd
    obtain ⟨-, -, rfl⟩ := hd
    exact ⟨rfl, fun _ hx => hx, rfl, trivial, rfl⟩
  | _ => simp at hd

/-- The calls that set and reset an event. -/
theorem safeCall_onEvent (f : Event.State → Event.State) :
    SafeCall (withObject processId handle Right.signal .event fun
      | .event state => return (0, .event (f state))
      | _ => fail .invalidArgument) := by
  refine safeCall_withObject fun {r o d result d'} _ hd => ?_
  cases d with
  | event =>
    obtain ⟨-, rfl⟩ := hd
    exact ⟨rfl, fun _ hx => hx, rfl, trivial, rfl⟩
  | _ => simp at hd

theorem safeCall_eventSet : SafeCall (eventSet processId handle) := safeCall_onEvent _

theorem safeCall_eventReset : SafeCall (eventReset processId handle) := safeCall_onEvent _

theorem safeCall_timerCancel : SafeCall (timerCancel processId handle) := by
  refine safeCall_withObject fun {r o d result d'} _ hd => ?_
  cases d with
  | timer =>
    obtain ⟨-, rfl⟩ := hd
    exact ⟨rfl, fun _ hx => hx, rfl, trivial, rfl⟩
  | _ => simp at hd

theorem safeCall_jobSetProcessLimit {limit : ℕ} : SafeCall (jobSetProcessLimit processId handle limit) := by
  refine safeCall_withObject fun {r o d result d'} hvalid hd => ?_
  cases d with
  | job =>
    simp only [run_eq_ok] at hd
    obtain ⟨state', hstate, -, rfl⟩ := hd
    simp only [Job.State.setProcessLimit, run_eq_ok] at hstate
    obtain ⟨-, -, -, rfl⟩ := hstate
    exact ⟨rfl, fun _ hx => hx, rfl, hvalid, rfl⟩
  | _ => simp at hd

variable {address length key member : ℕ} {m : UserMemory} {r : Registry} {requested : Bits}
  {state : Job.State} {job : ObjectRef}

theorem safeCall_sharedMemoryWrite {offset : ℕ} :
    SafeCall (sharedMemoryWrite m processId handle offset address length) := by
  refine .check_bind fun _ _ => .check_bind fun _ _ =>
    safeCall_withObject fun {r o d result d'} _ hd => ?_
  cases d with
  | sharedMemory =>
    simp only [run_eq_ok] at hd
    obtain ⟨-, -, rfl⟩ := hd
    exact ⟨rfl, fun _ hx => hx, rfl, trivial, rfl⟩
  | _ => simp at hd

theorem safeCall_sharedMemoryRead {offset : ℕ} :
    SafeCall (sharedMemoryRead m processId handle offset address length) :=
  .check_bind fun _ _ => .check_bind fun _ _ => SafeCall.read_only.bind fun _ =>
    SafeCall.copyOut.bind fun _ => .return _

theorem safeCall_jobGetProcessLimit : SafeCall (jobGetProcessLimit processId handle) := .read_only

/-- A timer is replaced by another. -/
theorem replaces_timer {timer timer' : Timer.State} :
    Replaces r o (.timer timer) (.timer timer') := ⟨rfl, fun _ hx => hx, rfl, trivial, rfl⟩

theorem safeCall_timerArm {deadlineNs : ℕ} : SafeCall (timerArm processId handle deadlineNs) := by
  refine .check_bind fun _ _ s₀ s h => ?_
  refine triple_read_bind (fun object hobject => ?_) fun _ _ => h
  obtain ⟨timer, htimer⟩ : ∃ timer, s.registry.data object = some (.timer timer) := by
    simp only [run_eq_ok] at hobject
    obtain ⟨entry, -, d, hd, hobject⟩ := hobject
    cases d with
    | timer timer =>
      rw [return_eq_ok] at hobject
      exact ⟨timer, hobject ▸ hd⟩
    | _ => simp at hobject
  refine triple_modifyRegistry_bind (triple_get_bind (triple_modifyRegistry_bind ?_))
  have hcanceled : s₀.Safe
      { s with registry := s.registry.setData object (.timer ⟨none, false⟩) } :=
    h.replace htimer replaces_timer
  have hrefreshed := hcanceled.refreshEventPorts
  split
  · exact SafeCall.fail _ s₀ _ hrefreshed
  · refine triple_read_bind (fun state hstate => ?_) fun _ _ => hrefreshed
    simp only [run_eq_ok] at hstate
    obtain ⟨d, hd, hstate⟩ := hstate
    cases d with
    | timer =>
      exact triple_modifyRegistry_bind (triple_return (hrefreshed.replace hd replaces_timer))
    | _ => simp at hstate

/-! ### Registrations -/

theorem waitTarget_eq_ok {target : ObjectRef} (h : r.waitTarget processId handle requested = .ok target) :
    ∃ entry, r.entry processId handle = some entry ∧ entry.object = target ∧
      Within requested (capabilityObjectSupportedSignals target.kind) := by
  simp only [waitTarget, run_eq_ok, entryWithRight_eq_ok, not_not] at h
  obtain ⟨entry, ⟨hentry, -⟩, hwithin, rfl⟩ := h
  exact ⟨entry, hentry, rfl, hwithin⟩

/-- What an object names is present, and so is what an entry names. -/
theorem Registry.Sound.names_append (h : r.Sound) {entry : CapabilityEntry}
    (hd : r.data o = some d) (hentry : r.entry processId handle = some entry) :
    ∀ x ∈ d.names ++ [entry.object], (r.data x).isSome :=
  forall_mem_append.2 ⟨h.name_present _ _ hd,
    forall_mem_singleton.2 (h.entry_present _ _ (entry_mem hentry).1)⟩

theorem safeCall_waitSetAdd {targetHandle : ℕ} :
    SafeCall (waitSetAdd processId handle targetHandle requested key) := by
  refine .check_bind fun _ hrequested s₀ s h => ?_
  refine triple_read_bind (fun p hp => ?_) fun _ _ => h
  simp only [run_eq_ok] at hp
  obtain ⟨entry, -, target, htarget, d, hd, hp⟩ := hp
  cases d with
  | waitSet =>
    simp only [run_eq_ok] at hp
    obtain ⟨state', hadd, rfl⟩ := hp
    simp only [WaitSet.State.add, run_eq_ok] at hadd
    obtain ⟨-, hne, -, -, -, rfl⟩ := hadd
    obtain ⟨tentry, htentry, rfl, hwithin⟩ := waitTarget_eq_ok htarget
    have hvalid := h.1.valid entry.object _ hd
    refine triple_modifyRegistry_bind (triple_return (h.setData hd rfl ?_ rfl ?_ rfl))
    · simp only [ObjectData.names, ObjectData.links, map_append]
      exact h.1.names_append hd htentry
    · exact forall_mem_append.2 ⟨hvalid, forall_mem_singleton.2 ⟨hne, hwithin⟩⟩
  | _ => simp at hp

theorem safeCall_waitSetRemove : SafeCall (waitSetRemove processId handle key) := by
  refine .bind (safeCall_withObject fun {r o d result d'} hvalid hd => ?_) fun _ =>
    (SafeCall.modify fun h => h.collectGarbage).bind fun _ => SafeCall.return _
  cases d with
  | waitSet =>
    simp only [run_eq_ok] at hd
    obtain ⟨state', hremove, -, rfl⟩ := hd
    obtain ⟨-, ⟨⟩⟩ := ite_none_right_eq_some.1 hremove
    exact ⟨rfl, fun x hx => (eraseP_sublist.map _).subset hx, rfl,
      fun registration hr => hvalid registration (mem_of_mem_eraseP hr), rfl⟩
  | _ => simp at hd

theorem safeCall_eventPortAdd {targetHandle : ℕ} :
    SafeCall (eventPortAdd processId handle targetHandle requested key) := by
  refine .check_bind fun _ hrequested s₀ s h => ?_
  refine triple_read_bind (fun p hp => ?_) fun _ _ => h
  simp only [run_eq_ok, entryWithRight_eq_ok, not_not] at hp
  obtain ⟨entry, -, tentry, ⟨htentry, -⟩, hkind, hwithin, current, -, d, hd, hp⟩ := hp
  cases d with
  | eventPort state =>
    simp only [run_eq_ok] at hp
    obtain ⟨state', hadd, rfl⟩ := hp
    have hstate : state.Valid := h.1.valid entry.object _ hd
    obtain ⟨hvalid, hregs⟩ := hstate.add hwithin hkind hadd
    refine triple_modifyRegistry_bind (triple_return (h.setData hd rfl ?_ rfl hvalid rfl))
    simp only [ObjectData.names, ObjectData.links, hregs, map_append]
    exact h.1.names_append hd htentry
  | _ => simp at hp

theorem safeCall_eventPortRemove : SafeCall (eventPortRemove processId handle key) := by
  refine .bind (safeCall_withObject fun {r o d result d'} hvalid hd => ?_) fun _ =>
    (SafeCall.modify fun h => h.collectGarbage).bind fun _ => SafeCall.return _
  cases d with
  | eventPort state =>
    simp only [run_eq_ok] at hd
    obtain ⟨state', hremove, -, rfl⟩ := hd
    have hstate : state.Valid := hvalid
    obtain ⟨hstate', hsub⟩ := hstate.remove hremove
    exact ⟨rfl, fun x hx => (hsub.map _).subset hx, rfl, hstate', rfl⟩
  | _ => simp at hd

/-! ### Jobs -/

/-- A job whose links to other jobs are as before. -/
theorem replaces_job {state' : Job.State} (hvalid : r.ValidData o (.job state))
    (hparent : state'.parent = state.parent) (hchildren : state'.children = state.children) :
    Replaces r o (.job state) (.job state') := by
  refine ⟨rfl, fun x hx => ?_, hparent, ?_, rfl⟩
  · simpa only [ObjectData.names, ObjectData.links, Job.State.links, hparent, hchildren] using hx
  · change state'.children.Nodup ∧ ∀ c ∈ state'.children, o.id < c ∧ r.jobParent c = some o.id
    rw [hchildren]
    exact hvalid

/-- The registry after a job was taken from its parent. -/
def Registry.retireJob (r : Registry) (child : ObjectRef) (parentId : ℕ)
    (childState parentState : Job.State) : Registry :=
  (r.setData child (.job { childState with parent := none, retired := true })).setData
    ⟨parentId, .job⟩ (.job { parentState with children := parentState.children.erase child.id })

namespace Registry

/-- A job that is taken from its parent.  The job forgets the parent first, so the links between the
two do not agree in between. -/
theorem Sound.retireJob {r : Registry} {child : ObjectRef}
    {parentId : ℕ} {childState parentState : Job.State} (h : r.Sound)
    (hchild : r.data child = some (.job childState))
    (hparent : r.data ⟨parentId, .job⟩ = some (.job parentState))
    (hlink : childState.parent = some parentId) (hempty : childState.children = [])
    (hmem : child.id ∈ parentState.children) :
    (r.setData child (.job { childState with parent := none, retired := true })).data ⟨parentId, .job⟩ =
        some (.job parentState) ∧ (r.retireJob child parentId childState parentState).Sound ∧
      r.Evolves (r.retireJob child parentId childState parentState) ∧ ∀ x, (r.data x).isSome →
        ((r.retireJob child parentId childState parentState).data x).isSome := by
  set parent : ObjectRef := ⟨parentId, .job⟩ with hparentRef
  set child' : ObjectData := .job { childState with parent := none, retired := true } with hchild'
  set parent' : ObjectData :=
    .job { parentState with children := parentState.children.erase child.id } with hparent'
  obtain ⟨hnodup, hbelow⟩ := h.valid parent _ hparent
  have hkind : child.kind = .job := (h.kind_eq child _ hchild).symm
  have hne : parent ≠ child := by
    intro heq
    have hlt := (hbelow child.id hmem).1
    rw [heq] at hlt
    exact absurd hlt (lt_irrefl _)
  have hparent1 : (r.setData child child').data parent = some (.job parentState) := by
    rw [data_setData_ne hne]
    exact hparent
  have hread : ∀ x, ((r.setData child child').setData parent parent').data x =
      if x = parent then some parent' else if x = child then some child' else r.data x := by
    intro x
    rw [data_setData_of_present hparent1, data_setData_of_present hchild]
  have hchildEvolves : r.Evolves (r.setData child child') := evolves_setData hchild rfl
  have hparentEvolves : (r.setData child child').Evolves
      ((r.setData child child').setData parent parent') := evolves_setData hparent1 rfl
  have hpresent : ∀ x, (r.data x).isSome →
      (((r.setData child child').setData parent parent').data x).isSome := fun x hx =>
    isSome_setData.2 (isSome_setData.2 hx)
  refine ⟨hparent1, ?_, hchildEvolves.trans hparentEvolves, hpresent⟩
  change ((r.setData child child').setData parent parent').Sound
  set r' := (r.setData child child').setData parent parent' with hr'
  -- only the retired job has lost its parent
  have hjobs : ∀ c, c ≠ child.id → r'.jobParent c = r.jobParent c := by
    intro c hc
    rw [jobParent, jobParent, hread]
    split
    · next heq => rw [heq, hparent]; rfl
    · rw [if_neg]
      intro heq
      exact hc (by rw [← heq])
  refine h.withObjects rfl ?_ hpresent ?_
  · rw [objectIds_setData, objectIds_setData]
    exact h.ids_nodup
  · intro x d hd
    rw [hread] at hd
    split at hd
    · next hx =>
        subst hx
        cases hd
        refine ⟨rfl, h.id_lt parent _ hparent, ?_, hnodup.erase _, ?_⟩
        · intro y hy
          refine hpresent y (h.name_present parent _ hparent y ?_)
          refine map_subset _ ?_ hy
          exact append_subset.2 ⟨subset_append_left _ _, fun c hc => mem_append_right _ (mem_of_mem_erase hc)⟩
        · intro c hc
          obtain ⟨hcne, hc⟩ := hnodup.mem_erase_iff.1 hc
          obtain ⟨hlt, hpar⟩ := hbelow c hc
          exact ⟨hlt, (hjobs c hcne).trans hpar⟩
    · split at hd
      · next hx =>
          subst hx
          cases hd
          refine ⟨hkind.symm, h.id_lt x _ hchild, ?_, ?_⟩
          · simp [hchild', ObjectData.names, ObjectData.links, Job.State.links, hempty]
          · rw [ValidData, hempty]
            exact ⟨nodup_nil, fun c hc => absurd hc not_mem_nil⟩
      · next hx hxc =>
          refine ⟨h.kind_eq x d hd, h.id_lt x d hd, fun y hy => hpresent y (h.name_present x d hd y hy), ?_⟩
          have hvalid := h.valid x d hd
          cases d with
          | job =>
            refine ⟨hvalid.1, fun c hc => ⟨(hvalid.2 c hc).1, ?_⟩⟩
            refine (hjobs c fun heq => ?_).trans (hvalid.2 c hc).2
            -- a job has one parent
            have hpar : r.jobParent child.id = some parentId := by
              have href : (⟨child.id, .job⟩ : ObjectRef) = child := by rw [← hkind]
              rw [jobParent, href, hchild]
              exact hlink
            have hxpar := (hvalid.2 c hc).2
            rw [heq, hpar, some.injEq] at hxpar
            refine hx ?_
            rw [hparentRef, hxpar, ← show x.kind = .job from (h.kind_eq x _ hd).symm]
          | _ => exact hvalid

end Registry

theorem retirementParent_eq_ok {parentId : ℕ} (h : state.retirementParent = .ok parentId) :
    state.parent = some parentId ∧ state.children = [] := by
  simp only [Job.State.retirementParent, run_eq_ok, not_or, not_not] at h
  obtain ⟨-, parentId', hparent, ⟨-, -, hchildren⟩, rfl⟩ := h
  exact ⟨hparent, hchildren⟩

theorem safeCall_jobRetire : SafeCall (jobRetire processId handle) := by
  intro s₀ s h
  refine triple_read_bind (fun p hp => ?_) fun _ _ => h
  simp only [run_eq_ok, not_not] at hp
  obtain ⟨entry, -, childState, hchild, parentId, hretire, parentState, hparent, hmem,
    ⟨retiredParent, retired⟩, hretired, -, rfl⟩ := hp
  have hchild := jobState_eq_ok hchild
  have hparent := jobState_eq_ok hparent
  obtain ⟨hlink, hempty⟩ := retirementParent_eq_ok hretire
  simp only [Job.State.retire, run_eq_ok] at hretired
  obtain ⟨_, -, -, rfl⟩ := hretired
  obtain ⟨hparent1, hsound, hevolves, hpresent⟩ := h.1.retireJob hchild hparent hlink hempty hmem
  have hsafe : s₀.Safe { s with
      registry := s.registry.retireJob entry.object parentId childState parentState } :=
    h.extend hsound hevolves (fun _ ho => ho) hpresent
  refine triple_modifyRegistry_bind (triple_read_bind (fun state hstate => ?_) fun e he => ?_)
  · simp only [hparent1, okOr_eq_ok, Job.State.removeChild, if_pos hmem, some.injEq]
      at hstate
    subst hstate
    exact triple_modifyRegistry_bind (triple_modify_bind (triple_return hsafe.collectGarbage))
  · simp [hparent1, Job.State.removeChild, if_pos hmem] at he

theorem assign_eq_ok {state' : Job.State} (h : state.assign member = .ok state') :
    state'.parent = state.parent ∧ state'.children = state.children := by
  simp only [Job.State.assign, run_eq_ok] at h
  obtain ⟨-, -, -, -, rfl⟩ := h
  exact ⟨rfl, rfl⟩

theorem safeCall_capabilityJobAddMember : SafeCall (capabilityJobAddMember job member) := by
  intro s₀ s h
  refine triple_read_bind (fun state' hstate' => ?_) fun _ _ => h
  simp only [run_eq_ok] at hstate'
  obtain ⟨state, hstate, -, -, -, -, hassign⟩ := hstate'
  have hdata := jobState_eq_ok hstate
  obtain ⟨hparent, hchildren⟩ := assign_eq_ok hassign
  have hset : s₀.Safe { s with registry := s.registry.setData job (.job state') } :=
    h.replace hdata (replaces_job (h.1.valid job _ hdata) hparent hchildren)
  refine triple_modifyRegistry_bind (triple_modify (hset.rootAdd ?_))
  rw [data_setData_self, hdata]
  rfl

/-- An operation on the members of a job leaves its links alone. -/
def KeepsJobLinks (operation : Job.State → Option Job.State) : Prop :=
  ∀ state state', operation state = some state' →
    state'.parent = state.parent ∧ state'.children = state.children

theorem keepsJobLinks_removeUnstarted (member : ℕ) : KeepsJobLinks (·.removeUnstarted member) := by
  intro state state' h
  obtain ⟨-, ⟨⟩⟩ := ite_none_right_eq_some.1 h
  exact ⟨rfl, rfl⟩

theorem keepsJobLinks_complete (record : Job.ExitRecord) : KeepsJobLinks (·.complete record) := by
  intro state state' h
  obtain ⟨-, ⟨⟩⟩ := ite_none_right_eq_some.1 h
  exact ⟨rfl, rfl⟩

theorem System.Safe.jobRemoveMember {operation : Job.State → Option Job.State} {s' : System}
    (h : s₀.Safe s) (hop : KeepsJobLinks operation)
    (hs' : s.jobRemoveMember job operation = some s') : s₀.Safe s' := by
  unfold System.jobRemoveMember at hs'
  split at hs'
  · next state hdata =>
      obtain ⟨state', hstate', rfl⟩ := map_eq_some_iff.1 hs'
      obtain ⟨hparent, hchildren⟩ := hop state state' hstate'
      exact (h.replace hdata
        (replaces_job (h.1.valid job _ hdata) hparent hchildren)).rootRemove
  · simp at hs'

theorem System.Safe.jobRemoveUnstarted (h : s₀.Safe s) :
    s₀.Safe (s.capabilityJobRemoveUnstarted job member) := by
  unfold System.capabilityJobRemoveUnstarted
  cases hs : s.jobRemoveMember job (·.removeUnstarted member) with
  | none => exact h
  | some => exact h.jobRemoveMember (keepsJobLinks_removeUnstarted member) hs

theorem System.Safe.jobRecordExit {status : ℕ} (h : s₀.Safe s) :
    s₀.Safe (s.capabilityJobRecordExit job member status) := by
  unfold System.capabilityJobRecordExit
  split
  · next s' hs =>
      exact (h.jobRemoveMember (keepsJobLinks_complete _) hs).wakeSatisfiedObjectWaiters
  · exact h

theorem safeCall_jobAssign : SafeCall (jobAssign processId handle member) := by
  refine .check_bind fun _ _ => SafeCall.read_only.bind fun job =>
    SafeCall.read_only.bind fun child => ?_
  split
  · exact .return _
  · refine .check_bind fun _ _ => safeCall_capabilityJobAddMember.bind fun _ => ?_
    have hundo : SafeCall (do
        modify (·.capabilityJobRemoveUnstarted job member)
        check (fail .noChild) : Syscall ℕ) :=
      (SafeCall.modify fun h => h.jobRemoveUnstarted).bind fun _ => SafeCall.fail _
    intro s₀ s h
    refine triple_get_bind ?_
    split
    · split
      · exact triple_modify_bind (triple_return (h.of_eq rfl rfl))
      · exact hundo s₀ s h
    · exact hundo s₀ s h

theorem takeCompletion_eq_ok {r' : Registry} {record : Job.ExitRecord} :
    ∀ {jobs : List ObjectRef}, r.takeCompletion jobs = .ok (some (record, r')) →
      ∃ job ∈ jobs, ∃ state rest, r.data job = some (.job state) ∧ state.completions = record :: rest ∧
        r' = r.setData job (.job { state with completions := rest }) := by
  intro jobs
  induction jobs with
  | nil => exact fun h => absurd h (by simp [takeCompletion])
  | cons job jobs ih =>
    intro h
    simp only [takeCompletion, bind_eq_ok] at h
    obtain ⟨state, hstate, h⟩ := h
    cases hc : state.completions with
    | nil =>
      rw [show state.takeCompletion = none by rw [Job.State.takeCompletion, hc]] at h
      obtain ⟨job', hjob', hrest⟩ := ih h
      exact ⟨job', mem_cons_of_mem _ hjob', hrest⟩
    | cons first rest =>
      rw [show state.takeCompletion = some (first, { state with completions := rest }) by
        rw [Job.State.takeCompletion, hc]] at h
      obtain ⟨rfl, rfl⟩ := h
      exact ⟨job, mem_cons_self, state, rest, jobState_eq_ok hstate, hc, rfl⟩

theorem safeCall_jobTryWait : SafeCall (jobTryWait m processId handle address length) := by
  refine .check_bind fun _ _ => .check_bind fun _ _ s₀ s h => ?_
  refine triple_read_bind (fun p hp => ?_) fun _ _ => h
  simp only [bind_eq_ok] at hp
  obtain ⟨entry, -, jobs, -, result, hresult, hp⟩ := hp
  cases result with
  | some pair =>
    obtain ⟨record, r'⟩ := pair
    cases hp
    obtain ⟨job, -, state, rest, hdata, -, rfl⟩ := takeCompletion_eq_ok hresult
    have hset : s₀.Safe { s with
        registry := s.registry.setData job (.job { state with completions := rest }) } :=
      h.replace hdata (replaces_job (h.1.valid job _ hdata) rfl rfl)
    exact triple_modifyRegistry_bind (triple_copyOut_bind (triple_return (hset.of_eq rfl rfl)))
  | none =>
    simp only [bind_eq_ok] at hp
    obtain ⟨active, -, hp⟩ := hp
    split at hp <;> simp at hp

theorem safeCall_terminateProcess : SafeCall (terminateProcess processId member) := by
  intro s₀ s h
  refine triple_get_bind ?_
  split
  · split
    · exact triple_return h
    · exact triple_modify_bind (triple_return (h.of_eq rfl rfl))
  · exact triple_return h

theorem safeCall_terminateProcesses (members : List ℕ) : SafeCall (terminateProcesses processId members) := by
  induction members with
  | nil => exact .return _
  | cons member rest ih => exact safeCall_terminateProcess.bind fun _ => ih.bind fun _ => .return _

theorem safeCall_jobTerminate : SafeCall (jobTerminate processId handle) :=
  SafeCall.read_only.bind safeCall_terminateProcesses

/-! ### Handles and information -/

theorem safeCall_capabilityClose : SafeCall (capabilityClose processId handle) := by
  refine .check_bind fun _ _ => .bind (fun s₀ s h => ?_) fun _ =>
    (SafeCall.modify fun h => h.collectGarbage).bind fun _ =>
      (SafeCall.modify fun h => h.wakePeerClosed).bind fun _ => SafeCall.return _
  refine removeEntry_spec.imp ?_ ?_
  · rintro _ _ rfl
    exact h.updateEntries fun _ => eraseP_sublist
  · rintro _ _ rfl
    exact h

theorem safeCall_capabilityHandleAtSlot {slot : ℕ} : SafeCall (capabilityHandleAtSlot processId slot) :=
  .check_bind fun _ _ => .read_only

theorem safeCall_capabilityInfo : SafeCall (capabilityInfo m processId handle address length) :=
  SafeCall.read_only.bind fun _ => .check_bind fun _ _ => .check_bind fun _ _ =>
    SafeCall.copyOut.bind fun _ => .return _

theorem safeCall_capabilitySignalState : SafeCall (capabilitySignalState processId handle) := .read_only

end Objects

/-! ### Waiting -/

section Waiting

variable {target : ExecutionTarget}

theorem safeCall_forgetWaiter : SafeCall (forgetWaiter target) := .modify fun h => h.of_eq rfl rfl

theorem safeCall_blockUntil {waiter : ObjectWaiter} : SafeCall (blockUntil waiter) :=
  SafeCall.read_only.bind fun _ _ _ h => triple_modify_bind (triple_return (h.of_eq rfl rfl))

theorem safeCall_waitFor {waiter : ObjectWaiter} : SafeCall (waitFor waiter) := by
  refine SafeCall.read_only.bind fun result => ?_
  split
  · split
    · exact .return _
    · exact .fail _
  · exact safeCall_blockUntil

variable {deadlineNs handle : ℕ}

theorem safeCall_objectWaitOne {requested : Bits} :
    SafeCall (objectWaitOne target handle requested deadlineNs) :=
  safeCall_forgetWaiter.bind fun _ => SafeCall.read_only.bind fun _ => safeCall_waitFor

theorem safeCall_objectWaitMany {m : UserMemory} {itemsAddress itemCount : ℕ} :
    SafeCall (objectWaitMany m target itemsAddress itemCount deadlineNs) :=
  .check_bind fun _ _ => .check_bind fun _ _ => .check_bind fun _ _ =>
    safeCall_forgetWaiter.bind fun _ => SafeCall.read_only.bind fun _ => safeCall_waitFor

theorem safeCall_waitSetWait : SafeCall (waitSetWait target handle deadlineNs) :=
  safeCall_forgetWaiter.bind fun _ => SafeCall.read_only.bind fun _ => safeCall_waitFor

theorem safeCall_eventPortWait : SafeCall (eventPortWait target handle deadlineNs) := by
  refine safeCall_forgetWaiter.bind fun _ s₀ s h => ?_
  refine triple_get_bind (triple_modifyRegistry_bind ?_)
  have hrefreshed := h.refreshEventPorts
  split
  · exact SafeCall.fail _ s₀ _ hrefreshed
  · refine triple_read_bind (fun p hp => ?_) fun _ _ => hrefreshed
    simp only [run_eq_ok] at hp
    obtain ⟨entry, -, d, hd, hp⟩ := hp
    cases d with
    | eventPort =>
      cases hp
      have hpop := hrefreshed.popEvent hd
      refine triple_get_bind ?_
      split
      · next s' event heq =>
          rw [heq] at hpop
          exact triple_set_bind (triple_check (fun _ _ => hpop) fun _ _ => hpop)
      · exact safeCall_blockUntil s₀ _ hrefreshed
    | _ => simp at hp

end Waiting

/-! ### The end of processes, and the clock -/

theorem Registry.entriesOf_filter {r : Registry} {keep : ℕ → Bool} {p : ℕ} :
    ({ r with tables := r.tables.filter fun table => keep table.processId } :
      Registry).entriesOf p = if keep p then r.entriesOf p else [] := by
  have htable : Keyed.lookup (·.processId) p
      (r.tables.filter fun table => keep table.processId) = _ := Keyed.lookup_filter keep
  unfold entriesOf table
  rw [htable]
  cases keep p <;> rfl

namespace System

theorem Safe.retainTables {keep : ℕ → Bool} (h : s₀.Safe s) : s₀.Safe (s.retainTables keep) := by
  refine .collectGarbage (h.shrinkTables rfl rfl ?_ fun p => ?_)
  · exact h.1.tables_nodup.sublist (filter_sublist.map _)
  · rw [entriesOf_filter]
    split
    · exact .refl _
    · exact nil_sublist _

theorem Safe.removeProcess (h : s₀.Safe s) (processId : ℕ) :
    s₀.Safe (s.capabilityRemoveProcess processId) := h.retainTables.wakePeerClosed

theorem Safe.reapDeadProcesses (h : s₀.Safe s) : s₀.Safe s.capabilityReapDeadProcesses :=
  .wakePeerClosed (.retainTables (h.of_eq rfl rfl))

theorem Safe.reapProcess {process : Process} {status : ℕ} (h : s₀.Safe s) :
    s₀.Safe (s.reapProcess process status) := by
  have hgone : s₀.Safe { s with
      processes := s.processes.eraseP fun p => p.processId = process.processId
      waiters := s.waiters.filter fun w => w.target.processId ≠ process.processId } :=
    h.of_eq rfl rfl
  have hremoved := hgone.removeProcess process.processId
  unfold System.reapProcess
  cases process.job with
  | some => exact hremoved.jobRecordExit.of_eq rfl rfl
  | none => exact hremoved.of_eq rfl rfl

/-- What the clock does to the state of an object. -/
def advanceData (nowNs : ℕ) : ObjectData → ObjectData
  | .timer timer => .timer (timer.advance nowNs).1
  | d => d

theorem data_advanceTimers {nowNs : ℕ} : (s.advanceTimers nowNs).1.registry.data o =
    (s.registry.data o).map (advanceData nowNs) := by
  have hobjects : (s.advanceTimers nowNs).1.registry.objects =
      s.registry.objects.map fun record => { record with data := advanceData nowNs record.data } := by
    refine map_congr_left fun record _ => ?_
    obtain ⟨reference, d⟩ := record
    cases d <;> rfl
  have hkey : ∀ record : CapabilityObjectRecord,
      ({ record with data := advanceData nowNs record.data } : CapabilityObjectRecord).reference =
        record.reference := fun _ => rfl
  rw [data, hobjects, Keyed.lookup_map hkey, data, Option.map_map, Option.map_map]
  rfl

theorem Safe.advanceTimers (h : s₀.Safe s) (nowNs : ℕ) : s₀.Safe (s.advanceTimers nowNs).1 := by
  have hread : ∀ x, (s.advanceTimers nowNs).1.registry.data x = _ := fun x => data_advanceTimers
  have hjobs : ∀ c, (s.advanceTimers nowNs).1.registry.jobParent c = s.registry.jobParent c := by
    intro c
    rw [jobParent, jobParent, hread]
    cases s.registry.data ⟨c, .job⟩ with
    | none => rfl
    | some d => cases d <;> rfl
  have hpresent : ∀ x, (s.registry.data x).isSome → ((s.advanceTimers nowNs).1.registry.data x).isSome := by
    intro x hx
    rw [hread, isSome_map]
    exact hx
  have hids : (s.advanceTimers nowNs).1.registry.objectIds = s.registry.objectIds := by
    refine congrArg (map _) ((List.map_map ..).trans (map_congr_left fun record _ => ?_))
    obtain ⟨reference, d⟩ := record
    cases d <;> rfl
  refine h.extend (h.1.withObjects rfl (hids ▸ h.1.ids_nodup) hpresent ?_)
    ⟨le_rfl, fun _ _ he => he, fun x hx => .inl ?_, fun x p hp => .inl ?_⟩ (fun _ ho => ho) hpresent
  · intro x d hd
    rw [hread, map_eq_some_iff] at hd
    obtain ⟨d0, hd0, rfl⟩ := hd
    have hkind := h.1.kind_eq x d0 hd0
    have hlinks := h.1.name_present x d0 hd0
    have hvalid := (h.1.valid x d0 hd0).mono fun c p _ hp => (hjobs c).trans hp
    refine ⟨?_, h.1.id_lt x d0 hd0, ?_, ?_⟩
    · rw [← hkind]
      cases d0 <;> rfl
    · intro y hy
      refine hpresent y (hlinks y ?_)
      cases d0 <;> exact hy
    · cases d0 <;> exact hvalid
  · rw [hread, isSome_map] at hx
    refine ⟨hx, ?_⟩
    rw [messages, messages, hread]
    cases s.registry.data x with
    | none => rfl
    | some d => cases d <;> rfl
  · rw [peer, hread] at hp
    rw [peer]
    cases hd : s.registry.data x with
    | none =>
      rw [hd] at hp
      simp at hp
    | some d =>
      rw [hd] at hp
      cases d <;> exact hp

theorem Safe.serviceObjectWaitDeadlines {nowNs : ℕ} (h : s₀.Safe s) :
    s₀.Safe (s.serviceObjectWaitDeadlines nowNs) := by
  have hclock : s₀.Safe { s with now := nowNs } := h.of_eq rfl rfl
  have htimers := hclock.advanceTimers nowNs
  unfold System.serviceObjectWaitDeadlines
  dsimp only
  split
  · exact htimers.wakeSatisfiedObjectWaiters.of_eq rfl rfl
  · exact htimers.of_eq rfl rfl

end System

end Kernel
