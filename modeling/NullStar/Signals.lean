/-
**Signals can be read.**

In a sound registry the walk over a tree of jobs does not meet a job twice and does not run out of
rounds: a job has one parent, and a parent has a smaller number than its children.  So the signals
of every object that has signals can be read, and the event ports can be refreshed.  A refresh looks
at every target once for each registration; as the targets are not event ports themselves, all looks
see the same signals.

* `Sound.jobSubtree_ok`, `mem_of_jobSubtree_eq_ok` — the walk ends, and what it visits;
* `Sound.signalState_ok` — signals can be read;
* `Sound.refreshEventPorts_spec` — a refresh does not fail, and what it does.
-/

import NullStar.Collection

set_option autoImplicit false

namespace Kernel

open Rust List Option

def ObjectKind.HasSignals (kind : ObjectKind) : Prop := capabilityObjectSupportedSignals kind ≠ 0

namespace Registry

variable {r r' : Registry} {o root : ObjectRef} {d : ObjectData}

/-! ### The walk over a tree of jobs -/

/-- The children of a job are appended when none of them is on the list. -/
theorem pushChildren_eq : ∀ {ids : List ℕ} {jobs : List ObjectRef}, ids.Nodup →
    (∀ id ∈ ids, (⟨id, .job⟩ : ObjectRef) ∉ jobs) →
    pushChildren ids jobs = .ok (jobs ++ ids.map fun id => ⟨id, .job⟩) := by
  intro ids
  induction ids with
  | nil =>
    intro jobs _ _
    rw [pushChildren, map_nil, append_nil]
  | cons id rest ih =>
    intro jobs hnodup hfresh
    rw [nodup_cons] at hnodup
    rw [pushChildren, if_neg (hfresh id mem_cons_self), ih hnodup.2]
    · rw [map_cons, append_assoc, singleton_append]
    · intro id' hid' hmem
      rcases mem_append.1 hmem with hmem | hmem
      · exact hfresh id' (mem_cons_of_mem _ hid') hmem
      · have heq : id' = id := by simpa using hmem
        exact hnodup.1 (heq ▸ hid')

theorem pushChildren_grows : ∀ {ids : List ℕ} {jobs jobs' : List ObjectRef},
    pushChildren ids jobs = .ok jobs' → jobs <+: jobs' := by
  intro ids
  induction ids with
  | nil =>
    intro jobs jobs' h
    cases h
    exact prefix_refl _
  | cons id rest ih =>
    intro jobs jobs' h
    unfold pushChildren at h
    split at h
    · simp at h
    · exact (prefix_append _ _).trans (ih h)

/-- The list of a walk: its jobs are present and distinct, and each but the first is a child of one
that was visited. -/
structure SubtreeInv (r : Registry) (root : ObjectRef) (jobs : List ObjectRef) (cursor : ℕ) :
    Prop where
  nodup : jobs.Nodup
  cursor_le : cursor ≤ jobs.length
  present : ∀ x ∈ jobs, ∃ state, r.data x = some (.job state)
  above : ∀ x ∈ jobs, root.id ≤ x.id
  pushed : ∀ x ∈ jobs, x = root ∨ ∃ j ∈ jobs.take cursor, ∃ state,
    r.data j = some (.job state) ∧ x.id ∈ state.children

variable {cursor : ℕ} {jobs list : List ObjectRef} {state : Job.State} {port : ObjectRef}

theorem SubtreeInv.length_le (h : r.SubtreeInv root jobs cursor) : jobs.length ≤ r.objects.length := by
  have hsub : jobs ⊆ r.objects.map (·.reference) := by
    intro x hx
    obtain ⟨state, hstate⟩ := h.present x hx
    exact isSome_data.1 (by rw [hstate]; rfl)
  have hle := (subperm_of_subset h.nodup hsub).length_le
  rwa [length_map] at hle

theorem subtreeInv_start (hroot : r.data root = some (.job state)) :
    r.SubtreeInv root [root] 0 where
  nodup := nodup_singleton root
  cursor_le := Nat.zero_le _
  present x hx := by
    obtain rfl := mem_singleton.1 hx
    exact ⟨state, hroot⟩
  above x hx := by
    obtain rfl := mem_singleton.1 hx
    exact le_rfl
  pushed x hx := .inl (mem_singleton.1 hx)

theorem Sound.kind_job (h : r.Sound) (ho : r.data o = some (.job state)) :
    o.kind = .job := (h.kind_eq o _ ho).symm

/-- References to jobs are told apart by their numbers. -/
theorem Sound.job_ext (h : r.Sound) {o' : ObjectRef} {state' : Job.State}
    (ho : r.data o = some (.job state)) (ho' : r.data o' = some (.job state')) (hid : o.id = o'.id) :
    o = o' := by
  have hkind : o.kind = o'.kind := (h.kind_job ho).trans (h.kind_job ho').symm
  cases o
  simp_all

/-- The children of the job that is visited are not on the list yet. -/
theorem SubtreeInv.fresh (h : r.Sound) (hi : r.SubtreeInv root jobs cursor)
    {current : ObjectRef} (hcurrent : jobs[cursor]? = some current)
    (hstate : r.data current = some (.job state)) :
    ∀ id ∈ state.children, (⟨id, .job⟩ : ObjectRef) ∉ jobs := by
  intro id hid hmem
  obtain ⟨hlt, hparent⟩ := (h.valid current _ hstate).2 id hid
  rcases hi.pushed _ hmem with heq | ⟨j, hj, jstate, hjstate, hchild⟩
  · -- the first job is not below any job on the list
    have habove := hi.above current (mem_of_getElem? hcurrent)
    rw [← heq] at habove
    exact absurd hlt (not_lt.2 habove)
  · have hjparent := ((h.valid j _ hjstate).2 id hchild).2
    have hids : j.id = current.id := by
      rw [hparent] at hjparent
      exact (some.inj hjparent).symm
    obtain rfl := h.job_ext hjstate hstate hids
    -- a job that was visited is not visited again
    obtain ⟨i, hi', hget⟩ := getElem_of_mem hj
    rw [length_take] at hi'
    rw [getElem_take] at hget
    have hcursor : cursor < jobs.length := (List.getElem?_eq_some_iff.1 hcurrent).1
    have hget' : jobs[cursor] = j := (List.getElem?_eq_some_iff.1 hcurrent).2
    have := hi.nodup.getElem_inj_iff.1 (hget.trans hget'.symm)
    omega

theorem SubtreeInv.visit (h : r.Sound) (hi : r.SubtreeInv root jobs cursor)
    {current : ObjectRef} (hcurrent : jobs[cursor]? = some current)
    (hstate : r.data current = some (.job state)) :
    r.SubtreeInv root (jobs ++ state.children.map fun id => ⟨id, .job⟩) (cursor + 1) := by
  obtain ⟨hnodup, hbelow⟩ := h.valid current _ hstate
  have hcursor : cursor < jobs.length := (List.getElem?_eq_some_iff.1 hcurrent).1
  have htake : current ∈ jobs.take (cursor + 1) := by
    rw [take_add_one, hcurrent]
    exact mem_append_right _ (by simp)
  have htakeApp : (jobs ++ state.children.map fun id => (⟨id, .job⟩ : ObjectRef)).take (cursor + 1) =
      jobs.take (cursor + 1) := take_append_of_le_length hcursor
  have hfresh := hi.fresh h hcurrent hstate
  constructor
  · refine hi.nodup.append (hnodup.map fun a b hab => ?_) ?_
    · simpa using hab
    · intro x hx hx'
      obtain ⟨id, hid, rfl⟩ := mem_map.1 hx'
      exact hfresh id hid hx
  · rw [length_append]
    omega
  · refine forall_mem_append.2 ⟨hi.present, forall_mem_map.2 fun id hid => ?_⟩
    have hpresent := h.name_present current _ hstate ⟨id, .job⟩
      (mem_map_of_mem (mem_append_right _ hid))
    obtain ⟨d, hd⟩ := isSome_iff_exists.1 hpresent
    have hkind := h.kind_eq _ d hd
    cases d with
    | job state' => exact ⟨state', hd⟩
    | _ => exact absurd hkind (by simp [ObjectData.kind])
  · refine forall_mem_append.2 ⟨hi.above, forall_mem_map.2 fun id hid => ?_⟩
    exact (hi.above current (mem_of_getElem? hcurrent)).trans (hbelow id hid).1.le
  · intro x hx
    rw [htakeApp]
    rcases mem_append.1 hx with hx | hx
    · rcases hi.pushed x hx with hroot | ⟨j, hj, hchild⟩
      · exact .inl hroot
      · refine .inr ⟨j, ?_, hchild⟩
        rw [take_add_one]
        exact mem_append_left _ hj
    · obtain ⟨id, hid, rfl⟩ := mem_map.1 hx
      exact .inr ⟨current, htake, state, hstate, hid⟩

theorem jobState_ok (h : r.data o = some (.job state)) : r.jobState o = .ok state := by
  rw [jobState, h]
  rfl

/-- The walk ends with the list of all visited jobs. -/
theorem Sound.jobSubtreeFrom_ok (h : r.Sound) : ∀ {rounds : ℕ} {jobs : List ObjectRef}
    {cursor : ℕ}, r.SubtreeInv root jobs cursor → r.objects.length + 1 ≤ rounds + cursor →
    ∃ jobs', r.jobSubtreeFrom rounds jobs cursor = .ok jobs' ∧ r.SubtreeInv root jobs' jobs'.length := by
  intro rounds
  induction rounds with
  | zero =>
    intro jobs cursor hi hrounds
    have hle := hi.length_le
    have hcursor := hi.cursor_le
    omega
  | succ rounds ih =>
    intro jobs cursor hi hrounds
    unfold jobSubtreeFrom
    cases hcurrent : jobs[cursor]? with
    | none =>
      have hend : cursor = jobs.length := le_antisymm hi.cursor_le (getElem?_eq_none_iff.1 hcurrent)
      exact ⟨jobs, rfl, hend ▸ hi⟩
    | some current =>
      obtain ⟨state, hstate⟩ := hi.present current (mem_of_getElem? hcurrent)
      have hpush := pushChildren_eq (h.valid current _ hstate).1
        (hi.fresh h hcurrent hstate)
      obtain ⟨jobs', hjobs', hinv⟩ := ih (hi.visit h hcurrent hstate) (by omega)
      refine ⟨jobs', ?_, hinv⟩
      simp only [jobState_ok hstate, ok_bind, hpush]
      exact hjobs'

theorem Sound.jobSubtree_ok (h : r.Sound) (hroot : r.data root = some (.job state)) :
    ∃ jobs, r.jobSubtree root = .ok jobs ∧ r.SubtreeInv root jobs jobs.length := by
  have hrounds : r.objects.length + 1 ≤ r.objects.length + 1 + 0 := le_rfl
  obtain ⟨jobs, hjobs, hinv⟩ := h.jobSubtreeFrom_ok (subtreeInv_start hroot) hrounds
  refine ⟨jobs, ?_, hinv⟩
  rw [jobSubtree, rejectIf_of_not (not_not.2 (h.kind_job hroot))]
  exact hjobs

theorem jobTotals_ok : ∀ {jobs : List ObjectRef},
    (∀ x ∈ jobs, ∃ state, r.data x = some (.job state)) → ∃ totals, r.jobTotals jobs = .ok totals := by
  intro jobs
  induction jobs with
  | nil => exact fun _ => ⟨_, rfl⟩
  | cons job rest ih =>
    intro h
    obtain ⟨state, hstate⟩ := h job mem_cons_self
    obtain ⟨⟨active, completion⟩, htotals⟩ := ih fun x hx => h x (mem_cons_of_mem _ hx)
    refine ⟨(state.members.length + active, !state.completions.isEmpty || completion), ?_⟩
    simp only [jobTotals, jobState_ok hstate, htotals]
    rfl

/-! ### Signals -/

/-- The signals of an object that has signals can be read. -/
theorem Sound.signalState_ok (h : r.Sound) (ho : (r.data o).isSome)
    (hsignals : o.kind.HasSignals) : ∃ signals, r.signalState o = .ok signals := by
  obtain ⟨d, hd⟩ := isSome_iff_exists.1 ho
  have hkind := h.kind_eq o d hd
  unfold signalState
  rw [hd, okOr_some, ok_bind]
  cases d with
  | endpoint e =>
    obtain ⟨-, -, hpeer⟩ := h.valid o _ hd
    obtain ⟨queue, peer⟩ := e
    cases peer with
    | loopback => exact ⟨_, rfl⟩
    | connected peer =>
      cases hp : r.data peer with
      | none => exact ⟨_, by simp only [hp]; rfl⟩
      | some dp =>
        have hpk := (h.kind_eq peer dp hp).trans (hpeer peer rfl)
        cases dp with
        | endpoint => exact ⟨_, by simp only [hp]; rfl⟩
        | _ => exact absurd hpk (by simp [ObjectData.kind])
  | job =>
    obtain ⟨jobs, hjobs, hinv⟩ := h.jobSubtree_ok hd
    obtain ⟨⟨active, completion⟩, htotals⟩ := jobTotals_ok hinv.present
    refine ⟨(if completion then Signal.readable else Signal.none) |||
      if active = 0 then Signal.terminated else Signal.none, ?_⟩
    simp only [hjobs, ok_bind, htotals]
    rfl
  | notification | eventPort | timer | event => exact ⟨_, rfl⟩
  | sharedMemory | kernelEarlyLogReader | waitSet =>
    exact absurd hkind fun hk => hsignals (by rw [← hk]; rfl)

/-! ### Walks in two registries -/

theorem jobSubtreeFrom_grows : ∀ {rounds : ℕ} {jobs : List ObjectRef} {cursor : ℕ}
    {list : List ObjectRef}, r.jobSubtreeFrom rounds jobs cursor = .ok list → jobs <+: list := by
  intro rounds
  induction rounds with
  | zero => exact fun h => absurd h (by simp [jobSubtreeFrom])
  | succ rounds ih =>
    intro jobs cursor list h
    unfold jobSubtreeFrom at h
    cases hcurrent : jobs[cursor]? with
    | none =>
      rw [hcurrent] at h
      cases h
      exact prefix_refl _
    | some =>
      simp only [hcurrent, bind_eq_ok] at h
      obtain ⟨state, -, jobs', hjobs', h⟩ := h
      exact (pushChildren_grows hjobs').trans (ih h)

/-- The states of a job in two registries have the same children. -/
def SameChildren (r r' : Registry) (x : ObjectRef) : Prop :=
  ∃ state state', r.data x = some (.job state) ∧ r'.data x = some (.job state') ∧
    state'.children = state.children

/-- More rounds, or a registry in which the jobs have the same children, make no difference. -/
theorem jobSubtreeFrom_congr : ∀ {rounds rounds' : ℕ} {jobs : List ObjectRef} {cursor : ℕ}
    {list : List ObjectRef}, rounds ≤ rounds' → r.jobSubtreeFrom rounds jobs cursor = .ok list →
    (∀ x ∈ list, r.SameChildren r' x) → r'.jobSubtreeFrom rounds' jobs cursor = .ok list := by
  intro rounds
  induction rounds with
  | zero => exact fun _ h => absurd h (by simp [jobSubtreeFrom])
  | succ rounds ih =>
    intro rounds' jobs cursor list hle h hsame
    obtain ⟨rounds', rfl⟩ : ∃ n, rounds' = n + 1 := ⟨rounds' - 1, by omega⟩
    have hinitial := jobSubtreeFrom_grows h
    unfold jobSubtreeFrom at h ⊢
    cases hcurrent : jobs[cursor]? with
    | none =>
      rw [hcurrent] at h
      exact h
    | some current =>
      obtain ⟨state, state', hstate, hstate', hchildren⟩ :=
        hsame current (hinitial.subset (mem_of_getElem? hcurrent))
      simp only [hcurrent, jobState_ok hstate, ok_bind, bind_eq_ok] at h
      obtain ⟨jobs', hjobs', h⟩ := h
      simp only [jobState_ok hstate', ok_bind, hchildren, hjobs']
      exact ih (by omega) h hsame

theorem jobSubtree_eq_ok (h : r.jobSubtree root = .ok list) :
    r.jobSubtreeFrom (r.objects.length + 1) [root] 0 = .ok list := by
  simp only [jobSubtree, run_eq_ok] at h
  exact h.2

theorem root_mem_jobSubtree (h : r.jobSubtree root = .ok list) : root ∈ list :=
  (jobSubtreeFrom_grows (jobSubtree_eq_ok h)).subset (mem_singleton_self root)

def childrenOf (r : Registry) (job : ObjectRef) : List ObjectRef :=
  match r.data job with
  | some (.job state) => state.children.map fun id => ⟨id, .job⟩
  | _ => []

theorem pushChildren_eq_foldl : ∀ {ids : List ℕ} {jobs : List ObjectRef}, pushChildren ids jobs = .ok list →
    list = (ids.map fun id => ⟨id, .job⟩).foldl Worklist.pushUnique jobs := by
  intro ids
  induction ids with
  | nil => exact fun h => (Except.ok.inj h).symm
  | cons id rest ih =>
    intro jobs h
    unfold pushChildren at h
    split at h
    · cases h
    · next hnew =>
      rw [map_cons, foldl_cons, Worklist.pushUnique, if_neg hnew]
      exact ih h

/-- A walk that does not fail is that of a worklist, to its end. -/
theorem jobSubtreeFrom_inv : ∀ {rounds cursor : ℕ} {jobs : List ObjectRef},
    r.jobSubtreeFrom rounds jobs cursor = .ok list → Worklist.Inv r.childrenOf [root] jobs cursor →
    ∃ cursor', list.length ≤ cursor' ∧ Worklist.Inv r.childrenOf [root] list cursor' := by
  intro rounds
  induction rounds with
  | zero => exact fun h => absurd h (by simp [jobSubtreeFrom])
  | succ rounds ih =>
    intro cursor jobs h hi
    unfold jobSubtreeFrom at h
    cases hcurrent : jobs[cursor]? with
    | none =>
      rw [hcurrent] at h
      cases h
      exact ⟨cursor, getElem?_eq_none_iff.1 hcurrent, hi⟩
    | some current =>
      simp only [hcurrent, bind_eq_ok] at h
      obtain ⟨state, hstate, jobs', hjobs', h⟩ := h
      have hchildren : r.childrenOf current = state.children.map fun id => ⟨id, .job⟩ := by
        rw [childrenOf, jobState_eq_ok hstate]
      refine ih h ?_
      rw [pushChildren_eq_foldl hjobs', ← hchildren]
      exact hi.step hcurrent

/-- A walk that does not fail visits the jobs below the first one. -/
theorem mem_of_jobSubtree_eq_ok (h : r.jobSubtree root = .ok list) :
    o ∈ list ↔ Relation.ReflTransGen (fun a b => b ∈ r.childrenOf a) root o := by
  have hstart : Worklist.Inv r.childrenOf [root] [root] 0 := Worklist.inv_start
  obtain ⟨cursor, hend, hinv⟩ := jobSubtreeFrom_inv (jobSubtree_eq_ok h) hstart
  rw [hinv.mem_iff hend]
  simp only [mem_singleton, exists_eq_left]

theorem jobSubtree_congr (h' : r'.Sound) (hlist : r.jobSubtree root = .ok list)
    (hsame : ∀ x ∈ list, r.SameChildren r' x) : r'.jobSubtree root = .ok list := by
  obtain ⟨state, state', -, hstate', -⟩ := hsame root (root_mem_jobSubtree hlist)
  obtain ⟨list', hlist', hinv⟩ := h'.jobSubtree_ok hstate'
  have hself : ∀ x ∈ list', r'.SameChildren r' x := by
    intro x hx
    obtain ⟨st, hst⟩ := hinv.present x hx
    exact ⟨st, st, hst, hst, rfl⟩
  -- with as many rounds as both walks need they end with the same list
  have hrounds := jobSubtreeFrom_congr (Nat.le_add_right _ (r'.objects.length + 1))
    (jobSubtree_eq_ok hlist) hsame
  have hrounds' := jobSubtreeFrom_congr (Nat.le_add_left _ (r.objects.length + 1))
    (jobSubtree_eq_ok hlist') hself
  rw [hrounds] at hrounds'
  rw [hlist', hrounds']

/-- What a walk reads of a job is the same in both registries. -/
def SameJob (r r' : Registry) (x : ObjectRef) : Prop :=
  ∃ state state', r.data x = some (.job state) ∧ r'.data x = some (.job state') ∧
    state'.children = state.children ∧ state'.members.length = state.members.length ∧
    state'.completions.isEmpty = state.completions.isEmpty

theorem jobTotals_congr : ∀ {jobs : List ObjectRef}, (∀ x ∈ jobs, r.SameJob r' x) →
    r'.jobTotals jobs = r.jobTotals jobs := by
  intro jobs
  induction jobs with
  | nil => exact fun _ => rfl
  | cons job rest ih =>
    intro h
    obtain ⟨state, state', hstate, hstate', -, hmembers, hcompletions⟩ := h job mem_cons_self
    have hrest := ih fun x hx => h x (mem_cons_of_mem _ hx)
    simp only [jobTotals, jobState_ok hstate, jobState_ok hstate', ok_bind, hrest, hmembers, hcompletions]

/-- The signals of a job are those of its tree. -/
theorem signalState_job (ho : r.data o = some (.job state)) : r.signalState o = (do
      let jobs ← r.jobSubtree o
      let (active, completion) ← r.jobTotals jobs
      return (if completion then Signal.readable else Signal.none) |||
        if active = 0 then Signal.terminated else Signal.none) := by
  rw [signalState, ho]
  rfl

theorem signalState_job_congr (h' : r'.Sound) (hlist : r.jobSubtree o = .ok list)
    (hsame : ∀ x ∈ list, r.SameJob r' x) : r'.signalState o = r.signalState o := by
  obtain ⟨state, state', hstate, hstate', -⟩ := hsame o (root_mem_jobSubtree hlist)
  have hlist' := jobSubtree_congr h' hlist fun x hx => by
    obtain ⟨st, st', hst, hst', hchildren, -⟩ := hsame x hx
    exact ⟨st, st', hst, hst', hchildren⟩
  rw [signalState_job hstate, signalState_job hstate', hlist, hlist', ok_bind, ok_bind, jobTotals_congr hsame]

/-- What the signals of an object depend on: its own state, the state of the endpoint it is
connected to, and the jobs below it. -/
theorem signalState_congr (h : r.Sound) (h' : r'.Sound)
    (ho : r.data o = some d) (hself : (∀ state, d ≠ .job state) → r'.data o = some d)
    (hpeer : ∀ e peer, d = .endpoint e → e.peer = .connected peer → r'.data peer = r.data peer)
    (hjobs : ∀ list, r.jobSubtree o = .ok list → r.SubtreeInv o list list.length →
      ∀ x ∈ list, r.SameJob r' x) : r'.signalState o = r.signalState o := by
  cases d with
  | job =>
    obtain ⟨list, hlist, hinv⟩ := h.jobSubtree_ok ho
    exact signalState_job_congr h' hlist (hjobs list hlist hinv)
  | endpoint e =>
    rw [signalState, signalState, ho, hself (by simp), okOr_some, ok_bind, ok_bind]
    obtain ⟨queue, peer⟩ := e
    cases peer with
    | loopback => rfl
    | connected peer => simp only [hpeer _ peer rfl rfl]
  | _ => rw [signalState, signalState, ho, hself (by simp)]; rfl

/-- The signals of an object; none when it has none. -/
def signals (r : Registry) (o : ObjectRef) : Bits :=
  match r.signalState o with
  | .ok signals => signals
  | .error _ => Signal.none

theorem signals_of_ok {signals : Bits} (h : r.signalState o = .ok signals) :
    r.signals o = signals := by rw [Registry.signals, h]

/-- Only event ports differ. -/
structure PortsOnly (r r' : Registry) : Prop where
  data : ∀ x, x.kind ≠ .eventPort → r'.data x = r.data x
  present : ∀ x, (r'.data x).isSome ↔ (r.data x).isSome

/-- Event ports do not matter for the signals of other objects. -/
theorem PortsOnly.signalState (hp : r.PortsOnly r') (h : r.Sound)
    (h' : r'.Sound) (ho : r.data o = some d) (hkind : o.kind ≠ .eventPort) :
    r'.signalState o = r.signalState o := by
  refine signalState_congr h h' ho (fun _ => (hp.data o hkind).trans ho) ?_ ?_
  · rintro e peer rfl hpeer
    have hkindPeer := (h.valid o _ ho).2.2 peer hpeer
    exact hp.data peer (by rw [hkindPeer]; decide)
  · intro list _ hinv x hx
    obtain ⟨state, hstate⟩ := hinv.present x hx
    have hkindJob := h.kind_job hstate
    refine ⟨state, state, hstate, ?_, rfl, rfl, rfl⟩
    rw [hp.data x (by rw [hkindJob]; decide)]
    exact hstate

theorem PortsOnly.refl (r : Registry) : r.PortsOnly r := ⟨fun _ _ => rfl, fun _ => .rfl⟩

theorem PortsOnly.trans {r'' : Registry} (h : r.PortsOnly r') (h' : r'.PortsOnly r'') : r.PortsOnly r'' :=
  ⟨fun x hx => (h'.data x hx).trans (h.data x hx), fun x => (h'.present x).trans (h.present x)⟩

theorem portsOnly_setData (h : r.Sound) {state state' : EventPort.State}
    (ho : r.data o = some (.eventPort state)) : r.PortsOnly (r.setData o (.eventPort state')) := by
  refine ⟨fun x hx => data_setData_ne ?_, fun x => ?_⟩
  · rintro rfl
    exact hx (h.kind_eq x _ ho).symm
  · exact isSome_setData

/-! ### Refreshing -/

def targetsOf (port : ObjectRef) (pairs : List (ObjectRef × ObjectRef)) : List ObjectRef :=
  (pairs.filter fun pair => pair.1 = port).map (·.2)

/-- The registry after the ports in the list have looked at their targets. -/
structure PortsLooked (signals : ObjectRef → Bits) (pairs : List (ObjectRef × ObjectRef))
    (r r' : Registry) : Prop where
  others : r.PortsOnly r'
  ports : ∀ port state, r.data port = some (.eventPort state) → ∃ state',
    r'.data port = some (.eventPort state') ∧ state.Looked signals (targetsOf port pairs) state'
  tables : r'.tables = r.tables
  next : r'.nextObjectId = r.nextObjectId
  references : r'.objects.map (·.reference) = r.objects.map (·.reference)

/-- A pair of a port and a target with signals. -/
structure PortPair (r : Registry) (port target : ObjectRef) : Prop where
  isPort : ∃ state, r.data port = some (.eventPort state)
  present : (r.data target).isSome
  hasSignals : target.kind.HasSignals
  notPort : target.kind ≠ .eventPort

theorem PortPair.mono {target : ObjectRef} (hp : r.PortPair port target)
    (hdata : ∀ port state, r.data port = some (.eventPort state) →
      ∃ state', r'.data port = some (.eventPort state')) (honly : r.PortsOnly r') :
    r'.PortPair port target where
  isPort := hp.isPort.elim (hdata port)
  present := (honly.present target).2 hp.present
  hasSignals := hp.hasSignals
  notPort := hp.notPort

theorem Sound.setPort (h : r.Sound) {state state' : EventPort.State}
    (ho : r.data o = some (.eventPort state)) (hvalid : state'.Valid)
    (htargets : state'.registrations.map (·.target) = state.registrations.map (·.target)) :
    (r.setData o (.eventPort state')).Sound := by
  refine h.setData ho rfl (fun x hx => ?_) rfl hvalid
  change x ∈ state'.registrations.map (·.target) at hx
  rw [htargets] at hx
  exact h.name_present o _ ho x hx

theorem Sound.refreshTargets_spec {signals : ObjectRef → Bits} :
    ∀ {pairs : List (ObjectRef × ObjectRef)} {r : Registry}, r.Sound →
      (∀ pair ∈ pairs, r.PortPair pair.1 pair.2) →
      (∀ pair ∈ pairs, r.signalState pair.2 = .ok (signals pair.2)) →
      (refreshTargets pairs r).2 = none ∧ (refreshTargets pairs r).1.Sound ∧
        PortsLooked signals pairs r (refreshTargets pairs r).1 := by
  intro pairs
  induction pairs with
  | nil =>
    intro r h _ _
    refine ⟨rfl, h, .refl r, fun port state hport => ⟨state, hport, ?_⟩, rfl, rfl, rfl⟩
    exact .refl (h.valid port _ hport)
  | cons pair rest ih =>
    obtain ⟨port, target⟩ := pair
    intro r h hpairs hsignals
    have hpair := hpairs _ mem_cons_self
    obtain ⟨state, hport⟩ := hpair.isPort
    have hv : state.Valid := h.valid port _ hport
    obtain ⟨hvalid, hfits⟩ := hv.observe target (signals target)
    set state1 := (state.observe target (signals target)).1 with hstate1
    set r1 := r.setData port (.eventPort state1) with hr1
    have htargets : state1.registrations.map (·.target) = state.registrations.map (·.target) := by
      rw [EventPort.State.registrations_observe hv]
      simp
    have hsound : r1.Sound := h.setPort hport hvalid htargets
    have honly : r.PortsOnly r1 := portsOnly_setData h hport
    have hstep : refreshTargets ((port, target) :: rest) r = refreshTargets rest r1 := by
      have hsignal : r.signalState target = .ok (signals target) := hsignals _ mem_cons_self
      rw [refreshTargets]
      simp only [hsignal, hport, hfits]
      rfl
    have hread : ∀ x, r1.data x = if x = port then some (.eventPort state1) else r.data x :=
      fun x => Sound.data_setData_of_present hport
    have hpairs1 : ∀ pair ∈ rest, r1.PortPair pair.1 pair.2 := by
      intro pair hp
      refine (hpairs pair (mem_cons_of_mem _ hp)).mono (fun x st hx => ?_) honly
      rw [hread]
      split
      · exact ⟨state1, rfl⟩
      · exact ⟨st, hx⟩
    have hsignals1 : ∀ pair ∈ rest, r1.signalState pair.2 = .ok (signals pair.2) := by
      intro pair hp
      have hpair' := hpairs pair (mem_cons_of_mem _ hp)
      obtain ⟨d, hd⟩ := isSome_iff_exists.1 hpair'.present
      rw [honly.signalState h hsound hd hpair'.notPort]
      exact hsignals pair (mem_cons_of_mem _ hp)
    obtain ⟨hnone, hsound', hlooked⟩ := ih hsound hpairs1 hsignals1
    rw [hstep]
    refine ⟨hnone, hsound', honly.trans hlooked.others, fun x st hx => ?_, hlooked.tables,
      hlooked.next, hlooked.references.trans references_setData⟩
    by_cases hxp : x = port
    · subst hxp
      obtain rfl : state = st := by simpa [hport] using hx
      obtain ⟨st', hst', hlook⟩ := hlooked.ports x state1 (by rw [hread, if_pos rfl])
      refine ⟨st', hst', ?_⟩
      have hhead : targetsOf x ((x, target) :: rest) = target :: targetsOf x rest := by
        simp [targetsOf]
      rw [hhead]
      exact .cons hv hlook
    · obtain ⟨st', hst', hlook⟩ := hlooked.ports x st (by rw [hread, if_neg hxp]; exact hx)
      refine ⟨st', hst', ?_⟩
      have hhead : targetsOf x ((port, target) :: rest) = targetsOf x rest := by
        simp [targetsOf, Ne.symm hxp]
      rw [hhead]
      exact hlook

theorem Sound.data_of_mem (h : r.Sound) {record : CapabilityObjectRecord}
    (hrecord : record ∈ r.objects) : r.data record.reference = some record.data := by
  have hnodup : (r.objects.map (·.reference)).Nodup := .of_map _ h.ids_nodup
  rw [data, Keyed.lookup_of_mem hnodup hrecord, map_some]

theorem exists_record (ho : r.data o = some d) : (⟨o, d⟩ : CapabilityObjectRecord) ∈ r.objects := by
  obtain ⟨record, hrecord, rfl⟩ := map_eq_some_iff.1 ho
  have hmem := Keyed.mem_of_lookup hrecord
  have hkey := Keyed.key_of_lookup hrecord
  exact hkey ▸ hmem

theorem Sound.mem_portTargets (h : r.Sound) {target : ObjectRef} :
    (port, target) ∈ r.portTargets ↔ ∃ state, r.data port = some (.eventPort state) ∧
      target ∈ state.registrations.map (·.target) := by
  unfold portTargets
  rw [mem_flatMap]
  constructor
  · rintro ⟨⟨reference, d⟩, hrecord, hmem⟩
    have hdata := h.data_of_mem hrecord
    cases d with
    | eventPort state =>
      obtain ⟨registration, hr, heq⟩ := mem_map.1 hmem
      cases heq
      exact ⟨state, hdata, mem_map_of_mem hr⟩
    | _ => simp at hmem
  · rintro ⟨state, hport, hmem⟩
    obtain ⟨registration, hr, rfl⟩ := mem_map.1 hmem
    exact ⟨⟨port, .eventPort state⟩, exists_record hport, mem_map.2 ⟨registration, hr, rfl⟩⟩

/-- What an event port looks at. -/
theorem Sound.portPair (h : r.Sound) {state : EventPort.State}
    (hport : r.data port = some (.eventPort state)) {registration : EventPort.Registration}
    (hr : registration ∈ state.registrations) : r.PortPair port registration.target := by
  have hv : state.Valid := h.valid port _ hport
  obtain ⟨hne, hwithin, hkind⟩ := hv.requested_ok registration hr
  refine ⟨⟨state, hport⟩, h.name_present port _ hport _ (mem_map_of_mem hr), ?_, hkind⟩
  intro hnone
  rw [hnone] at hwithin
  exact hne (EventPort.State.eq_zero_of_within hwithin)

/-- **A refresh of the event ports** does not fail: each port has looked at all its targets, and
nothing else has changed. -/
theorem Sound.refreshEventPorts_spec (h : r.Sound) :
    r.refreshEventPorts.2 = none ∧ r.refreshEventPorts.1.Sound ∧
      PortsLooked r.signals r.portTargets r r.refreshEventPorts.1 := by
  have hpairs : ∀ pair ∈ r.portTargets, r.PortPair pair.1 pair.2 := by
    rintro ⟨port, target⟩ hpair
    obtain ⟨state, hport, hmem⟩ := h.mem_portTargets.1 hpair
    obtain ⟨registration, hr, rfl⟩ := mem_map.1 hmem
    exact h.portPair hport hr
  refine h.refreshTargets_spec hpairs fun pair hpair => ?_
  obtain ⟨signals, hsignals⟩ := h.signalState_ok (hpairs pair hpair).present
    (hpairs pair hpair).hasSignals
  rw [hsignals, signals_of_ok hsignals]

end Registry

end Kernel
