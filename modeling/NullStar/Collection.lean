/-
**Collection is exact, and sound registries stay closed.**

A collection keeps exactly the objects that a table entry or a kernel root reaches.  A registry is
sound when its tables and objects are proper finite maps and nothing names a missing object: not the
entry of a table, not a job or a registration inside another object.  The roots of the kernel and the
messages are not part of this.  The elementary changes of a registry keep a registry sound, each under
its own condition.

* `mem_reachable` — the worklist computes what is reached;
* `Sound.collectGarbage`, `Sound.setData`,
  `Sound.addObject`, `Sound.withTables` — the changes that keep a
  registry sound.
-/

import NullStar.Registry
import NullStar.EventPort

set_option autoImplicit false

namespace Kernel

open Option List

/-- Rights that an entry for the object can carry. -/
def ProperRights (object : ObjectRef) (rights : Bits) : Prop :=
  rights ≠ 0 ∧ Within rights (capabilityAllowedRights object.kind)

def ObjectData.jobParent : ObjectData → Option ℕ
  | .job state => state.parent
  | _ => none

/-- What an object names, except for the capabilities in its messages. -/
def ObjectData.names : ObjectData → List ObjectRef
  | .endpoint _ => []
  | d => d.links

theorem ObjectData.names_subset (d : ObjectData) : d.names ⊆ d.links := by
  cases d with
  | endpoint => exact nil_subset _
  | _ => exact Subset.refl _

namespace Registry

variable {r r' : Registry} {roots : List ObjectRef} {o o' : ObjectRef} {d d' : ObjectData}

/-! ### What a collection keeps -/

/-- The object is reached from a table entry or a root, through the objects on the way. -/
def Reaches (r : Registry) (roots : List ObjectRef) (o : ObjectRef) : Prop :=
  ∃ start ∈ r.collectionRoots roots, Relation.ReflTransGen (fun a b => b ∈ r.links a) start o

theorem links_of_data (h : r.data o = some d) : r.links o = d.links := by
  rw [links, h]

theorem links_sub_allReferences {a b : ObjectRef} (h : b ∈ r.links a) : b ∈ r.allReferences roots := by
  unfold links at h
  split at h
  · next data hdata =>
      obtain ⟨record, hrecord, rfl⟩ := map_eq_some_iff.1 hdata
      exact mem_append_right _
        (mem_flatMap.2 ⟨record, Keyed.mem_of_lookup hrecord, h⟩)
  · simp at h

/-- The worklist of a collection computes what is reached. -/
theorem mem_reachable : o ∈ r.reachable roots ↔ r.Reaches roots o :=
  Worklist.mem_explore (fun _ h => mem_append_left _ h) fun _ _ => links_sub_allReferences

theorem Reaches.link (h : r.Reaches roots o) (hd : r.data o = some d) (ho' : o' ∈ d.links) :
    r.Reaches roots o' := by
  obtain ⟨start, hstart, hreach⟩ := h
  exact ⟨start, hstart, hreach.tail (by rwa [links_of_data hd])⟩

theorem Reaches.name (h : r.Reaches roots o) (hd : r.data o = some d) (ho' : o' ∈ d.names) :
    r.Reaches roots o' := h.link hd (d.names_subset ho')

theorem Reaches.of_root (h : o ∈ roots) : r.Reaches roots o := ⟨o, mem_append_right _ h, .refl⟩

theorem Reaches.of_entry {processId : ℕ} {entry : CapabilityEntry}
    (h : entry ∈ r.entriesOf processId) : r.Reaches roots entry.object := by
  refine ⟨entry.object, mem_append_left _ ?_, .refl⟩
  unfold entriesOf at h
  split at h
  · next table htable =>
      exact mem_flatMap.2 ⟨table, Keyed.mem_of_lookup htable, mem_map_of_mem h⟩
  · simp at h

theorem data_collectGarbage_of_reaches (h : r.Reaches roots o) :
    (r.collectGarbage roots).data o = r.data o := by
  rw [data_collectGarbage, if_pos (mem_reachable.2 h)]

theorem data_collectGarbage_eq_some :
    (r.collectGarbage roots).data o = some d ↔ r.Reaches roots o ∧ r.data o = some d := by
  rw [data_collectGarbage]
  split
  · next h => exact ⟨fun hd => ⟨mem_reachable.1 h, hd⟩, fun hd => hd.2⟩
  · next h => exact ⟨fun hd => absurd hd (by simp), fun hd => absurd (mem_reachable.2 hd.1) h⟩

/-! ### New objects -/

/-- The registry with one more object, under the next number. -/
def addObject (r : Registry) (kind : ObjectKind) (d : ObjectData) : Registry :=
  { r with
    nextObjectId := r.nextObjectId + 1
    objects := r.objects ++ [⟨⟨r.nextObjectId, kind⟩, d⟩] }

theorem data_addObject {kind : ObjectKind} : (r.addObject kind d).data o =
    (r.data o).or (if o = ⟨r.nextObjectId, kind⟩ then some d else none) := by
  change Option.map _ (Keyed.lookup _ _ (_ ++ _)) = _
  rw [Keyed.lookup_append, Keyed.lookup_cons, data]
  cases Keyed.lookup (·.reference) o r.objects with
  | some => rfl
  | none =>
    by_cases ho : o = ⟨r.nextObjectId, kind⟩
    · rw [if_pos ho, if_pos ho.symm]
      rfl
    · rw [if_neg ho, if_neg (Ne.symm ho)]
      rfl

theorem isSome_addObject_self {kind : ObjectKind} :
    ((r.addObject kind d).data ⟨r.nextObjectId, kind⟩).isSome := by
  rw [data_addObject]
  simp

theorem isSome_addObject {kind : ObjectKind} (h : (r.data o).isSome) :
    ((r.addObject kind d).data o).isSome := by
  rw [data_addObject]
  simp [h]

/-! ### Sound registries -/

def jobParent (r : Registry) (id : ℕ) : Option ℕ := (r.data ⟨id, .job⟩).bind (·.jobParent)

/-- What holds of the state of an object beside the presence of what it names. -/
def ValidData (r : Registry) (o : ObjectRef) : ObjectData → Prop
  | .endpoint endpoint =>
    endpoint.queue.length ≤ maxEndpointMessages ∧
    (∀ message ∈ endpoint.queue, ∀ c ∈ message.capabilities, ProperRights c.object c.rights) ∧
    ∀ peer, endpoint.peer = .connected peer → peer.kind = .endpoint
  | .job state =>
    state.children.Nodup ∧ ∀ c ∈ state.children, o.id < c ∧ r.jobParent c = some o.id
  | .eventPort state => state.Valid
  | .waitSet state => ∀ registration ∈ state.registrations, registration.requested ≠ 0 ∧
      Within registration.requested (capabilityObjectSupportedSignals registration.target.kind)
  | .notification _ | .sharedMemory _ | .kernelEarlyLogReader | .timer _ | .event _ => True

/-- No entry and no object names a missing object, messages apart. -/
structure Sound (r : Registry) : Prop where
  tables_nodup : (r.tables.map (·.processId)).Nodup
  ids_nodup : r.objectIds.Nodup
  handles_nodup : ∀ processId, ((r.entriesOf processId).map (·.handle)).Nodup
  kind_eq : ∀ o d, r.data o = some d → d.kind = o.kind
  id_lt : ∀ o d, r.data o = some d → o.id < r.nextObjectId
  entry_present : ∀ processId, ∀ entry ∈ r.entriesOf processId, (r.data entry.object).isSome
  entry_rights : ∀ processId, ∀ entry ∈ r.entriesOf processId, ProperRights entry.object entry.rights
  name_present : ∀ o d, r.data o = some d → ∀ o' ∈ d.names, (r.data o').isSome
  valid : ∀ o d, r.data o = some d → r.ValidData o d

/-- The state of an object stays valid as long as the jobs it names keep their parents. -/
theorem ValidData.mono (h : r.ValidData o d) (hjobs : ∀ c p, ⟨c, .job⟩ ∈ d.names →
    r.jobParent c = some p → r'.jobParent c = some p) : r'.ValidData o d := by
  cases d with
  | job =>
    refine ⟨h.1, fun c hc => ⟨(h.2 c hc).1, hjobs c o.id ?_ (h.2 c hc).2⟩⟩
    exact mem_map_of_mem (mem_append_right _ hc)
  | _ => exact h

theorem sound_new : new.Sound where
  tables_nodup := nodup_nil
  ids_nodup := nodup_nil
  handles_nodup := fun _ => nodup_nil
  kind_eq := fun _ _ h => absurd h (by simp [data, new])
  id_lt := fun _ _ h => absurd h (by simp [data, new])
  entry_present := fun _ _ h => absurd h (by simp [entriesOf, table, new])
  entry_rights := fun _ _ h => absurd h (by simp [entriesOf, table, new])
  name_present := fun _ _ h => absurd h (by simp [data, new])
  valid := fun _ _ h => absurd h (by simp [data, new])

namespace Sound

section

variable (h : r.Sound)

include h

/-- A collection keeps what is named by what it keeps. -/
theorem collectGarbage : (r.collectGarbage roots).Sound where
  tables_nodup := h.tables_nodup
  ids_nodup := h.ids_nodup.sublist ((filter_sublist.map _).map _)
  handles_nodup := h.handles_nodup
  kind_eq o d hd := h.kind_eq o d (data_collectGarbage_eq_some.1 hd).2
  id_lt o d hd := h.id_lt o d (data_collectGarbage_eq_some.1 hd).2
  entry_present p e he := by
    rw [entriesOf_collectGarbage] at he
    rw [data_collectGarbage_of_reaches (Reaches.of_entry he)]
    exact h.entry_present p e he
  entry_rights := h.entry_rights
  name_present o d hd o' ho' := by
    obtain ⟨hreach, hd⟩ := data_collectGarbage_eq_some.1 hd
    rw [data_collectGarbage_of_reaches (hreach.name hd ho')]
    exact h.name_present o d hd o' ho'
  valid o d hd := by
    obtain ⟨hreach, hd⟩ := data_collectGarbage_eq_some.1 hd
    refine (h.valid o d hd).mono fun c p hc hp => ?_
    rw [jobParent, data_collectGarbage_of_reaches (hreach.name hd hc)]
    exact hp

/-- A change of the tables alone. -/
theorem withTables (hobjects : r'.objects = r.objects) (hnext : r'.nextObjectId = r.nextObjectId)
    (htables : (r'.tables.map (·.processId)).Nodup) (hhandles : ∀ p, ((r'.entriesOf p).map (·.handle)).Nodup)
    (hentries : ∀ p, ∀ e ∈ r'.entriesOf p, (r.data e.object).isSome ∧
      ProperRights e.object e.rights) : r'.Sound := by
  have hdata : ∀ o, r'.data o = r.data o := fun o => by rw [data, data, hobjects]
  refine ⟨htables, by rw [objectIds, hobjects]; exact h.ids_nodup, hhandles, ?_, ?_, ?_, ?_, ?_, ?_⟩
  · intro o d hd
    exact h.kind_eq o d (hdata o ▸ hd)
  · intro o d hd
    exact hnext ▸ h.id_lt o d (hdata o ▸ hd)
  · intro p e he
    exact hdata e.object ▸ (hentries p e he).1
  · exact fun p e he => (hentries p e he).2
  · intro o d hd o' ho'
    exact hdata o' ▸ h.name_present o d (hdata o ▸ hd) o' ho'
  · intro o d hd
    refine (h.valid o d (hdata o ▸ hd)).mono fun c p _ hp => ?_
    rw [jobParent, hdata]
    exact hp

/-- The tables only lose entries. -/
theorem shrinkTables (hobjects : r'.objects = r.objects) (hnext : r'.nextObjectId = r.nextObjectId)
    (htables : (r'.tables.map (·.processId)).Nodup)
    (hsub : ∀ p, (r'.entriesOf p).Sublist (r.entriesOf p)) : r'.Sound :=
  h.withTables hobjects hnext htables (fun p => (h.handles_nodup p).sublist ((hsub p).map _))
    fun p e he => ⟨h.entry_present p e ((hsub p).subset he), h.entry_rights p e ((hsub p).subset he)⟩

/-- A change of the objects alone, described by what can be read afterwards: each object that is
there is new or was there, what it names is present and its state is valid. -/
theorem withObjects (htables : r'.tables = r.tables) (hnodup : r'.objectIds.Nodup)
    (hpresent : ∀ o, (r.data o).isSome → (r'.data o).isSome)
    (hdata : ∀ o d, r'.data o = some d → d.kind = o.kind ∧ o.id < r'.nextObjectId ∧
      (∀ o' ∈ d.names, (r'.data o').isSome) ∧ r'.ValidData o d) : r'.Sound := by
  have hentries : ∀ p, r'.entriesOf p = r.entriesOf p := fun p => by
    rw [entriesOf, entriesOf, table, table, htables]
  refine ⟨htables ▸ h.tables_nodup, hnodup, ?_, fun o d hd => (hdata o d hd).1,
    fun o d hd => (hdata o d hd).2.1, ?_, ?_, fun o d hd => (hdata o d hd).2.2.1,
    fun o d hd => (hdata o d hd).2.2.2⟩
  · intro p
    rw [hentries]
    exact h.handles_nodup p
  · intro p e he
    rw [hentries] at he
    exact hpresent _ (h.entry_present p e he)
  · intro p e he
    rw [hentries] at he
    exact h.entry_rights p e he

end

theorem data_setData_of_present {x : ObjectRef} (ho : r.data o = some d) :
    (r.setData o d').data x = if x = o then some d' else r.data x := by
  split
  · next hx => rw [hx, data_setData_self, ho, map_some]
  · next hx => exact data_setData_ne hx

variable (h : r.Sound)

include h

/-- The state of one object is replaced. -/
theorem setData (ho : r.data o = some d) (hkind : d'.kind = d.kind)
    (hnames : ∀ x ∈ d'.names, (r.data x).isSome) (hparent : d'.jobParent = d.jobParent)
    (hvalid : r.ValidData o d') : (r.setData o d').Sound := by
  have hread : ∀ x, (r.setData o d').data x = if x = o then some d' else r.data x :=
    fun x => data_setData_of_present ho
  have hpresent : ∀ x, (r.data x).isSome → ((r.setData o d').data x).isSome := by
    intro x hx
    rw [hread]
    split
    · rfl
    · exact hx
  have hjobs : ∀ c, (r.setData o d').jobParent c = r.jobParent c := by
    intro c
    rw [jobParent, jobParent, hread]
    split
    · next hc => rw [hc, ho, bind_some, bind_some, hparent]
    · rfl
  refine h.withObjects rfl ?_ hpresent ?_
  · rw [objectIds_setData]
    exact h.ids_nodup
  · intro x dx hdx
    rw [hread] at hdx
    split at hdx
    · next hx =>
        cases hdx
        refine ⟨?_, hx ▸ h.id_lt o d ho, fun y hy => hpresent y (hnames y hy), ?_⟩
        · rw [hkind, hx]
          exact h.kind_eq o d ho
        · rw [hx]
          exact hvalid.mono fun c p _ hp => (hjobs c).trans hp
    · refine ⟨h.kind_eq x dx hdx, h.id_lt x dx hdx, fun y hy => hpresent y (h.name_present x dx hdx y hy), ?_⟩
      exact (h.valid x dx hdx).mono fun c p _ hp => (hjobs c).trans hp

theorem data_next {kind : ObjectKind} : r.data ⟨r.nextObjectId, kind⟩ = none := by
  by_contra hne
  obtain ⟨d0, hd0⟩ := ne_none_iff_exists'.1 hne
  exact absurd (h.id_lt _ d0 hd0) (lt_irrefl _)

theorem data_addObject_self {kind : ObjectKind} :
    (r.addObject kind d).data ⟨r.nextObjectId, kind⟩ = some d := by
  rw [data_addObject, h.data_next, none_or, if_pos rfl]

/-- A new object, with the next number. -/
theorem addObject {kind : ObjectKind} (hkind : d.kind = kind)
    (hnames : ∀ x ∈ d.names, (r.data x).isSome) (hvalid : r.ValidData ⟨r.nextObjectId, kind⟩ d) :
    (r.addObject kind d).Sound := by
  set r' := r.addObject kind d with hr'
  set o : ObjectRef := ⟨r.nextObjectId, kind⟩ with ho
  have hnone : r.data o = none := h.data_next
  have hread : ∀ x, r'.data x = if x = o then some d else r.data x := by
    intro x
    rw [data_addObject]
    by_cases hx : x = o
    · rw [hx, hnone, none_or]
    · rw [if_neg hx, if_neg hx, or_none]
  have hpresent : ∀ x, (r.data x).isSome → (r'.data x).isSome := fun _ => isSome_addObject
  have hjobs : ∀ c p, r.jobParent c = some p → r'.jobParent c = some p := by
    intro c p hp
    rw [jobParent, hread, if_neg]
    · exact hp
    · intro hc
      rw [jobParent, hc, hnone] at hp
      simp at hp
  refine h.withObjects rfl ?_ hpresent ?_
  · have hids : r'.objectIds = r.objectIds ++ [r.nextObjectId] := by
      simp [hr', objectIds, Registry.addObject]
    rw [hids]
    refine h.ids_nodup.append (nodup_singleton _) ?_
    rw [disjoint_singleton]
    intro hmem
    obtain ⟨x, hx, hid⟩ := mem_map.1 hmem
    obtain ⟨dx, hdx⟩ := isSome_iff_exists.1 (isSome_data.2 hx)
    exact absurd (h.id_lt x dx hdx) (by rw [hid]; exact lt_irrefl _)
  · intro x dx hdx
    rw [hread] at hdx
    split at hdx
    · next hx =>
        cases hdx
        rw [hx]
        exact ⟨hkind, Nat.lt_succ_self _, fun y hy => hpresent y (hnames y hy),
          hvalid.mono fun c p _ hp => hjobs c p hp⟩
    · exact ⟨h.kind_eq x dx hdx, Nat.lt_succ_of_lt (h.id_lt x dx hdx),
        fun y hy => hpresent y (h.name_present x dx hdx y hy),
        (h.valid x dx hdx).mono fun c p _ hp => hjobs c p hp⟩

end Sound

end Registry

end Kernel
