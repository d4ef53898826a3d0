/-
**New table entries, and steps that move no capability.**

An insertion either adds one entry for each capability, under handles that the table does not have
yet, or adds none.  What it leaves behind when it fails, a new empty table or used generation
numbers, is invisible to every reader of the tables.

Most other calls change the state of objects and drop what nobody uses any more, without giving anybody a
capability.  Waking is such a step: the event ports look at their targets and lose the events that are
handed out.

* `insertEntries_spec`, `insertEntry_spec`, `insertEntryAt_spec` — insertions;
* `System.Safe.setData`, `System.Safe.collectGarbage` — elementary changes;
* `System.Safe.wakeSatisfiedObjectWaiters`, `System.Safe.wakePeerClosed` — waking.
-/

import NullStar.CapabilityCalls
import NullStar.Collection

set_option autoImplicit false

namespace Kernel

open Rust Hoare Option List Registry

/-! ### Handles -/

theorem capabilityHandle_eq_some {slot generation handle : ℕ} :
    capabilityHandle slot generation = some handle ↔
      0 < slot ∧ slot ≤ maxCapabilitiesPerProcess ∧ 0 < generation ∧ generation * 2 ^ 16 + slot = handle := by
  unfold capabilityHandle
  split
  · next h => exact ⟨fun h' => absurd h' (by simp), fun h' => by omega⟩
  · next h =>
      rw [some.injEq]
      constructor
      · intro h'
        exact ⟨by omega, by omega, by omega, h'⟩
      · exact fun h' => h'.2.2.2

/-- The slot of a handle can be read off it. -/
theorem capabilityHandleSlot_of_handle {slot generation handle : ℕ}
    (h : capabilityHandle slot generation = some handle) (hlt : generation < 2 ^ 32) :
    capabilityHandleSlot handle = some slot := by
  obtain ⟨hpos, hle, hgen, rfl⟩ := capabilityHandle_eq_some.1 h
  have hle' : slot ≤ 64 := hle
  have hslot : (generation * 2 ^ 16 + slot) % 2 ^ 16 = slot := by omega
  unfold capabilityHandleSlot
  simp only [hslot]
  rw [if_neg]
  omega

/-- The handles of slots, one for each, which can be read off them. -/
theorem capabilityHandles_spec : ∀ {slots generations handles : List ℕ},
    slots.length = generations.length → (∀ g ∈ generations, g < 2 ^ 32) →
    capabilityHandles slots generations = some handles →
    handles.length = slots.length ∧ handles.map capabilityHandleSlot = slots.map some := by
  intro slots
  induction slots with
  | nil =>
    intro generations handles hlen _ h
    obtain rfl : handles = [] := by simpa [capabilityHandles] using h.symm
    exact ⟨rfl, rfl⟩
  | cons slot slots ih =>
    intro generations handles hlen hgen h
    cases generations with
    | nil => simp at hlen
    | cons g gs =>
      simp only [capabilityHandles, bind_eq_bind, bind_eq_some_iff, Option.pure_def, some.injEq] at h
      obtain ⟨handle, hhandle, hs, hhs, rfl⟩ := h
      have hlen' : slots.length = gs.length := by simpa using hlen
      obtain ⟨hl, hm⟩ := ih hlen' (fun g' hg' => hgen g' (mem_cons_of_mem g hg')) hhs
      refine ⟨by simp [hl], ?_⟩
      rw [map_cons, map_cons, hm, capabilityHandleSlot_of_handle hhandle (hgen g mem_cons_self)]

namespace Registry

variable {r r' r'' : Registry} {processId : ℕ}

/-! ### Registries with the same contents -/

/-- The same entries and objects. -/
structure Quiet (r r' : Registry) : Prop where
  objects : r'.objects = r.objects
  next : r'.nextObjectId = r.nextObjectId
  entries : ∀ p, r'.entriesOf p = r.entriesOf p
  tables : (r.tables.map (·.processId)).Nodup → (r'.tables.map (·.processId)).Nodup

theorem Quiet.refl (r : Registry) : r.Quiet r := ⟨rfl, rfl, fun _ => rfl, id⟩

theorem Quiet.trans (h : r.Quiet r') (h' : r'.Quiet r'') : r.Quiet r'' :=
  ⟨h'.objects.trans h.objects, h'.next.trans h.next,
    fun p => (h'.entries p).trans (h.entries p), h'.tables ∘ h.tables⟩

theorem Quiet.data (h : r.Quiet r') (o : ObjectRef) : r'.data o = r.data o := by
  rw [Registry.data, Registry.data, h.objects]

theorem Sound.quiet (h : r.Sound) (hq : r.Quiet r') : r'.Sound :=
  h.shrinkTables hq.objects hq.next (hq.tables h.tables_nodup) fun p =>
    (hq.entries p) ▸ .refl _

/-- A process has got an empty table. -/
theorem quiet_addTable (h : r.table processId = none) :
    r.Quiet { r with tables := r.tables ++ [⟨processId, []⟩] } := by
  refine ⟨rfl, rfl, fun p => ?_, fun hnd => ?_⟩
  · have hread : ({ r with tables := r.tables ++ [⟨processId, []⟩] } : Registry).table p =
        (r.table p).or (if processId = p then some ⟨processId, []⟩ else none) := by
      change Keyed.lookup _ _ (_ ++ _) = _
      rw [Keyed.lookup_append, Keyed.lookup_cons]
      rfl
    rw [entriesOf, entriesOf, hread]
    cases ht : r.table p with
    | some => rfl
    | none =>
      rw [none_or]
      by_cases hp : processId = p
      · rw [if_pos hp]
      · rw [if_neg hp]
  · change (map (·.processId) (r.tables ++ [(⟨processId, []⟩ : ProcessCapabilityTable)])).Nodup
    rw [map_append]
    refine hnd.append (nodup_singleton _) ?_
    rw [map_singleton, disjoint_singleton]
    exact Keyed.lookup_eq_none.1 h

/-! ### Registries with new entries -/

/-- The entry of a capability under a handle. -/
def newEntry (handle : ℕ) (capability : TransferredCapability) : CapabilityEntry :=
  ⟨handle, capability.object, capability.rights⟩

/-- The process has new entries for the capabilities, under handles it did not use. -/
structure Inserted (r : Registry) (processId : ℕ) (capabilities : List TransferredCapability)
    (handles : List ℕ) (r' : Registry) : Prop where
  objects : r'.objects = r.objects
  next : r'.nextObjectId = r.nextObjectId
  tables : (r.tables.map (·.processId)).Nodup → (r'.tables.map (·.processId)).Nodup
  length_eq : handles.length = capabilities.length
  entries : r'.entriesOf processId =
    r.entriesOf processId ++ (handles.zip capabilities).map fun (h, c) => newEntry h c
  others : ∀ p, p ≠ processId → r'.entriesOf p = r.entriesOf p
  nodup : handles.Nodup
  fresh : ∀ h ∈ handles, h ∉ (r.entriesOf processId).map (·.handle)
  proper : ∀ c ∈ capabilities, ProperRights c.object c.rights ∧ (r.data c.object).isSome

variable {capabilities : List TransferredCapability} {handles : List ℕ}

theorem Inserted.data (h : r.Inserted processId capabilities handles r') (o : ObjectRef) :
    r'.data o = r.data o := by
  rw [Registry.data, Registry.data, h.objects]

theorem map_handle_zip (h : handles.length = capabilities.length) :
    ((handles.zip capabilities).map fun (h, c) => newEntry h c).map (·.handle) = handles := by
  rw [List.map_map]
  exact map_fst_zip h.le

theorem Sound.insert (h : r.Sound) (hi : r.Inserted processId capabilities handles r') :
    r'.Sound := by
  refine h.withTables hi.objects hi.next (hi.tables h.tables_nodup) ?_ ?_
  · intro p
    by_cases hp : p = processId
    · subst hp
      rw [hi.entries, map_append, map_handle_zip hi.length_eq]
      refine .append (h.handles_nodup p) hi.nodup ?_
      intro x hx hx'
      exact hi.fresh x hx' hx
    · rw [hi.others p hp]
      exact h.handles_nodup p
  · intro p e he
    by_cases hp : p = processId
    · subst hp
      rw [hi.entries] at he
      rcases mem_append.1 he with he | he
      · exact ⟨h.entry_present p e he, h.entry_rights p e he⟩
      · obtain ⟨⟨handle, c⟩, hmem, rfl⟩ := mem_map.1 he
        obtain ⟨hright, hdata⟩ := hi.proper c (of_mem_zip hmem).2
        exact ⟨hdata, hright⟩
    · rw [hi.others p hp] at he
      exact ⟨h.entry_present p e he, h.entry_rights p e he⟩

/-- Insertions do not see what is invisible. -/
theorem Quiet.inserted (hq : r.Quiet r') (hi : r'.Inserted processId capabilities handles r'') :
    r.Inserted processId capabilities handles r'' where
  objects := hi.objects.trans hq.objects
  next := hi.next.trans hq.next
  tables := hi.tables ∘ hq.tables
  length_eq := hi.length_eq
  entries := by rw [hi.entries, hq.entries]
  others p hp := by rw [hi.others p hp, hq.entries]
  nodup := hi.nodup
  fresh h hh := hq.entries processId ▸ hi.fresh h hh
  proper c hc := ⟨(hi.proper c hc).1, hq.data c.object ▸ (hi.proper c hc).2⟩

/-! ### Slots -/

theorem freeSlots_spec {table : ProcessCapabilityTable} {count : ℕ} : (table.freeSlots count).Nodup ∧
      ∀ slot ∈ table.freeSlots count, table.slotInUse slot = false := by
  have hsub : (table.freeSlots count).Sublist
      (((range maxCapabilitiesPerProcess).map (· + 1)).filter fun slot =>
        !table.slotInUse slot) := take_sublist _ _
  refine ⟨?_, fun slot hslot => ?_⟩
  · refine .sublist (hsub.trans filter_sublist) ?_
    exact nodup_range.map fun a b h => Nat.succ.inj h
  · simpa using (mem_filter.1 (hsub.subset hslot)).2

/-- A handle whose slot is free is not in the table. -/
theorem not_mem_of_slot_free {table : ProcessCapabilityTable} {slot handle : ℕ}
    (hfree : table.slotInUse slot = false) (hslot : capabilityHandleSlot handle = some slot) :
    handle ∉ table.entries.map (·.handle) := by
  intro hmem
  obtain ⟨entry, he, rfl⟩ := mem_map.1 hmem
  have hused : table.slotInUse slot = true := any_eq_true.2 ⟨entry, he, by simpa using hslot⟩
  rw [hfree] at hused
  simp at hused

end Registry

/-! ### The steps of an insertion -/

section

variable {s : System} {processId : ℕ}

/-- The system after a step that changes nothing a reader of the tables can see. -/
def System.QuietStep (s s' : System) : Prop :=
  s' = { s with registry := s'.registry } ∧ s.registry.Quiet s'.registry

theorem System.QuietStep.refl (s : System) : s.QuietStep s := ⟨rfl, .refl _⟩

theorem System.QuietStep.trans {s' s'' : System} (h : s.QuietStep s') (h' : s'.QuietStep s'') :
    s.QuietStep s'' := by
  refine ⟨?_, h.2.trans h'.2⟩
  rw [h'.1, h.1]

theorem ensureTable_spec : Triple (· = s) (ensureTable processId)
    (fun _ s' => s.QuietStep s' ∧ ∃ table, s'.registry.table processId = some table)
    (fun _ s' => s.QuietStep s') := by
  refine triple_get_bind ?_
  split
  · next h => exact triple_return ⟨.refl s, isSome_iff_exists.1 h⟩
  · next h =>
      have hnone : s.registry.table processId = none := by simpa using h
      refine triple_check_bind (fun _ _ => ?_) fun _ _ => .refl s
      refine triple_modify ⟨⟨rfl, quiet_addTable hnone⟩, isSome_iff_exists.1 ?_⟩
      change (Keyed.lookup _ _ (_ ++ _)).isSome
      rw [Keyed.lookup_append, Keyed.lookup_cons, if_pos rfl, or_some]
      rfl

variable {s1 : System} {table : ProcessCapabilityTable}

/-- Generation numbers are taken in order and never exceed their width. -/
theorem takeHandleGenerations_spec {count : ℕ} (hq : s.QuietStep s1)
    (htable : s1.registry.table processId = some table) : Triple (· = s1) (takeHandleGenerations count)
    (fun generations s' => s.QuietStep s' ∧ s'.registry.table processId = some table ∧
      generations.length = count ∧ ∀ g ∈ generations, g < 2 ^ 32) (fun _ s' => s.QuietStep s') := by
  unfold takeHandleGenerations
  split
  · next h => exact triple_return ⟨hq, htable, by simp [h], by simp⟩
  · next h =>
      refine triple_get_bind ?_
      refine triple_check_bind (fun _ _ => ?_) fun _ _ => hq
      refine triple_check_bind (fun _ hlast => ?_) fun _ _ => hq
      refine triple_modifyRegistry_bind (triple_return ?_)
      refine ⟨hq.trans ⟨rfl, rfl, rfl, fun _ => rfl, id⟩, htable, by simp, ?_⟩
      intro g hg
      rw [rejectIf_eq_ok] at hlast
      obtain ⟨i, hi, rfl⟩ := mem_map.1 hg
      rw [mem_range] at hi
      omega

theorem checkEntry_eq_ok {r : Registry} {c : TransferredCapability} {u : Unit} :
    r.checkEntry c = .ok u ↔ ProperRights c.object c.rights ∧ (r.data c.object).isSome := by
  simp only [checkEntry, run_eq_ok, isSome_iff_ne_none]
  constructor
  · rintro ⟨h, h'⟩
    exact ⟨⟨fun h0 => h (.inl h0), by_contra fun hw => h (.inr hw)⟩, h'⟩
  · rintro ⟨⟨h0, hw⟩, h'⟩
    exact ⟨fun h => h.elim h0 fun h => h hw, h'⟩

/-- New entries under handles whose slots are free. -/
theorem inserted_of_slots {r : Registry} {capabilities : List TransferredCapability}
    {slots handles : List ℕ} (htable : r.table processId = some table) (hnodup : slots.Nodup)
    (hfree : ∀ slot ∈ slots, table.slotInUse slot = false) (hlen : handles.length = capabilities.length)
    (hslots : handles.map capabilityHandleSlot = slots.map some)
    (hproper : ∀ c ∈ capabilities, ProperRights c.object c.rights ∧ (r.data c.object).isSome) :
    r.Inserted processId capabilities handles (r.updateEntries processId
      (· ++ (handles.zip capabilities).map fun (h, c) => newEntry h c)) where
  objects := rfl
  next := rfl
  tables hnd := by
    have hmap : (r.updateEntries processId (· ++ (handles.zip capabilities).map fun (h, c) =>
        newEntry h c)).tables.map (·.processId) = r.tables.map (·.processId) :=
      Keyed.map_key_adjust fun _ => rfl
    exact hmap ▸ hnd
  length_eq := hlen
  entries := entriesOf_updateEntries_self (by rw [htable]; rfl)
  others p hp := entriesOf_updateEntries_ne hp
  nodup := by
    refine .of_map capabilityHandleSlot ?_
    rw [hslots]
    exact hnodup.map fun a b h => some.inj h
  fresh h hh := by
    have hmem : capabilityHandleSlot h ∈ slots.map some := hslots ▸ mem_map_of_mem hh
    obtain ⟨slot, hslot, heq⟩ := mem_map.1 hmem
    rw [entriesOf, htable]
    exact not_mem_of_slot_free (hfree slot hslot) heq.symm
  proper := hproper

/-- The entries that an insertion adds are there when it succeeds, and none when it fails. -/
theorem insertEntries_spec {capabilities : List TransferredCapability} :
    Triple (· = s) (insertEntries processId capabilities)
      (fun handles s' => s' = { s with registry := s'.registry } ∧
        s.registry.Inserted processId capabilities handles s'.registry) (fun _ s' => s.QuietStep s') := by
  refine triple_read_bind (fun _ hcheck => ?_) fun _ _ => .refl s
  have hproper : ∀ c ∈ capabilities, ProperRights c.object c.rights ∧ (s.registry.data c.object).isSome := by
    intro c hc
    exact checkEntry_eq_ok.1 (each_eq_ok.1 hcheck c hc)
  refine triple_bind ensureTable_spec ?_
  rintro _ s1 ⟨hq1, table, htable⟩
  refine triple_read_bind (fun slots hslots => ?_) fun _ _ => hq1
  simp only [slotsFor, run_eq_ok, freeSlots, htable] at hslots
  obtain ⟨-, hlen, rfl⟩ := hslots
  refine triple_bind (takeHandleGenerations_spec hq1 htable) ?_
  rintro generations s2 ⟨hq2, htable2, hglen, hgen⟩
  refine triple_check_bind (fun handles hhandles => ?_) fun _ _ => hq2
  refine triple_modifyRegistry_bind (triple_return ?_)
  obtain ⟨hhlen, hhslots⟩ := capabilityHandles_spec ((not_not.1 hlen).trans hglen.symm) hgen
    (okOr_eq_ok.1 hhandles)
  refine ⟨by rw [hq2.1], hq2.2.inserted ?_⟩
  exact inserted_of_slots htable2 freeSlots_spec.1 freeSlots_spec.2
    (hhlen.trans (not_not.1 hlen)) hhslots
    fun c hc => ⟨(hproper c hc).1, hq2.2.data c.object ▸ (hproper c hc).2⟩

variable {object : ObjectRef} {rights : Bits}

theorem pushEntry_spec {slot : ℕ} (hq : s.QuietStep s1) (htable : s1.registry.table processId = some table)
    (hfree : table.slotInUse slot = false)
    (hproper : ProperRights object rights ∧ (s.registry.data object).isSome) : Triple (· = s1) (do
        let generations ← takeHandleGenerations 1
        let handle ← check (okOr (capabilityHandle slot (generations.headD 0)) .noSpace)
        pushEntry processId handle ⟨object, rights⟩
        return handle)
      (fun handle s' => s' = { s with registry := s'.registry } ∧
        s.registry.Inserted processId [⟨object, rights⟩] [handle] s'.registry)
      (fun _ s' => s.QuietStep s') := by
  refine triple_bind (takeHandleGenerations_spec hq htable) ?_
  rintro generations s2 ⟨hq2, htable2, hglen, hgen⟩
  obtain ⟨g, rfl⟩ := length_eq_one_iff.1 hglen
  refine triple_check_bind (fun handle hhandle => ?_) fun _ _ => hq2
  refine triple_modifyRegistry_bind (triple_return ?_)
  have hslot : capabilityHandleSlot handle = some slot :=
    capabilityHandleSlot_of_handle (okOr_eq_ok.1 hhandle) (hgen g (by simp))
  refine ⟨by rw [hq2.1], hq2.2.inserted ?_⟩
  have hdata : (s2.registry.data object).isSome := hq2.2.data object ▸ hproper.2
  exact inserted_of_slots htable2 (nodup_singleton slot) (by simpa using hfree) rfl
    (by simp [hslot]) (by simpa using ⟨hproper.1, hdata⟩)

theorem insertEntry_spec : Triple (· = s) (insertEntry processId object rights)
      (fun handle s' => s' = { s with registry := s'.registry } ∧
        s.registry.Inserted processId [⟨object, rights⟩] [handle] s'.registry)
      (fun _ s' => s.QuietStep s') := by
  refine triple_read_bind (fun _ hcheck => ?_) fun _ _ => .refl s
  refine triple_bind ensureTable_spec ?_
  rintro _ s1 ⟨hq1, table, htable⟩
  refine triple_read_bind (fun _ _ => ?_) fun _ _ => hq1
  refine triple_read_bind (fun slot hslot => ?_) fun _ _ => hq1
  have hmem : slot ∈ table.freeSlots 1 := by
    rw [okOr_eq_ok, freeSlots, htable] at hslot
    exact mem_of_mem_head? hslot
  exact pushEntry_spec hq1 htable (freeSlots_spec.2 slot hmem) (checkEntry_eq_ok.1 hcheck)

theorem insertEntryAt_spec {requestedSlot : ℕ} :
    Triple (· = s) (insertEntryAt processId object rights requestedSlot)
      (fun handle s' => s' = { s with registry := s'.registry } ∧
        s.registry.Inserted processId [⟨object, rights⟩] [handle] s'.registry)
      (fun _ s' => s.QuietStep s') := by
  unfold insertEntryAt
  split
  · exact insertEntry_spec
  · refine triple_read_bind (fun _ hcheck => ?_) fun _ _ => .refl s
    refine triple_check_bind (fun _ _ => ?_) fun _ _ => .refl s
    refine triple_bind ensureTable_spec ?_
    rintro _ s1 ⟨hq1, table, htable⟩
    refine triple_read_bind (fun _ _ => ?_) fun _ _ => hq1
    refine triple_read_bind (fun _ hslot => ?_) fun _ _ => hq1
    have hfree : table.slotInUse requestedSlot = false := by
      rw [entriesOf, htable] at hslot
      simpa [ProcessCapabilityTable.slotInUse] using hslot
    exact pushEntry_spec hq1 htable hfree (checkEntry_eq_ok.1 hcheck)

end

/-! ### What a step leaves behind -/

/-- The messages that wait in an object. -/
def ObjectData.messages : ObjectData → List EndpointMessage
  | .endpoint e => e.queue
  | _ => []

/-- The endpoint that an endpoint is connected to. -/
def ObjectData.peer : ObjectData → Option ObjectRef
  | .endpoint ⟨_, .connected peer⟩ => some peer
  | _ => none

/-- What an endpoint has in its queue, and where its messages go. -/
def ObjectData.traffic (d : ObjectData) : List EndpointMessage × Option ObjectRef :=
  (d.messages, d.peer)

namespace Registry

variable (r : Registry) (o : ObjectRef)

/-- The messages that wait in the object with the reference. -/
def messages : List EndpointMessage :=
  match r.data o with
  | some d => d.messages
  | none => []

theorem messages_of_data {r : Registry} {o : ObjectRef} {d : ObjectData} (h : r.data o = some d) :
    r.messages o = d.messages := by rw [messages, h]

theorem messages_of_none {r : Registry} {o : ObjectRef} (h : r.data o = none) :
    r.messages o = [] := by rw [messages, h]

theorem isSome_of_message {r : Registry} {o : ObjectRef} {message : EndpointMessage}
    (h : message ∈ r.messages o) : (r.data o).isSome := by
  by_contra hnone
  rw [messages_of_none (by simpa using hnone)] at h
  simp at h

/-- The endpoint that the object with the reference is connected to. -/
def peer : Option ObjectRef := (r.data o).bind (·.peer)

theorem peer_of_data {r : Registry} {o : ObjectRef} {d : ObjectData} (h : r.data o = some d) :
    r.peer o = d.peer := by rw [peer, h, bind_some]

/-- No capability and no message has appeared, and no object has come back; endpoints are connected
as before, or to objects with known numbers. -/
structure Evolves (r r' : Registry) : Prop where
  next_le : r.nextObjectId ≤ r'.nextObjectId
  entries : ∀ p, ∀ e ∈ r'.entriesOf p, e ∈ r.entriesOf p
  objects : ∀ o, (r'.data o).isSome → ((r.data o).isSome ∧ r'.messages o = r.messages o) ∨
      (r.nextObjectId ≤ o.id ∧ r'.messages o = [])
  peers : ∀ o p, r'.peer o = some p → r.peer o = some p ∨ p.id < r'.nextObjectId

theorem Evolves.refl : r.Evolves r := ⟨le_rfl, fun _ _ h => h, fun _ h => .inl ⟨h, rfl⟩, fun _ _ h => .inl h⟩

variable {r} {r' r'' : Registry} {roots : List ObjectRef} {o} {d d' : ObjectData}

theorem Evolves.trans (h : r.Evolves r') (h' : r'.Evolves r'') : r.Evolves r'' where
  next_le := h.next_le.trans h'.next_le
  entries p e he := h.entries p e (h'.entries p e he)
  objects o ho := by
    rcases h'.objects o ho with ⟨ho', hm⟩ | ⟨hid, hm⟩
    · rw [hm]
      exact h.objects o ho'
    · exact .inr ⟨h.next_le.trans hid, hm⟩
  peers o p hp := by
    rcases h'.peers o p hp with hp | hlt
    · exact (h.peers o p hp).imp_right fun hlt => hlt.trans_le h'.next_le
    · exact .inr hlt

/-- Tables that only lose entries. -/
theorem evolves_tables (hobjects : r'.objects = r.objects) (hnext : r'.nextObjectId = r.nextObjectId)
    (hsub : ∀ p, ∀ e ∈ r'.entriesOf p, e ∈ r.entriesOf p) : r.Evolves r' := by
  have hdata : ∀ o, r'.data o = r.data o := fun o => by rw [data, data, hobjects]
  refine ⟨hnext.ge, hsub, fun o ho => .inl ⟨hdata o ▸ ho, ?_⟩, fun o p hp => .inl ?_⟩
  · rw [messages, messages, hdata]
  · rwa [peer, hdata] at hp

theorem evolves_collectGarbage : r.Evolves (r.collectGarbage roots) := by
  refine ⟨le_rfl, fun _ _ h => h, fun o ho => .inl ?_, fun o p hp => .inl ?_⟩
  · obtain ⟨d, hd⟩ := isSome_iff_exists.1 ho
    have hd' := (data_collectGarbage_eq_some.1 hd).2
    exact ⟨by rw [hd']; rfl, by rw [messages_of_data hd, messages_of_data hd']⟩
  · obtain ⟨d, hd, hp⟩ := bind_eq_some_iff.1 hp
    rw [peer_of_data (data_collectGarbage_eq_some.1 hd).2, hp]

theorem evolves_setData (ho : r.data o = some d) (htraffic : d'.traffic = d.traffic) :
    r.Evolves (r.setData o d') := by
  obtain ⟨hmessages, hpeer⟩ := Prod.mk.inj htraffic
  have hnew : (r.setData o d').data o = some d' := by rw [data_setData_self, ho, map_some]
  have hsame : ∀ x, x ≠ o → (r.setData o d').data x = r.data x := fun x hx => data_setData_ne hx
  refine ⟨le_rfl, fun _ _ h => h, fun x hx => .inl ?_, fun x p hp => .inl ?_⟩
  · by_cases hxo : x = o
    · subst hxo
      exact ⟨by rw [ho]; rfl, by rw [messages_of_data hnew, messages_of_data ho, hmessages]⟩
    · exact ⟨hsame x hxo ▸ hx, by rw [messages, messages, hsame x hxo]⟩
  · by_cases hxo : x = o
    · subst hxo
      rwa [peer_of_data hnew, hpeer, ← peer_of_data ho] at hp
    · rwa [peer, hsame x hxo] at hp

/-- What the objects are after one without messages was added. -/
theorem objects_addObject {kind : ObjectKind} (hmessages : d.messages = []) (x : ObjectRef)
    (hx : ((r.addObject kind d).data x).isSome) :
    ((r.data x).isSome ∧ (r.addObject kind d).messages x = r.messages x) ∨
      (r.nextObjectId ≤ x.id ∧ (r.addObject kind d).messages x = []) := by
  have hread : (r.addObject kind d).data x = _ := data_addObject
  cases hr : r.data x with
  | some =>
    rw [hr] at hread
    exact .inl ⟨rfl, by rw [messages_of_data hread, messages_of_data hr]⟩
  | none =>
    rw [hr] at hread
    by_cases hox : x = ⟨r.nextObjectId, kind⟩
    · rw [if_pos hox] at hread
      exact .inr ⟨by rw [hox], by rw [messages_of_data hread, hmessages]⟩
    · rw [if_neg hox] at hread
      rw [hread] at hx
      simp at hx

theorem peer_addObject {kind : ObjectKind} {x p : ObjectRef}
    (hp : (r.addObject kind d).peer x = some p) : r.peer x = some p ∨ d.peer = some p := by
  obtain ⟨dx, hdx, hp⟩ := bind_eq_some_iff.1 hp
  rw [data_addObject, or_eq_some_iff] at hdx
  rcases hdx with hdx | ⟨-, hdx⟩
  · exact .inl (by rw [peer_of_data hdx, hp])
  · split at hdx
    · cases hdx
      exact .inr hp
    · simp at hdx

/-- A new object without messages that is not connected to anything. -/
theorem evolves_addObject {kind : ObjectKind} (htraffic : d.traffic = ([], none)) :
    r.Evolves (r.addObject kind d) := by
  obtain ⟨hmessages, hpeer⟩ := Prod.mk.inj htraffic
  refine ⟨Nat.le_succ _, fun _ _ h => h, objects_addObject hmessages, fun x p hp => ?_⟩
  refine (peer_addObject hp).imp_right fun hp => ?_
  rw [hpeer] at hp
  simp at hp

end Registry

/-! ### Safe steps of a system -/

namespace System

/-- The registry of the system is sound. -/
def Sound (s : System) : Prop := s.registry.Sound

/-- What the kernel keeps alive, and what waiting messages carry, is present. -/
structure Anchored (s : System) : Prop where
  roots : ∀ o ∈ s.rootObjects, (s.registry.data o).isSome
  queued : ∀ o, ∀ message ∈ s.registry.messages o, ∀ c ∈ message.capabilities,
    (s.registry.data c.object).isSome

/-- The way from the first system to the second moved no capability and lost nothing that the kernel or
a message needs, and the second is sound. -/
structure Safe (s₀ s : System) : Prop where
  sound : s.Sound
  evolves : s₀.registry.Evolves s.registry
  anchored : s₀.Anchored → s.Anchored

theorem Safe.refl {s : System} (h : s.Sound) : s.Safe s := ⟨h, .refl _, id⟩

theorem Safe.trans {s₀ s1 s2 : System} (h : s₀.Safe s1) (h' : s1.Safe s2) : s₀.Safe s2 :=
  ⟨h'.1, h.2.trans h'.2, fun ha => h'.3 (h.3 ha)⟩

variable {s₀ s s' : System} {o : ObjectRef} {d d' : ObjectData}

/-- A message that waits now waited before. -/
theorem messages_of_evolves {r r' : Registry} (h : r.Evolves r') {message : EndpointMessage}
    (hmessage : message ∈ r'.messages o) : message ∈ r.messages o := by
  rcases h.objects o (isSome_of_message hmessage) with ⟨-, hsame⟩ | ⟨-, hempty⟩
  · exact hsame ▸ hmessage
  · rw [hempty] at hmessage
    simp at hmessage

/-- A step that loses no object and queues no message. -/
theorem Anchored.mono (h : s.Anchored) (hroots : ∀ o ∈ s'.rootObjects, o ∈ s.rootObjects)
    (hmessages : ∀ o, ∀ message ∈ s'.registry.messages o, message ∈ s.registry.messages o)
    (hpresent : ∀ o, (s.registry.data o).isSome → (s'.registry.data o).isSome) : s'.Anchored where
  roots o ho := hpresent o (h.roots o (hroots o ho))
  queued o message hmessage c hc := hpresent _ (h.queued o message (hmessages o message hmessage) c hc)

/-- What the kernel keeps, and what messages in kept endpoints carry, is not collected. -/
theorem Anchored.collectGarbage (h : s.Anchored) : s.collectGarbage.Anchored where
  roots o ho := by
    have hkept := data_collectGarbage_of_reaches (r := s.registry) (Reaches.of_root ho)
    exact (congrArg Option.isSome hkept).trans (h.roots o ho)
  queued o message hmessage c hc := by
    obtain ⟨d, hd⟩ := isSome_iff_exists.1 (isSome_of_message hmessage)
    obtain ⟨hreach, hd'⟩ := data_collectGarbage_eq_some.1 hd
    rw [messages_of_data hd] at hmessage
    have hlink : c.object ∈ d.links := by
      cases d with
      | endpoint => exact mem_flatMap.2 ⟨message, hmessage, mem_map_of_mem hc⟩
      | _ => simp [ObjectData.messages] at hmessage
    rw [← messages_of_data hd'] at hmessage
    have hkept := data_collectGarbage_of_reaches (hreach.link hd' hlink)
    exact (congrArg Option.isSome hkept).trans (h.queued o message hmessage c hc)

section

variable (h : s₀.Safe s)

include h

theorem Safe.extend (hsound : s'.Sound) (hevolves : s.registry.Evolves s'.registry)
    (hroots : ∀ o ∈ s'.rootObjects, o ∈ s.rootObjects)
    (hpresent : ∀ o, (s.registry.data o).isSome → (s'.registry.data o).isSome) : s₀.Safe s' :=
  ⟨hsound, h.2.trans hevolves, fun ha =>
    (h.3 ha).mono hroots (fun _ _ => messages_of_evolves hevolves) hpresent⟩

theorem Safe.of_eq (hregistry : s'.registry = s.registry) (hroots : s'.roots = s.roots) : s₀.Safe s' := by
  refine h.extend ?_ (hregistry ▸ .refl _) (fun o ho => ?_) fun o ho => hregistry ▸ ho
  · unfold Sound
    rw [hregistry]
    exact h.1
  · rwa [rootObjects, hroots] at ho

/-- A step that changes the tables of the registry only. -/
theorem Safe.withTables {r' : Registry} (hsound : r'.Sound) (hobjects : r'.objects = s.registry.objects)
    (hnext : r'.nextObjectId = s.registry.nextObjectId)
    (hsub : ∀ p, ∀ e ∈ r'.entriesOf p, e ∈ s.registry.entriesOf p) : s₀.Safe { s with registry := r' } := by
  refine h.extend hsound (evolves_tables hobjects hnext hsub) (fun _ ho => ho) fun o ho => ?_
  rwa [data, ← hobjects] at ho

theorem Safe.quiet (hq : s.QuietStep s') : s₀.Safe s' := by
  rw [hq.1]
  exact h.withTables (h.1.quiet hq.2) hq.2.objects hq.2.next fun p e he => hq.2.entries p ▸ he

theorem Safe.collectGarbage : s₀.Safe s.collectGarbage :=
  ⟨h.1.collectGarbage, h.2.trans evolves_collectGarbage, fun ha => (h.3 ha).collectGarbage⟩

theorem Safe.addObject {kind : ObjectKind} (hkind : d.kind = kind)
    (hnames : ∀ x ∈ d.names, (s.registry.data x).isSome)
    (hvalid : s.registry.ValidData ⟨s.registry.nextObjectId, kind⟩ d)
    (htraffic : d.traffic = ([], none)) : s₀.Safe { s with registry := s.registry.addObject kind d } :=
  h.extend (h.1.addObject hkind hnames hvalid) (evolves_addObject htraffic) (fun _ ho => ho)
    fun _ => isSome_addObject

theorem Safe.setData (ho : s.registry.data o = some d) (hkind : d'.kind = d.kind)
    (hnames : ∀ x ∈ d'.names, (s.registry.data x).isSome) (hparent : d'.jobParent = d.jobParent)
    (hvalid : s.registry.ValidData o d') (htraffic : d'.traffic = d.traffic) :
    s₀.Safe { s with registry := s.registry.setData o d' } :=
  h.extend (h.1.setData ho hkind hnames hparent hvalid) (evolves_setData ho htraffic) (fun _ ho => ho)
    fun _ => isSome_setData.2

/-- The state of an object is replaced by one that names the same objects. -/
theorem Safe.setData_names (ho : s.registry.data o = some d) (hkind : d'.kind = d.kind)
    (hnames : ∀ x ∈ d'.names, x ∈ d.names) (hparent : d'.jobParent = d.jobParent)
    (hvalid : s.registry.ValidData o d') (htraffic : d'.traffic = d.traffic) :
    s₀.Safe { s with registry := s.registry.setData o d' } :=
  h.setData ho hkind (fun x hx => h.1.name_present o d ho x (hnames x hx)) hparent hvalid htraffic

theorem Safe.shrinkTables {r' : Registry} (hobjects : r'.objects = s.registry.objects)
    (hnext : r'.nextObjectId = s.registry.nextObjectId) (htables : (r'.tables.map (·.processId)).Nodup)
    (hsub : ∀ p, (r'.entriesOf p).Sublist (s.registry.entriesOf p)) : s₀.Safe { s with registry := r' } :=
  h.withTables (h.1.shrinkTables hobjects hnext htables hsub) hobjects hnext fun p _ he => (hsub p).subset he

/-! ### Waking -/

theorem Safe.setPort {state state' : EventPort.State}
    (ho : s.registry.data o = some (.eventPort state)) (hvalid : state'.Valid)
    (htargets : state'.registrations.map (·.target) = state.registrations.map (·.target)) :
    s₀.Safe { s with registry := s.registry.setData o (.eventPort state') } := by
  refine h.setData_names ho rfl ?_ rfl hvalid rfl
  intro x hx
  change x ∈ state'.registrations.map (·.target) at hx
  rwa [htargets] at hx

end

theorem Safe.refreshTargets : ∀ (targets : List (ObjectRef × ObjectRef)) {s : System}, s₀.Safe s →
    s₀.Safe { s with registry := (refreshTargets targets s.registry).1 } := by
  intro targets
  induction targets with
  | nil => exact fun h => h
  | cons pair rest ih =>
    obtain ⟨port, target⟩ := pair
    intro s h
    unfold Registry.refreshTargets
    split
    · exact h
    · exact h
    · next current hcurrent =>
        split
        · next state hport =>
            have hv : state.Valid := h.1.valid port _ hport
            have hfits := (hv.observe target current).2
            have htargets : (state.observe target current).1.registrations.map (·.target) =
                state.registrations.map (·.target) := by
              rw [EventPort.State.registrations_observe hv]
              simp
            have hsafe := h.setPort hport (hv.observe target current).1 htargets
            simp only [hfits]
            exact ih hsafe
        · exact h

theorem Safe.refreshEventPorts (h : s₀.Safe s) :
    s₀.Safe { s with registry := s.registry.refreshEventPorts.1 } :=
  .refreshTargets _ h

theorem Safe.popEvent {port : ObjectRef} {state : EventPort.State} (h : s₀.Safe s)
    (ho : s.registry.data port = some (.eventPort state)) : s₀.Safe (s.popEvent port state).1 := by
  unfold System.popEvent
  split
  · exact h
  · next event state' hpop =>
      obtain ⟨hv, hregs⟩ := (h.1.valid port _ ho : state.Valid).popEvent hpop
      exact (h.setPort ho hv (by rw [hregs])).of_eq rfl rfl

theorem Safe.objectWaiterResult {waiter : ObjectWaiter} (h : s₀.Safe s) :
    s₀.Safe (s.objectWaiterResult waiter).1 := by
  unfold System.objectWaiterResult
  split
  · split
    · exact h
    · split
      · exact h
      · next hdata =>
          have hpop := h.popEvent hdata
          split
          · next heq => rwa [heq] at hpop
          · next heq =>
              rw [heq] at hpop
              split <;> exact hpop
      · exact h
  all_goals
    split <;> exact h

theorem Safe.wakeFrom {refreshError : Option Errno} : ∀ (waiters : List ObjectWaiter) {s : System},
    s₀.Safe s → s₀.Safe (System.wakeFrom refreshError waiters s).1 := by
  intro waiters
  induction waiters with
  | nil => exact fun h => h
  | cons waiter rest ih =>
    intro s h
    have hresult : s₀.Safe (System.wakeResult refreshError s waiter).1 := by
      unfold System.wakeResult
      split
      · exact h
      · exact h.objectWaiterResult
    unfold System.wakeFrom
    split
    · next heq =>
        rw [heq] at hresult
        exact ih hresult
    · next heq =>
        rw [heq] at hresult
        exact ih (hresult.of_eq rfl rfl)
    · next heq =>
        rw [heq] at hresult
        exact ih (hresult.of_eq rfl rfl)

theorem Safe.wakeSatisfiedObjectWaiters (h : s₀.Safe s) : s₀.Safe s.wakeSatisfiedObjectWaiters :=
  (Safe.wakeFrom _ h.refreshEventPorts).of_eq rfl rfl

theorem Safe.wakePeerClosed (h : s₀.Safe s) : s₀.Safe s.wakePeerClosed := by
  unfold System.wakePeerClosed
  generalize s.peerClosedEndpointObjects = closed
  induction closed generalizing s with
  | nil => exact h
  | cons _ rest ih => exact ih h.wakeSatisfiedObjectWaiters

end System

end Kernel
