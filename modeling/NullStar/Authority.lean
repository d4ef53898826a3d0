/-
**The capability authority model.**

A bounded registry of the authority that processes hold over kernel objects.  A process has a table of
slots; a slot has a generation and perhaps an entry, and a handle names a slot and a generation.
Closing a handle empties its slot and moves the slot to its next generation, or, after the last one,
out of use.

* `Rights`, `ObjectType`, `CapabilityHandle`;
* `CapabilityRegistry` and its operations;
* `slot` — the slot of a process with an index;
* `install_ok` and its companions — what the operations do to the slots;
* `Sound.install` and its companions — they keep the invariant.
-/

import NullStar.KernelObject
import NullStar.Keyed
import NullStar.Machine

set_option autoImplicit false

namespace Authority

open Rust Machine Keyed Option

def maxCapabilityProcesses : ℕ := 64
def maxCapabilitySlots : ℕ := 128
def maxCapabilityObjects : ℕ := 256

/-! ### Rights -/

abbrev Rights := Kernel.Bits

namespace Rights

def none : Rights := 0
def inspect : Rights := 1
def duplicate : Rights := 2
def transfer : Rights := 4
def wait : Rights := 8
def signal : Rights := 16
def read : Rights := 32
def write : Rights := 64
def map : Rights := 128
def getProperty : Rights := 256
def setProperty : Rights := 512
def manage : Rights := 1024
def basic : Rights := inspect ||| duplicate ||| transfer ||| wait

def Contains (r required : Rights) : Prop := r &&& required = required

instance (r required : Rights) : Decidable (Contains r required) :=
  inferInstanceAs (Decidable (_ = _))

theorem Contains.refl (r : Rights) : Contains r r := BitVec.and_self

theorem Contains.trans {a b c : Rights} (hab : Contains a b) (hbc : Contains b c) : Contains a c := by
  unfold Contains at *
  rw [← hbc, ← BitVec.and_assoc, hab]

end Rights

inductive ObjectType where
  | process | thread | addressSpace | job | channel | notification | sharedMemory | timer
  | eventPort | device | event
  deriving DecidableEq

open Rights in
def allowedRights : ObjectType → Rights
  | .process | .thread => inspect ||| duplicate ||| transfer ||| wait ||| signal ||| manage
  | .addressSpace => inspect ||| duplicate ||| transfer ||| map ||| manage
  | .job => basic ||| signal ||| manage
  | .channel => basic ||| Rights.read ||| write ||| signal
  | .notification | .event => basic ||| signal
  | .sharedMemory => basic ||| Rights.read ||| write ||| map
  | .timer => basic ||| setProperty
  | .eventPort => basic ||| signal ||| setProperty
  | .device => basic ||| Rights.read ||| write ||| map ||| manage

/-! ### The registry -/

structure CapabilityHandle where
  (slot generation : ℕ)
  deriving DecidableEq

structure CapabilityMetadata where
  handle : CapabilityHandle
  object : ℕ
  objectType : ObjectType
  rights : Rights
  deriving DecidableEq

inductive CapabilityError where
  | processLimit | objectLimit | handleLimit | objectIdExhausted | invalidProcess | invalidHandle
  | staleHandle | objectNotFound | revoked | typeMismatch | rightsMissing | rightsEscalation
  | invalidRights
  deriving DecidableEq

structure CapabilityEntry where
  object : ℕ
  objectType : ObjectType
  rights : Rights
  deriving DecidableEq

structure HandleSlot where
  generation : ℕ
  entry : Option CapabilityEntry
  deriving DecidableEq

structure ProcessCapabilities where
  process : ℕ
  slots : List HandleSlot
  deriving DecidableEq

structure CapabilityObject where
  object : ℕ
  objectType : ObjectType
  revoked : Bool
  deriving DecidableEq

structure CapabilityRegistry where
  nextObjectId : ℕ
  processes : List ProcessCapabilities
  objects : List CapabilityObject
  deriving DecidableEq

/-- The generation after the given one; the last one is followed by zero, which is never used. -/
def nextGeneration (g : ℕ) : ℕ := (checkedAdd 32 g 1).getD 0

/-- The empty slot of the next generation. -/
def HandleSlot.closed (s : HandleSlot) : HandleSlot := ⟨nextGeneration s.generation, none⟩

/-- A slot that can take a new entry. -/
def HandleSlot.Free (s : HandleSlot) : Prop := s.entry = none ∧ s.generation ≠ 0

instance (s : HandleSlot) : Decidable s.Free := inferInstanceAs (Decidable (_ ∧ _))

abbrev Op := Machine.Op CapabilityError CapabilityRegistry

namespace CapabilityRegistry

def new : CapabilityRegistry where
  nextObjectId := 1
  processes := []
  objects := []

variable (r : CapabilityRegistry) (process : ℕ)

def table : Option ProcessCapabilities :=
  Keyed.lookup ProcessCapabilities.process process r.processes

def slot (i : ℕ) : Option HandleSlot :=
  (r.table process).bind (·.slots[i]?)

def object (r : CapabilityRegistry) (object : ℕ) : Outcome CapabilityError CapabilityObject :=
  okOr (Keyed.lookup CapabilityObject.object object r.objects) .objectNotFound

def adjustSlots (f : List HandleSlot → List HandleSlot) (r : CapabilityRegistry) : CapabilityRegistry :=
  let change (table : ProcessCapabilities) := { table with slots := f table.slots }
  { r with processes := Keyed.adjust ProcessCapabilities.process process change r.processes }

def adjustSlot (i : ℕ) (f : HandleSlot → HandleSlot) : CapabilityRegistry → CapabilityRegistry :=
  adjustSlots process (·.modify i f)

/-- Some slot has an entry for the object. -/
def refersTo (object : ℕ) : Bool :=
  r.processes.any fun table => table.slots.any fun s => s.entry.any fun e => e.object = object

/-- Only objects that some entry refers to stay. -/
def collectRevokedObjects : CapabilityRegistry :=
  { r with objects := r.objects.filter fun x => r.refersTo x.object }

variable (objectType : ObjectType) (rights : Rights)

def validateRights : Outcome CapabilityError Unit :=
  rejectIf (rights = Rights.none ∨ ¬ (allowedRights objectType).Contains rights) .invalidRights

variable (handle : CapabilityHandle)

/-- The slot that the handle names. -/
def validateHandle : Outcome CapabilityError HandleSlot := do
  let table ← okOr (r.table process) .invalidProcess
  let s ← okOr table.slots[handle.slot]? .invalidHandle
  rejectIf (s.generation ≠ handle.generation) .staleHandle
  return s

def lookup : Outcome CapabilityError CapabilityMetadata := do
  let s ← r.validateHandle process handle
  let entry ← okOr s.entry .invalidHandle
  let object ← r.object entry.object
  rejectIf (object.revoked = true) .revoked
  rejectIf (object.objectType ≠ entry.objectType) .typeMismatch
  return ⟨handle, entry.object, entry.objectType, entry.rights⟩

def check (expectedType : ObjectType) (required : Rights) : Outcome CapabilityError CapabilityMetadata := do
  let metadata ← r.lookup process handle
  rejectIf (metadata.objectType ≠ expectedType) .typeMismatch
  rejectIf (¬ metadata.rights.Contains required) .rightsMissing
  return metadata

def ensureProcess : Op Unit := do
  let r ← get
  match r.table process with
  | some _ => pure ()
  | none => do
    Machine.check (rejectIf (maxCapabilityProcesses ≤ r.processes.length) .processLimit)
    modify fun r => { r with processes := r.processes ++ [⟨process, []⟩] }

def removeProcess : Op Unit := do
  let _ ← Machine.read fun r => okOr (r.table process) .invalidProcess
  modify fun r =>
    { r with processes := Keyed.remove ProcessCapabilities.process process r.processes }
  modify collectRevokedObjects

/-- The index and generation of the slot for a new entry; a slot is added when none is free. -/
def claimSlot : Op (ℕ × ℕ) := do
  let table ← Machine.read fun r => okOr (r.table process) .invalidProcess
  match table.slots.zipIdx.find? fun x => x.1.Free with
  | some (s, i) => pure (i, s.generation)
  | none => do
    Machine.check (rejectIf (maxCapabilitySlots ≤ table.slots.length) .handleLimit)
    modify (adjustSlots process (· ++ [⟨1, none⟩]))
    pure (table.slots.length, 1)

def install (object : ℕ) (objectType : ObjectType) (rights : Rights) : Op CapabilityMetadata := do
  Machine.check (validateRights objectType rights)
  let record ← Machine.read (·.object object)
  Machine.check (rejectIf (record.revoked = true) .revoked)
  Machine.check (rejectIf (record.objectType ≠ objectType) .typeMismatch)
  ensureProcess process
  let claimed ← claimSlot process
  modify (adjustSlot process claimed.1 ({ · with entry := some ⟨object, objectType, rights⟩ }))
  return ⟨⟨claimed.1 % 2 ^ 16, claimed.2⟩, object, objectType, rights⟩

def createObject : Op CapabilityMetadata := do
  Machine.check (validateRights objectType rights)
  ensureProcess process
  Machine.read fun r => rejectIf (maxCapabilityObjects ≤ r.objects.length) .objectLimit
  Machine.read fun r => rejectIf (r.nextObjectId = 0) .objectIdExhausted
  let object ← Machine.read fun r => .ok r.nextObjectId
  let next ← Machine.read fun r => okOr (checkedAdd 64 r.nextObjectId 1) .objectIdExhausted
  modify fun r =>
    { r with nextObjectId := next, objects := r.objects ++ [⟨object, objectType, false⟩] }
  onError (install process object objectType rights)
    (modify fun r => { r with objects := r.objects.dropLast })

def duplicate (source : CapabilityHandle) (requested : Rights) : Op CapabilityMetadata := do
  let metadata ← Machine.read (·.lookup process source)
  Machine.check (rejectIf (¬ metadata.rights.Contains Rights.duplicate) .rightsMissing)
  Machine.check (rejectIf (¬ metadata.rights.Contains requested) .rightsEscalation)
  install process metadata.object metadata.objectType requested

def close : Op Unit := do
  let s ← Machine.read (·.validateHandle process handle)
  Machine.check (rejectIf (s.entry = none) .invalidHandle)
  modify (adjustSlot process handle.slot HandleSlot.closed)
  modify collectRevokedObjects

/-- Moves a capability to another process: the new entry is made before the old one is closed. -/
def transfer (sourceProcess : ℕ) (source : CapabilityHandle) (targetProcess : ℕ)
    (requested : Rights) : Op CapabilityMetadata := do
  let metadata ← Machine.read (·.lookup sourceProcess source)
  Machine.check (rejectIf (¬ metadata.rights.Contains Rights.transfer) .rightsMissing)
  Machine.check (rejectIf (¬ metadata.rights.Contains requested) .rightsEscalation)
  let transferred ← install targetProcess metadata.object metadata.objectType requested
  close sourceProcess source
  return transferred

/-- Replaces the rights of an entry by fewer ones. -/
def reduce (requested : Rights) : Op CapabilityMetadata := do
  let s ← Machine.read (·.validateHandle process handle)
  let entry ← Machine.check (okOr s.entry .invalidHandle)
  Machine.check (rejectIf (¬ entry.rights.Contains requested) .rightsEscalation)
  modify (adjustSlot process handle.slot
    ({ · with entry := some { entry with rights := requested } }))
  return ⟨handle, entry.object, entry.objectType, requested⟩

def markRevoked (object : ℕ) (r : CapabilityRegistry) : CapabilityRegistry :=
  let mark (x : CapabilityObject) := { x with revoked := true }
  { r with objects := Keyed.adjust CapabilityObject.object object mark r.objects }

def revoke (object : ℕ) : Op Unit := do
  let _ ← Machine.read (·.object object)
  modify (markRevoked object)

end CapabilityRegistry

/-! ### Runs -/

inductive Operation where
  | ensureProcess (process : ℕ)
  | removeProcess (process : ℕ)
  | createObject (process : ℕ) (objectType : ObjectType) (rights : Rights)
  | duplicate (process : ℕ) (source : CapabilityHandle) (requested : Rights)
  | transfer (sourceProcess : ℕ) (source : CapabilityHandle) (targetProcess : ℕ)
      (requested : Rights)
  | reduce (process : ℕ) (handle : CapabilityHandle) (requested : Rights)
  | close (process : ℕ) (handle : CapabilityHandle)
  | revoke (object : ℕ)

open CapabilityRegistry in
/-- The call, with the metadata it returns, if any. -/
def Operation.run : Operation → Op (Option CapabilityMetadata)
  | .ensureProcess process => do
    CapabilityRegistry.ensureProcess process
    return none
  | .removeProcess process => do
    CapabilityRegistry.removeProcess process
    return none
  | .createObject process objectType rights =>
    some <$> CapabilityRegistry.createObject process objectType rights
  | .duplicate process source requested =>
    some <$> CapabilityRegistry.duplicate process source requested
  | .transfer sourceProcess source targetProcess requested =>
    some <$> CapabilityRegistry.transfer sourceProcess source targetProcess requested
  | .reduce process handle requested =>
    some <$> CapabilityRegistry.reduce process handle requested
  | .close process handle => do
    CapabilityRegistry.close process handle
    return none
  | .revoke object => do
    CapabilityRegistry.revoke object
    return none

namespace CapabilityRegistry

variable {r r' : CapabilityRegistry} {p q i j o : ℕ} {h : CapabilityHandle} {rights : Rights}
  {objectType : ObjectType} {md : CapabilityMetadata} {u : Unit}

/-! ### Slots -/

variable (f : List HandleSlot → List HandleSlot)

theorem table_adjustSlots : (adjustSlots p f r).table q =
      if q = p then (r.table p).map (fun table => { table with slots := f table.slots }) else r.table q := by
  unfold adjustSlots table
  have hf : ∀ table : ProcessCapabilities,
      ({ table with slots := f table.slots } : ProcessCapabilities).process = table.process :=
    fun _ => rfl
  split
  · next hq => rw [hq, lookup_adjust_self hf]
  · next hq => rw [lookup_adjust_ne hf hq]

@[simp] theorem isSome_table_adjustSlots : ((adjustSlots p f r).table q).isSome = (r.table q).isSome := by
  rw [table_adjustSlots]
  split
  · next hq => rw [hq, isSome_map]
  · rfl

theorem table_adjustSlot_none {f : HandleSlot → HandleSlot} (h : r.table q = none) :
    (adjustSlot p i f r).table q = none := by
  rw [← isNone_iff_eq_none, ← not_isSome, adjustSlot, isSome_table_adjustSlots, h]
  rfl

theorem processes_adjustSlots : (adjustSlots p f r).processes.map ProcessCapabilities.process =
      r.processes.map ProcessCapabilities.process := map_key_adjust fun _ => rfl

theorem slot_of_table_none (h : r.table p = none) : r.slot p i = none := by
  rw [slot, h, bind_none]

/-- A change of one slot changes no other. -/
theorem slot_adjustSlot (f : HandleSlot → HandleSlot) : (adjustSlot p i f r).slot q j =
      if q = p ∧ j = i then (r.slot p i).map f else r.slot q j := by
  rw [slot, adjustSlot, table_adjustSlots]
  by_cases hq : q = p
  · subst hq
    cases ht : r.table q with
    | none => simp [slot, ht]
    | some =>
      by_cases hj : j = i
      · subst hj
        simp [slot, ht]
      · have hij : i ≠ j := fun h => hj h.symm
        simp [slot, ht, hj, hij]
  · simp [hq, slot]

theorem refersTo_iff (hnodup : (r.processes.map ProcessCapabilities.process).Nodup) :
    r.refersTo o = true ↔ ∃ p i x e, r.slot p i = some x ∧ x.entry = some e ∧ e.object = o := by
  simp only [refersTo, List.any_eq_true, any_eq_true, decide_eq_true_eq]
  constructor
  · rintro ⟨table, htable, x, hx, e, he, ho⟩
    obtain ⟨i, hi⟩ := List.getElem?_of_mem hx
    refine ⟨table.process, i, x, e, ?_, he, ho⟩
    rw [slot, CapabilityRegistry.table, lookup_of_mem hnodup htable, bind_some, hi]
  · rintro ⟨p, i, x, e, hslot, he, ho⟩
    obtain ⟨table, htable, hx⟩ := bind_eq_some_iff.1 hslot
    exact ⟨table, mem_of_lookup htable, x, List.mem_of_getElem? hx, e, he, ho⟩

variable {x : HandleSlot} {requested : Rights} {e : CapabilityEntry}

theorem validateHandle_ok :
    r.validateHandle p h = .ok x ↔ r.slot p h.slot = some x ∧ x.generation = h.generation := by
  simp only [validateHandle, run_eq_ok, not_not, slot, bind_eq_some_iff]
  constructor
  · rintro ⟨table, htable, y, hy, hgeneration, rfl⟩
    exact ⟨⟨table, htable, hy⟩, hgeneration⟩
  · rintro ⟨⟨table, htable, hx⟩, hgeneration⟩
    exact ⟨table, htable, x, hx, hgeneration, rfl⟩

theorem lookup_ok (hok : r.lookup p h = .ok md) :
    ∃ x e record, r.slot p h.slot = some x ∧ x.generation = h.generation ∧ x.entry = some e ∧
      Keyed.lookup CapabilityObject.object e.object r.objects = some record ∧
      record.revoked = false ∧ md = ⟨h, e.object, e.objectType, e.rights⟩ := by
  simp only [lookup, run_eq_ok, validateHandle_ok, object] at hok
  obtain ⟨x, ⟨hx, hgeneration⟩, e, he, record, hrecord, hrevoked, -, rfl⟩ := hok
  exact ⟨x, e, record, hx, hgeneration, he, hrecord, by simpa using hrevoked, rfl⟩

/-! ### Registering a process -/

/-- The second registry has the entries and objects of the first, and perhaps the given process in
addition. -/
structure Alike (p : ℕ) (r r' : CapabilityRegistry) : Prop where
  objects : r'.objects = r.objects
  next : r.nextObjectId ≤ r'.nextObjectId
  slots : ∀ q i, r'.slot q i = r.slot q i
  tables : ∀ q, (r'.table q).isSome → (r.table q).isSome ∨ q = p
  processes : (r.processes.map ProcessCapabilities.process).Nodup →
    (r'.processes.map ProcessCapabilities.process).Nodup

theorem Alike.refl (p : ℕ) (r : CapabilityRegistry) : Alike p r r where
  objects := rfl
  next := le_rfl
  slots := fun _ _ => rfl
  tables := fun _ h => .inl h
  processes := id

theorem Alike.trans {r1 r2 r3 : CapabilityRegistry} (h12 : Alike p r1 r2) (h23 : Alike p r2 r3) :
    Alike p r1 r3 where
  objects := h23.objects.trans h12.objects
  next := h12.next.trans h23.next
  slots := fun q i => (h23.slots q i).trans (h12.slots q i)
  tables := fun q h => (h23.tables q h).elim (h12.tables q) .inr
  processes := fun h => h23.processes (h12.processes h)

theorem atomic_ensureProcess (p : ℕ) : Atomic (ensureProcess p) := by
  refine .get_bind fun r => ?_
  split
  · exact total_return.atomic
  · exact .check_bind fun _ => total_modify.atomic

theorem ensureProcess_ok (hok : ensureProcess p r = .ok u r') :
    Alike p r r' ∧ (r'.table p).isSome ∧ r'.nextObjectId = r.nextObjectId := by
  simp only [ensureProcess, bind_ok, get_ok] at hok
  obtain ⟨r0, _, ⟨hr, rfl⟩, hok⟩ := hok
  cases htable : r0.table p with
  | some =>
    simp only [htable, return_ok] at hok
    rw [hok.2, ← hr]
    exact ⟨.refl p r0, by simp [htable], rfl⟩
  | none =>
    simp only [htable, op_ok] at hok
    obtain ⟨_, _, ⟨-, rfl⟩, rfl⟩ := hok
    subst hr
    have hnew : ∀ q, table { r0 with processes := r0.processes ++ [⟨p, []⟩] } q =
        if q = p then some ⟨p, []⟩ else r0.table q := by
      intro q
      rw [table, lookup_append]
      split
      · next hq =>
          rw [hq, ← table, htable]
          simp [lookup_cons]
      · next hq =>
          have hp : ¬ p = q := fun h => hq h.symm
          simp [lookup_cons, hp, table]
    refine ⟨⟨rfl, le_rfl, ?_, ?_, ?_⟩, by rw [hnew]; simp, rfl⟩
    · intro q i
      rw [slot, hnew]
      split
      · next hq => simp [hq, slot_of_table_none htable]
      · rfl
    · intro q hq
      rw [hnew] at hq
      split at hq
      · next h => exact .inr h
      · exact .inl hq
    · intro hnodup
      exact nodup_map_concat hnodup (lookup_eq_none.1 htable)

/-! ### New entries -/

/-- The slot that was claimed: it is empty and its generation is in use. -/
theorem claimSlot_ok (hok : claimSlot p r = .ok (i, j) r') :
    r'.objects = r.objects ∧ r'.nextObjectId = r.nextObjectId ∧
      (∀ q, (r'.table q).isSome = (r.table q).isSome) ∧ r'.processes.map ProcessCapabilities.process =
        r.processes.map ProcessCapabilities.process ∧ r'.slot p i = some ⟨j, none⟩ ∧ j ≠ 0 ∧
      (r.slot p i = some ⟨j, none⟩ ∨ r.slot p i = none ∧ j = 1 ∧ i < maxCapabilitySlots) ∧
      ∀ q k, ¬ (q = p ∧ k = i) → r'.slot q k = r.slot q k := by
  simp only [claimSlot, op_ok, okOr_eq_ok] at hok
  obtain ⟨table, r, ⟨htable, rfl⟩, hok⟩ := hok
  cases hfree : table.slots.zipIdx.find? fun x => x.1.Free with
  | some found =>
    obtain ⟨x, k⟩ := found
    simp only [hfree] at hok
    obtain ⟨⟨rfl, rfl⟩, rfl⟩ := hok
    have hx : table.slots[i]? = some x := List.mk_mem_zipIdx_iff_getElem?.1 (List.mem_of_find?_eq_some hfree)
    obtain ⟨hempty, hgeneration⟩ : x.Free := by simpa using List.find?_some hfree
    have hslot : r'.slot p i = some ⟨x.generation, none⟩ := by
      rw [slot, htable, bind_some, hx, ← hempty]
    exact ⟨rfl, rfl, fun _ => rfl, rfl, hslot, hgeneration, .inl hslot, fun _ _ _ => rfl⟩
  | none =>
    simp only [hfree, op_ok, rejectIf_eq_ok] at hok
    obtain ⟨_, r, ⟨hroom, rfl⟩, _, _, rfl, ⟨rfl, rfl⟩, rfl⟩ := hok
    have hslot : ∀ q k, (adjustSlots p (· ++ [⟨1, none⟩]) r).slot q k =
        if q = p then (table.slots ++ [⟨1, none⟩])[k]? else r.slot q k := by
      intro q k
      rw [slot, table_adjustSlots]
      split
      · rw [htable, map_some, bind_some]
      · rfl
    refine ⟨rfl, rfl, fun _ => isSome_table_adjustSlots _, processes_adjustSlots _, ?_, by decide,
      .inr ⟨?_, rfl, Nat.not_le.1 hroom⟩, ?_⟩
    · rw [hslot, if_pos rfl, List.getElem?_concat_length]
    · rw [slot, htable, bind_some, List.getElem?_eq_none le_rfl]
    · intro q k hne
      rw [hslot]
      split
      · next hq =>
          rw [slot, hq, htable, bind_some]
          by_cases hk : k < table.slots.length
          · rw [List.getElem?_append_left hk]
          · have hk' : table.slots.length < k := by
              refine lt_of_le_of_ne (Nat.not_lt.1 hk) fun h => hne ⟨hq, h.symm⟩
            rw [List.getElem?_eq_none (Nat.not_lt.1 hk), List.getElem?_eq_none]
            rw [List.length_append]
            exact hk'
      · rfl

theorem atomic_claimSlot (p : ℕ) : Atomic (claimSlot p) := by
  refine .read_bind fun table => ?_
  split
  · exact total_return.atomic
  · exact .check_bind fun _ => (total_modify.bind fun _ => total_return).atomic

/-- A new entry for an object that is not revoked has been put into a slot. -/
structure Installed (p o : ℕ) (objectType : ObjectType) (rights : Rights)
    (md : CapabilityMetadata) (r r' : CapabilityRegistry) : Prop where
  valid : rights ≠ Rights.none
  record : ∃ x, Keyed.lookup CapabilityObject.object o r.objects = some x ∧ x.revoked = false
  objects : r'.objects = r.objects
  next : r'.nextObjectId = r.nextObjectId
  tables : ∀ q, (r'.table q).isSome → (r.table q).isSome ∨ q = p
  processes : (r.processes.map ProcessCapabilities.process).Nodup →
    (r'.processes.map ProcessCapabilities.process).Nodup
  object : md.object = o
  slots : ∃ i g, g ≠ 0 ∧ (r.slot p i = some ⟨g, none⟩ ∨ r.slot p i = none ∧ g = 1 ∧ i < maxCapabilitySlots) ∧
    ∀ q k, r'.slot q k = if q = p ∧ k = i then some ⟨g, some ⟨o, objectType, rights⟩⟩
      else r.slot q k

theorem install_ok (hok : install p o objectType rights r = .ok md r') :
    Installed p o objectType rights md r r' := by
  simp only [install, op_ok, validateRights, rejectIf_eq_ok, object, okOr_eq_ok, not_or] at hok
  obtain ⟨_, r, ⟨⟨hvalid, -⟩, rfl⟩, x, _, ⟨hx, rfl⟩, _, _, ⟨hrevoked, rfl⟩, _, _, ⟨-, rfl⟩, _, r1,
    hensure, ⟨i, g⟩, r2, hclaim, _, _, rfl, rfl, rfl⟩ := hok
  obtain ⟨halike, -, hnext⟩ := ensureProcess_ok hensure
  obtain ⟨hobjects, hnext2, htables, hprocesses, hslot, hg, hold, hother⟩ := claimSlot_ok hclaim
  refine ⟨hvalid, ⟨x, hx, by simpa using hrevoked⟩, hobjects.trans halike.objects,
    hnext2.trans hnext, ?_, ?_, rfl, i, g, hg, ?_, ?_⟩
  · intro q hq
    rw [adjustSlot, isSome_table_adjustSlots, htables] at hq
    exact halike.tables q hq
  · intro hnodup
    rw [adjustSlot, processes_adjustSlots, hprocesses]
    exact halike.processes hnodup
  · rw [← halike.slots]
    exact hold
  · intro q k
    rw [slot_adjustSlot, hslot]
    split
    · rfl
    · next hne => rw [hother q k hne, halike.slots]

theorem failsWithin_install (p o : ℕ) (objectType : ObjectType) (rights : Rights) :
    FailsWithin (Alike p) (install p o objectType rights) := by
  refine .check_bind (.refl p) fun _ => .read_bind (.refl p) fun _ => ?_
  refine .check_bind (.refl p) fun _ => .check_bind (.refl p) fun _ => ?_
  refine .bind (fun _ _ _ h1 h2 => h1.trans h2) ((atomic_ensureProcess p).failsWithin (.refl p))
    (fun _ _ _ hok => (ensureProcess_ok hok).1) fun _ => ?_
  refine ((atomic_claimSlot p).failsWithin (.refl p)).bind_total fun _ => ?_
  exact total_modify.bind fun _ => total_return

/-! ### The other operations -/

theorem createObject_ok (hok : createObject p objectType rights r = .ok md r') :
    ∃ r1, Alike p r r1 ∧ r1.nextObjectId = r.nextObjectId ∧ Installed p r.nextObjectId objectType rights md
        { r1 with nextObjectId := r.nextObjectId + 1
                  objects := r.objects ++ [⟨r.nextObjectId, objectType, false⟩] } r' := by
  simp only [createObject, op_ok, okOr_eq_ok, checkedAdd_eq_some, Except.ok.injEq, onError_ok] at hok
  obtain ⟨_, r, ⟨-, rfl⟩, _, r1, hensure, _, _, ⟨-, rfl⟩, _, _, ⟨-, rfl⟩, o, _, ⟨rfl, rfl⟩, n, r1,
    ⟨⟨-, rfl⟩, rfl⟩, _, _, rfl, hinstall⟩ := hok
  obtain ⟨halike, -, hnext⟩ := ensureProcess_ok hensure
  rw [hnext, halike.objects] at hinstall
  exact ⟨r1, halike, hnext, install_ok hinstall⟩

theorem failsWithin_createObject (p : ℕ) (objectType : ObjectType) (rights : Rights) :
    FailsWithin (Alike p) (createObject p objectType rights) := by
  refine .check_bind (.refl p) fun _ => ?_
  refine .bind (fun _ _ _ h1 h2 => h1.trans h2)
    ((atomic_ensureProcess p).failsWithin (.refl p))
    (fun _ _ _ hok => (ensureProcess_ok hok).1) fun _ => ?_
  refine .read_bind (.refl p) fun _ => .read_bind (.refl p) fun _ => ?_
  refine .read_bind (.refl p) fun o => ?_
  -- the new object is taken back when its first entry cannot be made
  intro s e s' herror
  rcases bind_error.1 herror with hfail | ⟨next, r, hread, herror1⟩
  · exact FailsWithin.read (Alike.refl p) _ s e s' hfail
  obtain ⟨hnext, rfl⟩ := read_ok.1 hread
  rcases bind_error.1 herror1 with hfail | ⟨_, r1, hmodify, herror2⟩
  · exact absurd hfail modify_error
  obtain ⟨r2, hinstall, rfl⟩ := onError_error.1 herror2
  have hpushed := modify_ok.1 hmodify
  have halike := failsWithin_install p o objectType rights _ e r2 hinstall
  rw [hpushed] at halike
  refine ⟨?_, ?_, halike.slots, halike.tables, halike.processes⟩
  · change r2.objects.dropLast = r.objects
    rw [halike.objects, List.dropLast_concat]
  · have hgrows : r.nextObjectId ≤ next := by
      rw [okOr_eq_ok, checkedAdd_eq_some] at hnext
      omega
    exact hgrows.trans halike.next

theorem duplicate_ok (hok : duplicate p h requested r = .ok md r') :
    ∃ md0, r.lookup p h = .ok md0 ∧ md0.rights.Contains requested ∧
      Installed p md0.object md0.objectType requested md r r' := by
  simp only [duplicate, op_ok, rejectIf_eq_ok, not_not] at hok
  obtain ⟨md0, _, ⟨hlookup, rfl⟩, _, _, ⟨-, rfl⟩, _, _, ⟨hcontains, rfl⟩, hinstall⟩ := hok
  exact ⟨md0, hlookup, hcontains, install_ok hinstall⟩

/-- The process of a duplication that gets as far as making an entry is registered already. -/
theorem failsWithin_duplicate (p : ℕ) (h : CapabilityHandle) (requested : Rights) :
    FailsWithin (fun r r' => r' = r ∨ (r.table p).isSome ∧ Alike p r r') (duplicate p h requested) := by
  intro r e r' herror
  rcases bind_error.1 herror with hfail | ⟨md0, _, hread, herror1⟩
  · exact .inl (read_error.1 hfail).2
  obtain ⟨hlookup, rfl⟩ := read_ok.1 hread
  obtain ⟨x, _, _, hx, -⟩ := lookup_ok hlookup
  obtain ⟨table, htable, -⟩ := bind_eq_some_iff.1 hx
  refine .inr ⟨by rw [htable]; rfl, ?_⟩
  have hrest : FailsWithin (Alike p) (do
      Machine.check (rejectIf (¬ md0.rights.Contains Rights.duplicate) .rightsMissing)
      Machine.check (rejectIf (¬ md0.rights.Contains requested) .rightsEscalation)
      install p md0.object md0.objectType requested) :=
    .check_bind (.refl p) fun _ => .check_bind (.refl p) fun _ =>
      failsWithin_install _ _ _ _
  exact hrest _ e r' herror1

theorem close_ok (hok : close p h r = .ok u r') :
    ∃ x e, r.slot p h.slot = some x ∧ x.generation = h.generation ∧ x.entry = some e ∧
      r' = (adjustSlot p h.slot HandleSlot.closed r).collectRevokedObjects := by
  simp only [close, op_ok, rejectIf_eq_ok, validateHandle_ok] at hok
  obtain ⟨x, r, ⟨⟨hx, hgeneration⟩, rfl⟩, _, _, ⟨hentry, rfl⟩, _, _, rfl, rfl⟩ := hok
  obtain ⟨e, he⟩ := ne_none_iff_exists'.1 hentry
  exact ⟨x, e, hx, hgeneration, he, rfl⟩

theorem close_of_entry (hx : r.slot p h.slot = some x) (hgeneration : x.generation = h.generation)
    (he : x.entry = some e) :
    close p h r = .ok () (adjustSlot p h.slot HandleSlot.closed r).collectRevokedObjects := by
  simp only [close, op_ok, validateHandle_ok]
  exact ⟨x, r, ⟨⟨hx, hgeneration⟩, rfl⟩, (), r, ⟨by simp [he], rfl⟩, (), _, rfl, rfl⟩

theorem atomic_close (p : ℕ) (h : CapabilityHandle) : Atomic (close p h) := by
  refine .read_bind fun _ => .check_bind fun _ => ?_
  exact (total_modify.bind fun _ => total_modify).atomic

/-- An entry of a process stays where it is while another one is made. -/
theorem Installed.slot_of_entry (hi : Installed q o objectType rights md r r')
    (hx : r.slot p i = some x) (he : x.entry = some e) : r'.slot p i = some x := by
  obtain ⟨j, g, -, hold, hslots⟩ := hi.slots
  rw [hslots, if_neg, hx]
  rintro ⟨rfl, rfl⟩
  rcases hold with hold | ⟨hold, -⟩
  · rw [hx] at hold
    rw [some.inj hold] at he
    simp at he
  · rw [hx] at hold
    simp at hold

theorem transfer_ok (hok : transfer p h q requested r = .ok md r') :
    ∃ md0 r1, r.lookup p h = .ok md0 ∧ md0.rights.Contains requested ∧
      Installed q md0.object md0.objectType requested md r r1 ∧ close p h r1 = .ok () r' := by
  simp only [transfer, op_ok, rejectIf_eq_ok, not_not] at hok
  obtain ⟨md0, _, ⟨hlookup, rfl⟩, _, _, ⟨-, rfl⟩, _, _, ⟨hcontains, rfl⟩, md, r1, hinstall, _, _,
    hclose, rfl, rfl⟩ := hok
  exact ⟨md0, r1, hlookup, hcontains, install_ok hinstall, hclose⟩

/-- After the new entry has been made, closing the old one succeeds. -/
theorem failsWithin_transfer (p : ℕ) (h : CapabilityHandle) (q : ℕ) (requested : Rights) :
    FailsWithin (Alike q) (transfer p h q requested) := by
  intro r e r' herror
  rcases bind_error.1 herror with hfail | ⟨md0, _, hread, herror1⟩
  · exact FailsWithin.read (Alike.refl q) _ r e r' hfail
  obtain ⟨hlookup, rfl⟩ := read_ok.1 hread
  rcases bind_error.1 herror1 with hfail | ⟨_, _, hcheck, herror2⟩
  · exact FailsWithin.check (Alike.refl q) _ _ e r' hfail
  obtain ⟨-, rfl⟩ := check_ok.1 hcheck
  rcases bind_error.1 herror2 with hfail | ⟨_, _, hcheck, herror3⟩
  · exact FailsWithin.check (Alike.refl q) _ _ e r' hfail
  obtain ⟨-, rfl⟩ := check_ok.1 hcheck
  rcases bind_error.1 herror3 with hfail | ⟨md, r1, hinstall, herror4⟩
  · exact failsWithin_install _ _ _ _ _ e r' hfail
  obtain ⟨x, entry, record, hx, hgeneration, hentry, -⟩ := lookup_ok hlookup
  have hx1 := (install_ok hinstall).slot_of_entry hx hentry
  rcases bind_error.1 herror4 with hfail | ⟨_, _, -, hfail⟩
  · rw [close_of_entry hx1 hgeneration hentry] at hfail
    simp at hfail
  · exact absurd hfail return_error

theorem reduce_ok (hok : reduce p h requested r = .ok md r') :
    ∃ x e, r.slot p h.slot = some x ∧ x.generation = h.generation ∧ x.entry = some e ∧
      e.rights.Contains requested ∧ md.object = e.object ∧ r' = adjustSlot p h.slot
        ({ · with entry := some { e with rights := requested } }) r := by
  simp only [reduce, op_ok, rejectIf_eq_ok, okOr_eq_ok, validateHandle_ok, not_not] at hok
  obtain ⟨x, _, ⟨⟨hx, hgeneration⟩, rfl⟩, e, _, ⟨he, rfl⟩, _, _, ⟨hcontains, rfl⟩, _, _, rfl, rfl, rfl⟩ := hok
  exact ⟨x, e, hx, hgeneration, he, hcontains, rfl, rfl⟩

theorem atomic_reduce (p : ℕ) (h : CapabilityHandle) (requested : Rights) :
    Atomic (reduce p h requested) := by
  refine .read_bind fun _ => .check_bind fun _ => .check_bind fun _ => ?_
  exact (total_modify.bind fun _ => total_return).atomic

theorem revoke_ok (hok : revoke o r = .ok u r') :
    o ∈ r.objects.map CapabilityObject.object ∧ r' = markRevoked o r := by
  simp only [revoke, op_ok, object, okOr_eq_ok] at hok
  obtain ⟨x, _, ⟨hx, rfl⟩, rfl⟩ := hok
  exact ⟨lookup_isSome.1 (by rw [hx]; rfl), rfl⟩

theorem atomic_revoke (o : ℕ) : Atomic (revoke o) := .read_bind fun _ => total_modify.atomic

theorem removeProcess_ok (hok : removeProcess p r = .ok u r') : r' = collectRevokedObjects
      { r with processes := remove ProcessCapabilities.process p r.processes } := by
  simp only [removeProcess, op_ok] at hok
  obtain ⟨x, _, ⟨-, rfl⟩, _, _, rfl, rfl⟩ := hok
  rfl

theorem atomic_removeProcess (p : ℕ) : Atomic (removeProcess p) := by
  refine .read_bind fun _ => ?_
  exact (total_modify.bind fun _ => total_modify).atomic

/-! ### The invariant -/

/-- Some entry is for the object. -/
def Refers (r : CapabilityRegistry) (o : ℕ) : Prop :=
  ∃ p i x e, r.slot p i = some x ∧ x.entry = some e ∧ e.object = o

/-- What holds of the registry in every run. -/
structure Sound (r : CapabilityRegistry) : Prop where
  processes : (r.processes.map ProcessCapabilities.process).Nodup
  bounded : ∀ p i x, r.slot p i = some x →
    i < maxCapabilitySlots ∧ x.generation < 2 ^ 32 ∧ (x.entry ≠ none → x.generation ≠ 0)
  objects : (r.objects.map CapabilityObject.object).Nodup
  below : ∀ x ∈ r.objects, x.object < r.nextObjectId
  listed : ∀ o, o ∈ r.objects.map CapabilityObject.object ↔ r.Refers o

theorem sound_new : Sound new where
  processes := List.nodup_nil
  bounded := by simp [new, slot, table]
  objects := List.nodup_nil
  below := by simp [new]
  listed := by simp [new, Refers, slot, table]

theorem nextGeneration_lt (g : ℕ) : nextGeneration g < 2 ^ 32 := by
  unfold nextGeneration checkedAdd
  split
  · next h => simpa using h
  · simp

theorem nextGeneration_cases (g : ℕ) : nextGeneration g = 0 ∨ g < nextGeneration g := by
  unfold nextGeneration checkedAdd
  split
  · exact .inr (by simp)
  · exact .inl (by simp)

namespace Sound

theorem alike (h : Sound r) (ha : Alike p r r') : Sound r' where
  processes := ha.processes h.processes
  bounded := fun q i x hx => h.bounded q i x (ha.slots q i ▸ hx)
  objects := ha.objects ▸ h.objects
  below := fun x hx => (h.below x (ha.objects ▸ hx)).trans_le ha.next
  listed := fun o => by
    simp only [ha.objects, h.listed o, Refers, ha.slots]

/-- Collecting objects after a change of the slots that made no entry for a new object. -/
theorem collect (h : Sound r) (hobjects : r'.objects = r.objects)
    (hnext : r'.nextObjectId = r.nextObjectId)
    (hprocesses : (r'.processes.map ProcessCapabilities.process).Nodup)
    (hbounded : ∀ p i x, r'.slot p i = some x →
      i < maxCapabilitySlots ∧ x.generation < 2 ^ 32 ∧ (x.entry ≠ none → x.generation ≠ 0))
    (hrefers : ∀ o, r'.Refers o → r.Refers o) : Sound r'.collectRevokedObjects where
  processes := hprocesses
  bounded := hbounded
  objects := by
    change ((r'.objects.filter _).map CapabilityObject.object).Nodup
    rw [hobjects]
    exact h.objects.sublist (List.filter_sublist.map _)
  below := fun x hx => by
    change x.object < r'.nextObjectId
    rw [hnext]
    exact h.below x (hobjects ▸ List.mem_of_mem_filter hx)
  listed := fun o => by
    rw [List.mem_map]
    constructor
    · rintro ⟨x, hx, rfl⟩
      exact (refersTo_iff hprocesses).1 (List.mem_filter.1 hx).2
    · intro ho
      obtain ⟨x, hx, rfl⟩ := List.mem_map.1 ((h.listed o).2 (hrefers o ho))
      exact ⟨x, List.mem_filter.2 ⟨hobjects ▸ hx, (refersTo_iff hprocesses).2 ho⟩, rfl⟩

variable {r1 : CapabilityRegistry} {handle : CapabilityHandle}

/-- A new entry, for an object that is listed afterwards. -/
theorem installed (h : Sound r) (hslots : ∀ q i, r1.slot q i = r.slot q i)
    (hprocesses : (r1.processes.map ProcessCapabilities.process).Nodup)
    (hobjects : (r1.objects.map CapabilityObject.object).Nodup)
    (hbelow : ∀ x ∈ r1.objects, x.object < r1.nextObjectId)
    (hlisted : ∀ o', o' ∈ r1.objects.map CapabilityObject.object ↔ r.Refers o' ∨ o' = o)
    (hi : Installed p o objectType rights md r1 r') : Sound r' := by
  obtain ⟨i, g, hg, hold, hnew⟩ := hi.slots
  rw [hslots] at hold
  simp only [hslots] at hnew
  constructor
  case processes => exact hi.processes hprocesses
  case bounded =>
    intro q k x hx
    rw [hnew] at hx
    split at hx
    · next hqk =>
        obtain ⟨rfl, rfl⟩ := hqk
        cases hx
        rcases hold with hold | ⟨-, rfl, hroom⟩
        · obtain ⟨hk, hlt, -⟩ := h.bounded _ _ _ hold
          exact ⟨hk, hlt, fun _ => hg⟩
        · exact ⟨hroom, by norm_num, fun _ => hg⟩
    · exact h.bounded q k x hx
  case objects => exact hi.objects ▸ hobjects
  case below =>
    rw [hi.objects, hi.next]
    exact hbelow
  case listed =>
    intro o'
    rw [hi.objects, hlisted]
    constructor
    · rintro (⟨q, k, x, e, hx, he, ho⟩ | rfl)
      · refine ⟨q, k, x, e, ?_, he, ho⟩
        exact hi.slot_of_entry ((hslots q k).trans hx) he
      · refine ⟨p, i, ⟨g, some ⟨o', objectType, rights⟩⟩, ⟨o', objectType, rights⟩, ?_, rfl, rfl⟩
        rw [hnew, if_pos ⟨rfl, rfl⟩]
    · rintro ⟨q, k, x, e, hx, he, ho⟩
      rw [hnew] at hx
      split at hx
      · cases hx
        cases he
        exact .inr ho.symm
      · exact .inl ⟨q, k, x, e, hx, he, ho⟩

theorem install (h : Sound r) (hi : Installed p o objectType rights md r r') : Sound r' := by
  obtain ⟨x, hx, -⟩ := hi.record
  have ho : r.Refers o := (h.listed o).1 (lookup_isSome.1 (by rw [hx]; rfl))
  refine h.installed (fun _ _ => rfl) h.processes h.objects h.below (fun o' => ?_) hi
  rw [h.listed]
  constructor
  · exact .inl
  · rintro (ho' | rfl)
    · exact ho'
    · exact ho

theorem create (h : Sound r) (ha : Alike p r r1)
    (hi : Installed p r.nextObjectId objectType rights md
      { r1 with nextObjectId := r.nextObjectId + 1
                objects := r.objects ++ [⟨r.nextObjectId, objectType, false⟩] } r') : Sound r' := by
  refine h.installed ?_ ?_ ?_ ?_ ?_ hi
  · exact ha.slots
  · exact ha.processes h.processes
  · refine nodup_map_concat h.objects fun ho => ?_
    obtain ⟨x, hx, heq⟩ := List.mem_map.1 ho
    exact (h.below x hx).ne heq
  · exact List.forall_mem_append.2 ⟨fun x hx => (h.below x hx).trans (Nat.lt_succ_self _),
      List.forall_mem_singleton.2 (Nat.lt_succ_self _)⟩
  · intro o
    rw [List.map_append, List.mem_append, h.listed, List.map_singleton, List.mem_singleton]

theorem close (h : Sound r) (hok : close q handle r = .ok u r') : Sound r' := by
  obtain ⟨x, e, hx, hgeneration, he, rfl⟩ := close_ok hok
  refine h.collect rfl rfl ((processes_adjustSlots _).symm ▸ h.processes) ?_ ?_
  · intro p i y hy
    rw [slot_adjustSlot, hx] at hy
    split at hy
    · next hpi =>
        obtain ⟨rfl, rfl⟩ := hpi
        cases hy
        exact ⟨(h.bounded _ _ _ hx).1, nextGeneration_lt _, absurd rfl⟩
    · exact h.bounded p i y hy
  · rintro o ⟨p, i, y, e', hy, he', ho⟩
    rw [slot_adjustSlot, hx] at hy
    split at hy
    · cases hy
      exact absurd he' (by simp [HandleSlot.closed])
    · exact ⟨p, i, y, e', hy, he', ho⟩

theorem slot_remove (h : Sound r) :
    slot { r with processes := remove ProcessCapabilities.process p r.processes } q i =
      if q = p then none else r.slot q i := by
  rw [slot, table, lookup_remove h.processes]
  split
  · rfl
  · rfl

theorem remove (h : Sound r) (hok : removeProcess p r = .ok u r') : Sound r' := by
  rw [removeProcess_ok hok]
  refine h.collect rfl rfl (nodup_map_remove h.processes) ?_ ?_
  · intro q i x hx
    rw [h.slot_remove] at hx
    split at hx
    · simp at hx
    · exact h.bounded q i x hx
  · rintro o ⟨q, i, x, e, hx, he, ho⟩
    rw [h.slot_remove] at hx
    split at hx
    · simp at hx
    · exact ⟨q, i, x, e, hx, he, ho⟩

theorem reduce (h : Sound r) {requested : Rights} (hok : reduce p handle requested r = .ok md r') :
    Sound r' := by
  obtain ⟨x, e, hx, -, he, -, -, rfl⟩ := reduce_ok hok
  have hslots := fun q k => slot_adjustSlot (r := r) (p := p) (i := handle.slot) (q := q) (j := k)
  constructor
  case processes => exact (processes_adjustSlots _).symm ▸ h.processes
  case bounded =>
    intro q k y hy
    rw [hslots, hx] at hy
    split at hy
    · next hqk =>
        obtain ⟨rfl, rfl⟩ := hqk
        cases hy
        obtain ⟨hk, hlt, hne⟩ := h.bounded _ _ _ hx
        exact ⟨hk, hlt, fun _ => hne (by simp [he])⟩
    · exact h.bounded q k y hy
  case objects => exact h.objects
  case below => exact h.below
  case listed =>
    intro o
    change o ∈ r.objects.map CapabilityObject.object ↔ _
    rw [h.listed]
    simp only [Refers, hslots, hx]
    constructor
    · rintro ⟨q, k, y, e', hy, he', ho⟩
      by_cases hqk : q = p ∧ k = handle.slot
      · obtain ⟨rfl, rfl⟩ := hqk
        rw [hx] at hy
        cases hy
        rw [he] at he'
        cases he'
        exact ⟨q, handle.slot, { x with entry := some { e with rights := requested } },
          { e with rights := requested }, by rw [if_pos ⟨rfl, rfl⟩]; rfl, rfl, ho⟩
      · exact ⟨q, k, y, e', by rw [if_neg hqk]; exact hy, he', ho⟩
    · rintro ⟨q, k, y, e', hy, he', ho⟩
      split at hy
      · cases hy
        cases he'
        exact ⟨p, handle.slot, x, e, hx, he, ho⟩
      · exact ⟨q, k, y, e', hy, he', ho⟩

theorem revoke (h : Sound r) (hok : revoke o r = .ok u r') : Sound r' := by
  obtain ⟨-, rfl⟩ := revoke_ok hok
  have hkeys : (markRevoked o r).objects.map CapabilityObject.object =
      r.objects.map CapabilityObject.object := map_key_adjust fun _ => rfl
  constructor
  case processes => exact h.processes
  case bounded => exact h.bounded
  case objects => exact hkeys ▸ h.objects
  case below =>
    intro x hx
    have hx' : x.object ∈ r.objects.map CapabilityObject.object := hkeys ▸ List.mem_map_of_mem hx
    obtain ⟨y, hy, hyx⟩ := List.mem_map.1 hx'
    exact hyx ▸ h.below y hy
  case listed =>
    intro o'
    rw [hkeys, h.listed]
    rfl

end Sound

end CapabilityRegistry

end Authority
