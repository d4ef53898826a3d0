/-
**Address spaces and copy-on-write.**

The kernel's table of address spaces, with the frames they map and the number of references to each
frame.  An address space is cloned by sharing its frames; the writable mappings of both copies become
copy-on-write, and a write fault replaces the shared frame by a new one.

A frame may have more than one record, because allocating a frame does not look for an old record of
its number.  So the table does not count references exactly; what it keeps is that the records of a
frame together count at least its mappings (`WellFormed.counted`),
and this is what makes cloning all-or-nothing.

* `VirtualPage`, `PhysicalFrame`, `PagePermissions`, `Mapping`;
* `AddressSpaceTable` and its operations;
* `atomic_map` and its companions — calls that change nothing when they
  fail;
* `WellFormed.map` and its companions — every call keeps the invariant, and
  what it does to the mappings.
-/

import NullStar.Keyed
import NullStar.Machine

set_option autoImplicit false

namespace Memory

open Rust Machine Option Keyed List

/-! ### Pages, frames and permissions -/

def pageSize : ℕ := 4096
def userVirtualStart : ℕ := pageSize
def userVirtualEnd : ℕ := 0x800000000000
def maxAddressSpaces : ℕ := 64
def maxMappingsPerSpace : ℕ := 512
def maxPhysicalFrames : ℕ := 2048
def maxFrameNumber : ℕ := (2 ^ 64 - 1) / pageSize

/-- Addition of 64-bit numbers that stops at the largest one. -/
def saturatingSucc (n : ℕ) : ℕ := min (n + 1) (2 ^ 64 - 1)

structure AddressSpaceId where
  raw : ℕ
  ne_zero : raw ≠ 0
  deriving DecidableEq

def AddressSpaceId.fromRaw (raw : ℕ) : Option AddressSpaceId :=
  if h : raw = 0 then none else some ⟨raw, h⟩

/-- A page of the user part of an address space. -/
structure VirtualPage where
  raw : ℕ
  ne_zero : raw ≠ 0
  lt_end : raw < userVirtualEnd / pageSize
  deriving DecidableEq

structure PhysicalFrame where
  raw : ℕ
  ne_zero : raw ≠ 0
  le_max : raw ≤ maxFrameNumber
  deriving DecidableEq

def PhysicalFrame.fromRaw (raw : ℕ) : Option PhysicalFrame :=
  if h : raw = 0 ∨ maxFrameNumber < raw then none
  else some ⟨raw, fun h0 => h (.inl h0), Nat.not_lt.1 fun hm => h (.inr hm)⟩

theorem PhysicalFrame.raw_of_fromRaw {raw : ℕ} {f : PhysicalFrame} (h : fromRaw raw = some f) :
    f.raw = raw := by
  unfold fromRaw at h
  split at h
  · simp at h
  · rw [← some.inj h]

/-- The three permission bits. -/
structure PagePermissions where
  (readable writableFlag executableFlag : Bool)
  deriving DecidableEq

inductive PermissionError where
  | noAccess | writableExecutable
  deriving DecidableEq

variable (p : PagePermissions)

namespace PagePermissions

def new (readable writable executable : Bool) : Outcome PermissionError PagePermissions := do
  rejectIf (writable = true ∧ executable = true) .writableExecutable
  rejectIf (readable = false ∧ writable = false ∧ executable = false) .noAccess
  return ⟨readable, writable, executable⟩

def readOnly : PagePermissions := ⟨true, false, false⟩
def writable : PagePermissions := ⟨true, true, false⟩
def executable : PagePermissions := ⟨true, false, true⟩

def withWritable (writable : Bool) : PagePermissions :=
  { p with writableFlag := writable }

/-- Both writable and executable. -/
def WritableExecutable : Prop :=
  p.writableFlag = true ∧ p.executableFlag = true

instance : DecidablePred WritableExecutable := fun _ => inferInstanceAs (Decidable (_ ∧ _))

end PagePermissions

structure Mapping where
  page : VirtualPage
  frame : PhysicalFrame
  permissions : PagePermissions
  copyOnWrite : Bool

variable (m : Mapping)

/-- What cloning makes of a mapping, in the parent and in the child. -/
def Mapping.share : Mapping :=
  if m.permissions.writableFlag then
    { m with permissions := m.permissions.withWritable false, copyOnWrite := true }
  else m

@[simp] theorem Mapping.page_share : m.share.page = m.page := by
  unfold share
  split <;> rfl

@[simp] theorem Mapping.frame_share : m.share.frame = m.frame := by
  unfold share
  split <;> rfl

/-- What a write fault makes of a copy-on-write mapping. -/
def Mapping.resolve (newFrame : PhysicalFrame) (m : Mapping) : Mapping :=
  { m with frame := newFrame, permissions := m.permissions.withWritable true, copyOnWrite := false }

structure AddressSpaceSnapshot where
  id : AddressSpaceId
  (owner generation mappingCount copyOnWriteCount : ℕ)

structure CowResolution where
  space : AddressSpaceId
  page : VirtualPage
  (oldFrame newFrame : PhysicalFrame)

inductive MemoryError where
  | addressSpaceLimit | frameLimit | mappingLimit | invalidAddressSpace | invalidVirtualAddress
  | invalidPhysicalFrame
  | permission (e : PermissionError)
  | alreadyMapped | notMapped | frameInUse | frameConflict | cowRequired
  deriving DecidableEq

structure AddressSpace where
  id : AddressSpaceId
  (owner generation : ℕ)
  mappings : List Mapping

structure FrameRecord where
  frame : PhysicalFrame
  references : ℕ
  deriving DecidableEq

structure AddressSpaceTable where
  (nextSpaceId nextFrameNumber : ℕ)
  spaces : List AddressSpace
  frames : List FrameRecord

namespace AddressSpace

variable (a : AddressSpace) (page : VirtualPage)

def lookupPage : Option Mapping :=
  Keyed.lookup Mapping.page page a.mappings

def bumpGeneration : AddressSpace :=
  { a with generation := saturatingSucc a.generation }

def append (l : List Mapping) (a : AddressSpace) : AddressSpace :=
  { a with mappings := a.mappings ++ l }

def dropPage (a : AddressSpace) : AddressSpace :=
  { a with mappings := Keyed.remove Mapping.page page a.mappings }

def adjustPage (f : Mapping → Mapping) (a : AddressSpace) : AddressSpace :=
  { a with mappings := Keyed.adjust Mapping.page page f a.mappings }

/-- The writable mappings become copy-on-write. -/
def share : AddressSpace := { a with mappings := a.mappings.map Mapping.share }

def snapshotOf : AddressSpaceSnapshot where
  id := a.id
  owner := a.owner
  generation := a.generation
  mappingCount := a.mappings.length
  copyOnWriteCount := a.mappings.countP (·.copyOnWrite)

end AddressSpace

/-! ### The table -/

abbrev Op := Machine.Op MemoryError AddressSpaceTable

variable (t : AddressSpaceTable) (id : AddressSpaceId) (frame : PhysicalFrame) (owner : ℕ)

namespace AddressSpaceTable

def new : AddressSpaceTable where
  nextSpaceId := 1
  nextFrameNumber := 1
  spaces := []
  frames := []

def space : Outcome MemoryError AddressSpace :=
  okOr (Keyed.lookup AddressSpace.id id t.spaces) .invalidAddressSpace

def adjustSpace (f : AddressSpace → AddressSpace) (t : AddressSpaceTable) : AddressSpaceTable :=
  { t with spaces := Keyed.adjust AddressSpace.id id f t.spaces }

def adjustFrame (f : FrameRecord → FrameRecord) : AddressSpaceTable :=
  { t with frames := Keyed.adjust FrameRecord.frame frame f t.frames }

def addFrame (references : ℕ) : AddressSpaceTable :=
  { t with frames := t.frames ++ [⟨frame, references⟩] }

def dropFrame : AddressSpaceTable :=
  { t with frames := Keyed.remove FrameRecord.frame frame t.frames }

variable (page : VirtualPage)

def mapping : Outcome MemoryError Mapping := do
  let a ← t.space id
  okOr (a.lookupPage page) .notMapped

def validatePermissions : Outcome MemoryError Unit := do
  let _ ← mapErr .permission
    (PagePermissions.new p.readable p.writableFlag p.executableFlag)
  return ()

def create : Op AddressSpaceId := do
  read fun t => rejectIf (maxAddressSpaces ≤ t.spaces.length) .addressSpaceLimit
  let id ← read fun t => okOr (AddressSpaceId.fromRaw t.nextSpaceId) .addressSpaceLimit
  let next ← read fun t => okOr (checkedAdd 64 t.nextSpaceId 1) .addressSpaceLimit
  modify fun t => { t with nextSpaceId := next, spaces := t.spaces ++ [⟨id, owner, 0, []⟩] }
  return id

/-- One reference to the frame more. -/
def retainFrame : Op Unit := do
  let t ← get
  match Keyed.lookup FrameRecord.frame frame t.frames with
  | some _ =>
    set (t.adjustFrame frame fun r => { r with references := saturatingSucc r.references })
  | none => do
    check (rejectIf (maxPhysicalFrames ≤ t.frames.length) .frameLimit)
    set (t.addFrame frame 1)

/-- One reference to the frame less; the last one removes its record. -/
def releaseReference : AddressSpaceTable :=
  match Keyed.lookup FrameRecord.frame frame t.frames with
  | none => t
  | some r =>
    if 1 < r.references then
      t.adjustFrame frame fun r => { r with references := r.references - 1 }
    else t.dropFrame frame

def destroy : Op AddressSpaceSnapshot := do
  let removed ← read (·.space id)
  modify fun t => { t with spaces := Keyed.remove AddressSpace.id id t.spaces }
  modify fun t => (removed.mappings.map Mapping.frame).foldl releaseReference t
  return removed.snapshotOf

def allocateFrame : Op PhysicalFrame := do
  read fun t => rejectIf (maxPhysicalFrames ≤ t.frames.length) .frameLimit
  let frame ← read fun t => okOr (PhysicalFrame.fromRaw t.nextFrameNumber) .frameLimit
  let next ← read fun t => okOr (checkedAdd 64 t.nextFrameNumber 1) .frameLimit
  modify fun t => { t.addFrame frame 0 with nextFrameNumber := next }
  return frame

def releaseFrame : Op Unit := do
  let record ← read fun t =>
    okOr (Keyed.lookup FrameRecord.frame frame t.frames) .invalidPhysicalFrame
  check (rejectIf (record.references ≠ 0) .frameInUse)
  modify (·.dropFrame frame)

def map (frame : PhysicalFrame) (permissions : PagePermissions) : Op Mapping := do
  check (validatePermissions permissions)
  let a ← read (·.space id)
  check (rejectIf ((a.lookupPage page).isSome = true) .alreadyMapped)
  check (rejectIf (maxMappingsPerSpace ≤ a.mappings.length) .mappingLimit)
  retainFrame frame
  let mapping : Mapping := ⟨page, frame, permissions, false⟩
  modify (adjustSpace id (·.append [mapping]))
  modify (adjustSpace id AddressSpace.bumpGeneration)
  return mapping

variable (permissions : PagePermissions)

/-- Maps a page to a frame allocated for it; the frame is given back when the mapping fails. -/
def mapNew : Op Mapping := do
  let frame ← allocateFrame
  onError (map id page frame permissions) (releaseFrame frame)

def unmap : Op Mapping := do
  let mapping ← read (·.mapping id page)
  modify (adjustSpace id (·.dropPage page))
  modify (·.releaseReference mapping.frame)
  modify (adjustSpace id AddressSpace.bumpGeneration)
  return mapping

def protect : Op Mapping := do
  check (validatePermissions permissions)
  let mapping ← read (·.mapping id page)
  check (rejectIf (mapping.copyOnWrite = true ∧ permissions.writableFlag = true) .cowRequired)
  modify (adjustSpace id (·.adjustPage page ({ · with permissions })))
  modify (adjustSpace id AddressSpace.bumpGeneration)
  return { mapping with permissions }

/-- The loop that gives the child its mappings.  An error leaves those given so far. -/
def cloneMappings (child : AddressSpaceId) : List Mapping → Op Unit
  | [] => pure ()
  | m :: rest => do
    retainFrame m.frame
    modify (adjustSpace child (·.append [m.share]))
    cloneMappings child rest

/-- Clones an address space; the writable mappings of both become copy-on-write. -/
def cloneCow (parent : AddressSpaceId) (childOwner : ℕ) : Op AddressSpaceId := do
  let a ← read (·.space parent)
  let child ← create childOwner
  let _ ← read (·.space child)
  cloneMappings child a.mappings
  modify (adjustSpace parent AddressSpace.share)
  modify (adjustSpace parent AddressSpace.bumpGeneration)
  modify (adjustSpace child AddressSpace.bumpGeneration)
  return child

def resolveCowFault (newFrame : PhysicalFrame) : Op CowResolution := do
  let mapping ← read (·.mapping id page)
  check (rejectIf (mapping.copyOnWrite = false) .cowRequired)
  check (rejectIf (mapping.frame = newFrame) .frameConflict)
  retainFrame newFrame
  modify (·.releaseReference mapping.frame)
  modify (adjustSpace id (·.adjustPage page (Mapping.resolve newFrame)))
  modify (adjustSpace id AddressSpace.bumpGeneration)
  return ⟨id, page, mapping.frame, newFrame⟩

end AddressSpaceTable

/-! ### Runs -/

/-- The calls that change the table. -/
inductive Operation where
  | create (owner : ℕ)
  | destroy (id : AddressSpaceId)
  | allocateFrame
  | releaseFrame (frame : PhysicalFrame)
  | mapNew (id : AddressSpaceId) (page : VirtualPage) (permissions : PagePermissions)
  | map (id : AddressSpaceId) (page : VirtualPage) (frame : PhysicalFrame)
      (permissions : PagePermissions)
  | unmap (id : AddressSpaceId) (page : VirtualPage)
  | protect (id : AddressSpaceId) (page : VirtualPage) (permissions : PagePermissions)
  | cloneCow (parent : AddressSpaceId) (childOwner : ℕ)
  | resolveCowFault (id : AddressSpaceId) (page : VirtualPage) (newFrame : PhysicalFrame)

/-- The table after a call, whether it succeeded or failed. -/
def AddressSpaceTable.apply : Operation → AddressSpaceTable
  | .create owner => endState (create owner) t
  | .destroy id => endState (destroy id) t
  | .allocateFrame => endState allocateFrame t
  | .releaseFrame frame => endState (releaseFrame frame) t
  | .mapNew id page permissions => endState (mapNew id page permissions) t
  | .map id page frame permissions => endState (map id page frame permissions) t
  | .unmap id page => endState (unmap id page) t
  | .protect id page permissions => endState (protect id page permissions) t
  | .cloneCow parent childOwner => endState (cloneCow parent childOwner) t
  | .resolveCowFault id page newFrame => endState (resolveCowFault id page newFrame) t

/-! ### The operations that fail without a trace -/

namespace AddressSpaceTable

section

variable (id : AddressSpaceId) (page : VirtualPage) (frame : PhysicalFrame) (permissions : PagePermissions)

theorem atomic_create : Atomic (create owner) := by
  refine .read_bind fun _ => .read_bind fun _ => .read_bind fun _ => ?_
  exact (total_modify.bind fun _ => total_return).atomic

theorem atomic_retainFrame : Atomic (retainFrame frame) := by
  refine .get_bind fun t => ?_
  split
  · exact total_set.atomic
  · exact .check_bind fun _ => total_set.atomic

theorem atomic_destroy : Atomic (destroy id) := by
  refine .read_bind fun _ => ?_
  exact (total_modify.bind fun _ => total_modify.bind fun _ => total_return).atomic

theorem atomic_allocateFrame : Atomic allocateFrame := by
  refine .read_bind fun _ => .read_bind fun _ => .read_bind fun _ => ?_
  exact (total_modify.bind fun _ => total_return).atomic

theorem atomic_releaseFrame : Atomic (releaseFrame frame) := by
  refine .read_bind fun _ => .check_bind fun _ => ?_
  exact total_modify.atomic

theorem atomic_map : Atomic (map id page frame permissions) := by
  refine .check_bind fun _ => .read_bind fun _ => .check_bind fun _ => .check_bind fun _ => ?_
  refine (atomic_retainFrame frame).bind_total fun _ => ?_
  exact total_modify.bind fun _ => total_modify.bind fun _ => total_return

theorem atomic_unmap : Atomic (unmap id page) := by
  refine .read_bind fun _ => (total_modify.bind fun _ => ?_).atomic
  exact total_modify.bind fun _ => total_modify.bind fun _ => total_return

theorem atomic_protect : Atomic (protect id page permissions) := by
  refine .check_bind fun _ => .read_bind fun _ => .check_bind fun _ => ?_
  exact (total_modify.bind fun _ => total_modify.bind fun _ => total_return).atomic

theorem atomic_resolveCowFault : Atomic (resolveCowFault id page frame) := by
  refine .read_bind fun _ => .check_bind fun _ => .check_bind fun _ => ?_
  refine (atomic_retainFrame frame).bind_total fun _ => total_modify.bind fun _ => ?_
  exact total_modify.bind fun _ => total_modify.bind fun _ => total_return

end

/-! ### What the operations do when they succeed -/

variable {t} {t' : AddressSpaceTable} {id} {child : AddressSpaceId} {page : VirtualPage} {frame}
  {permissions : PagePermissions} {m} {a : AddressSpace} {u : Unit} {f : AddressSpace → AddressSpace}

abbrev find (t : AddressSpaceTable) (id : AddressSpaceId) : Option AddressSpace :=
  Keyed.lookup AddressSpace.id id t.spaces

theorem space_ok : t.space id = .ok a ↔ t.find id = some a := okOr_eq_ok

theorem mapping_ok : t.mapping id page = .ok m ↔ ∃ a, t.find id = some a ∧ a.lookupPage page = some m := by
  simp only [mapping, run_eq_ok, space_ok]

theorem validatePermissions_ok :
    validatePermissions permissions = .ok u → ¬ permissions.WritableExecutable := by
  intro h
  simp only [validatePermissions, run_eq_ok, PagePermissions.new] at h
  obtain ⟨_, ⟨hwx, _⟩, _⟩ := h
  exact hwx

/-- Changes of one space follow one another. -/
theorem adjustSpace_adjustSpace {g : AddressSpace → AddressSpace} (hf : ∀ a, (f a).id = a.id) :
    adjustSpace id g (adjustSpace id f t) = adjustSpace id (g ∘ f) t := by
  unfold adjustSpace
  rw [adjust_adjust hf]

/-- Releasing a frame and changing a space concern different parts of the table. -/
theorem releaseReference_adjustSpace :
    (adjustSpace id f t).releaseReference frame = adjustSpace id f (t.releaseReference frame) := by
  unfold releaseReference
  rw [show (adjustSpace id f t).frames = t.frames from rfl]
  split
  · rfl
  · split
    · rfl
    · rfl

theorem create_ok {owner : ℕ} (h : create owner t = .ok id t') :
    t.spaces.length < maxAddressSpaces ∧ id.raw = t.nextSpaceId ∧
      t' = { t with nextSpaceId := t.nextSpaceId + 1
                    spaces := t.spaces ++ [⟨id, owner, 0, []⟩] } := by
  simp only [create, op_ok, rejectIf_eq_ok, okOr_eq_ok, checkedAdd_eq_some] at h
  obtain ⟨_, _, ⟨hsize, rfl⟩, id', _, ⟨hid, rfl⟩, next, _, ⟨⟨-, rfl⟩, rfl⟩, _, _, rfl, rfl, rfl⟩ := h
  refine ⟨Nat.not_le.1 hsize, ?_, rfl⟩
  unfold AddressSpaceId.fromRaw at hid
  split at hid
  · simp at hid
  · rw [← some.inj hid]

theorem destroy_ok {r : AddressSpaceSnapshot} (h : destroy id t = .ok r t') : ∃ a, t.find id = some a ∧
      t' = (a.mappings.map Mapping.frame).foldl releaseReference
        { t with spaces := remove AddressSpace.id id t.spaces } := by
  simp only [destroy, op_ok, space_ok] at h
  obtain ⟨a, _, ⟨ha, rfl⟩, _, _, rfl, _, _, rfl, -, rfl⟩ := h
  exact ⟨a, ha, rfl⟩

theorem allocateFrame_ok (h : allocateFrame t = .ok frame t') : frame.raw = t.nextFrameNumber ∧
      t' = { t.addFrame frame 0 with nextFrameNumber := t.nextFrameNumber + 1 } := by
  simp only [allocateFrame, op_ok, okOr_eq_ok, checkedAdd_eq_some] at h
  obtain ⟨_, _, ⟨-, rfl⟩, f, _, ⟨hf, rfl⟩, next, _, ⟨⟨-, rfl⟩, rfl⟩, _, _, rfl, rfl, rfl⟩ := h
  exact ⟨PhysicalFrame.raw_of_fromRaw hf, rfl⟩

theorem releaseFrame_ok (h : releaseFrame frame t = .ok u t') :
    ∃ r, lookup FrameRecord.frame frame t.frames = some r ∧ r.references = 0 ∧ t' = t.dropFrame frame := by
  simp only [releaseFrame, op_ok, rejectIf_eq_ok, okOr_eq_ok, not_not] at h
  obtain ⟨r, _, ⟨hr, rfl⟩, _, _, ⟨hzero, rfl⟩, rfl⟩ := h
  exact ⟨r, hr, hzero, rfl⟩

theorem map_ok (h : map id page frame permissions t = .ok m t') :
    ∃ a t1, ¬ permissions.WritableExecutable ∧ t.find id = some a ∧ a.lookupPage page = none ∧
      a.mappings.length < maxMappingsPerSpace ∧ retainFrame frame t = .ok () t1 ∧
      m = ⟨page, frame, permissions, false⟩ ∧
      t' = adjustSpace id (AddressSpace.bumpGeneration ∘ AddressSpace.append [m]) t1 := by
  simp only [map, op_ok, rejectIf_eq_ok, space_ok] at h
  obtain ⟨_, _, ⟨hvalid, rfl⟩, a, _, ⟨ha, rfl⟩, _, _, ⟨hnone, rfl⟩, _, _, ⟨hroom, rfl⟩, _, t1,
    hretain, _, _, rfl, _, _, rfl, rfl, rfl⟩ := h
  refine ⟨a, t1, validatePermissions_ok hvalid, ha, by simpa using hnone, Nat.not_le.1 hroom,
    hretain, rfl, ?_⟩
  exact adjustSpace_adjustSpace fun _ => rfl

theorem unmap_ok (h : unmap id page t = .ok m t') : ∃ a, t.find id = some a ∧ a.lookupPage page = some m ∧
      t' = adjustSpace id (AddressSpace.bumpGeneration ∘ AddressSpace.dropPage page)
        (t.releaseReference m.frame) := by
  simp only [unmap, op_ok, mapping_ok] at h
  obtain ⟨m', _, ⟨⟨a, ha, hm⟩, rfl⟩, _, _, rfl, _, _, rfl, _, _, rfl, rfl, rfl⟩ := h
  refine ⟨a, ha, hm, ?_⟩
  rw [releaseReference_adjustSpace]
  exact adjustSpace_adjustSpace fun _ => rfl

theorem protect_ok (h : protect id page permissions t = .ok m t') :
    ∃ a m0, ¬ permissions.WritableExecutable ∧ t.find id = some a ∧ a.lookupPage page = some m0 ∧
      ¬ (m0.copyOnWrite = true ∧ permissions.writableFlag = true) ∧ m = { m0 with permissions } ∧
      t' = adjustSpace id
        (AddressSpace.bumpGeneration ∘ AddressSpace.adjustPage page ({ · with permissions })) t := by
  simp only [protect, op_ok, mapping_ok, rejectIf_eq_ok] at h
  obtain ⟨_, _, ⟨hvalid, rfl⟩, m0, _, ⟨⟨a, ha, hm⟩, rfl⟩, _, _, ⟨hcow, rfl⟩, _, _, rfl, _, _, rfl,
    rfl, rfl⟩ := h
  refine ⟨a, m0, validatePermissions_ok hvalid, ha, hm, hcow, rfl, ?_⟩
  exact adjustSpace_adjustSpace fun _ => rfl

theorem resolveCowFault_ok {r : CowResolution} (h : resolveCowFault id page frame t = .ok r t') :
    ∃ a m t1, t.find id = some a ∧ a.lookupPage page = some m ∧
      m.copyOnWrite = true ∧ m.frame ≠ frame ∧ retainFrame frame t = .ok () t1 ∧ t' = adjustSpace id
        (AddressSpace.bumpGeneration ∘ AddressSpace.adjustPage page (Mapping.resolve frame))
        (t1.releaseReference m.frame) := by
  simp only [resolveCowFault, op_ok, mapping_ok, rejectIf_eq_ok] at h
  obtain ⟨m, _, ⟨⟨a, ha, hm⟩, rfl⟩, _, _, ⟨hcow, rfl⟩, _, _, ⟨hframe, rfl⟩, _, t1, hretain, _, _,
    rfl, _, _, rfl, _, _, rfl, -, rfl⟩ := h
  refine ⟨a, m, t1, ha, hm, by simpa using hcow, hframe, hretain, ?_⟩
  exact adjustSpace_adjustSpace fun _ => rfl

/-! ### Counting references -/

section

variable (t : AddressSpaceTable) (f : PhysicalFrame) (l : List Mapping)

/-- The mapping belongs to the address space. -/
def Maps (id : AddressSpaceId) (m : Mapping) : Prop :=
  ∃ a ∈ t.spaces, a.id = id ∧ m ∈ a.mappings

def countFrame : ℕ := l.countP fun m => m.frame = f

theorem countFrame_cons (m : Mapping) (l : List Mapping) :
    countFrame f (m :: l) = (if m.frame = f then 1 else 0) + countFrame f l := by
  simp [countFrame, countP_cons, Nat.add_comm]

theorem countFrame_eq_sum : countFrame f l = (l.map fun m => if m.frame = f then 1 else 0).sum := by
  induction l with
  | nil => rfl
  | cons m l ih => rw [countFrame_cons, ih, map_cons, sum_cons]

variable {l} {page : VirtualPage} {m : Mapping}

theorem countFrame_remove (hm : lookup Mapping.page page l = some m) :
    countFrame f (remove Mapping.page page l) + (if m.frame = f then 1 else 0) = countFrame f l := by
  simpa only [countFrame_eq_sum] using sum_remove (g := fun n => if n.frame = f then 1 else 0) hm

theorem countFrame_adjust {g : Mapping → Mapping} (hm : lookup Mapping.page page l = some m) :
    countFrame f (adjust Mapping.page page g l) + (if m.frame = f then 1 else 0) =
      countFrame f l + if (g m).frame = f then 1 else 0 := by
  simpa only [countFrame_eq_sum] using sum_adjust (g := fun n => if n.frame = f then 1 else 0) hm

/-- The mappings of the frame. -/
def uses : ℕ :=
  (t.spaces.map fun a => countFrame f a.mappings).sum

/-- No frame has two records. -/
abbrev Unique : Prop := (t.frames.map FrameRecord.frame).Nodup

/-- The references that the records of the frame count together. -/
def references : ℕ :=
  (t.frames.map fun r => if r.frame = f then r.references else 0).sum

end

theorem uses_adjustSpace {t1 : AddressSpaceTable} (hspaces : t1.spaces = t.spaces)
    (ha : t.find id = some a) (x : PhysicalFrame) :
    (adjustSpace id f t1).uses x + countFrame x a.mappings = t.uses x + countFrame x (f a).mappings := by
  unfold uses adjustSpace
  rw [hspaces]
  exact sum_adjust ha

theorem uses_pos (h : t.Maps id m) : 0 < t.uses m.frame := by
  obtain ⟨a, ha, -, hm⟩ := h
  have hcount : 0 < countFrame m.frame a.mappings := countP_pos_iff.2 ⟨m, hm, by simp⟩
  exact hcount.trans_le (single_le_sum (by simp) _ (mem_map_of_mem ha))

theorem references_addFrame (x : PhysicalFrame) (n : ℕ) :
    (t.addFrame frame n).references x = t.references x + if frame = x then n else 0 := by
  simp [references, addFrame]

/-- Changing the record of a frame gives no frame another one. -/
theorem unique_adjustFrame {f : FrameRecord → FrameRecord} (hf : ∀ r, (f r).frame = r.frame)
    (h : t.Unique) : (t.adjustFrame frame f).Unique := by
  unfold Unique adjustFrame
  rwa [map_key_adjust hf]

theorem references_adjustFrame {f : FrameRecord → FrameRecord} {r : FrameRecord}
    (hf : ∀ r, (f r).frame = r.frame)
    (hr : lookup FrameRecord.frame frame t.frames = some r) (x : PhysicalFrame) :
    (t.adjustFrame frame f).references x + (if frame = x then r.references else 0) =
      t.references x + if frame = x then (f r).references else 0 := by
  have h := sum_adjust (f := f) (g := fun r => if r.frame = x then r.references else 0) hr
  rw [hf, key_of_lookup hr] at h
  exact h

theorem references_dropFrame {r : FrameRecord}
    (hr : lookup FrameRecord.frame frame t.frames = some r) (x : PhysicalFrame) :
    (t.dropFrame frame).references x + (if frame = x then r.references else 0) = t.references x := by
  have h := sum_remove (g := fun r => if r.frame = x then r.references else 0) hr
  rw [key_of_lookup hr] at h
  exact h

theorem lookup_of_references (h : 0 < t.references frame) :
    ∃ r, lookup FrameRecord.frame frame t.frames = some r := by
  rw [← isSome_iff_exists, lookup_isSome]
  by_contra hnone
  refine h.ne' (sum_eq_zero fun n hn => ?_)
  obtain ⟨r, hr, rfl⟩ := mem_map.1 hn
  refine if_neg fun hf => hnone ?_
  rw [← hf]
  exact mem_map_of_mem hr

theorem references_releaseReference (x : PhysicalFrame) :
    t.references x ≤ (t.releaseReference frame).references x + if frame = x then 1 else 0 := by
  unfold releaseReference
  split
  · omega
  · next r hr =>
      split
      · next hmore =>
          have h := references_adjustFrame
            (f := fun r => { r with references := r.references - 1 }) (fun _ => rfl) hr x
          dsimp only at h
          split_ifs at h ⊢ <;> omega
      · next hlast =>
          have h := references_dropFrame hr x
          split_ifs at h ⊢ <;> omega

/-- A frame with one record has the references of that record. -/
theorem references_eq {r : FrameRecord} (h : t.Unique) (hr : r ∈ t.frames) :
    t.references r.frame = r.references := by
  have hdrop := references_dropFrame (lookup_of_mem h hr) r.frame
  have hrest : (t.dropFrame r.frame).references r.frame = 0 := by
    refine sum_eq_zero fun n hn => ?_
    obtain ⟨r', hr', rfl⟩ := mem_map.1 hn
    exact if_neg ((mem_remove h).1 hr').2
  rw [hrest, if_pos rfl] at hdrop
  omega

/-- Releasing a reference that there is. -/
theorem releaseReference_le (h : t.Unique) (hpos : 0 < t.references frame) :
    (t.releaseReference frame).Unique ∧
      ∀ x, (t.releaseReference frame).references x + (if frame = x then 1 else 0) ≤ t.references x := by
  obtain ⟨r, hr⟩ := lookup_of_references hpos
  have hcount := references_eq h (mem_of_lookup hr)
  rw [key_of_lookup hr] at hcount
  simp only [releaseReference, hr]
  split
  · refine ⟨unique_adjustFrame (fun _ => rfl) h, fun x => ?_⟩
    have hx := references_adjustFrame
      (f := fun r => { r with references := r.references - 1 }) (fun _ => rfl) hr x
    dsimp only at hx
    split_ifs at hx ⊢ <;> omega
  · refine ⟨nodup_map_remove h, fun x => ?_⟩
    have hx := references_dropFrame hr x
    split_ifs at hx ⊢ <;> omega

theorem kept_releaseReference : (t.releaseReference frame).spaces = t.spaces ∧
    (t.releaseReference frame).nextSpaceId = t.nextSpaceId := by
  unfold releaseReference
  split
  · exact ⟨rfl, rfl⟩
  · split <;> exact ⟨rfl, rfl⟩

/-- Releasing the frames of a list of mappings releases at most as many references as it has. -/
theorem references_foldl_release (l : List Mapping) (x : PhysicalFrame) : t.references x ≤
      ((l.map Mapping.frame).foldl releaseReference t).references x + countFrame x l := by
  induction l generalizing t with
  | nil => simp
  | cons m l ih =>
    have hhead : t.references x ≤ (t.releaseReference m.frame).references x + _ :=
      references_releaseReference x
    have htail := ih (t := t.releaseReference m.frame)
    rw [map_cons, foldl_cons, countFrame_cons]
    omega

/-- Releasing the frames of mappings that are all counted. -/
theorem foldl_release_le {l : List Mapping} (h : t.Unique) (hcount : ∀ x, countFrame x l ≤ t.references x) :
    ((l.map Mapping.frame).foldl releaseReference t).Unique ∧
      ∀ x, ((l.map Mapping.frame).foldl releaseReference t).references x + countFrame x l ≤
        t.references x := by
  induction l generalizing t with
  | nil => exact ⟨h, fun _ => Nat.le_refl _⟩
  | cons m l ih =>
    simp only [countFrame_cons] at hcount ⊢
    have hpos : 0 < t.references m.frame := by
      have hm := hcount m.frame
      rw [if_pos rfl] at hm
      omega
    obtain ⟨hunique, hle⟩ := releaseReference_le h hpos
    have hleast : ∀ x, t.references x ≤ (t.releaseReference m.frame).references x + _ :=
      references_releaseReference
    obtain ⟨hunique', hle'⟩ := ih hunique fun x => by
      have := hcount x
      have := hleast x
      omega
    refine ⟨hunique', fun x => ?_⟩
    have := hle x
    have := hle' x
    rw [map_cons, foldl_cons]
    omega

theorem spaces_foldl_release (l : List PhysicalFrame) : (l.foldl releaseReference t).spaces = t.spaces ∧
      (l.foldl releaseReference t).nextSpaceId = t.nextSpaceId := by
  induction l generalizing t with
  | nil => exact ⟨rfl, rfl⟩
  | cons f l ih =>
    rw [foldl_cons, ih.1, ih.2, kept_releaseReference.1, kept_releaseReference.2]
    exact ⟨rfl, rfl⟩

/-- Retaining a frame adds one to its references, up to the largest number. -/
theorem retainFrame_ok (h : retainFrame frame t = .ok u t') :
    t'.spaces = t.spaces ∧ t'.nextSpaceId = t.nextSpaceId ∧
      (∀ x, min (t.references x + if frame = x then 1 else 0) (2 ^ 64 - 1) ≤ t'.references x ∧
        t'.references x ≤ t.references x + if frame = x then 1 else 0) ∧ (t.Unique → t'.Unique) := by
  simp only [retainFrame, bind_ok, get_ok] at h
  obtain ⟨t0, _, ⟨ht, rfl⟩, h⟩ := h
  cases hr : lookup FrameRecord.frame frame t0.frames with
  | some r =>
    simp only [hr, set_ok] at h
    subst h ht
    refine ⟨rfl, rfl, fun x => ?_, unique_adjustFrame fun _ => rfl⟩
    have hx := references_adjustFrame
      (f := fun r => { r with references := saturatingSucc r.references }) (fun _ => rfl) hr x
    have hpart := references_dropFrame hr x
    have hsucc : saturatingSucc r.references = min (r.references + 1) (2 ^ 64 - 1) := rfl
    dsimp only at hx
    split_ifs at hx hpart ⊢ <;> omega
  | none =>
    simp only [hr, op_ok, set_ok] at h
    obtain ⟨_, _, ⟨-, rfl⟩, rfl⟩ := h
    subst ht
    refine ⟨rfl, rfl, fun x => ?_, fun hunique => nodup_map_concat hunique (lookup_eq_none.1 hr)⟩
    rw [references_addFrame]
    omega

/-- A frame that has a record can be retained. -/
theorem retainFrame_of_references (h : 0 < t.references frame) : ∃ t1, retainFrame frame t = .ok () t1 := by
  obtain ⟨r, hr⟩ := lookup_of_references h
  refine ⟨t.adjustFrame frame fun r => { r with references := saturatingSucc r.references }, ?_⟩
  simp only [retainFrame, bind_ok, get_ok]
  refine ⟨t, t, ⟨rfl, rfl⟩, ?_⟩
  simp only [hr, set_ok]

/-! ### The invariant -/

/-- What holds of the table in every run. -/
structure WellFormed (t : AddressSpaceTable) : Prop where
  ids : (t.spaces.map AddressSpace.id).Nodup
  fresh : ∀ a ∈ t.spaces, a.id.raw < t.nextSpaceId
  size : t.spaces.length ≤ maxAddressSpaces
  pages : ∀ a ∈ t.spaces, (a.mappings.map Mapping.page).Nodup
  room : ∀ a ∈ t.spaces, a.mappings.length ≤ maxMappingsPerSpace
  counted : ∀ x, t.uses x ≤ t.references x

/-- No frame has two records or more references than mappings. -/
structure Balanced (t : AddressSpaceTable) : Prop where
  unique : t.Unique
  le_uses : ∀ x, t.references x ≤ t.uses x

/-- A step keeps the invariant, and the balance where there is one. -/
structure Kept (t t' : AddressSpaceTable) : Prop where
  wellFormed : WellFormed t'
  balanced : Balanced t → Balanced t'

theorem Kept.trans {t t1 t2 : AddressSpaceTable} (h1 : Kept t t1) (h2 : Kept t1 t2) : Kept t t2 :=
  ⟨h2.wellFormed, fun hb => h2.balanced (h1.balanced hb)⟩

/-- No record has the number that is allocated next. -/
def NextUnrecorded (t : AddressSpaceTable) : Prop := ∀ r ∈ t.frames, r.frame.raw ≠ t.nextFrameNumber

theorem wellFormed_new : WellFormed new where
  ids := nodup_nil
  fresh := by simp [new]
  size := by decide
  pages := by simp [new]
  room := by simp [new]
  counted := fun _ => Nat.le_refl _

/-- The balance is kept by allocating a frame that has no record. -/
theorem Balanced.allocateFrame (h : Balanced t) (hnext : NextUnrecorded t)
    (hok : allocateFrame t = .ok frame t') : Balanced t' ∧ frame ∉ t.frames.map FrameRecord.frame := by
  obtain ⟨hraw, rfl⟩ := allocateFrame_ok hok
  have hnew : frame ∉ t.frames.map FrameRecord.frame := by
    intro hmem
    obtain ⟨r, hr, rfl⟩ := mem_map.1 hmem
    exact hnext r hr hraw
  refine ⟨⟨nodup_map_concat h.unique hnew, fun x => ?_⟩, hnew⟩
  change (t.addFrame frame 0).references x ≤ t.uses x
  rw [references_addFrame, ite_self]
  exact h.le_uses x

theorem maps_iff (hids : (t.spaces.map AddressSpace.id).Nodup) : t.Maps id m ↔
      ∃ a, t.find id = some a ∧ m ∈ a.mappings := by
  constructor
  · rintro ⟨a, ha, rfl, hm⟩
    exact ⟨a, lookup_of_mem hids ha, hm⟩
  · rintro ⟨a, ha, hm⟩
    exact ⟨a, mem_of_lookup ha, key_of_lookup ha, hm⟩

theorem maps_iff_of_lookup (hids : (t.spaces.map AddressSpace.id).Nodup)
    (ha : t.find id = some a) : t.Maps id m ↔ m ∈ a.mappings := by
  rw [maps_iff hids, ha]
  simp

theorem maps_congr {t1 : AddressSpaceTable} (h : t1.spaces = t.spaces) : t1.Maps id m ↔ t.Maps id m := by
  rw [Maps, Maps, h]

/-- A change of one space changes its mappings and no others. -/
theorem maps_adjustSpace {t1 : AddressSpaceTable} (hids : (t.spaces.map AddressSpace.id).Nodup)
    (hf : ∀ a, (f a).id = a.id) (hspaces : t1.spaces = t.spaces)
    (ha : t.find id = some a) (i : AddressSpaceId) (n : Mapping) :
    (adjustSpace id f t1).Maps i n ↔ i = id ∧ n ∈ (f a).mappings ∨ i ≠ id ∧ t.Maps i n := by
  have hids' : ((adjustSpace id f t1).spaces.map AddressSpace.id).Nodup := by
    rw [adjustSpace, map_key_adjust hf, hspaces]
    exact hids
  rw [maps_iff hids', find, adjustSpace, hspaces]
  by_cases h : i = id
  · subst h
    rw [lookup_adjust_self hf, ← find, ha]
    simp
  · rw [lookup_adjust_ne hf h, maps_iff hids]
    simp [h]

namespace WellFormed

variable {t1 : AddressSpaceTable} {a : AddressSpace} (h : WellFormed t)

include h

/-- The mappings that a lookup finds. -/
theorem lookupPage_eq_some (ha : t.find id = some a) :
    a.lookupPage page = some m ↔ m ∈ a.mappings ∧ m.page = page := by
  constructor
  · intro hm
    exact ⟨mem_of_lookup hm, key_of_lookup hm⟩
  · rintro ⟨hm, rfl⟩
    exact lookup_of_mem (h.pages a (mem_of_lookup ha)) hm

theorem uses_le (x : PhysicalFrame) : t.uses x ≤ 2 ^ 64 - 2 := by
  have hsum : t.uses x ≤ t.spaces.length * maxMappingsPerSpace := by
    have := sum_le_card_nsmul (t.spaces.map fun a => countFrame x a.mappings)
      maxMappingsPerSpace ?_
    · simpa [uses] using this
    · intro n hn
      obtain ⟨a, ha, rfl⟩ := mem_map.1 hn
      exact countP_le_length.trans (h.room a ha)
  have hsize : t.spaces.length * maxMappingsPerSpace ≤ maxAddressSpaces * maxMappingsPerSpace :=
    Nat.mul_le_mul_right _ h.size
  have hbound : maxAddressSpaces * maxMappingsPerSpace ≤ 2 ^ 64 - 2 := by decide
  omega

variable {u : Unit} {f : AddressSpace → AddressSpace} {owner} {parent : AddressSpaceId}

/-- After retaining a frame there is a reference to spare. -/
theorem retain (hretain : retainFrame frame t = .ok u t1) (x : PhysicalFrame) :
    t.uses x + (if frame = x then 1 else 0) ≤ t1.references x := by
  have hmin := ((retainFrame_ok hretain).2.2.1 x).1
  have huses := h.uses_le x
  have hcounted := h.counted x
  split_ifs at hmin ⊢ <;> omega

theorem references_pos (ha : t.find id = some a) (hm : a.lookupPage page = some m) :
    0 < t.references m.frame :=
  (uses_pos ((maps_iff_of_lookup h.ids ha).2 (mem_of_lookup hm))).trans_le (h.counted _)

/-- A change of the frames that keeps enough references. -/
theorem frames (hspaces : t1.spaces = t.spaces) (hnext : t1.nextSpaceId = t.nextSpaceId)
    (hcount : ∀ x, t.references x ≤ t1.references x) :
    WellFormed t1 where
  ids := hspaces ▸ h.ids
  fresh := by rw [hspaces, hnext]; exact h.fresh
  size := hspaces ▸ h.size
  pages := hspaces ▸ h.pages
  room := hspaces ▸ h.room
  counted := fun x => by
    have huses : t1.uses x = t.uses x := by rw [uses, uses, hspaces]
    exact huses ▸ (h.counted x).trans (hcount x)

/-- A change of the mappings of one space, together with the references it needs. -/
theorem adjust (hspaces : t1.spaces = t.spaces) (hnext : t1.nextSpaceId = t.nextSpaceId)
    (ha : t.find id = some a) (hf : ∀ a, (f a).id = a.id) (hpages : ((f a).mappings.map Mapping.page).Nodup)
    (hroom : (f a).mappings.length ≤ maxMappingsPerSpace)
    (hcount : ∀ x, t.uses x + countFrame x (f a).mappings ≤ t1.references x + countFrame x a.mappings)
    (hbalance : Balanced t → t1.Unique ∧ ∀ x, t1.references x + countFrame x a.mappings ≤
      t.uses x + countFrame x (f a).mappings) : Kept t (adjustSpace id f t1) := by
  have huses := uses_adjustSpace (f := f) hspaces ha
  have hmem : ∀ b ∈ (adjustSpace id f t1).spaces, b ∈ t.spaces ∨ b = f a := by
    intro b hb
    rw [adjustSpace, hspaces] at hb
    rcases mem_adjust hb with hb | ⟨y, hy, rfl⟩
    · exact .inl hb
    · exact .inr (by rw [some.inj (hy.symm.trans ha)])
  have hamem := mem_of_lookup ha
  have hmap : (adjustSpace id f t1).spaces.map AddressSpace.id = t.spaces.map AddressSpace.id := by
    rw [adjustSpace, map_key_adjust hf, hspaces]
  refine ⟨?_, fun hb => ⟨(hbalance hb).1, fun x => ?_⟩⟩
  on_goal 2 =>
    have hx := (hbalance hb).2 x
    have hsum := huses x
    change t1.references x ≤ _
    omega
  constructor
  case ids => exact hmap ▸ h.ids
  case fresh =>
    intro b hb
    change _ < t1.nextSpaceId
    rw [hnext]
    rcases hmem b hb with hb | rfl
    · exact h.fresh b hb
    · exact (hf a).symm ▸ h.fresh a hamem
  case size =>
    have hlength := congrArg length hmap
    rw [length_map, length_map] at hlength
    exact hlength ▸ h.size
  case pages =>
    intro b hb
    rcases hmem b hb with hb | rfl
    · exact h.pages b hb
    · exact hpages
  case room =>
    intro b hb
    rcases hmem b hb with hb | rfl
    · exact h.room b hb
    · exact hroom
  case counted =>
    intro x
    have hsum := huses x
    have hx := hcount x
    change (adjustSpace id f t1).uses x ≤ t1.references x
    omega

/-! ### The operations keep the invariant -/

theorem create (hok : create owner t = .ok id t') : Kept t t' ∧ t.find id = none ∧
      t'.find id = some ⟨id, owner, 0, []⟩ ∧ ∀ i n, t'.Maps i n ↔ t.Maps i n := by
  obtain ⟨hsize, hid, rfl⟩ := create_ok hok
  have hfresh : id ∉ t.spaces.map AddressSpace.id := by
    intro hmem
    obtain ⟨a, ha, rfl⟩ := mem_map.1 hmem
    exact absurd (h.fresh a ha) (by omega)
  have hnone := lookup_eq_none.2 hfresh
  have huses : ∀ x, uses { t with
      nextSpaceId := t.nextSpaceId + 1, spaces := t.spaces ++ [⟨id, owner, 0, []⟩] } x = t.uses x := by
    intro x
    simp [uses, countFrame]
  refine ⟨⟨?_, fun hb => ⟨hb.unique, fun x => huses x ▸ hb.le_uses x⟩⟩, hnone, ?_, ?_⟩
  · constructor
    case ids => exact nodup_map_concat h.ids hfresh
    case fresh =>
      refine forall_mem_append.2 ⟨fun a ha => (h.fresh a ha).trans (Nat.lt_succ_self _), ?_⟩
      exact forall_mem_singleton.2 (Nat.lt_succ_of_le hid.le)
    case size =>
      rw [length_append]
      exact hsize
    case pages =>
      exact forall_mem_append.2 ⟨h.pages, forall_mem_singleton.2 nodup_nil⟩
    case room =>
      exact forall_mem_append.2 ⟨h.room, forall_mem_singleton.2 (Nat.zero_le _)⟩
    case counted => exact fun x => huses x ▸ h.counted x
  · rw [find, Keyed.lookup_append, hnone]
    simp [Keyed.lookup_cons]
  · intro i n
    simp only [Maps, mem_append, mem_singleton, or_and_right, exists_or, exists_eq_left,
      not_mem_nil, and_false, or_false]

theorem destroy {r : AddressSpaceSnapshot} (hok : destroy id t = .ok r t') :
    Kept t t' ∧ ∀ i n, t'.Maps i n ↔ i ≠ id ∧ t.Maps i n := by
  obtain ⟨a, ha, rfl⟩ := destroy_ok hok
  obtain ⟨hspaces, hnext⟩ := spaces_foldl_release (a.mappings.map Mapping.frame)
  have hsum : ∀ x, _ + countFrame x a.mappings = t.uses x := fun x =>
    sum_remove (g := fun a => countFrame x a.mappings) ha
  refine ⟨⟨?_, fun hb => ?_⟩, ?_⟩
  · constructor
    case ids =>
      rw [hspaces]
      exact nodup_map_remove h.ids
    case fresh =>
      rw [hspaces, hnext]
      exact fun b hb => h.fresh b (mem_of_mem_remove hb)
    case size =>
      rw [hspaces]
      exact length_remove_le.trans h.size
    case pages =>
      rw [hspaces]
      exact fun b hb => h.pages b (mem_of_mem_remove hb)
    case room =>
      rw [hspaces]
      exact fun b hb => h.room b (mem_of_mem_remove hb)
    case counted =>
      intro x
      have hreleased : t.references x ≤ _ := references_foldl_release
        (t := { t with spaces := remove AddressSpace.id id t.spaces }) a.mappings x
      have hcounted := (hsum x).le.trans ((h.counted x).trans hreleased)
      rw [uses, hspaces]
      exact Nat.le_of_add_le_add_right hcounted
  · obtain ⟨hunique, hle⟩ := foldl_release_le
      (t := { t with spaces := remove AddressSpace.id id t.spaces }) hb.unique fun x =>
        ((Nat.le_add_left _ _).trans (hsum x).le).trans (h.counted x)
    refine ⟨hunique, fun x => ?_⟩
    have hx := (hle x).trans ((hb.le_uses x).trans (hsum x).ge)
    rw [uses, hspaces]
    exact Nat.le_of_add_le_add_right hx
  · intro i n
    rw [maps_congr hspaces]
    constructor
    · rintro ⟨b, hb, rfl, hn⟩
      obtain ⟨hb, hne⟩ := (mem_remove h.ids).1 hb
      exact ⟨hne, b, hb, rfl, hn⟩
    · rintro ⟨hne, b, hb, rfl, hn⟩
      exact ⟨b, (mem_remove h.ids).2 ⟨hb, hne⟩, rfl, hn⟩

theorem allocateFrame (hok : allocateFrame t = .ok frame t') : WellFormed t' ∧ t'.spaces = t.spaces := by
  obtain ⟨-, rfl⟩ := allocateFrame_ok hok
  refine ⟨h.frames rfl rfl fun x => ?_, rfl⟩
  change _ ≤ (t.addFrame frame 0).references x
  rw [references_addFrame]
  omega

theorem releaseFrame (hok : releaseFrame frame t = .ok u t') : Kept t t' ∧ t'.spaces = t.spaces := by
  obtain ⟨r, hr, hzero, rfl⟩ := releaseFrame_ok hok
  have hsame : ∀ x, (t.dropFrame frame).references x = t.references x := by
    intro x
    have hx := references_dropFrame hr x
    rwa [hzero, ite_self] at hx
  exact ⟨⟨h.frames rfl rfl fun x => (hsame x).ge, fun hb =>
    ⟨nodup_map_remove hb.unique, fun x => (hsame x).le.trans (hb.le_uses x)⟩⟩, rfl⟩

/-- One more mapping, for which a reference has been taken. -/
theorem push (hretain : retainFrame m.frame t = .ok u t1)
    (ha : t.find id = some a) (hf : ∀ a, (f a).id = a.id)
    (hpush : (f a).mappings = a.mappings ++ [m]) (hnew : m.page ∉ a.mappings.map Mapping.page)
    (hroom : a.mappings.length < maxMappingsPerSpace) : Kept t (adjustSpace id f t1) := by
  obtain ⟨hspaces, hnext, hretained, hunique⟩ := retainFrame_ok hretain
  have hcount : ∀ x, countFrame x (f a).mappings =
      countFrame x a.mappings + if m.frame = x then 1 else 0 := by
    intro x
    rw [hpush]
    simp [countFrame]
  refine h.adjust hspaces hnext ha hf ?_ ?_ (fun x => ?_) fun hb => ⟨hunique hb.unique, fun x => ?_⟩
  · rw [hpush]
    exact nodup_map_concat (h.pages a (mem_of_lookup ha)) hnew
  · rw [hpush, length_append]
    exact hroom
  · have hx := h.retain hretain x
    have hmore := hcount x
    omega
  · have hx := (hretained x).2
    have hle := hb.le_uses x
    have hmore := hcount x
    omega

theorem map (hok : map id page frame permissions t = .ok m t') :
    Kept t t' ∧ m = ⟨page, frame, permissions, false⟩ ∧ ¬ permissions.WritableExecutable ∧
      (∀ n, t.Maps id n → n.page ≠ page) ∧ ∀ i n, t'.Maps i n ↔ t.Maps i n ∨ i = id ∧ n = m := by
  obtain ⟨a, t1, hvalid, ha, hnone, hroom, hretain, hm, rfl⟩ := map_ok hok
  obtain ⟨hspaces, -, -⟩ := retainFrame_ok hretain
  have hnew : m.page ∉ a.mappings.map Mapping.page := by
    rw [hm]
    exact lookup_eq_none.1 hnone
  have hframe : m.frame = frame := by rw [hm]
  rw [← hframe] at hretain
  refine ⟨h.push hretain ha (fun _ => rfl) rfl hnew hroom, hm, hvalid, ?_, ?_⟩
  · rintro n hn rfl
    rw [maps_iff_of_lookup h.ids ha] at hn
    exact lookup_eq_none.1 hnone (mem_map_of_mem hn)
  · intro i n
    rw [maps_adjustSpace (f := AddressSpace.bumpGeneration ∘ AddressSpace.append [m]) h.ids
      (fun _ => rfl) hspaces ha]
    change i = id ∧ n ∈ a.mappings ++ [m] ∨ _ ↔ _
    rw [mem_append, ← maps_iff_of_lookup h.ids ha]
    by_cases hi : i = id
    · subst hi
      simp
    · simp [hi]

theorem mapNew_ok (hok : mapNew id page permissions t = .ok m t') :
    ∃ frame t1, AddressSpaceTable.allocateFrame t = .ok frame t1 ∧ frame.raw = t.nextFrameNumber ∧
      t1.spaces = t.spaces ∧ WellFormed t1 ∧ AddressSpaceTable.map id page frame permissions t1 = .ok m t' := by
  simp only [mapNew, bind_ok, onError_ok] at hok
  obtain ⟨frame, t1, hallocate, hmap⟩ := hok
  obtain ⟨h1, hspaces⟩ := h.allocateFrame hallocate
  exact ⟨frame, t1, hallocate, (allocateFrame_ok hallocate).1, hspaces, h1, hmap⟩

theorem mapNew_error {e : Fault MemoryError} (herror : mapNew id page permissions t = .error e t') :
    WellFormed t' ∧ t'.spaces = t.spaces ∧ (Balanced t → NextUnrecorded t → Balanced t') := by
  rcases bind_error.1 herror with herror | ⟨frame, t1, hok, herror⟩
  · rw [atomic_allocateFrame _ _ _ herror]
    exact ⟨h, rfl, fun hb _ => hb⟩
  · obtain ⟨t2, hmap, rfl⟩ := onError_error.1 herror
    obtain ⟨h1, hspaces⟩ := h.allocateFrame hok
    have hb1 := fun (hb : Balanced t) hnext => (hb.allocateFrame hnext hok).1
    rw [atomic_map _ _ _ _ _ _ _ hmap]
    rcases (atomic_releaseFrame frame).endState with hsame | ⟨u, hok'⟩
    · rw [hsame]
      exact ⟨h1, hspaces, hb1⟩
    · obtain ⟨⟨h2, hb2⟩, hspaces'⟩ := h1.releaseFrame hok'
      exact ⟨h2, hspaces'.trans hspaces, fun hb hnext => hb2 (hb1 hb hnext)⟩

theorem unmap (hok : unmap id page t = .ok m t') : Kept t t' ∧ ∀ i n, t'.Maps i n → t.Maps i n := by
  obtain ⟨a, ha, hm, rfl⟩ := unmap_ok hok
  have hamem := mem_of_lookup ha
  have hremoved : ∀ x, countFrame x (AddressSpace.bumpGeneration (a.dropPage page)).mappings + _ = _ :=
    fun x => countFrame_remove x hm
  refine ⟨h.adjust kept_releaseReference.1 kept_releaseReference.2 ha (fun _ => rfl) ?_ ?_ (fun x => ?_)
    fun hb => ?_, ?_⟩
  · exact nodup_map_remove (h.pages a hamem)
  · exact length_remove_le.trans (h.room a hamem)
  · have hreleased : t.references x ≤ (t.releaseReference m.frame).references x + _ :=
      references_releaseReference x
    have hcounted := h.counted x
    have hx := hremoved x
    dsimp only [Function.comp_apply]
    omega
  · obtain ⟨hunique, hle⟩ := releaseReference_le hb.unique (h.references_pos ha hm)
    refine ⟨hunique, fun x => ?_⟩
    have hreleased := hle x
    have hcounted := hb.le_uses x
    have hx := hremoved x
    dsimp only [Function.comp_apply]
    omega
  · intro i n hn
    rw [maps_adjustSpace (f := AddressSpace.bumpGeneration ∘ AddressSpace.dropPage page) h.ids
      (fun _ => rfl) kept_releaseReference.1 ha] at hn
    rcases hn with ⟨rfl, hn⟩ | ⟨-, hn⟩
    · exact (maps_iff_of_lookup h.ids ha).2 (mem_of_mem_remove hn)
    · exact hn

/-- A change of one mapping, together with the references it needs. -/
theorem adjustPage {f : Mapping → Mapping} (hspaces : t1.spaces = t.spaces)
    (hnext : t1.nextSpaceId = t.nextSpaceId) (ha : t.find id = some a) (hm : a.lookupPage page = some m)
    (hf : ∀ m, (f m).page = m.page) (hcount : ∀ x, t.uses x + (if (f m).frame = x then 1 else 0) ≤
      t1.references x + if m.frame = x then 1 else 0)
    (hbalance : Balanced t → t1.Unique ∧ ∀ x, t1.references x + (if m.frame = x then 1 else 0) ≤
      t.uses x + if (f m).frame = x then 1 else 0) :
    let t' := adjustSpace id (.bumpGeneration ∘ .adjustPage page f) t1
    Kept t t' ∧ ∀ i n, t'.Maps i n ↔ i = id ∧ n = f m ∨ ¬ (i = id ∧ n.page = page) ∧ t.Maps i n := by
  have hamem := mem_of_lookup ha
  have hpages := h.pages a hamem
  have hsum : ∀ x, countFrame x (AddressSpace.bumpGeneration (a.adjustPage page f)).mappings + _ = _ :=
    fun x => countFrame_adjust x (g := f) hm
  refine ⟨h.adjust hspaces hnext ha (fun _ => rfl) ?_ ?_ (fun x => ?_)
    fun hb => ⟨(hbalance hb).1, fun x => ?_⟩, ?_⟩
  · exact (map_key_adjust hf).symm ▸ hpages
  · have hlength := congrArg length (map_key_adjust (k := page) (l := a.mappings) hf)
    rw [length_map, length_map] at hlength
    exact hlength.le.trans (h.room a hamem)
  · have hx := hcount x
    have hadjusted := hsum x
    dsimp only [Function.comp_apply]
    omega
  · have hx := (hbalance hb).2 x
    have hadjusted := hsum x
    dsimp only [Function.comp_apply]
    omega
  · intro i n
    rw [maps_adjustSpace (f := AddressSpace.bumpGeneration ∘ AddressSpace.adjustPage page f) h.ids
      (fun _ => rfl) hspaces ha]
    change i = id ∧ n ∈ Keyed.adjust Mapping.page page f a.mappings ∨ _ ↔ _
    rw [mem_adjust_iff hpages hm, ← maps_iff_of_lookup h.ids ha]
    by_cases hi : i = id
    · subst hi
      simp
    · simp [hi]

theorem protect {m' : Mapping} (hok : protect id page permissions t = .ok m' t') :
    Kept t t' ∧ ∃ m, t.Maps id m ∧ m.page = page ∧ m' = { m with permissions } ∧
      ¬ permissions.WritableExecutable ∧ ¬ (m.copyOnWrite = true ∧ permissions.writableFlag = true) ∧
      ∀ i n, t'.Maps i n ↔ i = id ∧ n = { m with permissions } ∨ ¬ (i = id ∧ n.page = page) ∧ t.Maps i n := by
  obtain ⟨a, m, hvalid, ha, hm, hcow, hm', rfl⟩ := protect_ok hok
  obtain ⟨hmem, hpage⟩ := (h.lookupPage_eq_some ha).1 hm
  obtain ⟨h', hmaps⟩ := h.adjustPage (f := ({ · with permissions })) rfl rfl ha hm (fun _ => rfl)
    (fun x => Nat.add_le_add_right (h.counted x) _)
    fun hb => ⟨hb.unique, fun x => Nat.add_le_add_right (hb.le_uses x) _⟩
  exact ⟨h', m, (maps_iff_of_lookup h.ids ha).2 hmem, hpage, hm', hvalid, hcow, hmaps⟩

theorem resolveCowFault {r : CowResolution} (hok : resolveCowFault id page frame t = .ok r t') :
    Kept t t' ∧ ∃ m, t.Maps id m ∧ m.page = page ∧ m.copyOnWrite = true ∧ ∀ i n, t'.Maps i n ↔
        i = id ∧ n = m.resolve frame ∨ ¬ (i = id ∧ n.page = page) ∧ t.Maps i n := by
  obtain ⟨a, m, t1, ha, hm, hcow, hframe, hretain, rfl⟩ := resolveCowFault_ok hok
  obtain ⟨hmem, hpage⟩ := (h.lookupPage_eq_some ha).1 hm
  obtain ⟨hspaces, hnext, hretained, hunique⟩ := retainFrame_ok hretain
  have hspaces2 : (t1.releaseReference m.frame).spaces = t.spaces := kept_releaseReference.1.trans hspaces
  have hcount : ∀ x, t.uses x + (if frame = x then 1 else 0) ≤
      (t1.releaseReference m.frame).references x + if m.frame = x then 1 else 0 := fun x =>
    (h.retain hretain x).trans (references_releaseReference x)
  have hbalance : Balanced t → (t1.releaseReference m.frame).Unique ∧
      ∀ x, (t1.releaseReference m.frame).references x + (if m.frame = x then 1 else 0) ≤
        t.uses x + if frame = x then 1 else 0 := by
    intro hb
    have hpos := ((h.references_pos ha hm).trans_le (hb.le_uses _)).trans_le
      ((Nat.le_add_right _ _).trans (h.retain hretain m.frame))
    obtain ⟨hunique', hle⟩ := releaseReference_le (hunique hb.unique) hpos
    exact ⟨hunique', fun x => (hle x).trans ((hretained x).2.trans (Nat.add_le_add_right (hb.le_uses x) _))⟩
  obtain ⟨h', hmaps⟩ := h.adjustPage (f := .resolve frame) hspaces2
    (kept_releaseReference.2.trans hnext) ha hm (fun _ => rfl) hcount hbalance
  exact ⟨h', m, (maps_iff_of_lookup h.ids ha).2 hmem, hpage, hcow, hmaps⟩

/-! ### Cloning -/

/-- A change of one space that keeps the pages and frames of its mappings. -/
theorem adjust_same (ha : t.find id = some a) (hf : ∀ a, (f a).id = a.id)
    (hpages : (f a).mappings.map Mapping.page = a.mappings.map Mapping.page)
    (hframes : ∀ x, countFrame x (f a).mappings = countFrame x a.mappings) : Kept t (adjustSpace id f t) := by
  have hamem := mem_of_lookup ha
  refine h.adjust rfl rfl ha hf ?_ ?_ (fun x => ?_) fun hb => ⟨hb.unique, fun x => ?_⟩
  · exact hpages ▸ h.pages a hamem
  · have hlength := congrArg length hpages
    rw [length_map, length_map] at hlength
    exact hlength.le.trans (h.room a hamem)
  · rw [hframes x]
    exact Nat.add_le_add_right (h.counted x) _
  · rw [hframes x]
    exact Nat.add_le_add_right (hb.le_uses x) _

/-- Giving the child its mappings cannot fail: every frame is mapped by the parent, so that it has
a record, and retaining a frame that has a record succeeds. -/
theorem cloneMappings {c : AddressSpace} {rest : List Mapping} (hc : t.find child = some c)
    (hused : ∀ m ∈ rest, 0 < t.uses m.frame) (hpages : ((c.mappings ++ rest).map Mapping.page).Nodup)
    (hroom : (c.mappings ++ rest).length ≤ maxMappingsPerSpace) :
    ∃ t', cloneMappings child rest t = .ok () t' ∧ Kept t t' ∧ t'.spaces =
        Keyed.adjust AddressSpace.id child (AddressSpace.append (rest.map Mapping.share)) t.spaces := by
  induction rest generalizing t c with
  | nil =>
    refine ⟨t, rfl, ⟨h, fun hb => hb⟩, ?_⟩
    have hid : AddressSpace.append [] = id := by
      funext a
      simp [AddressSpace.append]
    rw [map_nil, hid, Keyed.adjust, modify_id]
  | cons m rest ih =>
    obtain ⟨t1, hretain⟩ := retainFrame_of_references
      ((hused m mem_cons_self).trans_le (h.counted m.frame))
    obtain ⟨hspaces, -, -⟩ := retainFrame_ok hretain
    have hroom' : c.mappings.length < maxMappingsPerSpace := by
      rw [length_append, length_cons] at hroom
      omega
    have hnew : m.share.page ∉ c.mappings.map Mapping.page := by
      rw [Mapping.page_share]
      rw [map_append, nodup_append] at hpages
      exact fun hmem => hpages.2.2 _ hmem _ mem_cons_self rfl
    have hretain' : retainFrame m.share.frame t = .ok () t1 := by
      rw [Mapping.frame_share]
      exact hretain
    have h2 := h.push (f := .append [m.share]) hretain' hc (fun _ => rfl) rfl hnew hroom'
    set t2 := adjustSpace child (.append [m.share]) t1 with ht2
    have hc2 : t2.find child = some (c.append [m.share]) := by
      have hf : ∀ a, (AddressSpace.append [m.share] a).id = a.id := fun _ => rfl
      rw [find, ht2, adjustSpace, hspaces, lookup_adjust_self hf, ← find, hc, map_some]
    have hused2 : ∀ n ∈ rest, 0 < t2.uses n.frame := by
      intro n hn
      have hbefore := hused n (mem_cons_of_mem _ hn)
      have huses := uses_adjustSpace (f := .append [m.share]) hspaces hc n.frame
      rw [← ht2] at huses
      have hmore : countFrame n.frame c.mappings ≤ countFrame n.frame (c.append [m.share]).mappings :=
        (sublist_append_left _ _).countP_le
      omega
    have hpages2 : (((c.append [m.share]).mappings ++ rest).map Mapping.page).Nodup := by
      simpa [AddressSpace.append] using hpages
    have hroom2 : ((c.append [m.share]).mappings ++ rest).length ≤ maxMappingsPerSpace := by
      simpa [AddressSpace.append] using hroom
    obtain ⟨t', hloop, h', hspaces'⟩ := ih h2.wellFormed hc2 hused2 hpages2 hroom2
    refine ⟨t', ?_, h2.trans h', ?_⟩
    · simp only [AddressSpaceTable.cloneMappings, op_ok]
      exact ⟨(), t1, hretain, (), t2, rfl, hloop⟩
    · have hf : ∀ a, (AddressSpace.append [m.share] a).id = a.id := fun _ => rfl
      rw [hspaces', ht2, adjustSpace, adjust_adjust hf]
      congr 1
      funext a
      simp [AddressSpace.append]

/-- The table after the child has got its mappings, before those of the parent are marked. -/
theorem cloneMappings_of_create (ha : t.find parent = some a)
    (hcreate : AddressSpaceTable.create owner t = .ok child t1) :
    ∃ t2, AddressSpaceTable.cloneMappings child a.mappings t1 = .ok () t2 ∧ Kept t t2 ∧
      child ≠ parent ∧ (∀ n, ¬ t.Maps child n) ∧ t2.find parent = some a ∧ t2.find child =
        some ⟨child, owner, 0, a.mappings.map Mapping.share⟩ ∧
      ∀ i n, i ≠ child → (t2.Maps i n ↔ t.Maps i n) := by
  obtain ⟨hcreated, hnone, hchild, hmaps⟩ := h.create hcreate
  have h1 := hcreated.wellFormed
  have hne : child ≠ parent := by
    rintro rfl
    rw [hnone] at ha
    simp at ha
  have hparent : t1.find parent = some a := by
    obtain ⟨-, -, rfl⟩ := create_ok hcreate
    rw [find, Keyed.lookup_append, ← find, ha, some_or]
  have hamem := mem_of_lookup ha
  have hused : ∀ m ∈ a.mappings, 0 < t1.uses m.frame := fun m hm =>
    uses_pos ((maps_iff_of_lookup h1.ids hparent).2 hm)
  obtain ⟨t2, hloop, hcloned, hspaces⟩ := h1.cloneMappings hchild hused (h.pages a hamem) (h.room a hamem)
  have hf : ∀ c, (AddressSpace.append (a.mappings.map Mapping.share) c).id = c.id := fun _ => rfl
  refine ⟨t2, hloop, hcreated.trans hcloned, hne, ?_, ?_, ?_, ?_⟩
  · intro n hn
    obtain ⟨b, hb, -⟩ := (maps_iff h.ids).1 hn
    rw [hnone] at hb
    simp at hb
  · rw [find, hspaces, lookup_adjust_ne hf hne.symm, ← find, hparent]
  · rw [find, hspaces, lookup_adjust_self hf, ← find, hchild]
    simp [AddressSpace.append]
  · intro i n hi
    rw [maps_iff hcloned.wellFormed.ids, find, hspaces, lookup_adjust_ne hf hi, ← maps_iff h1.ids, hmaps]

/-- Marking the mappings of the parent and counting both generations up. -/
theorem finishClone {c : AddressSpace} (hne : child ≠ parent)
    (ha : t.find parent = some a) (hc : t.find child = some c) :
    let t' := adjustSpace child .bumpGeneration
      (adjustSpace parent (.bumpGeneration ∘ .share) t)
    Kept t t' ∧ ∀ i n, t'.Maps i n ↔ i = parent ∧ n ∈ a.mappings.map .share ∨ i ≠ parent ∧ t.Maps i n := by
  have hshare : ∀ b, ((AddressSpace.bumpGeneration ∘ AddressSpace.share) b).id = b.id := fun _ => rfl
  have hbump : ∀ b, (AddressSpace.bumpGeneration b).id = b.id := fun _ => rfl
  have h1 : Kept t (adjustSpace parent (.bumpGeneration ∘ .share) t) := by
    refine h.adjust_same ha hshare ?_ ?_
    · change (a.mappings.map Mapping.share).map Mapping.page = _
      simp
    · intro x
      change countFrame x (a.mappings.map .share) = _
      simp [countFrame, Function.comp_def]
  have hc1 : (adjustSpace parent (.bumpGeneration ∘ .share) t).find child = some c := by
    rw [find, adjustSpace, lookup_adjust_ne hshare hne, ← find, hc]
  have h2 := h1.wellFormed.adjust_same hc1 hbump rfl fun _ => rfl
  refine ⟨h1.trans h2, fun i n => ?_⟩
  rw [maps_adjustSpace h1.wellFormed.ids hbump rfl hc1]
  change i = child ∧ n ∈ c.mappings ∨ _ ↔ _
  rw [maps_adjustSpace h.ids hshare rfl ha, ← maps_iff_of_lookup h.ids hc]
  change i = child ∧ t.Maps child n ∨ i ≠ child ∧ (i = parent ∧ n ∈ a.mappings.map .share ∨ _) ↔ _
  by_cases hi : i = child
  · subst hi
    simp [hne]
  · simp [hi]

theorem cloneCow (hok : cloneCow parent owner t = .ok child t') :
    Kept t t' ∧ child ≠ parent ∧ (∀ n, ¬ t.Maps child n) ∧ ∀ i n, t'.Maps i n ↔
        (i = child ∨ i = parent) ∧ (∃ m, t.Maps parent m ∧ n = m.share) ∨
          i ≠ child ∧ i ≠ parent ∧ t.Maps i n := by
  simp only [AddressSpaceTable.cloneCow, op_ok, space_ok] at hok
  obtain ⟨a, t, ⟨ha, rfl⟩, child', t1, hcreate, _, _, ⟨-, rfl⟩, _, t3, hloop, _, _, rfl, _, _, rfl,
    _, _, rfl, rfl, rfl⟩ := hok
  obtain ⟨t2, hloop2, h2, hne, hempty, hparent, hchild, hother⟩ := h.cloneMappings_of_create ha hcreate
  rw [hloop2] at hloop
  injection hloop with _ ht
  subst ht
  obtain ⟨h', hmaps⟩ := h2.wellFormed.finishClone hne hparent hchild
  have hboth : ∀ b, (AddressSpace.share b).id = b.id := fun _ => rfl
  rw [← adjustSpace_adjustSpace hboth] at h' hmaps
  refine ⟨h2.trans h', hne, hempty, ?_⟩
  have hshared : ∀ n, n ∈ a.mappings.map .share ↔ ∃ m, t.Maps parent m ∧ n = m.share := by
    intro n
    simp only [List.mem_map, ← maps_iff_of_lookup h.ids ha, eq_comm]
  intro i n
  rw [hmaps, hshared]
  by_cases hi : i = child
  · subst hi
    rw [maps_iff_of_lookup h2.wellFormed.ids hchild, hshared]
    simp [hne]
  · rw [hother i n hi]
    simp [hi]

/-- Cloning fails only before it has changed anything. -/
theorem cloneCow_error {e : Fault MemoryError}
    (herror : AddressSpaceTable.cloneCow parent owner t = .error e t') : t' = t := by
  rcases bind_error.1 herror with hfind | ⟨a, _, ha, hrest⟩
  · exact (read_error.1 hfind).2
  obtain ⟨ha, rfl⟩ := read_ok.1 ha
  rcases bind_error.1 hrest with hcreate | ⟨child, t1, hcreate, hrest1⟩
  · exact atomic_create _ _ _ _ hcreate
  obtain ⟨t2, hloop, -⟩ := h.cloneMappings_of_create (space_ok.1 ha) hcreate
  obtain ⟨-, -, hchild, -⟩ := h.create hcreate
  rcases bind_error.1 hrest1 with hfind | ⟨_, _, hfind, hrest2⟩
  · have hfound := space_ok.2 hchild
    rw [(read_error.1 hfind).1] at hfound
    simp at hfound
  rw [(read_ok.1 hfind).2] at hrest2
  -- the loop does not fail, and what follows it cannot
  rcases bind_error.1 hrest2 with hfail | ⟨_, _, -, hfail⟩
  · rw [hloop] at hfail
    simp at hfail
  · exact absurd hfail ((total_modify.bind fun _ => total_modify.bind fun _ =>
      total_modify.bind fun _ => total_return) _ _ _)

end WellFormed

end AddressSpaceTable

end Memory
