/-
**The allocation-group descriptor table.**

A volume is cut into allocation groups.  A descriptor says where a group keeps its bitmaps, its inode
table and its data; the descriptors are stored in blocks with room for 42 of them.

* `AllocationGroupDescriptor`, `AllocationGroupTable` — the values;
* `validate` — which tables describe the groups of a given superblock;
* `encode`, `decode` — the codec;
* `decode_encode`, `encode_of_decode`, `noTrap_decode`.
-/

import NullStar.Superblock

set_option autoImplicit false

namespace NullFS

open Bytes Rust List

def allocationGroupTableHeaderBytes : ℕ := 64
def allocationGroupDescriptorBytes : ℕ := 96
def allocationGroupTableChecksumOffset : ℕ := 60
def phase2InodesPerGroup : ℕ := 256
def phase2InodeTableBlocks : ℕ := 16

/-! ### Descriptors -/

structure AllocationGroupDescriptor where
  groupIndex : UInt32 := 0
  flags : UInt32 := 0
  groupStartBlock : UInt64 := 0
  groupBlockCount : UInt64 := 0
  blockBitmapBlock : UInt64 := 0
  inodeBitmapBlock : UInt64 := 0
  inodeTableFirstBlock : UInt64 := 0
  inodeTableBlockCount : UInt32 := 0
  inodesInGroup : UInt32 := 0
  firstDataBlock : UInt64 := 0
  dataEndBlock : UInt64 := 0
  rootInodeIndex : Option UInt32 := none
  deriving DecidableEq

namespace AllocationGroupDescriptor

variable (d : AllocationGroupDescriptor)

def validate (sb : Superblock) : Outcome FormatError Unit := do
  rejectIf (d.flags ≠ 0 ∨ sb.allocationGroupCount ≤ d.groupIndex) .invalidAllocationGroupDescriptor
  let expectedStart ← okOr (checkedMul 64 d.groupIndex.toNat sb.allocationGroupBlocks.toNat)
    .arithmeticOverflow
  let remaining ← okOr (checkedSub sb.capacityBlocks.toNat expectedStart)
    .invalidAllocationGroupDescriptor
  let expectedCount := min remaining sb.allocationGroupBlocks.toNat
  let expectedEnd ← trapAdd 64 expectedStart expectedCount
  rejectIf (d.groupStartBlock.toNat ≠ expectedStart ∨ d.groupBlockCount.toNat ≠ expectedCount ∨
    d.inodeTableBlockCount.toNat ≠ phase2InodeTableBlocks ∨
    d.inodesInGroup.toNat ≠ phase2InodesPerGroup ∨ d.dataEndBlock < d.firstDataBlock ∨
    d.dataEndBlock.toNat ≠ expectedEnd) .invalidAllocationGroupDescriptor
  let groupEnd ← okOr (checkedAdd 64 expectedStart expectedCount) .arithmeticOverflow
  let inodeTableEnd ← okOr (checkedAdd 64 d.inodeTableFirstBlock.toNat
    d.inodeTableBlockCount.toNat) .arithmeticOverflow
  let metadataFloor := max expectedStart sb.firstAllocatableBlock.toNat
  rejectIf (d.blockBitmapBlock.toNat < metadataFloor ∨ groupEnd ≤ d.blockBitmapBlock.toNat ∨
    d.inodeBitmapBlock.toNat < metadataFloor ∨ groupEnd ≤ d.inodeBitmapBlock.toNat ∨
    d.inodeTableFirstBlock.toNat < metadataFloor ∨ groupEnd < inodeTableEnd ∨
    d.firstDataBlock.toNat < inodeTableEnd ∨ d.blockBitmapBlock = d.inodeBitmapBlock ∨
    (d.inodeTableFirstBlock ≤ d.blockBitmapBlock ∧ d.blockBitmapBlock.toNat < inodeTableEnd) ∨
    (d.inodeTableFirstBlock ≤ d.inodeBitmapBlock ∧ d.inodeBitmapBlock.toNat < inodeTableEnd) ∨
    d.rootInodeIndex.any (phase2InodesPerGroup ≤ ·.toNat) = true) .invalidAllocationGroupDescriptor

def fields : List Field :=
  [u32Field 0 d.groupIndex, u32Field 4 d.flags, u64Field 8 d.groupStartBlock,
    u64Field 16 d.groupBlockCount, u64Field 24 d.blockBitmapBlock, u64Field 32 d.inodeBitmapBlock,
    u64Field 40 d.inodeTableFirstBlock, u32Field 48 d.inodeTableBlockCount,
    u32Field 52 d.inodesInGroup, u64Field 56 d.firstDataBlock, u64Field 64 d.dataEndBlock,
    u32Field 72 (d.rootInodeIndex.getD 0xffffffff)]

/-- `encode_into`, on a slot that is still zero. -/
def encodeInto : Buf allocationGroupDescriptorBytes :=
  render allocationGroupDescriptorBytes d.fields

def decodeFrom (input : Buf allocationGroupDescriptorBytes) :
    Outcome FormatError AllocationGroupDescriptor := do
  let reserved ← subslice input.1 76 20
  rejectIf (allZero reserved = false) .nonZeroPhase2ReservedBytes
  let root ← getU32 input.1 72
  let groupIndex ← getU32 input.1 0
  let flags ← getU32 input.1 4
  let groupStartBlock ← getU64 input.1 8
  let groupBlockCount ← getU64 input.1 16
  let blockBitmapBlock ← getU64 input.1 24
  let inodeBitmapBlock ← getU64 input.1 32
  let inodeTableFirstBlock ← getU64 input.1 40
  let inodeTableBlockCount ← getU32 input.1 48
  let inodesInGroup ← getU32 input.1 52
  let firstDataBlock ← getU64 input.1 56
  let dataEndBlock ← getU64 input.1 64
  return { groupIndex, flags, groupStartBlock, groupBlockCount, blockBitmapBlock, inodeBitmapBlock,
           inodeTableFirstBlock, inodeTableBlockCount, inodesInGroup, firstDataBlock, dataEndBlock
           rootInodeIndex := if root ≠ 0xffffffff then some root else none }

variable (b : Buf allocationGroupDescriptorBytes)

def read : AllocationGroupDescriptor where
  groupIndex := u32At b.1 0
  flags := u32At b.1 4
  groupStartBlock := u64At b.1 8
  groupBlockCount := u64At b.1 16
  blockBitmapBlock := u64At b.1 24
  inodeBitmapBlock := u64At b.1 32
  inodeTableFirstBlock := u64At b.1 40
  inodeTableBlockCount := u32At b.1 48
  inodesInGroup := u32At b.1 52
  firstDataBlock := u64At b.1 56
  dataEndBlock := u64At b.1 64
  rootInodeIndex := if u32At b.1 72 ≠ 0xffffffff then some (u32At b.1 72) else none

theorem decodeFrom_eq : decodeFrom b = (do
    rejectIf (allZero (slice b.1 76 20) = false) .nonZeroPhase2ReservedBytes
    return read b) := by
  simp (disch := decide) only [decodeFrom, reads_buf]
  rfl

variable {d}

theorem decodeFrom_eq_ok {b : Buf allocationGroupDescriptorBytes} :
    decodeFrom b = .ok d ↔ allZero (slice b.1 76 20) = true ∧ d = read b := by
  simp only [decodeFrom_eq, run_eq_ok, Bool.not_eq_false]
  exact and_congr_right fun _ => eq_comm

def slotTiles : List Tile :=
  [.field 0 4, .field 4 4, .field 8 8, .field 16 8, .field 24 8, .field 32 8, .field 40 8,
    .field 48 4, .field 52 4, .field 56 8, .field 64 8, .field 72 4, .gap 76 20]

theorem tiled_slotTiles : Tiled allocationGroupDescriptorBytes 0 slotTiles := by decide

theorem follows_fields (d : AllocationGroupDescriptor) : Follows slotTiles d.fields := rfl

/-- A root index that passes validation is not mistaken for a missing one. -/
theorem root_getD {root : Option UInt32} (h : root ≠ some 0xffffffff) :
    (if root.getD 0xffffffff ≠ 0xffffffff then some (root.getD 0xffffffff) else none) = root := by
  cases root with
  | none => rfl
  | some r =>
    have hr : r ≠ 0xffffffff := fun hr => h (by rw [hr])
    exact if_pos hr

theorem getD_root (r : UInt32) : (if r ≠ 0xffffffff then some r else none).getD 0xffffffff = r := by
  split <;> simp_all

theorem eq_encodeInto_iff {b : Buf allocationGroupDescriptorBytes}
    (h : d.rootInodeIndex ≠ some 0xffffffff) : b = d.encodeInto ↔
      allZero (slice b.1 76 20) = true ∧ d = read b := by
  rw [encodeInto, eq_render_iff tiled_slotTiles d.follows_fields]
  obtain ⟨groupIndex, flags, start, count, blockBitmap, inodeBitmap, inodeTable, tableBlocks, inodes,
    firstData, dataEnd, root⟩ := d
  simp (disch := decide) only [fields, slotTiles, holds_fields, zero_tiles, and_true, read,
    mk.injEq, and_assoc]
  constructor
  · rintro ⟨rfl, rfl, rfl, rfl, rfl, rfl, rfl, rfl, rfl, rfl, rfl, hroot, hz⟩
    exact ⟨hz, rfl, rfl, rfl, rfl, rfl, rfl, rfl, rfl, rfl, rfl, rfl, by rw [hroot, root_getD h]⟩
  · rintro ⟨hz, rfl, rfl, rfl, rfl, rfl, rfl, rfl, rfl, rfl, rfl, rfl, rfl⟩
    exact ⟨rfl, rfl, rfl, rfl, rfl, rfl, rfl, rfl, rfl, rfl, rfl, (getD_root _).symm, hz⟩

theorem root_of_validate {sb : Superblock} (h : d.validate sb = .ok ()) :
    d.rootInodeIndex ≠ some 0xffffffff := by
  simp only [validate, run_eq_ok, not_or] at h
  obtain ⟨-, _, -, _, -, _, -, -, _, -, _, -, -, -, -, -, -, -, -, -, -, -, hroot⟩ := h
  intro hmax
  rw [hmax] at hroot
  exact hroot (by decide)

theorem noTrap_validate (d : AllocationGroupDescriptor) (sb : Superblock) : NoTrap (d.validate sb) := by
  refine .rejectIf_bind fun _ => noTrap_okOr.bind fun start _ =>
    noTrap_okOr.bind fun remaining hrem => ?_
  -- the end of the group is at capacity, which is a machine word
  rw [okOr_eq_ok, checkedSub_eq_some] at hrem
  have hcap := sb.capacityBlocks.toNat_lt
  exact (noTrap_trapAdd (by omega)).bind fun _ _ => by simp [noTrap_bind]

end AllocationGroupDescriptor

/-! ### Tables -/

structure AllocationGroupTable where
  (firstDescriptorIndex totalDescriptorCount tableBlockIndex tableBlockCount : UInt32)
  physicalBlock : UInt64
  descriptorCount : UInt16
  descriptors : Fin allocationGroupDescriptorsPerBlock → AllocationGroupDescriptor

namespace AllocationGroupTable

def new (firstDescriptorIndex totalDescriptorCount tableBlockIndex tableBlockCount : UInt32)
    (physicalBlock : UInt64) : AllocationGroupTable :=
  { firstDescriptorIndex, totalDescriptorCount, tableBlockIndex, tableBlockCount, physicalBlock
    descriptorCount := 0, descriptors := fun _ => {} }

variable (table : AllocationGroupTable)

def push (descriptor : AllocationGroupDescriptor) : Outcome FormatError AllocationGroupTable := do
  let index := table.descriptorCount.toNat
  rejectIf (allocationGroupDescriptorsPerBlock ≤ index) .tooManyAllocationGroupDescriptors
  return { table with
    descriptors := fun i => if i.val = index then descriptor else table.descriptors i
    descriptorCount := table.descriptorCount + 1 }

variable (sb : Superblock)

def checkDescriptor (i : Fin allocationGroupDescriptorsPerBlock) : Outcome FormatError Unit := do
  let index ← trapAdd 32 table.firstDescriptorIndex.toNat i.val
  rejectIf ((table.descriptors i).groupIndex.toNat ≠ index) .invalidAllocationGroupTable
  (table.descriptors i).validate sb

/-- The indices of the descriptors in use, and of those that are not. -/
def used : List (Fin allocationGroupDescriptorsPerBlock) :=
  (List.finRange allocationGroupDescriptorsPerBlock).filter (·.val < table.descriptorCount.toNat)

def unused : List (Fin allocationGroupDescriptorsPerBlock) :=
  (List.finRange allocationGroupDescriptorsPerBlock).filter
    (table.descriptorCount.toNat ≤ ·.val)

def validate : Outcome FormatError Unit := do
  let count := table.descriptorCount.toNat
  rejectIf (sb.phase2Enabled = false ∨ allocationGroupDescriptorsPerBlock < count ∨
    table.totalDescriptorCount ≠ sb.allocationGroupCount ∨
    table.tableBlockCount ≠ sb.descriptorReservationBlocks ∨
    table.tableBlockCount ≤ table.tableBlockIndex) .invalidAllocationGroupTable
  let physical ← okOr (checkedAdd 64 sb.firstDescriptorBlock.toNat table.tableBlockIndex.toNat)
    .arithmeticOverflow
  rejectIf (table.physicalBlock.toNat ≠ physical ∨ table.firstDescriptorIndex.toNat ≠
      min (table.tableBlockIndex.toNat * allocationGroupDescriptorsPerBlock) (2 ^ 32 - 1) ∨
    table.totalDescriptorCount.toNat < table.firstDescriptorIndex.toNat + count)
    .invalidAllocationGroupTable
  let remaining ← trapSub table.totalDescriptorCount.toNat table.firstDescriptorIndex.toNat
  rejectIf (count ≠ min remaining allocationGroupDescriptorsPerBlock) .invalidAllocationGroupTable
  each (table.checkDescriptor sb) table.used
  rejectIf (table.unused.any (table.descriptors · ≠ {}) = true) .invalidAllocationGroupTable

/-- The magic number, "NFSAGDT". -/
def magic : List UInt8 := [0x4e, 0x46, 0x53, 0x41, 0x47, 0x44, 0x54, 0]

def slotOffset (i : ℕ) : ℕ := allocationGroupTableHeaderBytes + i * allocationGroupDescriptorBytes

/-- The fields of the header, in the order of the encoder. -/
def headerFields : List Field :=
  [(0, magic), u16Field 8 1, u16Field 10 (UInt16.ofNat allocationGroupTableHeaderBytes),
    u16Field 12 (UInt16.ofNat allocationGroupDescriptorBytes), u16Field 14 table.descriptorCount,
    u32Field 16 table.firstDescriptorIndex, u32Field 20 table.totalDescriptorCount,
    u32Field 24 table.tableBlockIndex, u32Field 28 table.tableBlockCount, u64Field 32 table.physicalBlock]

/-- The descriptors in use. -/
def slotFields : List Field :=
  table.used.map fun i => (slotOffset i.val, (table.descriptors i).encodeInto.1)

def encode : Outcome FormatError Block := do
  table.validate sb
  return putChecksum allocationGroupTableChecksumOffset
    (render blockSize (table.headerFields ++ table.slotFields))

/-- The loop of the decoder over the descriptors in use. -/
def decodeSlots (input : Block) : List ℕ → AllocationGroupTable → Outcome FormatError AllocationGroupTable
  | [], table => .ok table
  | index :: rest, table => do
    let slot ← subarray input.1 (slotOffset index) allocationGroupDescriptorBytes
    let descriptor ← AllocationGroupDescriptor.decodeFrom slot
    let table ← table.push descriptor
    decodeSlots input rest table

/-- Some byte of the tail is not zero.  The tail starts at `start`, and the bytes of the checksum do
not count. -/
def dirtyTail (tail : List UInt8) (start : ℕ) : Bool :=
  (tail.zipIdx start).any fun (byte, absolute) => byte ≠ 0 &&
    !(allocationGroupTableChecksumOffset ≤ absolute && absolute < allocationGroupTableChecksumOffset + 4)

def decode (bytes : List UInt8) (sb : Superblock) : Outcome FormatError AllocationGroupTable :=
  if bytes.length < blockSize then fail (.truncatedPhase2Record blockSize bytes.length)
  else do
    let input ← leading blockSize bytes
    let found ← subslice input.1 0 8
    rejectIf (found ≠ magic) .invalidAllocationGroupTable
    let stored ← getU32 input.1 allocationGroupTableChecksumOffset
    let actual := recordChecksum allocationGroupTableChecksumOffset input
    rejectIf (stored ≠ actual) (.phase2ChecksumMismatch stored actual)
    let version ← getU16 input.1 8
    let headerBytes ← getU16 input.1 10
    let descriptorBytes ← getU16 input.1 12
    let reserved ← subslice input.1 40 20
    rejectIf (version ≠ 1 ∨ headerBytes ≠ UInt16.ofNat allocationGroupTableHeaderBytes ∨
      descriptorBytes ≠ UInt16.ofNat allocationGroupDescriptorBytes ∨ allZero reserved = false)
      .invalidAllocationGroupTable
    let descriptorCount ← getU16 input.1 14
    rejectIf (allocationGroupDescriptorsPerBlock < descriptorCount.toNat)
      .tooManyAllocationGroupDescriptors
    let firstDescriptorIndex ← getU32 input.1 16
    let totalDescriptorCount ← getU32 input.1 20
    let tableBlockIndex ← getU32 input.1 24
    let tableBlockCount ← getU32 input.1 28
    let physicalBlock ← getU64 input.1 32
    let table := new firstDescriptorIndex totalDescriptorCount tableBlockIndex tableBlockCount
      physicalBlock
    let table ← decodeSlots input (List.range descriptorCount.toNat) table
    let usedEnd := slotOffset descriptorCount.toNat
    let tail ← subslice input.1 usedEnd (blockSize - usedEnd)
    rejectIf (dirtyTail tail usedEnd = true) .nonZeroPhase2ReservedBytes
    table.validate sb
    return table

/-! ### The loop of the decoder -/

theorem slotOffset_le {i : ℕ} (h : i < allocationGroupDescriptorsPerBlock) :
    slotOffset i + allocationGroupDescriptorBytes ≤ blockSize := by
  simp only [slotOffset, allocationGroupTableHeaderBytes, allocationGroupDescriptorBytes,
    allocationGroupDescriptorsPerBlock, blockSize] at *
  omega

def slotAt (b : Block) (i : Fin allocationGroupDescriptorsPerBlock) : Buf allocationGroupDescriptorBytes :=
  arrayAt b (slotOffset i.val) allocationGroupDescriptorBytes (slotOffset_le i.isLt)

/-- The table with the descriptors `k` up to `k + m` read from the block. -/
def withSlots (b : Block) (k m : ℕ) : AllocationGroupTable :=
  { table with
    descriptors := fun i => if k ≤ i.val ∧ i.val < k + m then .read (slotAt b i)
      else table.descriptors i
    descriptorCount := UInt16.ofNat (k + m) }

variable {k : ℕ} {table} {sb}

theorem withSlots_zero (b : Block) (hk : table.descriptorCount = UInt16.ofNat k) :
    table.withSlots b k 0 = table := by
  have hnone : ∀ i : Fin allocationGroupDescriptorsPerBlock, ¬ (k ≤ i.val ∧ i.val < k) := by
    omega
  simp only [withSlots, hnone, if_false, Nat.add_zero, ← hk]

/-- Pushing the descriptor of slot `k`, and then reading the slots behind it. -/
theorem withSlots_succ (table : AllocationGroupTable) (b : Block)
    (k : Fin allocationGroupDescriptorsPerBlock) (m : ℕ) :
    withSlots { table with
      descriptors := fun i => if i.val = k.val then .read (slotAt b k) else table.descriptors i
      descriptorCount := UInt16.ofNat (k.val + 1) } b (k.val + 1) m =
      table.withSlots b k.val (m + 1) := by
  simp only [withSlots, mk.injEq, true_and]
  refine ⟨by congr 1; omega, funext fun i => ?_⟩
  by_cases hik : i = k
  · subst hik
    rw [if_neg (by omega), if_pos rfl, if_pos (by omega)]
  · have hne : i.val ≠ k.val := fun h => hik (Fin.ext h)
    simp only [hne]
    congr 1
    rw [eq_iff_iff]
    omega

/-- What the loop does: it reads the slots one after the other, and fails on a slot whose reserved
bytes are not zero. -/
theorem decodeSlots_eq_ok (b : Block) {m : ℕ} {table' : AllocationGroupTable}
    (hk : table.descriptorCount = UInt16.ofNat k) (hm : k + m ≤ allocationGroupDescriptorsPerBlock) :
    decodeSlots b (range' k m) table = .ok table' ↔
      (∀ i : Fin allocationGroupDescriptorsPerBlock, k ≤ i.val → i.val < k + m →
        allZero (slice (slotAt b i).1 76 20) = true) ∧ table' = table.withSlots b k m := by
  induction m generalizing k table with
  | zero =>
    rw [range'_zero, decodeSlots, withSlots_zero b hk, Except.ok.injEq]
    constructor
    · rintro rfl
      exact ⟨fun i h1 h2 => by omega, rfl⟩
    · rintro ⟨-, rfl⟩
      rfl
  | succ m ih =>
    have hlt : k < allocationGroupDescriptorsPerBlock := by omega
    have hcount : table.descriptorCount.toNat = k := by
      simp only [allocationGroupDescriptorsPerBlock] at hlt
      rw [hk, UInt16.toNat_ofNat', Nat.mod_eq_of_lt (by omega)]
    have hnext : table.descriptorCount + 1 = .ofNat (k + 1) := by
      rw [hk, UInt16.ofNat_add]
      rfl
    rw [range'_succ, decodeSlots, subarray_buf b (slotOffset_le hlt), ok_bind]
    simp only [run_eq_ok, AllocationGroupDescriptor.decodeFrom_eq_ok, push, hcount, hnext]
    rw [← table.withSlots_succ b ⟨k, hlt⟩ m]
    constructor
    · rintro ⟨-, ⟨hz, rfl⟩, -, ⟨-, rfl⟩, h⟩
      obtain ⟨hrest, rfl⟩ := (ih rfl (by omega)).1 h
      refine ⟨fun i h1 h2 => ?_, rfl⟩
      rcases Nat.eq_or_lt_of_le h1 with heq | hlt'
      · rw [show i = ⟨k, hlt⟩ from Fin.ext heq.symm]
        exact hz
      · exact hrest i hlt' (by omega)
    · rintro ⟨hz, rfl⟩
      refine ⟨_, ⟨hz ⟨k, hlt⟩ le_rfl (by simp), rfl⟩, _, ⟨by omega, rfl⟩, ?_⟩
      exact (ih rfl (by omega)).2 ⟨fun i h1 h2 => hz i (by omega) (by omega), rfl⟩

/-! ### The block as a layout -/

def readBlock (b : Block) : AllocationGroupTable :=
  (new (u32At b.1 16) (u32At b.1 20) (u32At b.1 24) (u32At b.1 28) (u64At b.1 32)).withSlots b 0
    (u16At b.1 14).toNat

/-- The checks the decoder makes on the bytes of a block. -/
structure WellFormed (b : Block) : Prop where
  magic : slice b.1 0 8 = magic
  checksum : u32At b.1 allocationGroupTableChecksumOffset =
    recordChecksum allocationGroupTableChecksumOffset b
  version : u16At b.1 8 = 1
  headerBytes : u16At b.1 10 = UInt16.ofNat allocationGroupTableHeaderBytes
  descriptorBytes : u16At b.1 12 = UInt16.ofNat allocationGroupDescriptorBytes
  reserved : allZero (slice b.1 40 20) = true
  count_le : (u16At b.1 14).toNat ≤ allocationGroupDescriptorsPerBlock
  slots : ∀ i : Fin allocationGroupDescriptorsPerBlock, i.val < (u16At b.1 14).toNat →
    allZero (slice (slotAt b i).1 76 20) = true
  tail : allZero (slice b.1 (slotOffset (u16At b.1 14).toNat)
    (blockSize - slotOffset (u16At b.1 14).toNat)) = true

/-- The checksum lies in the header, so it never falls into the tail. -/
theorem dirtyTail_eq {tail : List UInt8} {start : ℕ}
    (h : allocationGroupTableHeaderBytes ≤ start) : dirtyTail tail start = !allZero tail := by
  induction tail generalizing start with
  | nil => rfl
  | cons a tail ih =>
    have hout : ¬ start < allocationGroupTableChecksumOffset + 4 := Nat.not_lt.2 h
    have ih := @ih (start + 1) (by omega)
    rw [dirtyTail] at ih ⊢
    rw [zipIdx_cons, any_cons, ih, allZero, allZero]
    by_cases ha : a = 0 <;> simp [ha, hout]

theorem slotOffset_count_le (h : k ≤ allocationGroupDescriptorsPerBlock) :
    allocationGroupTableHeaderBytes ≤ slotOffset k ∧ slotOffset k ≤ blockSize := by
  simp only [slotOffset, allocationGroupTableHeaderBytes, allocationGroupDescriptorBytes,
    allocationGroupDescriptorsPerBlock, blockSize] at *
  omega

theorem decode_eq_ok {b : Block} : decode b.1 sb = .ok table ↔
      WellFormed b ∧ table = readBlock b ∧ table.validate sb = .ok () := by
  rw [decode, if_neg (by omega), leading_buf]
  simp (disch := decide) only [reads_buf, ok_bind]
  simp only [run_eq_ok, not_or, not_not, not_lt, Bool.not_eq_false, Bool.not_eq_true, range_eq_range']
  have hsub : ∀ {k : ℕ}, k ≤ allocationGroupDescriptorsPerBlock →
      (subslice b.1 (slotOffset k) (blockSize - slotOffset k) : Outcome FormatError _) =
        .ok (slice b.1 (slotOffset k) (blockSize - slotOffset k)) := by
    intro k hk
    have := (slotOffset_count_le hk).2
    exact subslice_buf b (by omega)
  constructor
  · rintro ⟨hmagic, hsum, ⟨hv, hh, hd, hres⟩, hcount, t, hslots, tail, htail, hdirty, _, hval, rfl⟩
    obtain ⟨hz, rfl⟩ := (decodeSlots_eq_ok b rfl (by omega)).1 hslots
    rw [hsub hcount] at htail
    cases htail
    rw [dirtyTail_eq (slotOffset_count_le hcount).1, Bool.not_eq_false'] at hdirty
    exact ⟨⟨hmagic, hsum, hv, hh, hd, hres, hcount, fun i hi => hz i (by omega) (by omega), hdirty⟩,
      rfl, hval⟩
  · rintro ⟨hwf, rfl, hval⟩
    refine ⟨hwf.magic, hwf.checksum, ⟨hwf.version, hwf.headerBytes, hwf.descriptorBytes,
      hwf.reserved⟩, hwf.count_le, readBlock b, ?_, _, hsub hwf.count_le, ?_, (), hval, rfl⟩
    · refine (decodeSlots_eq_ok b rfl (by have := hwf.count_le; omega)).2 ⟨fun i _ hi => ?_, rfl⟩
      exact hwf.slots i (by omega)
    · rw [dirtyTail_eq (slotOffset_count_le hwf.count_le).1, hwf.tail]
      rfl

def headerTiles : List Tile :=
  [.field 0 8, .field 8 2, .field 10 2, .field 12 2, .field 14 2, .field 16 4, .field 20 4,
    .field 24 4, .field 28 4, .field 32 8, .gap 40 20, .gap allocationGroupTableChecksumOffset 4]

def slotTiles (count : ℕ) : List Tile :=
  (List.range count).map fun i => Tile.field (slotOffset i) allocationGroupDescriptorBytes

/-- The layout of a table with `count` descriptors. -/
def layout (count : ℕ) (h : count ≤ allocationGroupDescriptorsPerBlock) :
    StampedLayout blockSize allocationGroupTableChecksumOffset where
  tiles := (headerTiles ++ slotTiles count) ++ [.gap (slotOffset count) (blockSize - slotOffset count)]
  tiled := by
    have hle := (slotOffset_count_le h).2
    refine Tiled.append (m := slotOffset count) (Tiled.append (m := allocationGroupTableHeaderBytes)
      (by decide) (tiled_array _ _ _)) ⟨rfl, ?_⟩
    simp only [Tiled, Tile.gap]
    omega
  stamp_mem := by simp [headerTiles]

/-- The descriptors in use, by their numbers. -/
theorem map_used (table : AllocationGroupTable)
    (h : table.descriptorCount.toNat ≤ allocationGroupDescriptorsPerBlock) :
    table.used.map (·.val) = range table.descriptorCount.toNat := by
  obtain ⟨k, hk⟩ := Nat.exists_eq_add_of_le h
  have hfilter : table.used.map (·.val) = (range allocationGroupDescriptorsPerBlock).filter
      (· < table.descriptorCount.toNat) := by
    rw [← map_coe_finRange_eq_range, filter_map]
    rfl
  rw [hfilter, hk, range_add, filter_append, filter_eq_self.2 (by simp),
    filter_eq_nil_iff.2 (by simp), append_nil]

section

variable (table : AllocationGroupTable) (h : table.descriptorCount.toNat ≤ allocationGroupDescriptorsPerBlock)

include h

theorem follows_fields : Follows (layout table.descriptorCount.toNat h).tiles
    (table.headerFields ++ table.slotFields) := by
  have hslots : (table.slotFields.map fun f => (f.1, f.2.length)) = (range table.descriptorCount.toNat).map
        fun i => (slotOffset i, allocationGroupDescriptorBytes) := by
    rw [← table.map_used h, slotFields, map_map, map_map]
    refine map_congr_left fun i _ => ?_
    simp [(table.descriptors i).encodeInto.2]
  rw [Follows, map_append, hslots, layout, filter_append, filter_append, slotTiles, filter_fields]
  simp [headerFields, headerTiles, u16Field, u32Field, u64Field, magic, Tile.field, Tile.gap]

def toBlock (table : AllocationGroupTable) : Block :=
  (render blockSize (table.headerFields ++ table.slotFields)).stamp crc32c
    allocationGroupTableChecksumOffset

end

/-- What the codec needs to know about a validated table. -/
theorem validate_facts (h : table.validate sb = .ok ()) :
    table.descriptorCount.toNat ≤ allocationGroupDescriptorsPerBlock ∧
      (∀ i, i.val < table.descriptorCount.toNat → (table.descriptors i).validate sb = .ok ()) ∧
      ∀ i, ¬ i.val < table.descriptorCount.toNat → table.descriptors i = {} := by
  simp only [validate, run_eq_ok, not_or, not_lt] at h
  obtain ⟨⟨-, hcount, -⟩, _, -, -, _, -, -, _, hused, hunused⟩ := h
  rw [each_eq_ok] at hused
  refine ⟨hcount, fun i hi => ?_, fun i hi => ?_⟩
  · have hi := hused i (mem_filter.2 ⟨mem_finRange i, by simpa using hi⟩)
    simp only [checkDescriptor, bind_eq_ok] at hi
    obtain ⟨_, -, _, -, hval⟩ := hi
    exact hval
  · by_contra hne
    refine hunused (any_eq_true.2 ⟨i, ?_, by simpa using hne⟩)
    exact mem_filter.2 ⟨mem_finRange i, by simpa using hi⟩

/-- The reserved tiles are the gap in the header, the checksum, and the tail. -/
theorem reserved_iff {b : Block} {count : ℕ} (h : count ≤ allocationGroupDescriptorsPerBlock) :
    (∀ t ∈ (layout count h).tiles, t.reserved = true → t ≠ Tile.gap allocationGroupTableChecksumOffset 4 →
        allZero (slice b.1 t.offset t.length) = true) ↔ allZero (slice b.1 40 20) = true ∧
      allZero (slice b.1 (slotOffset count) (blockSize - slotOffset count)) = true := by
  have hstart := (slotOffset_count_le h).1
  have hne : slotOffset count ≠ 60 := by
    simp only [allocationGroupTableHeaderBytes] at hstart
    omega
  simp [layout, headerTiles, slotTiles, Tile.field, Tile.gap, or_imp, forall_and, hne,
    allocationGroupTableChecksumOffset]

/-- **When a buffer is the block of a validated table**: it is well formed and holds the table. -/
theorem eq_toBlock_iff {b : Block} (hval : table.validate sb = .ok ()) :
    b = table.toBlock ↔ WellFormed b ∧ table = readBlock b := by
  obtain ⟨hle, hused, hunused⟩ := validate_facts hval
  have hslots : (∀ f ∈ table.slotFields, Holds b f) ↔
      ∀ i, i.val < table.descriptorCount.toNat → slotAt b i = (table.descriptors i).encodeInto := by
    simp only [slotFields, used, forall_mem_map, mem_filter, mem_finRange, true_and,
      decide_eq_true_eq, holds_bytes (AllocationGroupDescriptor.encodeInto _).2, slotAt, arrayAt,
      Subtype.ext_iff]
  rw [toBlock, eq_stamp_iff _ (table.follows_fields hle), reserved_iff]
  simp (disch := decide) only [forall_mem_append, hslots, headerFields, holds_fields, and_true, and_assoc]
  constructor
  · rintro ⟨hmagic, hv, hh, hd, hcount, hfirst, htotal, hindex, hblocks, hphysical, hslots, hres, htail, hsum⟩
    rw [← hcount] at hle hused hunused hslots htail
    have hslot (i) (hi) := (AllocationGroupDescriptor.eq_encodeInto_iff
      (AllocationGroupDescriptor.root_of_validate (hused i hi))).1 (hslots i hi)
    have hdesc : (fun i : Fin allocationGroupDescriptorsPerBlock =>
        if 0 ≤ i.val ∧ i.val < table.descriptorCount.toNat then .read (slotAt b i) else {}) =
          table.descriptors := by
      funext i
      rw [← hcount]
      by_cases hi : i.val < (u16At b.1 14).toNat
      · rw [if_pos (by omega), (hslot i hi).2]
      · rw [if_neg (by omega), hunused i hi]
    refine ⟨⟨hmagic, hsum, hv, hh, hd, hres, hle, fun i hi => (hslot i hi).1, htail⟩, ?_⟩
    simp only [readBlock, withSlots, new, hcount, hfirst, htotal, hindex, hblocks, hphysical,
      Nat.zero_add, UInt16.ofNat_toNat, hdesc]
  · rintro ⟨hwf, hread⟩
    have hcount : u16At b.1 14 = table.descriptorCount := by
      simp only [hread, readBlock, withSlots, Nat.zero_add, UInt16.ofNat_toNat]
    have hslot (i : Fin allocationGroupDescriptorsPerBlock) (hi : i.val < table.descriptorCount.toNat) :
        slotAt b i = (table.descriptors i).encodeInto := by
      refine (AllocationGroupDescriptor.eq_encodeInto_iff
        (AllocationGroupDescriptor.root_of_validate (hused i hi))).2 ⟨hwf.slots i (hcount ▸ hi), ?_⟩
      rw [hread]
      exact if_pos ⟨i.val.zero_le, by rw [hcount, Nat.zero_add]; exact hi⟩
    exact ⟨hwf.magic, hwf.version, hwf.headerBytes, hwf.descriptorBytes, hcount,
      (congrArg firstDescriptorIndex hread).symm, (congrArg totalDescriptorCount hread).symm,
      (congrArg tableBlockIndex hread).symm, (congrArg tableBlockCount hread).symm,
      (congrArg physicalBlock hread).symm, hslot, hwf.reserved, hcount ▸ hwf.tail, hwf.checksum⟩

/-- The encoder, with its checksum written as a stamp. -/
theorem encode_eq_ok {b : Block} :
    table.encode sb = .ok b ↔ table.validate sb = .ok () ∧ b = table.toBlock := by
  rw [encode, bind_eq_ok]
  constructor
  · rintro ⟨_, hval, hb⟩
    rw [putChecksum_render _ (table.follows_fields (validate_facts hval).1)] at hb
    cases hb
    exact ⟨hval, rfl⟩
  · rintro ⟨hval, rfl⟩
    refine ⟨(), hval, ?_⟩
    rw [putChecksum_render _ (table.follows_fields (validate_facts hval).1)]
    rfl

/-- **Decoding inverts encoding.** -/
theorem decode_encode {b : Block} (h : table.encode sb = .ok b) : decode b.1 sb = .ok table := by
  obtain ⟨hval, rfl⟩ := encode_eq_ok.1 h
  obtain ⟨hwf, hread⟩ := (eq_toBlock_iff hval).1 rfl
  exact decode_eq_ok.2 ⟨hwf, hread, hval⟩

/-- **An accepted block is the encoding of what it decodes to.** -/
theorem encode_of_decode {b : Block} (h : decode b.1 sb = .ok table) : table.encode sb = .ok b := by
  obtain ⟨hwf, hread, hval⟩ := decode_eq_ok.1 h
  exact encode_eq_ok.2 ⟨hval, (eq_toBlock_iff hval).2 ⟨hwf, hread⟩⟩

/-! ### Absence of traps -/

theorem noTrap_validate (table : AllocationGroupTable) (sb : Superblock) : NoTrap (table.validate sb) := by
  refine .rejectIf_bind fun _ => noTrap_okOr.bind fun _ _ => .rejectIf_bind fun hrange => ?_
  refine (noTrap_trapSub (by omega)).bind fun _ _ => .rejectIf_bind fun _ =>
    (NoTrap.each fun i hi => ?_).bind fun _ _ => noTrap_rejectIf
  -- the index of a descriptor in use is below the total, which is a machine word
  have hi : i.val < table.descriptorCount.toNat := by simpa [used] using hi
  have htotal := table.totalDescriptorCount.toNat_lt
  exact (noTrap_trapAdd (by omega)).bind fun _ _ => .rejectIf_bind fun _ =>
    AllocationGroupDescriptor.noTrap_validate _ _

theorem noTrap_decodeSlots (b : Block) {indices : List ℕ} (table : AllocationGroupTable)
    (h : ∀ i ∈ indices, i < allocationGroupDescriptorsPerBlock) : NoTrap (decodeSlots b indices table) := by
  induction indices generalizing table with
  | nil => simp [decodeSlots]
  | cons i indices ih =>
    rw [decodeSlots, subarray_buf b (slotOffset_le (h i mem_cons_self)), ok_bind,
      AllocationGroupDescriptor.decodeFrom_eq]
    simp [noTrap_bind, push, ih _ (forall_mem_cons.1 h).2]

theorem noTrap_decode (bytes : List UInt8) (sb : Superblock) : NoTrap (decode bytes sb) := by
  refine .ite (fun _ => by simp) fun hl => ?_
  obtain ⟨b, hb⟩ : ∃ b, (leading blockSize bytes : Outcome FormatError Block) = .ok b :=
    ⟨_, leading_of_le (by omega)⟩
  rw [hb]
  simp (disch := decide) only [reads_buf]
  refine .rejectIf_bind fun _ => .rejectIf_bind fun _ => .rejectIf_bind fun _ =>
    .rejectIf_bind fun hcount => ?_
  have hend := (slotOffset_count_le (not_lt.1 hcount)).2
  refine (noTrap_decodeSlots _ _ ?_).bind fun table _ => ?_
  · intro i hi
    have := mem_range.1 hi
    omega
  · rw [subslice_buf _ (by omega)]
    exact .rejectIf_bind fun _ => (table.noTrap_validate sb).bind fun _ _ => by simp

end AllocationGroupTable

end NullFS
