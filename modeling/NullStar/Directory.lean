/-
**Directory blocks.**

A directory is a sequence of blocks, each with 31 fixed slots for entries.  An entry names an inode
by its number and generation; an unused slot is all zero.

* `DirectoryEntry`, `DirectoryBlock` — the values;
* `validate` — which blocks may be stored: every entry is well formed and no
  name occurs twice;
* `encode`, `decode` — the codec;
* `DirectoryEntry.decodeFrom_eq_ok` — the slots of a block and their entries correspond;
* `decode_encode`, `encode_of_decode`, `noTrap_decode`.
-/

import NullStar.Inode

set_option autoImplicit false

namespace NullFS

open Bytes Rust List

def directoryHeaderBytes : ℕ := 128
def directoryEntryBytes : ℕ := 128
def directoryEntriesPerBlock : ℕ := 31
def directoryNameCapacity : ℕ := 96
def directoryChecksumOffset : ℕ := 124

/-! ### Entries -/

structure DirectoryEntry where
  inode : UInt64 := 0
  generation : UInt64 := 0
  kind : NodeKind := .free
  name : Buf directoryNameCapacity := Buf.zero directoryNameCapacity
  nameLength : UInt8 := 0
  deriving DecidableEq

namespace DirectoryEntry

/-- The bytes of a name that no entry may have: a zero byte, a slash, "." or "..". -/
def forbiddenName (name : List UInt8) : Prop :=
  0 ∈ name ∨ 0x2f ∈ name ∨ name = [0x2e] ∨ name = [0x2e, 0x2e]

instance (name : List UInt8) : Decidable (forbiddenName name) :=
  inferInstanceAs (Decidable (_ ∨ _))

def new (inode generation : UInt64) (kind : NodeKind) (name : Str) : Outcome FormatError DirectoryEntry := do
  rejectIf (name.1 = [] ∨ directoryNameCapacity < name.1.length) .invalidDirectoryName
  rejectIf (forbiddenName name.1) .invalidDirectoryName
  rejectIf (inode = 0 ∨ generation = 0 ∨ kind = .free) .invalidDirectoryEntry
  return { inode, generation, kind, name := (Buf.zero directoryNameCapacity).put 0 name.1
           nameLength := UInt8.ofNat name.1.length }

variable (entry : DirectoryEntry)

/-- `DirectoryEntry::name`, which traps on bytes that are not text. -/
def nameText : Outcome FormatError (List UInt8) := do
  let text ← subslice entry.name.1 0 entry.nameLength.toNat
  if isUtf8 text then return text else trapped

def isUnused : Bool := entry.inode == 0

def validate : Outcome FormatError Unit :=
  if entry.isUnused then rejectIf (entry ≠ {}) .invalidDirectoryEntry
  else do
    rejectIf (entry.generation = 0 ∨ entry.kind = .free) .invalidDirectoryEntry
    let length := entry.nameLength.toNat
    rejectIf (length = 0 ∨ directoryNameCapacity < length) .invalidDirectoryName
    let padding ← subslice entry.name.1 length (directoryNameCapacity - length)
    rejectIf (allZero padding = false) .invalidDirectoryName
    let name ← subslice entry.name.1 0 length
    rejectIf (isUtf8 name = false) .invalidDirectoryName
    rejectIf (forbiddenName name) .invalidDirectoryName

def kindByte (kind : NodeKind) : UInt8 := kind.code.toUInt8

def fields : List Field :=
  [u64Field 0 entry.inode, u64Field 8 entry.generation, (16, [kindByte entry.kind]),
    (17, [entry.nameLength]), (24, entry.name.1)]

/-- `encode_into`, on a slot that is still zero. -/
def encodeInto : Outcome FormatError (Buf directoryEntryBytes) := do
  entry.validate
  return if entry.isUnused then Buf.zero directoryEntryBytes
    else render directoryEntryBytes entry.fields

def decodeKind (value : UInt8) : Outcome FormatError NodeKind :=
  if value = 1 then .ok .regular
  else if value = 2 then .ok .directory
  else if value = 3 then .ok .symlink
  else fail (.invalidNodeKind value.toUInt16)

def decodeFrom (b : Buf directoryEntryBytes) : Outcome FormatError DirectoryEntry :=
  if allZero b.1 then .ok {}
  else do
    let reserved ← subslices b.1 [(18, 6), (120, 8)]
    rejectIf (allZero reserved = false) .nonZeroPhase2ReservedBytes
    let kind ← decodeKind (← index b.1 16)
    let nameLength ← index b.1 17
    let name ← subarray b.1 24 directoryNameCapacity
    let inode ← getU64 b.1 0
    let generation ← getU64 b.1 8
    let entry : DirectoryEntry := { inode, generation, kind, name, nameLength }
    entry.validate
    return entry

theorem decodeKind_kindByte {kind : NodeKind} (h : kind ≠ .free) : decodeKind (kindByte kind) = .ok kind := by
  cases kind with
  | free => exact absurd rfl h
  | regular | directory | symlink => rfl

theorem kindByte_of_decodeKind {value : UInt8} {kind : NodeKind} (h : decodeKind value = .ok kind) :
    kindByte kind = value ∧ kind ≠ .free := by
  unfold decodeKind at h
  split at h
  · cases h; simp_all [kindByte, NodeKind.code]
  · split at h
    · cases h; simp_all [kindByte, NodeKind.code]
    · split at h
      · cases h; simp_all [kindByte, NodeKind.code]
      · simp at h

theorem noTrap_decodeKind (value : UInt8) : NoTrap (decodeKind value) := by
  unfold decodeKind
  split_ifs <;> simp

variable {entry} {b : Buf directoryEntryBytes}

/-- What a validated entry in use looks like. -/
theorem validate_used (hu : entry.isUnused = false) :
    entry.validate = .ok () ↔ entry.generation ≠ 0 ∧ entry.kind ≠ .free ∧
      entry.nameLength.toNat ≠ 0 ∧ entry.nameLength.toNat ≤ directoryNameCapacity ∧
      allZero (slice entry.name.1 entry.nameLength.toNat
        (directoryNameCapacity - entry.nameLength.toNat)) = true ∧
      isUtf8 (slice entry.name.1 0 entry.nameLength.toNat) = true ∧
      ¬ forbiddenName (slice entry.name.1 0 entry.nameLength.toNat) := by
  unfold validate
  rw [if_neg (by simp [hu])]
  simp only [run_eq_ok, not_or, not_lt, Bool.not_eq_false]
  constructor
  · rintro ⟨⟨hg, hk⟩, ⟨hz, hle⟩, padding, hpad, hpz, text, htext, hutf, hname⟩
    rw [subslice_buf entry.name (by omega)] at hpad htext
    cases hpad
    cases htext
    exact ⟨hg, hk, hz, hle, hpz, hutf, hname⟩
  · rintro ⟨hg, hk, hz, hle, hpz, hutf, hname⟩
    exact ⟨⟨hg, hk⟩, ⟨hz, hle⟩, _, subslice_buf entry.name (by omega), hpz, _,
      subslice_buf entry.name (by omega), hutf, hname⟩

theorem validate_unused (hu : entry.isUnused = true) : entry.validate = .ok () ↔ entry = {} := by
  unfold validate
  rw [if_pos hu, rejectIf_eq_ok, not_not]

theorem noTrap_validate (entry : DirectoryEntry) : NoTrap entry.validate := by
  refine .ite (fun _ => by simp) fun _ => .rejectIf_bind fun _ => .rejectIf_bind fun hlen => ?_
  rw [subslice_buf entry.name (by omega), subslice_buf entry.name (by omega)]
  simp [noTrap_bind]

/-- The name of a validated entry in use is text. -/
theorem nameText_of_validate (hu : entry.isUnused = false) (h : entry.validate = .ok ()) :
    entry.nameText = .ok (slice entry.name.1 0 entry.nameLength.toNat) := by
  obtain ⟨-, -, -, hle, -, hutf, -⟩ := (validate_used hu).1 h
  rw [nameText, subslice_buf entry.name (by omega), ok_bind, if_pos hutf]
  rfl

/-! ### Slots -/

def slotTiles : List Tile :=
  [.field 0 8, .field 8 8, .field 16 1, .field 17 1, .gap 18 6, .field 24 96, .gap 120 8]

theorem tiled_slotTiles : Tiled directoryEntryBytes 0 slotTiles := by decide

theorem follows_fields (entry : DirectoryEntry) : Follows slotTiles entry.fields := by
  have hname := entry.name.2
  simp [Follows, slotTiles, fields, u64Field, hname, directoryNameCapacity, Tile.field, Tile.gap]

/-- The used entry of the given kind stored in a slot. -/
def read (b : Buf directoryEntryBytes) (kind : NodeKind) : DirectoryEntry where
  inode := u64At b.1 0
  generation := u64At b.1 8
  kind := kind
  name := arrayAt b 24 directoryNameCapacity (by decide)
  nameLength := b.byteAt 17

/-- When a buffer is the slot of a used entry. -/
theorem eq_render_fields : b = render directoryEntryBytes entry.fields ↔ allZero (slice b.1 18 6) = true ∧
      allZero (slice b.1 120 8) = true ∧ kindByte entry.kind = b.byteAt 16 ∧ entry = read b entry.kind := by
  rw [eq_render_iff tiled_slotTiles entry.follows_fields]
  obtain ⟨inode, generation, kind, name, nameLength⟩ := entry
  simp (disch := decide) only [fields, slotTiles, holds_fields, zero_tiles, and_true,
    true_and, holds_bytes name.2, read, mk.injEq, and_assoc]
  constructor
  · rintro ⟨rfl, rfl, hkind, rfl, hname, h1, h2⟩
    exact ⟨h1, h2, hkind.symm, rfl, rfl, Subtype.ext hname.symm, rfl⟩
  · rintro ⟨h1, h2, hkind, rfl, rfl, rfl, rfl⟩
    exact ⟨rfl, rfl, hkind.symm, rfl, rfl, h1, h2⟩

/-- What it takes for a slot that is not all zero to be accepted. -/
theorem decodeFrom_used (hz : allZero b.1 = false) : decodeFrom b = .ok entry ↔
      allZero (slice b.1 18 6) = true ∧ allZero (slice b.1 120 8) = true ∧
        decodeKind (b.byteAt 16) = .ok entry.kind ∧ entry = read b entry.kind ∧ entry.validate = .ok () := by
  have hranges : ∀ r ∈ [((18 : ℕ), (6 : ℕ)), (120, 8)], r.1 + r.2 ≤ directoryEntryBytes := by decide
  rw [decodeFrom, if_neg (by simp [hz]), subslices_buf b hranges]
  simp (disch := decide) only [reads_buf, ok_bind]
  simp only [run_eq_ok, Bool.not_eq_false, allZero_flatMap, forall_mem_cons]
  constructor
  · rintro ⟨⟨h1, h2, -⟩, kind, hkind, _, hval, rfl⟩
    exact ⟨h1, h2, hkind, rfl, hval⟩
  · rintro ⟨h1, h2, hkind, hread, hval⟩
    refine ⟨⟨h1, h2, by simp⟩, entry.kind, hkind, (), ?_, hread.symm⟩
    rw [hread] at hval
    exact hval

/-- The slot of an entry is decoded as the entry. -/
theorem decodeFrom_encodeInto (h : entry.encodeInto = .ok b) : decodeFrom b = .ok entry := by
  rw [encodeInto, bind_eq_ok] at h
  obtain ⟨_, hval, hb⟩ := h
  cases hb
  cases hu : entry.isUnused with
  | true =>
    rw [(validate_unused hu).1 hval, decodeFrom, if_pos]
    exact allZero_replicate _
  | false =>
    rw [if_neg (by simp)]
    generalize hb : render directoryEntryBytes entry.fields = b
    obtain ⟨h1, h2, hkind, hread⟩ := eq_render_fields.1 hb.symm
    have hnz : allZero b.1 = false := by
      -- an all-zero slot would hold the inode number zero
      by_contra hz
      rw [Bool.not_eq_false, allZero_iff_replicate, b.2] at hz
      have hinode : entry.inode = u64At b.1 0 := congrArg inode hread
      rw [hz] at hinode
      have hzero : entry.inode = 0 := hinode.trans (by decide)
      simp [isUnused, hzero] at hu
    rw [decodeFrom_used hnz, ← hkind]
    exact ⟨h1, h2, decodeKind_kindByte ((validate_used hu).1 hval).2.1, hread, hval⟩

/-- An accepted slot is the slot of the entry it is decoded as. -/
theorem encodeInto_of_decodeFrom (h : decodeFrom b = .ok entry) :
    entry.encodeInto = .ok b ∧ entry.validate = .ok () := by
  cases hz : allZero b.1 with
  | true =>
    rw [decodeFrom, if_pos hz, Except.ok.injEq] at h
    subst h
    have hval : validate {} = .ok () := (validate_unused rfl).2 rfl
    refine ⟨?_, hval⟩
    have hzero : b = .zero directoryEntryBytes := Subtype.ext (by rw [allZero_iff_replicate.1 hz, b.2]; rfl)
    rw [hzero]
    rfl
  | false =>
    obtain ⟨h1, h2, hkind, hread, hval⟩ := (decodeFrom_used hz).1 h
    refine ⟨?_, hval⟩
    obtain ⟨hbyte, hfree⟩ := kindByte_of_decodeKind hkind
    have hu : entry.isUnused = false := by
      by_contra hu
      rw [Bool.not_eq_false] at hu
      exact hfree (by rw [(validate_unused hu).1 hval])
    rw [encodeInto, hval, if_neg (by simp [hu]), ← eq_render_fields.2 ⟨h1, h2, hbyte, hread⟩]
    rfl

theorem noTrap_decodeFrom (b : Buf directoryEntryBytes) : NoTrap (decodeFrom b) := by
  have hranges : ∀ r ∈ [((18 : ℕ), (6 : ℕ)), (120, 8)], r.1 + r.2 ≤ directoryEntryBytes := by decide
  refine .ite (fun _ => by simp) fun _ => ?_
  rw [subslices_buf b hranges]
  simp (disch := decide) only [reads_buf]
  simp [noTrap_bind, noTrap_decodeKind, noTrap_validate]

end DirectoryEntry

/-! ### Blocks -/

structure DirectoryBlock where
  (ownerInode logicalBlockIndex : UInt64)
  entries : Fin directoryEntriesPerBlock → DirectoryEntry

namespace DirectoryBlock

def new (ownerInode logicalBlockIndex : UInt64) : Outcome FormatError DirectoryBlock := do
  rejectIf (ownerInode = 0) .invalidDirectoryBlock
  return { ownerInode, logicalBlockIndex, entries := fun _ => {} }

variable (block : DirectoryBlock)

def occupiedCount : ℕ :=
  (List.ofFn block.entries).countP (! ·.isUnused)

/-- The inner loop of the search for duplicate names: `left` is compared with an entry behind it. -/
def checkPair (left right : DirectoryEntry) : Outcome FormatError Unit :=
  if right.isUnused then return ()
  else do
    let leftName ← left.nameText
    let rightName ← right.nameText
    rejectIf (leftName = rightName) .duplicateDirectoryName

/-- The outer loop. -/
def checkDuplicates : List DirectoryEntry → Outcome FormatError Unit
  | [] => .ok ()
  | left :: rest => do
    each (fun right => if left.isUnused then return () else checkPair left right) rest
    checkDuplicates rest

def validate : Outcome FormatError Unit := do
  rejectIf (block.ownerInode = 0) .invalidDirectoryBlock
  each DirectoryEntry.validate (List.ofFn block.entries)
  checkDuplicates (List.ofFn block.entries)

/-- The magic number, "NFSDIR". -/
def magic : List UInt8 := [0x4e, 0x46, 0x53, 0x44, 0x49, 0x52, 0, 0]

def slotOffset (i : ℕ) : ℕ := directoryHeaderBytes + i * directoryEntryBytes

def headerFields : List Field :=
  [(0, magic), u16Field 8 1, u16Field 10 (UInt16.ofNat directoryHeaderBytes),
    u16Field 12 (UInt16.ofNat directoryEntryBytes),
    u16Field 14 (UInt16.ofNat directoryEntriesPerBlock), u64Field 16 block.ownerInode,
    u64Field 24 block.logicalBlockIndex, u32Field 32 (UInt32.ofNat block.occupiedCount)]

/-- The fields of a block whose slots hold the given bytes. -/
def fields (slots : Fin directoryEntriesPerBlock → Buf directoryEntryBytes) : List Field :=
  block.headerFields ++ (List.finRange directoryEntriesPerBlock).map fun i => (slotOffset i.val, (slots i).1)

def encode : Outcome FormatError Block := do
  block.validate
  let slots ← tabulate directoryEntriesPerBlock fun i => (block.entries i).encodeInto
  return putChecksum directoryChecksumOffset (render blockSize (block.fields slots))

def decode (bytes : List UInt8) : Outcome FormatError DirectoryBlock :=
  if bytes.length < blockSize then fail (.truncatedPhase2Record blockSize bytes.length)
  else do
    let b ← leading blockSize bytes
    let found ← subslice b.1 0 8
    rejectIf (found ≠ magic) .invalidDirectoryBlock
    let stored ← getU32 b.1 directoryChecksumOffset
    let actual := recordChecksum directoryChecksumOffset b
    rejectIf (stored ≠ actual) (.phase2ChecksumMismatch stored actual)
    let version ← getU16 b.1 8
    let headerBytes ← getU16 b.1 10
    let entryBytes ← getU16 b.1 12
    let entryCount ← getU16 b.1 14
    let flags ← getU32 b.1 36
    let reserved ← subslice b.1 40 84
    rejectIf (version ≠ 1 ∨ headerBytes ≠ UInt16.ofNat directoryHeaderBytes ∨
      entryBytes ≠ UInt16.ofNat directoryEntryBytes ∨
      entryCount ≠ UInt16.ofNat directoryEntriesPerBlock ∨ flags ≠ 0 ∨ allZero reserved = false)
      .invalidDirectoryBlock
    let ownerInode ← getU64 b.1 16
    let logicalBlockIndex ← getU64 b.1 24
    let block ← new ownerInode logicalBlockIndex
    let entries ← tabulate directoryEntriesPerBlock fun i => do
      let slot ← subarray b.1 (slotOffset i.val) directoryEntryBytes
      DirectoryEntry.decodeFrom slot
    let block := { block with entries := entries }
    let occupied ← getU32 b.1 32
    rejectIf (occupied ≠ UInt32.ofNat block.occupiedCount) .invalidDirectoryBlock
    block.validate
    return block

/-! ### The block as a layout -/

theorem slotOffset_le {i : ℕ} (h : i < directoryEntriesPerBlock) :
    slotOffset i + directoryEntryBytes ≤ blockSize := by
  simp only [slotOffset, directoryHeaderBytes, directoryEntryBytes, directoryEntriesPerBlock, blockSize] at *
  omega

def slotAt (b : Block) (i : Fin directoryEntriesPerBlock) : Buf directoryEntryBytes :=
  arrayAt b (slotOffset i.val) directoryEntryBytes (slotOffset_le i.isLt)

/-- The checks the decoder makes on the bytes of a block. -/
structure WellFormed (b : Block) : Prop where
  magic : slice b.1 0 8 = magic
  checksum : u32At b.1 directoryChecksumOffset = recordChecksum directoryChecksumOffset b
  version : u16At b.1 8 = 1
  headerBytes : u16At b.1 10 = UInt16.ofNat directoryHeaderBytes
  entryBytes : u16At b.1 12 = UInt16.ofNat directoryEntryBytes
  entryCount : u16At b.1 14 = UInt16.ofNat directoryEntriesPerBlock
  flags : u32At b.1 36 = 0
  reserved : allZero (slice b.1 40 84) = true

variable {b : Block} {block}

theorem decode_eq_ok : decode b.1 = .ok block ↔ WellFormed b ∧ block.ownerInode = u64At b.1 16 ∧
      block.logicalBlockIndex = u64At b.1 24 ∧
      (∀ i, DirectoryEntry.decodeFrom (slotAt b i) = .ok (block.entries i)) ∧
      u32At b.1 32 = UInt32.ofNat block.occupiedCount ∧ block.validate = .ok () := by
  have hslot : ∀ i : Fin directoryEntriesPerBlock,
      (subarray b.1 (slotOffset i.val) directoryEntryBytes : Outcome FormatError _) =
        .ok (slotAt b i) := fun i => subarray_buf b (slotOffset_le i.isLt)
  rw [decode, if_neg (by omega), leading_buf]
  simp (disch := decide) only [reads_buf, ok_bind, hslot, new]
  simp only [run_eq_ok, not_or, not_not, Bool.not_eq_false, tabulate_eq_ok]
  constructor
  · rintro ⟨hmagic, hsum, ⟨hv, hh, he, hc, hf, hres⟩, -, ⟨-, rfl⟩, entries, hent, hocc, _, hval, rfl⟩
    exact ⟨⟨hmagic, hsum, hv, hh, he, hc, hf, hres⟩, rfl, rfl, hent, hocc, hval⟩
  · rintro ⟨hwf, howner, hlog, hent, hocc, hval⟩
    have hne : u64At b.1 16 ≠ 0 := by
      simp only [validate, run_eq_ok] at hval
      rw [← howner]
      exact hval.1
    refine ⟨hwf.magic, hwf.checksum, ⟨hwf.version, hwf.headerBytes, hwf.entryBytes, hwf.entryCount,
      hwf.flags, hwf.reserved⟩, _, ⟨hne, rfl⟩, block.entries, hent, ?_, (), ?_, ?_⟩
    all_goals rw [← howner, ← hlog]
    · exact hocc
    · exact hval

def headerTiles : List Tile :=
  [.field 0 8, .field 8 2, .field 10 2, .field 12 2, .field 14 2, .field 16 8, .field 24 8,
    .field 32 4, .gap 36 4, .gap 40 84, .gap directoryChecksumOffset 4]

def slotTiles : List Tile :=
  (List.range directoryEntriesPerBlock).map fun i => Tile.field (slotOffset i) directoryEntryBytes

def layout : StampedLayout blockSize directoryChecksumOffset where
  tiles := headerTiles ++ slotTiles
  tiled := Tiled.append (m := directoryHeaderBytes) (by decide)
    (tiled_array directoryHeaderBytes directoryEntryBytes directoryEntriesPerBlock)
  stamp_mem := by simp [headerTiles]

section

variable (block : DirectoryBlock) (slots : Fin directoryEntriesPerBlock → Buf directoryEntryBytes)

theorem follows_fields : Follows layout.tiles (block.fields slots) := by
  have hslots : (((finRange directoryEntriesPerBlock).map
      fun i => (slotOffset i.val, (slots i).1)).map fun f => (f.1, f.2.length)) =
      slotTiles.map fun t => (t.offset, t.length) := by
    rw [slotTiles, ← map_coe_finRange_eq_range, map_map, map_map, map_map]
    refine map_congr_left fun i _ => ?_
    simp [(slots i).2, Tile.field]
  rw [Follows, fields, map_append, hslots, layout, filter_append, slotTiles, filter_fields]
  simp [headerFields, headerTiles, u16Field, u32Field, u64Field, magic, Tile.field, Tile.gap]

def toBlock : Block :=
  (render blockSize (block.fields slots)).stamp crc32c directoryChecksumOffset

/-- **When a buffer is the block of given slots.** -/
theorem eq_toBlock_iff {b : Block} : b = block.toBlock slots ↔ WellFormed b ∧
    block.ownerInode = u64At b.1 16 ∧ block.logicalBlockIndex = u64At b.1 24 ∧
      u32At b.1 32 = UInt32.ofNat block.occupiedCount ∧ slotAt b = slots := by
  have hslots : (∀ f ∈ (finRange directoryEntriesPerBlock).map
      fun i => (slotOffset i.val, (slots i).1), Holds b f) ↔ slotAt b = slots := by
    simp only [forall_mem_map, mem_finRange, forall_const, holds_bytes (slots _).2, funext_iff,
      slotAt, arrayAt, Subtype.ext_iff]
  have hreserved : (∀ t ∈ layout.tiles, t.reserved = true → t ≠ .gap directoryChecksumOffset 4 →
      allZero (slice b.1 t.offset t.length) = true) ↔
      u32At b.1 36 = 0 ∧ allZero (slice b.1 40 84) = true := by
    rw [u32At_eq_zero (by decide)]
    simp [layout, headerTiles, slotTiles, Tile.field, Tile.gap, directoryChecksumOffset]
  rw [toBlock, eq_stamp_iff layout (block.follows_fields slots), hreserved]
  simp (disch := decide) only [fields, forall_mem_append, hslots, headerFields, holds_fields,
    and_true, and_assoc]
  constructor
  · rintro ⟨hmagic, hv, hh, he, hc, howner, hlog, hocc, hslots, hf, hres, hsum⟩
    exact ⟨⟨hmagic, hsum, hv, hh, he, hc, hf, hres⟩, howner.symm, hlog.symm, hocc, hslots⟩
  · rintro ⟨hwf, howner, hlog, hocc, hslots⟩
    exact ⟨hwf.magic, hwf.version, hwf.headerBytes, hwf.entryBytes, hwf.entryCount, howner.symm,
      hlog.symm, hocc, hslots, hwf.flags, hwf.reserved, hwf.checksum⟩

end

/-- The encoder, with its checksum written as a stamp. -/
theorem encode_eq_ok : block.encode = .ok b ↔ block.validate = .ok () ∧ ∃ slots,
      (∀ i, (block.entries i).encodeInto = .ok (slots i)) ∧ b = block.toBlock slots := by
  simp only [encode, run_eq_ok, tabulate_eq_ok]
  constructor
  · rintro ⟨_, hval, slots, hslots, rfl⟩
    exact ⟨hval, slots, hslots, putChecksum_render layout (block.follows_fields slots)⟩
  · rintro ⟨hval, slots, hslots, rfl⟩
    exact ⟨(), hval, slots, hslots, putChecksum_render layout (block.follows_fields slots)⟩

/-- **Decoding inverts encoding.** -/
theorem decode_encode (h : block.encode = .ok b) : decode b.1 = .ok block := by
  obtain ⟨hval, slots, hslots, rfl⟩ := encode_eq_ok.1 h
  obtain ⟨hwf, howner, hlog, hocc, hat⟩ := (block.eq_toBlock_iff slots).1 rfl
  refine decode_eq_ok.2 ⟨hwf, howner, hlog, fun i => ?_, hocc, hval⟩
  rw [hat]
  exact DirectoryEntry.decodeFrom_encodeInto (hslots i)

/-- **An accepted block is the encoding of what it decodes to.** -/
theorem encode_of_decode (h : decode b.1 = .ok block) : block.encode = .ok b := by
  obtain ⟨hwf, howner, hlog, hent, hocc, hval⟩ := decode_eq_ok.1 h
  exact encode_eq_ok.2 ⟨hval, slotAt b, fun i => (DirectoryEntry.encodeInto_of_decodeFrom (hent i)).1,
    (block.eq_toBlock_iff _).2 ⟨hwf, howner, hlog, hocc, rfl⟩⟩

/-! ### Absence of traps -/

theorem noTrap_checkDuplicates {entries : List DirectoryEntry}
    (h : ∀ entry ∈ entries, entry.validate = .ok ()) : NoTrap (checkDuplicates entries) := by
  induction entries with
  | nil => simp [checkDuplicates]
  | cons left rest ih =>
    refine (NoTrap.each fun right hright => ?_).bind fun _ _ =>
      ih fun entry he => h entry (mem_cons_of_mem _ he)
    refine .ite (fun _ => by simp) fun hl => .ite (fun _ => by simp) fun hr => ?_
    rw [Bool.not_eq_true] at hl hr
    rw [DirectoryEntry.nameText_of_validate hl (h left mem_cons_self),
      DirectoryEntry.nameText_of_validate hr (h right (mem_cons_of_mem _ hright))]
    exact noTrap_rejectIf

theorem noTrap_validate (block : DirectoryBlock) : NoTrap block.validate := by
  refine .rejectIf_bind fun _ =>
    (NoTrap.each fun entry _ => entry.noTrap_validate).bind fun _ h => ?_
  exact noTrap_checkDuplicates (each_eq_ok.1 h)

theorem noTrap_decode (bytes : List UInt8) : NoTrap (decode bytes) := by
  refine .ite (fun _ => by simp) fun hl => ?_
  obtain ⟨b, hb⟩ : ∃ b, (leading blockSize bytes : Outcome FormatError Block) = .ok b :=
    ⟨_, leading_of_le (by omega)⟩
  rw [hb]
  simp (disch := decide) only [reads_buf]
  refine .rejectIf_bind fun _ => .rejectIf_bind fun _ => .rejectIf_bind fun _ =>
    (NoTrap.rejectIf_bind fun _ => by simp).bind fun block _ =>
    (NoTrap.tabulate fun i => ?_).bind fun entries _ => .rejectIf_bind fun _ =>
    (noTrap_validate _).bind fun _ _ => by simp
  rw [subarray_buf b (slotOffset_le i.isLt)]
  exact DirectoryEntry.noTrap_decodeFrom _

end DirectoryBlock

end NullFS
