/-
**Inode records and their inline extents.**

An inode is stored in a slot of 256 bytes.  A free slot is all zero; an allocated one carries its
fields at fixed offsets, a version, its own size and a checksum.  This module is the codec of that
record in its two validation modes: `strict`, and `phase3Orphan` for a regular file that has lost its
last name but is still open, in which `parentInode` is the next inode of the orphan list.

* `Inode`, `Extent`, `Timestamp` — the values;
* `validateWithMode` — which values may be stored;
* `encodeWithMode`, `decodeWithMode` — the codec;
* `decode_encode` — decoding inverts encoding;
* `encode_of_decode` — an accepted record is the encoding of what it decodes to, unless
  it is `allocatedFree`;
* `canonical_iff` — both directions, with the exact exception.
-/

import NullStar.Format

set_option autoImplicit false

namespace NullFS

open Bytes Rust

/-! ### Values -/

def inodeBytes : ℕ := 256
def inodeChecksumOffset : ℕ := 252
def inlineExtentCount : ℕ := 4
def extentBytes : ℕ := 24

/-- The two meanings an inode record can be checked against. -/
inductive InodeValidationMode where
  /-- Every allocated inode has at least one link. -/
  | strict
  /-- A regular file without a link; `parentInode` is the next orphan. -/
  | phase3Orphan
  deriving DecidableEq

inductive NodeKind where
  | free | regular | directory | symlink
  deriving DecidableEq

def NodeKind.code : NodeKind → UInt16
  | .free => 0
  | .regular => 1
  | .directory => 2
  | .symlink => 3

def NodeKind.decode (value : UInt16) : Outcome FormatError NodeKind :=
  if value = 0 then .ok .free
  else if value = 1 then .ok .regular
  else if value = 2 then .ok .directory
  else if value = 3 then .ok .symlink
  else fail (.invalidNodeKind value)

theorem NodeKind.decode_code (k : NodeKind) : NodeKind.decode k.code = .ok k := by
  cases k <;> rfl

theorem NodeKind.code_of_decode {v : UInt16} {k : NodeKind} (h : NodeKind.decode v = .ok k) : k.code = v := by
  unfold NodeKind.decode at h
  split at h
  · cases h; simp_all [NodeKind.code]
  · split at h
    · cases h; simp_all [NodeKind.code]
    · split at h
      · cases h; simp_all [NodeKind.code]
      · split at h
        · cases h; simp_all [NodeKind.code]
        · simp at h

@[ext] structure Timestamp where
  seconds : UInt64 := 0
  nanoseconds : UInt32 := 0
  deriving DecidableEq

def Timestamp.validate (t : Timestamp) : Outcome FormatError Unit :=
  rejectIf (1000000000 ≤ t.nanoseconds.toNat) .invalidTimestamp

@[ext] structure Extent where
  logicalFirstBlock : UInt64 := 0
  physicalFirstBlock : UInt64 := 0
  lengthBlocks : UInt32 := 0
  flags : UInt32 := 0
  deriving DecidableEq

def Extent.logicalEnd (e : Extent) : Outcome FormatError ℕ :=
  okOr (checkedAdd 64 e.logicalFirstBlock.toNat e.lengthBlocks.toNat) .arithmeticOverflow

def Extent.physicalEnd (e : Extent) : Outcome FormatError ℕ :=
  okOr (checkedAdd 64 e.physicalFirstBlock.toNat e.lengthBlocks.toNat) .arithmeticOverflow

/-- An inode.  The fields without a value are zero, and so is the default inode, which stands for a
free slot. -/
structure Inode where
  kind : NodeKind := .free
  mode : UInt16 := 0
  uid : UInt32 := 0
  gid : UInt32 := 0
  linkCount : UInt32 := 0
  flags : UInt32 := 0
  generation : UInt64 := 0
  size : UInt64 := 0
  allocatedBlocks : UInt64 := 0
  parentInode : UInt64 := 0
  accessed : Timestamp := {}
  modified : Timestamp := {}
  changed : Timestamp := {}
  created : Timestamp := {}
  directoryEntryCount : UInt64 := 0
  extentCount : UInt16 := 0
  extents : Fin inlineExtentCount → Extent := fun _ => {}
  deriving DecidableEq

namespace Inode

variable (inode : Inode)

/-- The extents in use, `extents[..extent_count]`. -/
def used : List Extent := (List.ofFn inode.extents).take inode.extentCount.toNat

/-! ### Validation -/

/-- The loop over the extent slots: `allocated` counts the blocks of the extents seen so far, and
`previousEnd` is the logical end of the last one in use.  Slots that are not in use hold the default
extent. -/
def checkExtents (inode : Inode) : List (Fin inlineExtentCount) → ℕ → ℕ → Outcome FormatError ℕ
  | [], allocated, _ => .ok allocated
  | i :: rest, allocated, previousEnd =>
    let extent := inode.extents i
    if i.val < inode.extentCount.toNat then do
      rejectIf (extent.lengthBlocks = 0 ∨ extent.flags ≠ 0 ∨
        (i.val ≠ 0 ∧ extent.logicalFirstBlock.toNat < previousEnd)) .invalidExtent
      let previousEnd ← extent.logicalEnd
      let _ ← extent.physicalEnd
      let allocated ← okOr (checkedAdd 64 allocated extent.lengthBlocks.toNat) .arithmeticOverflow
      let rounded ← okOr (checkedAdd 64 inode.size.toNat 4095) .arithmeticOverflow
      rejectIf (rounded / 4096 < previousEnd) .invalidExtent
      checkExtents inode rest allocated previousEnd
    else do
      rejectIf (extent ≠ {}) .invalidExtent
      checkExtents inode rest allocated previousEnd

/-- The loop over the extents of a directory, which must map its blocks without a hole: `next` is
the logical block the next extent starts at. -/
def checkContiguous : List Extent → ℕ → Outcome FormatError ℕ
  | [], next => .ok next
  | extent :: rest, next => do
    rejectIf (extent.logicalFirstBlock.toNat ≠ next) .invalidExtent
    let next ← extent.logicalEnd
    checkContiguous rest next

variable (validation : InodeValidationMode)

def validateWithMode : Outcome FormatError Unit :=
  if inode.kind = .free then
    rejectIf (¬ (validation = .strict ∧ inode = {})) .invalidFreeInode
  else do
    let linksValid : Bool := match validation with
      | .strict => inode.linkCount ≠ 0
      | .phase3Orphan => inode.kind = .regular ∧ inode.linkCount = 0
    rejectIf (inode.mode &&& ~~~0x0fff ≠ 0 ∨ linksValid = false ∨ inode.generation = 0 ∨
      inode.flags ≠ 0) .invalidInode
    inode.accessed.validate
    inode.modified.validate
    inode.changed.validate
    inode.created.validate
    rejectIf (inlineExtentCount < inode.extentCount.toNat) .tooManyExtents
    rejectIf (inode.kind ≠ .directory ∧ inode.directoryEntryCount ≠ 0) .invalidInode
    rejectIf (inode.kind = .directory ∧ (inode.size.toNat % 4096 ≠ 0 ∨ inode.parentInode = 0))
      .invalidInode
    rejectIf (inode.kind = .symlink ∧ (inode.size ≠ 0 ∨ inode.extentCount ≠ 0))
      .unsupportedInlineSymlink
    let allocated ← inode.checkExtents (List.finRange inlineExtentCount) 0 0
    rejectIf (allocated ≠ inode.allocatedBlocks.toNat) .invalidExtent
    if inode.kind = .directory then do
      let next ← checkContiguous inode.used 0
      rejectIf (next ≠ inode.size.toNat / 4096) .invalidExtent
    else return ()

def validate : Outcome FormatError Unit := inode.validateWithMode .strict

/-- `orphan_next`: the inode behind this one on the orphan list. -/
def orphanNext : Outcome FormatError UInt64 := do
  inode.validateWithMode .phase3Orphan
  return inode.parentInode

/-! ### The codec -/

variable (b bytes : List UInt8) (o : ℕ)

/-- `put_timestamp`. -/
def timestampFields (t : Timestamp) : List Field :=
  [u64Field o t.seconds, u32Field (o + 8) t.nanoseconds]

def extentFields (e : Extent) : List Field :=
  [u64Field o e.logicalFirstBlock, u64Field (o + 8) e.physicalFirstBlock,
    u32Field (o + 16) e.lengthBlocks, u32Field (o + 20) e.flags]

def extentOffset (i : ℕ) : ℕ := 128 + i * extentBytes

/-- The fields the encoder writes, in its order. -/
def fields : List Field :=
  [u16Field 0 1, u16Field 2 256, u16Field 4 inode.kind.code, u16Field 6 inode.mode,
    u32Field 8 inode.uid, u32Field 12 inode.gid, u32Field 16 inode.linkCount,
    u32Field 20 inode.flags, u64Field 24 inode.generation, u64Field 32 inode.size,
    u64Field 40 inode.allocatedBlocks, u64Field 48 inode.parentInode] ++
  timestampFields 56 inode.accessed ++ timestampFields 72 inode.modified ++
  timestampFields 88 inode.changed ++ timestampFields 104 inode.created ++
  [u16Field 116 inode.extentCount, u64Field 120 inode.directoryEntryCount] ++
  (List.finRange inlineExtentCount).flatMap fun i : Fin inlineExtentCount =>
    extentFields (extentOffset i.val) (inode.extents i)

def encodeWithMode : Outcome FormatError (Buf inodeBytes) := do
  inode.validateWithMode validation
  if inode.kind = .free then return Buf.zero inodeBytes
  return putChecksum inodeChecksumOffset (render inodeBytes inode.fields)

def encode : Outcome FormatError (Buf inodeBytes) := inode.encodeWithMode .strict

def getTimestamp : Outcome FormatError Timestamp := do
  let seconds ← getU64 b o
  let nanoseconds ← getU32 b (o + 8)
  return { seconds, nanoseconds }

def getExtent : Outcome FormatError Extent := do
  let logicalFirstBlock ← getU64 b o
  let physicalFirstBlock ← getU64 b (o + 8)
  let lengthBlocks ← getU32 b (o + 16)
  let flags ← getU32 b (o + 20)
  return { logicalFirstBlock, physicalFirstBlock, lengthBlocks, flags }

def decodeWithMode (validation : InodeValidationMode) : Outcome FormatError Inode :=
  if bytes.length < inodeBytes then fail (.truncatedPhase2Record inodeBytes bytes.length)
  else do
    let b ← leading inodeBytes bytes
    if allZero b.1 then do
      let inode : Inode := {}
      inode.validateWithMode validation
      return inode
    else do
      let stored ← getU32 b.1 inodeChecksumOffset
      let actual := recordChecksum inodeChecksumOffset b
      rejectIf (stored ≠ actual) (.phase2ChecksumMismatch stored actual)
      let version ← getU16 b.1 0
      let recordBytes ← getU16 b.1 2
      let reserved ← subslices b.1 [(68, 4), (84, 4), (100, 4), (118, 2), (224, 28)]
      rejectIf (version ≠ 1 ∨ recordBytes ≠ 256 ∨ allZero reserved = false)
        .nonZeroPhase2ReservedBytes
      let kind ← NodeKind.decode (← getU16 b.1 4)
      let mode ← getU16 b.1 6
      let uid ← getU32 b.1 8
      let gid ← getU32 b.1 12
      let linkCount ← getU32 b.1 16
      let flags ← getU32 b.1 20
      let generation ← getU64 b.1 24
      let size ← getU64 b.1 32
      let allocatedBlocks ← getU64 b.1 40
      let parentInode ← getU64 b.1 48
      let accessed ← getTimestamp b.1 56
      let modified ← getTimestamp b.1 72
      let changed ← getTimestamp b.1 88
      let created ← getTimestamp b.1 104
      let extentCount ← getU16 b.1 116
      let directoryEntryCount ← getU64 b.1 120
      let extents ← tabulate inlineExtentCount fun i => getExtent b.1 (extentOffset i.val)
      let inode : Inode :=
        { kind, mode, uid, gid, linkCount, flags, generation, size, allocatedBlocks, parentInode,
          accessed, modified, changed, created, directoryEntryCount, extentCount, extents }
      inode.validateWithMode validation
      return inode

def decode : Outcome FormatError Inode := decodeWithMode bytes .strict

/-! ### The record as a layout -/

variable (b : Buf inodeBytes)

def timestampAt (o : ℕ) : Timestamp :=
  { seconds := u64At b.1 o, nanoseconds := u32At b.1 (o + 8) }

def extentAt (o : ℕ) : Extent :=
  { logicalFirstBlock := u64At b.1 o, physicalFirstBlock := u64At b.1 (o + 8),
    lengthBlocks := u32At b.1 (o + 16), flags := u32At b.1 (o + 20) }

/-- The inode of the given kind stored in a record, without any check. -/
def readRecord (kind : NodeKind) : Inode where
  kind := kind
  mode := u16At b.1 6
  uid := u32At b.1 8
  gid := u32At b.1 12
  linkCount := u32At b.1 16
  flags := u32At b.1 20
  generation := u64At b.1 24
  size := u64At b.1 32
  allocatedBlocks := u64At b.1 40
  parentInode := u64At b.1 48
  accessed := timestampAt b 56
  modified := timestampAt b 72
  changed := timestampAt b 88
  created := timestampAt b 104
  directoryEntryCount := u64At b.1 120
  extentCount := u16At b.1 116
  extents := fun i => extentAt b (extentOffset i.val)

/-- The ranges the decoder requires to be zero. -/
def reservedRanges : List (ℕ × ℕ) := [(68, 4), (84, 4), (100, 4), (118, 2), (224, 28)]

/-- The checks the decoder makes on the bytes of an allocated record. -/
structure WellFormed (b : Buf inodeBytes) : Prop where
  checksum : u32At b.1 inodeChecksumOffset = recordChecksum inodeChecksumOffset b
  version : u16At b.1 0 = 1
  recordBytes : u16At b.1 2 = 256
  reserved : ∀ r ∈ reservedRanges, allZero (slice b.1 r.1 r.2) = true

theorem getTimestamp_buf {o : ℕ} (h : o + 12 ≤ inodeBytes) : getTimestamp b.1 o = .ok (timestampAt b o) := by
  rw [getTimestamp, getU64_buf b (by omega), getU32_buf b (by omega)]
  rfl

theorem getExtent_buf {o : ℕ} (h : o + 24 ≤ inodeBytes) : getExtent b.1 o = .ok (extentAt b o) := by
  rw [getExtent, getU64_buf b (by omega), getU64_buf b (by omega), getU32_buf b (by omega),
    getU32_buf b (by omega)]
  rfl

theorem getExtents_buf : (tabulate inlineExtentCount fun i => getExtent b.1 (extentOffset i.val)) =
      .ok fun i => extentAt b (extentOffset i.val) :=
  tabulate_ok fun i => getExtent_buf b (by
    have := i.isLt
    simp only [extentOffset, extentBytes, inodeBytes, inlineExtentCount] at *
    omega)

/-- The decoder on an all-zero slot. -/
theorem decodeWithMode_zero (validation : InodeValidationMode) (hz : allZero b.1 = true) :
    decodeWithMode b.1 validation = (do validateWithMode {} validation; return {}) := by
  rw [decodeWithMode, if_neg (by omega), leading_buf, ok_bind, if_pos hz]

/-- The decoder on a slot that is not all zero, with its reads resolved. -/
theorem decodeWithMode_buf (validation : InodeValidationMode) (hz : allZero b.1 = false) :
    decodeWithMode b.1 validation = (do
      rejectIf (u32At b.1 inodeChecksumOffset ≠ recordChecksum inodeChecksumOffset b)
        (.phase2ChecksumMismatch (u32At b.1 inodeChecksumOffset)
          (recordChecksum inodeChecksumOffset b))
      rejectIf (u16At b.1 0 ≠ 1 ∨ u16At b.1 2 ≠ 256 ∨
        allZero (reservedRanges.flatMap fun r => slice b.1 r.1 r.2) = false)
        .nonZeroPhase2ReservedBytes
      let kind ← NodeKind.decode (u16At b.1 4)
      (readRecord b kind).validateWithMode validation
      return readRecord b kind) := by
  have hranges : ∀ r ∈ reservedRanges, r.1 + r.2 ≤ inodeBytes := by decide
  rw [decodeWithMode, if_neg (by omega), leading_buf, ok_bind, if_neg (by simp [hz])]
  rw [← reservedRanges, subslices_buf b hranges]
  simp (disch := decide) only [getExtents_buf, getTimestamp_buf, reads_buf]
  rfl

variable {b} {inode} {validation}

/-- What it takes for a slot that is not all zero to be accepted. -/
theorem decodeWithMode_eq_ok (hz : allZero b.1 = false) : decodeWithMode b.1 validation = .ok inode ↔
      WellFormed b ∧ NodeKind.decode (u16At b.1 4) = .ok inode.kind ∧
        inode = readRecord b inode.kind ∧ inode.validateWithMode validation = .ok () := by
  rw [decodeWithMode_buf b validation hz]
  simp only [run_eq_ok, not_or, not_not, Bool.not_eq_false, allZero_flatMap]
  constructor
  · rintro ⟨hsum, ⟨hv, hr, hres⟩, kind, hkind, _, hval, rfl⟩
    exact ⟨⟨hsum, hv, hr, hres⟩, hkind, rfl, hval⟩
  · rintro ⟨hwf, hkind, heq, hval⟩
    refine ⟨hwf.checksum, ⟨hwf.version, hwf.recordBytes, hwf.reserved⟩, inode.kind, hkind, (), ?_, heq.symm⟩
    rwa [← heq]

/-- The layout of an allocated record: its fields, the ranges the decoder requires to be zero, and
the checksum. -/
def layout : StampedLayout inodeBytes inodeChecksumOffset where
  tiles :=
    [.field 0 2, .field 2 2, .field 4 2, .field 6 2, .field 8 4, .field 12 4, .field 16 4,
      .field 20 4, .field 24 8, .field 32 8, .field 40 8, .field 48 8, .field 56 8, .field 64 4,
      .gap 68 4, .field 72 8, .field 80 4, .gap 84 4, .field 88 8, .field 96 4, .gap 100 4,
      .field 104 8, .field 112 4, .field 116 2, .gap 118 2, .field 120 8, .field 128 8,
      .field 136 8, .field 144 4, .field 148 4, .field 152 8, .field 160 8, .field 168 4,
      .field 172 4, .field 176 8, .field 184 8, .field 192 4, .field 196 4, .field 200 8,
      .field 208 8, .field 216 4, .field 220 4, .gap 224 28, .gap 252 4]
  tiled := by decide
  stamp_mem := by decide

theorem follows_fields (inode : Inode) : Follows layout.tiles inode.fields := rfl

def toRecord (inode : Inode) : Buf inodeBytes :=
  (render inodeBytes inode.fields).stamp crc32c inodeChecksumOffset

/-- The encoder, with its checksum written as a stamp. -/
theorem encodeWithMode_eq (inode : Inode) (validation : InodeValidationMode) :
    inode.encodeWithMode validation = (do
      inode.validateWithMode validation
      return if inode.kind = .free then Buf.zero inodeBytes else inode.toRecord) := by
  rw [encodeWithMode, putChecksum_render layout inode.follows_fields]
  split <;> rfl

/-! ### Decoding what was encoded -/

section

variable {o : ℕ}

theorem holds_timestampFields (h : o + 12 ≤ inodeBytes) {t : Timestamp} :
    (∀ f ∈ timestampFields o t, Holds b f) ↔ timestampAt b o = t := by
  simp (disch := omega) only [timestampFields, holds_fields, and_true, timestampAt, Timestamp.ext_iff]

theorem holds_extentFields {extents : Fin inlineExtentCount → Extent} :
    (∀ f ∈ (List.finRange inlineExtentCount).flatMap fun i => extentFields (extentOffset i.val) (extents i),
      Holds b f) ↔ (fun i : Fin inlineExtentCount => extentAt b (extentOffset i.val)) = extents := by
  simp only [List.forall_mem_flatMap, List.mem_finRange, forall_const, funext_iff]
  refine forall_congr' fun i => ?_
  have hi : extentOffset i.val + 24 ≤ inodeBytes := by
    simp only [extentOffset, extentBytes, inodeBytes, inlineExtentCount] at *
    omega
  simp (disch := omega) only [extentFields, holds_fields, and_true, extentAt, Extent.ext_iff]

/-- The ranges the decoder requires to be zero are the gaps of the layout but the checksum. -/
theorem reserved_iff : (∀ t ∈ layout.tiles, t.reserved = true → t ≠ Tile.gap inodeChecksumOffset 4 →
    allZero (slice b.1 t.offset t.length) = true) ↔
      ∀ r ∈ reservedRanges, allZero (slice b.1 r.1 r.2) = true := by
  have hgap : ∀ r ∈ reservedRanges, Tile.gap r.1 r.2 ∈ layout.tiles ∧
      Tile.gap r.1 r.2 ≠ Tile.gap inodeChecksumOffset 4 := by decide
  have htile : ∀ t ∈ layout.tiles, t.reserved = true → t ≠ Tile.gap inodeChecksumOffset 4 →
      (t.offset, t.length) ∈ reservedRanges := by decide
  exact ⟨fun h r hr => h _ (hgap r hr).1 rfl (hgap r hr).2, fun h t ht hr hne => h _ (htile t ht hr hne)⟩

/-- **When a buffer is the record of an allocated inode**: it is well formed and holds the inode. -/
theorem eq_toRecord_iff {inode : Inode} : b = inode.toRecord ↔
    WellFormed b ∧ inode.kind.code = u16At b.1 4 ∧ inode = readRecord b inode.kind := by
  rw [toRecord, eq_stamp_iff layout inode.follows_fields]
  obtain ⟨kind, mode, uid, gid, linkCount, flags, generation, size, allocatedBlocks, parentInode, accessed,
    modified, changed, created, directoryEntryCount, extentCount, extents⟩ := inode
  simp (disch := decide) only [fields, List.forall_mem_append, holds_timestampFields,
    holds_extentFields, holds_fields, readRecord, Inode.mk.injEq, true_and, reserved_iff, and_assoc]
  constructor
  · rintro ⟨hversion, hbytes, hkind, rfl, rfl, rfl, rfl, rfl, rfl, rfl, rfl, rfl, rfl, rfl, rfl, rfl, rfl,
      rfl, rfl, hreserved, hsum⟩
    exact ⟨⟨hsum, hversion, hbytes, hreserved⟩, hkind.symm, rfl, rfl, rfl, rfl, rfl, rfl, rfl, rfl, rfl,
      rfl, rfl, rfl, rfl, rfl, rfl, rfl⟩
  · rintro ⟨hwf, hkind, rfl, rfl, rfl, rfl, rfl, rfl, rfl, rfl, rfl, rfl, rfl, rfl, rfl, rfl, rfl, rfl⟩
    exact ⟨hwf.version, hwf.recordBytes, hkind.symm, rfl, rfl, rfl, rfl, rfl, rfl, rfl, rfl, rfl, rfl, rfl,
      rfl, rfl, rfl, rfl, rfl, hwf.reserved, hwf.checksum⟩

end

/-- The version is not zero, so an allocated record is not mistaken for a free slot. -/
theorem allZero_of_version (h : u16At b.1 0 = 1) : allZero b.1 = false := by
  by_contra hz
  rw [Bool.not_eq_false, allZero_iff_replicate] at hz
  rw [hz, b.2] at h
  cases h

theorem validateWithMode_free (hk : inode.kind = .free) :
    inode.validateWithMode validation = .ok () ↔ validation = .strict ∧ inode = {} := by
  unfold validateWithMode
  rw [if_pos hk, rejectIf_eq_ok, not_not]

/-- **Decoding inverts encoding**, in either mode. -/
theorem decode_encode (h : inode.encodeWithMode validation = .ok b) :
    decodeWithMode b.1 validation = .ok inode := by
  rw [encodeWithMode_eq, bind_eq_ok] at h
  obtain ⟨_, hval, hb⟩ := h
  rw [return_eq_ok] at hb
  by_cases hk : inode.kind = .free
  · rw [if_pos hk] at hb
    obtain ⟨hmode, rfl⟩ := (validateWithMode_free hk).1 hval
    subst hb
    rw [decodeWithMode_zero _ _ (allZero_replicate _), hval]
    rfl
  · rw [if_neg hk] at hb
    subst hb
    obtain ⟨hwf, hkind, hread⟩ := eq_toRecord_iff.1 (rfl : inode.toRecord = _)
    rw [decodeWithMode_eq_ok (allZero_of_version hwf.version), ← hkind]
    exact ⟨hwf, inode.kind.decode_code, hread, hval⟩

/-! ### Encoding what was decoded -/

/-- The record of a free inode written in full.  The encoder never produces it. -/
def allocatedFree : Buf inodeBytes := toRecord {}

theorem allocatedFree_ne_zero : allocatedFree ≠ Buf.zero inodeBytes := by
  intro h
  have hz := allZero_of_version (eq_toRecord_iff.1 (rfl : toRecord {} = _)).1.version
  rw [← allocatedFree, h] at hz
  simp [Buf.zero] at hz

/-- The strict decoder takes `allocatedFree` for a free slot. -/
theorem decode_allocatedFree : decodeWithMode allocatedFree.1 .strict = .ok {} := by
  obtain ⟨hwf, hkind, hread⟩ := eq_toRecord_iff.1 (rfl : allocatedFree = toRecord {})
  rw [decodeWithMode_eq_ok (allZero_of_version hwf.version), ← hkind]
  exact ⟨hwf, rfl, hread, (validateWithMode_free rfl).2 ⟨rfl, rfl⟩⟩

theorem encode_default : encodeWithMode {} .strict = .ok (Buf.zero inodeBytes) := by
  rfl

/-- An accepted record is the encoding of what it decodes to, unless it is `allocatedFree`. -/
theorem encode_of_decode (h : decodeWithMode b.1 validation = .ok inode)
    (hb : ¬ (validation = .strict ∧ b = allocatedFree)) : inode.encodeWithMode validation = .ok b := by
  cases hz : allZero b.1 with
  | true =>
    rw [decodeWithMode_zero b validation hz, bind_eq_ok] at h
    obtain ⟨_, hval, hinode⟩ := h
    cases hinode
    have hzero : b = Buf.zero inodeBytes := Subtype.ext (by rw [allZero_iff_replicate.1 hz, b.2]; rfl)
    rw [encodeWithMode_eq, hval, hzero]
    rfl
  | false =>
    obtain ⟨hwf, hkind, hread, hval⟩ := (decodeWithMode_eq_ok hz).1 h
    have hrec : inode.toRecord = b := (eq_toRecord_iff.2 ⟨hwf, NodeKind.code_of_decode hkind, hread⟩).symm
    have hk : inode.kind ≠ .free := by
      intro hk
      obtain ⟨hmode, hdefault⟩ := (validateWithMode_free hk).1 hval
      exact hb ⟨hmode, by rw [← hrec, hdefault, allocatedFree]⟩
    rw [encodeWithMode_eq, hval, if_neg hk, hrec]
    rfl

/-! ### Canonicity -/

/-- The record is canonical in the given mode: if it is accepted, then it is the encoding of the
inode it decodes to, and for a free inode it is the all-zero slot. -/
def Canonical (validation : InodeValidationMode) (b : Buf inodeBytes) : Prop :=
  ∀ inode, decodeWithMode b.1 validation = .ok inode →
    inode.encodeWithMode validation = .ok b ∧ (inode.kind = .free → b = Buf.zero inodeBytes)

/-- Every inode that validates is recovered from its encoding. -/
theorem exists_encode (hval : inode.validateWithMode validation = .ok ()) :
    ∃ b, inode.encodeWithMode validation = .ok b ∧ decodeWithMode b.1 validation = .ok inode := by
  have henc := inode.encodeWithMode_eq validation
  rw [hval] at henc
  exact ⟨_, henc, decode_encode henc⟩

/-- **Inode records are canonical** with one exception: every inode that validates is recovered from
its encoding, and a record is canonical exactly when it is not `allocatedFree` read in the strict
mode. -/
theorem canonical_iff (validation : InodeValidationMode) (b : Buf inodeBytes) :
    ((∀ inode : Inode, inode.validateWithMode validation = .ok () →
        ∃ r, inode.encodeWithMode validation = .ok r ∧ decodeWithMode r.1 validation = .ok inode) ∧
      Canonical validation b) ↔ ¬ (validation = .strict ∧ b = allocatedFree) := by
  constructor
  · rintro ⟨-, hc⟩ ⟨rfl, rfl⟩
    exact allocatedFree_ne_zero ((hc _ decode_allocatedFree).2 rfl)
  · intro hb
    refine ⟨fun inode hval => exists_encode hval, fun inode h => ?_⟩
    have henc := encode_of_decode h hb
    refine ⟨henc, fun hk => ?_⟩
    rw [encodeWithMode_eq, bind_eq_ok] at henc
    obtain ⟨_, -, hret⟩ := henc
    rw [if_pos hk] at hret
    exact (Except.ok.inj hret).symm

/-- The exception is real: `allocatedFree` is accepted, and what it decodes to is encoded as another
record. -/
theorem not_canonical_allocatedFree : decodeWithMode allocatedFree.1 .strict = .ok {} ∧
      encodeWithMode {} .strict = .ok (Buf.zero inodeBytes) ∧
      allocatedFree ≠ Buf.zero inodeBytes ∧ ¬ Canonical .strict allocatedFree :=
  ⟨decode_allocatedFree, encode_default, allocatedFree_ne_zero,
    fun hc => allocatedFree_ne_zero ((hc _ decode_allocatedFree).2 rfl)⟩

end Inode

end NullFS
