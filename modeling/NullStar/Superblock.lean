/-
**The superblock.**

The superblock names the version and the features of a volume, its identity and label, and its
geometry.  Its layout depends on the phase of the format: a phase 3 volume stores the positions of
the backup superblock, the filesystem state and the journal, where an older volume has reserved
bytes.

* `Superblock`, `VolumeState`, `Features` — the values;
* `format`, `formatPhase2`, `formatPhase3` — the superblock of a new volume;
* `validate` — which superblocks describe a volume;
* `encode`, `decode` — the codec;
* `decode_encode` — decoding inverts encoding on built superblocks;
* `encode_of_decode` — an accepted block is the encoding of what it decodes to;
* `noTrap_decode` — the decoder does not trap.
-/

import NullStar.Format

set_option autoImplicit false

namespace NullFS

open Bytes Rust List

/-! ### Values -/

def incompatPhase2Core : UInt64 := 1
def incompatPhase3WritableRedo : UInt64 := 2
def supportedReadOnlyCompatible : UInt64 := 0
def supportedIncompatible : UInt64 := incompatPhase2Core ||| incompatPhase3WritableRedo

@[ext] structure Features where
  compatible : UInt64 := 0
  readOnlyCompatible : UInt64 := 0
  incompatible : UInt64 := 0
  deriving DecidableEq

def Features.validate (f : Features) (mode : MountMode) : Outcome FormatError Unit := do
  let unknownIncompatible := f.incompatible &&& ~~~supportedIncompatible
  rejectIf (unknownIncompatible ≠ 0) (.unsupportedIncompatibleFeatures unknownIncompatible)
  let unknownReadOnly := f.readOnlyCompatible &&& ~~~supportedReadOnlyCompatible
  rejectIf (mode = .readWrite ∧ unknownReadOnly ≠ 0) (.readOnlyFeaturesRequired unknownReadOnly)

inductive VolumeState where
  | clean | dirty
  deriving DecidableEq

def VolumeState.encode : VolumeState → UInt32
  | .clean => 0
  | .dirty => 1

def VolumeState.decode (value : UInt32) : Outcome FormatError VolumeState :=
  if value = 0 then .ok .clean
  else if value = 1 then .ok .dirty
  else fail (.invalidState value)

theorem VolumeState.decode_encode (s : VolumeState) : VolumeState.decode s.encode = .ok s := by
  cases s <;> rfl

theorem VolumeState.encode_of_decode {v : UInt32} {s : VolumeState}
    (h : VolumeState.decode v = .ok s) : s.encode = v := by
  unfold VolumeState.decode at h
  split at h
  · cases h; simp_all [VolumeState.encode]
  · split at h
    · cases h; simp_all [VolumeState.encode]
    · simp at h

theorem VolumeState.noTrap_decode (v : UInt32) : NoTrap (VolumeState.decode v) := by
  unfold VolumeState.decode
  split_ifs <;> simp

/-- What a volume is formatted with. -/
structure FormatOptions where
  deviceBytes : UInt64
  uuid : Buf 16
  label : Str
  allocationGroupBlocks : UInt64 := defaultAllocationGroupBlocks
  descriptorReservationBlocks : UInt32 := defaultDescriptorReservationBlocks

@[ext] structure Superblock where
  (formatMajor formatMinor : UInt16)
  state : VolumeState
  features : Features
  filesystemUuid : Buf 16
  label : Buf labelCapacity
  labelLength : UInt8
  (capacityBlocks allocationGroupBlocks : UInt64)
  (allocationGroupCount descriptorReservationBlocks : UInt32)
  firstDescriptorBlock : UInt64
  firstAllocatableBlock : UInt64
  backupSuperblockBlock : UInt64
  filesystemStateBlock : UInt64
  journalFirstBlock : UInt64
  (journalBlockCount journalMaxUpdates : UInt32)
  deriving DecidableEq

namespace Superblock

/-- The magic number, "NULLFS" and two zero bytes. -/
def magic : List UInt8 := [0x4e, 0x55, 0x4c, 0x4c, 0x46, 0x53, 0, 0]

variable (sb : Superblock)

def phase2Enabled : Bool :=
  phase2FormatMinor ≤ sb.formatMinor && sb.features.incompatible &&& incompatPhase2Core != 0

def phase3Enabled : Bool :=
  sb.formatMinor == phase3FormatMinor && sb.features.incompatible &&& incompatPhase3WritableRedo != 0

/-! ### Validation -/

def groupCount (capacityBlocks groupBlocks : UInt64) : Outcome FormatError UInt32 := do
  rejectIf (groupBlocks = 0) .invalidAllocationGroupSize
  let rounded ← okOr (checkedAdd 64 capacityBlocks.toNat (groupBlocks.toNat - 1)) .arithmeticOverflow
  let count := rounded / groupBlocks.toNat
  rejectIf (2 ^ 32 ≤ count) .invalidAllocationGroupCount
  return UInt32.ofNat count

/-- The reserved descriptor blocks have room for the descriptors of all groups. -/
def checkDescriptorCapacity : Outcome FormatError Unit :=
  if sb.phase2Enabled then do
    let descriptorCapacity ← okOr (checkedMul 64 sb.descriptorReservationBlocks.toNat
      allocationGroupDescriptorsPerBlock) .arithmeticOverflow
    rejectIf (descriptorCapacity < sb.allocationGroupCount.toNat) .invalidDescriptorReservation
  else return ()

/-- The checks on the positions of the volume's parts; the result is the block data may start at. -/
def expectedFirstAllocatable (descriptorEnd : ℕ) : Outcome FormatError ℕ :=
  if sb.phase3Enabled then do
    rejectIf (sb.descriptorReservationBlocks ≠ defaultDescriptorReservationBlocks ∨
      sb.capacityBlocks.toNat < phase3MinimumVolumeBlocks ∨ descriptorEnd ≠ phase3BackupSuperblockBlock ∨
      sb.backupSuperblockBlock.toNat ≠ phase3BackupSuperblockBlock ∨
      sb.filesystemStateBlock.toNat ≠ phase3FilesystemStateBlock ∨
      sb.journalFirstBlock.toNat ≠ phase3JournalFirstBlock ∨
      sb.journalBlockCount.toNat ≠ phase3JournalBlockCount ∨
      sb.journalMaxUpdates.toNat ≠ phase3MaxUpdates) .invalidPhase3Geometry
    return phase3FirstAllocatableBlock
  else do
    rejectIf (sb.backupSuperblockBlock ≠ 0 ∨ sb.filesystemStateBlock ≠ 0 ∨
      sb.journalFirstBlock ≠ 0 ∨ sb.journalBlockCount ≠ 0 ∨ sb.journalMaxUpdates ≠ 0)
      .invalidPhase3Geometry
    return descriptorEnd

variable (deviceBytes : Option ℕ)

/-- The checks that do not depend on the mode the volume is opened in, behind the one on its
features. -/
def validateGeometry : Outcome FormatError Unit := do
  rejectIf (sb.capacityBlocks.toNat < minimumVolumeBlocks) .invalidCapacity
  rejectIf (deviceBytes.any fun bytes => bytes / blockSize < sb.capacityBlocks.toNat) .invalidCapacity
  rejectIf (sb.allocationGroupBlocks = 0) .invalidAllocationGroupSize
  let count ← groupCount sb.capacityBlocks sb.allocationGroupBlocks
  rejectIf (sb.allocationGroupCount ≠ count) .invalidAllocationGroupCount
  rejectIf (sb.descriptorReservationBlocks = 0) .invalidDescriptorReservation
  rejectIf (phase2FormatMinor ≤ sb.formatMinor ∧ sb.phase2Enabled = false)
    .invalidAllocationGroupTable
  rejectIf (phase3FormatMinor ≤ sb.formatMinor ∧ sb.phase3Enabled = false) .invalidPhase3Geometry
  sb.checkDescriptorCapacity
  rejectIf (sb.firstDescriptorBlock.toNat ≠ NullFS.firstDescriptorBlock) .invalidDescriptorStart
  let descriptorEnd ← okOr (checkedAdd 64 sb.firstDescriptorBlock.toNat
    sb.descriptorReservationBlocks.toNat) .arithmeticOverflow
  let expected ← sb.expectedFirstAllocatable descriptorEnd
  rejectIf (sb.firstAllocatableBlock.toNat ≠ expected ∨
    sb.capacityBlocks.toNat < sb.firstAllocatableBlock.toNat) .invalidFirstAllocatableBlock

def validate (mode : MountMode) : Outcome FormatError Unit := do
  rejectIf (sb.formatMajor ≠ NullFS.formatMajor) (.unsupportedMajorVersion sb.formatMajor)
  rejectIf (NullFS.formatMinor < sb.formatMinor) (.unsupportedMinorVersion sb.formatMinor)
  rejectIf (sb.filesystemUuid = Buf.zero 16) .invalidUuid
  rejectIf (sb.formatMinor < phase2FormatMinor ∧ sb.features.incompatible &&& incompatPhase2Core ≠ 0)
    (.unsupportedIncompatibleFeatures incompatPhase2Core)
  rejectIf (sb.formatMinor < phase3FormatMinor ∧ sb.features.incompatible &&& incompatPhase3WritableRedo ≠ 0)
    (.unsupportedIncompatibleFeatures incompatPhase3WritableRedo)
  sb.features.validate mode
  rejectIf (mode = .readWrite ∧ sb.state = .dirty) .dirtyVolume
  sb.validateGeometry deviceBytes

/-! ### Formatting -/

variable (options : FormatOptions)

def format : Outcome FormatError Superblock := do
  rejectIf (options.uuid = Buf.zero 16) .invalidUuid
  let labelBytes := options.label.1
  rejectIf (labelCapacity < labelBytes.length) .labelTooLong
  rejectIf (0 ∈ labelBytes) .labelContainsNul
  let capacityBlocks := options.deviceBytes / UInt64.ofNat blockSize
  rejectIf (capacityBlocks.toNat < minimumVolumeBlocks) .deviceTooSmall
  rejectIf (options.allocationGroupBlocks = 0) .invalidAllocationGroupSize
  rejectIf (options.descriptorReservationBlocks = 0) .invalidDescriptorReservation
  let firstAllocatableBlock ← okOr (checkedAdd 64 NullFS.firstDescriptorBlock
    options.descriptorReservationBlocks.toNat) .arithmeticOverflow
  rejectIf (capacityBlocks.toNat < firstAllocatableBlock) .deviceTooSmall
  let allocationGroupCount ← groupCount capacityBlocks options.allocationGroupBlocks
  return {
    formatMajor := NullFS.formatMajor
    formatMinor := phase1FormatMinor
    state := .clean
    features := {}
    filesystemUuid := options.uuid
    label := (Buf.zero labelCapacity).put 0 labelBytes
    labelLength := UInt8.ofNat labelBytes.length
    capacityBlocks := capacityBlocks
    allocationGroupBlocks := options.allocationGroupBlocks
    allocationGroupCount := allocationGroupCount
    descriptorReservationBlocks := options.descriptorReservationBlocks
    firstDescriptorBlock := UInt64.ofNat NullFS.firstDescriptorBlock
    firstAllocatableBlock := UInt64.ofNat firstAllocatableBlock
    backupSuperblockBlock := 0
    filesystemStateBlock := 0
    journalFirstBlock := 0
    journalBlockCount := 0
    journalMaxUpdates := 0 }

def addIncompatible (feature : UInt64) : Features :=
  { sb.features with incompatible := sb.features.incompatible ||| feature }

def formatPhase2 : Outcome FormatError Superblock := do
  let superblock ← format options
  let superblock := { superblock with
    formatMinor := phase2FormatMinor
    features := superblock.addIncompatible incompatPhase2Core }
  superblock.validate none .readOnly
  return superblock

def formatPhase3 : Outcome FormatError Superblock := do
  rejectIf (options.descriptorReservationBlocks ≠ defaultDescriptorReservationBlocks)
    .invalidPhase3Geometry
  let superblock ← formatPhase2 options
  rejectIf (superblock.capacityBlocks.toNat < phase3MinimumVolumeBlocks) .deviceTooSmall
  let superblock := { superblock with
    formatMinor := phase3FormatMinor
    features := superblock.addIncompatible incompatPhase3WritableRedo
    backupSuperblockBlock := UInt64.ofNat phase3BackupSuperblockBlock
    filesystemStateBlock := UInt64.ofNat phase3FilesystemStateBlock
    journalFirstBlock := UInt64.ofNat phase3JournalFirstBlock
    journalBlockCount := UInt32.ofNat phase3JournalBlockCount
    journalMaxUpdates := UInt32.ofNat phase3MaxUpdates
    firstAllocatableBlock := UInt64.ofNat phase3FirstAllocatableBlock }
  superblock.validate none .readOnly
  return superblock

/-! ### The codec -/

/-- The fields every superblock has, in the order of the encoder. -/
def headerFields : List Field :=
  [(0, magic), u16Field 8 sb.formatMajor, u16Field 10 sb.formatMinor,
    u32Field 12 superblockHeaderBytes, u32Field 16 (UInt32.ofNat blockSize),
    u32Field 20 sb.state.encode, u64Field 24 sb.features.compatible,
    u64Field 32 sb.features.readOnlyCompatible, u64Field 40 sb.features.incompatible,
    (48, sb.filesystemUuid.1), (64, sb.label.1), u64Field 128 sb.capacityBlocks,
    u64Field 136 sb.allocationGroupBlocks, u32Field 144 sb.allocationGroupCount,
    u32Field 148 sb.descriptorReservationBlocks, u64Field 152 sb.firstDescriptorBlock,
    u64Field 160 sb.firstAllocatableBlock]

/-- The fields of a phase 3 superblock alone. -/
def phase3Fields : List Field :=
  [u64Field 168 sb.backupSuperblockBlock, u64Field 176 sb.filesystemStateBlock,
    u64Field 184 sb.journalFirstBlock, u32Field 192 sb.journalBlockCount, u32Field 196 sb.journalMaxUpdates]

def fields : List Field :=
  sb.headerFields ++ if sb.phase3Enabled then sb.phase3Fields else []

def encode : Outcome FormatError Block := do
  sb.validate none .readOnly
  return putChecksum superblockChecksumOffset (render blockSize sb.fields)

/-- The length of a stored label: the position of its first zero byte. -/
def storedLabelLength (label : List UInt8) : ℕ := (label.findIdx? (· == 0)).getD labelCapacity

def decode (bytes : List UInt8) (deviceBytes : Option ℕ) (mode : MountMode) :
    Outcome FormatError Superblock :=
  if bytes.length < blockSize then fail (.truncatedSuperblock bytes.length)
  else do
    let bytes ← leading blockSize bytes
    let found ← subslice bytes.1 0 8
    rejectIf (found ≠ magic) .invalidMagic
    let stored ← getU32 bytes.1 superblockChecksumOffset
    let calculated := recordChecksum superblockChecksumOffset bytes
    rejectIf (stored ≠ calculated) (.checksumMismatch stored calculated)
    let formatMajor ← getU16 bytes.1 8
    rejectIf (formatMajor ≠ NullFS.formatMajor) (.unsupportedMajorVersion formatMajor)
    let formatMinor ← getU16 bytes.1 10
    rejectIf (NullFS.formatMinor < formatMinor) (.unsupportedMinorVersion formatMinor)
    let headerSize ← getU32 bytes.1 12
    rejectIf (headerSize ≠ superblockHeaderBytes) (.invalidHeaderSize headerSize)
    let size ← getU32 bytes.1 16
    rejectIf (size ≠ UInt32.ofNat blockSize) (.invalidBlockSize size)
    let state ← VolumeState.decode (← getU32 bytes.1 20)
    let compatible ← getU64 bytes.1 24
    let readOnlyCompatible ← getU64 bytes.1 32
    let incompatible ← getU64 bytes.1 40
    let filesystemUuid ← subarray bytes.1 48 16
    rejectIf (filesystemUuid = Buf.zero 16) .invalidUuid
    let label ← subarray bytes.1 64 labelCapacity
    let labelLength := storedLabelLength label.1
    let text ← subslice label.1 0 labelLength
    let padding ← subslice label.1 labelLength (labelCapacity - labelLength)
    rejectIf (allZero padding = false ∨ isUtf8 text = false) .invalidLabel
    let reservedStart :=
      if formatMinor = phase3FormatMinor ∧ incompatible &&& incompatPhase3WritableRedo ≠ 0 then 200
      else 168
    let reserved ← subslice bytes.1 reservedStart (superblockChecksumOffset - reservedStart)
    rejectIf (allZero reserved = false) .nonZeroReservedBytes
    let capacityBlocks ← getU64 bytes.1 128
    let allocationGroupBlocks ← getU64 bytes.1 136
    let allocationGroupCount ← getU32 bytes.1 144
    let descriptorReservationBlocks ← getU32 bytes.1 148
    let firstDescriptorBlock ← getU64 bytes.1 152
    let firstAllocatableBlock ← getU64 bytes.1 160
    let backupSuperblockBlock ← getU64 bytes.1 168
    let filesystemStateBlock ← getU64 bytes.1 176
    let journalFirstBlock ← getU64 bytes.1 184
    let journalBlockCount ← getU32 bytes.1 192
    let journalMaxUpdates ← getU32 bytes.1 196
    let superblock : Superblock :=
      { formatMajor, formatMinor, state, filesystemUuid, label, capacityBlocks,
        allocationGroupBlocks, allocationGroupCount, descriptorReservationBlocks,
        firstDescriptorBlock, firstAllocatableBlock, backupSuperblockBlock, filesystemStateBlock,
        journalFirstBlock, journalBlockCount, journalMaxUpdates
        features := { compatible, readOnlyCompatible, incompatible }
        labelLength := UInt8.ofNat labelLength }
    superblock.validate deviceBytes mode
    return superblock

/-- The superblocks that exist outside this module.  Every field but the label and its length can be
assigned at will. -/
inductive Built : Superblock → Prop
  | format {options : FormatOptions} {sb : Superblock} (h : format options = .ok sb) : Built sb
  | formatPhase2 {options : FormatOptions} {sb : Superblock} (h : formatPhase2 options = .ok sb) : Built sb
  | formatPhase3 {options : FormatOptions} {sb : Superblock} (h : formatPhase3 options = .ok sb) : Built sb
  | decode {bytes : List UInt8} {deviceBytes : Option ℕ} {mode : MountMode} {sb : Superblock}
      (h : decode bytes deviceBytes mode = .ok sb) : Built sb
  | assign {sb sb' : Superblock} (h : Built sb) (hl : sb'.label = sb.label)
      (hn : sb'.labelLength = sb.labelLength) : Built sb'

/-! ### The label -/

/-- The stored label is well formed: its length is the position of its first zero byte, the bytes
behind it are zero, and those before it are text. -/
structure LabelOk (label : Buf labelCapacity) (length : UInt8) : Prop where
  length_eq : length = UInt8.ofNat (storedLabelLength label.1)
  padding : allZero (slice label.1 (storedLabelLength label.1)
    (labelCapacity - storedLabelLength label.1)) = true
  text : isUtf8 (slice label.1 0 (storedLabelLength label.1)) = true

theorem storedLabelLength_le (label : Buf labelCapacity) : storedLabelLength label.1 ≤ labelCapacity := by
  unfold storedLabelLength
  cases h : label.1.findIdx? (· == 0) with
  | none => simp
  | some =>
    obtain ⟨hi, -⟩ := findIdx?_eq_some_iff_getElem.1 h
    simp only [Option.getD_some]
    omega

theorem zero_put_text {text : List UInt8} (hl : text.length ≤ labelCapacity) :
    ((Buf.zero labelCapacity).put 0 text).1 = text ++ replicate (labelCapacity - text.length) 0 := by
  simp only [Buf.put, Buf.zero, Nat.zero_add, drop_replicate]
  exact take_of_length_le (by simp; omega)

/-- A text without zero bytes, padded with zeros, has the length of the text. -/
theorem storedLabelLength_put {text : List UInt8} (hn : 0 ∉ text) (hl : text.length ≤ labelCapacity) :
    storedLabelLength ((Buf.zero labelCapacity).put 0 text).1 = text.length := by
  have htext : text.findIdx? (· == 0) = none := by
    rw [findIdx?_eq_none_iff]
    intro x hx
    rw [beq_eq_false_iff_ne]
    rintro rfl
    exact hn hx
  rw [storedLabelLength, zero_put_text hl, findIdx?_append, htext]
  rcases text.length.lt_or_ge labelCapacity with hlt | hge
  · obtain ⟨k, hk⟩ : ∃ k, labelCapacity - text.length = k + 1 :=
      ⟨labelCapacity - text.length - 1, by omega⟩
    simp [hk]
  · have hk : labelCapacity - text.length = 0 := by omega
    simp [hk]
    omega

theorem labelOk_put {text : Str} (hn : 0 ∉ text.1) (hl : text.1.length ≤ labelCapacity) :
    LabelOk ((Buf.zero labelCapacity).put 0 text.1) (UInt8.ofNat text.1.length) := by
  have hlen := storedLabelLength_put hn hl
  refine ⟨by rw [hlen], ?_, ?_⟩
  · rw [hlen, zero_put_text hl, slice, drop_left]
    rw [take_of_length_le (by simp)]
    exact allZero_replicate _
  · rw [hlen, zero_put_text hl, slice, drop_zero, take_left]
    exact text.2

variable {options} {sb} {deviceBytes} {mode : MountMode} {b : Block}

theorem labelOk_format (h : format options = .ok sb) : LabelOk sb.label sb.labelLength := by
  simp only [format, run_eq_ok] at h
  obtain ⟨-, hlen, hnul, -, -, -, first, -, -, count, -, rfl⟩ := h
  exact labelOk_put hnul (by omega)

theorem labelOk_formatPhase2 (h : formatPhase2 options = .ok sb) : LabelOk sb.label sb.labelLength := by
  simp only [formatPhase2, run_eq_ok] at h
  obtain ⟨sb1, hf, -, -, rfl⟩ := h
  have hl := labelOk_format hf
  exact hl

theorem labelOk_formatPhase3 (h : formatPhase3 options = .ok sb) : LabelOk sb.label sb.labelLength := by
  simp only [formatPhase3, bind_eq_ok, return_eq_ok] at h
  obtain ⟨-, -, sb2, hf, -, -, -, -, rfl⟩ := h
  have hl := labelOk_formatPhase2 hf
  exact hl

/-! ### The block as a layout -/

/-- The superblock in the given state stored in a block, without any check. -/
def readBlock (b : Block) (state : VolumeState) : Superblock where
  formatMajor := u16At b.1 8
  formatMinor := u16At b.1 10
  state := state
  features := { compatible := u64At b.1 24, readOnlyCompatible := u64At b.1 32,
                incompatible := u64At b.1 40 }
  filesystemUuid := arrayAt b 48 16 (by decide)
  label := arrayAt b 64 labelCapacity (by decide)
  labelLength := UInt8.ofNat (storedLabelLength (slice b.1 64 labelCapacity))
  capacityBlocks := u64At b.1 128
  allocationGroupBlocks := u64At b.1 136
  allocationGroupCount := u32At b.1 144
  descriptorReservationBlocks := u32At b.1 148
  firstDescriptorBlock := u64At b.1 152
  firstAllocatableBlock := u64At b.1 160
  backupSuperblockBlock := u64At b.1 168
  filesystemStateBlock := u64At b.1 176
  journalFirstBlock := u64At b.1 184
  journalBlockCount := u32At b.1 192
  journalMaxUpdates := u32At b.1 196

/-- The first byte of the reserved range. -/
def reservedStart (sb : Superblock) : ℕ := if sb.phase3Enabled then 200 else 168

theorem reservedStart_le (sb : Superblock) : sb.reservedStart ≤ superblockChecksumOffset := by
  unfold reservedStart
  split <;> decide

/-- The checks the decoder makes on the bytes of a block that holds `sb`. -/
structure WellFormed (b : Block) (sb : Superblock) : Prop where
  magic : slice b.1 0 8 = magic
  checksum : u32At b.1 superblockChecksumOffset = recordChecksum superblockChecksumOffset b
  headerSize : u32At b.1 12 = superblockHeaderBytes
  size : u32At b.1 16 = UInt32.ofNat blockSize
  reserved : allZero (slice b.1 sb.reservedStart (superblockChecksumOffset - sb.reservedStart)) = true

/-- The checks of `validate` that the decoder makes on its own before it reads on. -/
theorem validate_header (h : sb.validate deviceBytes mode = .ok ()) : sb.formatMajor = NullFS.formatMajor ∧
      ¬ NullFS.formatMinor < sb.formatMinor ∧ sb.filesystemUuid ≠ Buf.zero 16 := by
  simp only [validate, run_eq_ok, not_not] at h
  exact ⟨h.1, h.2.1, h.2.2.1⟩

/-- The decoder on a block, with its reads resolved. -/
theorem decode_buf (b : Block) (deviceBytes : Option ℕ) (mode : MountMode) : decode b.1 deviceBytes mode = (do
      rejectIf (slice b.1 0 8 ≠ magic) .invalidMagic
      rejectIf (u32At b.1 superblockChecksumOffset ≠ recordChecksum superblockChecksumOffset b)
        (.checksumMismatch (u32At b.1 superblockChecksumOffset)
          (recordChecksum superblockChecksumOffset b))
      rejectIf (u16At b.1 8 ≠ NullFS.formatMajor) (.unsupportedMajorVersion (u16At b.1 8))
      rejectIf (NullFS.formatMinor < u16At b.1 10) (.unsupportedMinorVersion (u16At b.1 10))
      rejectIf (u32At b.1 12 ≠ superblockHeaderBytes) (.invalidHeaderSize (u32At b.1 12))
      rejectIf (u32At b.1 16 ≠ UInt32.ofNat blockSize) (.invalidBlockSize (u32At b.1 16))
      let state ← VolumeState.decode (u32At b.1 20)
      let sb := readBlock b state
      rejectIf (sb.filesystemUuid = Buf.zero 16) .invalidUuid
      rejectIf (allZero (slice sb.label.1 (storedLabelLength sb.label.1)
        (labelCapacity - storedLabelLength sb.label.1)) = false ∨
        isUtf8 (slice sb.label.1 0 (storedLabelLength sb.label.1)) = false) .invalidLabel
      rejectIf (allZero (slice b.1 sb.reservedStart
        (superblockChecksumOffset - sb.reservedStart)) = false) .nonZeroReservedBytes
      sb.validate deviceBytes mode
      return sb) := by
  have hlabel := storedLabelLength_le (arrayAt b 64 labelCapacity (by decide))
  rw [decode, if_neg (by omega), leading_buf]
  simp (disch := decide) only [reads_buf, ok_bind]
  rw [subslice_buf (arrayAt b 64 labelCapacity (by decide)) (by omega),
    subslice_buf (arrayAt b 64 labelCapacity (by decide)) (by omega)]
  -- the reserved range starts where the superblock that is about to be built says
  have hres : (if u16At b.1 10 = phase3FormatMinor ∧
      u64At b.1 40 &&& incompatPhase3WritableRedo ≠ 0 then 200 else 168) =
      (readBlock b .clean).reservedStart := by
    simp only [reservedStart, phase3Enabled, readBlock, Bool.and_eq_true, beq_iff_eq, bne_iff_ne]
  have hle := (readBlock b .clean).reservedStart_le
  simp only [hres]
  rw [subslice_buf b (by simp only [superblockChecksumOffset] at *; omega)]
  rfl

/-- What it takes for a block to be accepted. -/
theorem decode_eq_ok : decode b.1 deviceBytes mode = .ok sb ↔
      WellFormed b sb ∧ VolumeState.decode (u32At b.1 20) = .ok sb.state ∧
        LabelOk sb.label sb.labelLength ∧ sb = readBlock b sb.state ∧
        sb.validate deviceBytes mode = .ok () := by
  rw [decode_buf]
  simp only [run_eq_ok, not_or, not_not, Bool.not_eq_false]
  constructor
  · rintro ⟨hmagic, hsum, -, -, hheader, hsize, state, hstate, -, ⟨hpad, htext⟩, hres, _, hval, rfl⟩
    exact ⟨⟨hmagic, hsum, hheader, hsize, hres⟩, hstate, ⟨rfl, hpad, htext⟩, rfl, hval⟩
  · rintro ⟨hwf, hstate, hlabel, hread, hval⟩
    obtain ⟨hmajor, hminor, huuid⟩ := validate_header hval
    have hres := hwf.reserved
    have hpad := hlabel.padding
    have htext := hlabel.text
    rw [hread] at hmajor hminor huuid hres hpad htext hval
    exact ⟨hwf.magic, hwf.checksum, hmajor, hminor, hwf.headerSize, hwf.size, sb.state, hstate,
      huuid, ⟨hpad, htext⟩, hres, (), hval, hread.symm⟩

/-- The decoder reads only the first block of its input. -/
theorem decode_take {bytes : List UInt8} (hl : ¬ bytes.length < blockSize) :
    decode bytes deviceBytes mode = decode (bytes.take blockSize) deviceBytes mode := by
  have hlen : (bytes.take blockSize).length = blockSize := by simp; omega
  have hlead := leading_buf (ε := FormatError) (⟨bytes.take blockSize, hlen⟩ : Block)
  rw [decode, decode, if_neg hl, if_neg (by omega), leading_of_le (by omega), hlead]

theorem labelOk_decode {bytes : List UInt8} (h : decode bytes deviceBytes mode = .ok sb) :
    LabelOk sb.label sb.labelLength := by
  by_cases hl : bytes.length < blockSize
  · rw [decode, if_pos hl] at h
    simp at h
  · have hlen : (bytes.take blockSize).length = blockSize := by simp; omega
    rw [decode_take hl] at h
    exact (decode_eq_ok (b := ⟨bytes.take blockSize, hlen⟩)).1 h |>.2.2.1

/-- The label of a built superblock is well formed. -/
theorem Built.labelOk (h : Built sb) : LabelOk sb.label sb.labelLength := by
  induction h with
  | format h => exact labelOk_format h
  | formatPhase2 h => exact labelOk_formatPhase2 h
  | formatPhase3 h => exact labelOk_formatPhase3 h
  | decode h => exact labelOk_decode h
  | assign h hl hn => rwa [hl, hn]

/-! ### Decoding what was encoded -/

def layout (phase3 : Bool) : StampedLayout blockSize superblockChecksumOffset where
  tiles :=
    [.field 0 8, .field 8 2, .field 10 2, .field 12 4, .field 16 4, .field 20 4, .field 24 8,
      .field 32 8, .field 40 8, .field 48 16, .field 64 64, .field 128 8, .field 136 8,
      .field 144 4, .field 148 4, .field 152 8, .field 160 8] ++
    (if phase3 then [.field 168 8, .field 176 8, .field 184 8, .field 192 4, .field 196 4,
      .gap 200 3892] else [.gap 168 3924]) ++ [.gap superblockChecksumOffset 4]
  tiled := by cases phase3 <;> decide
  stamp_mem := by simp

theorem follows_fields (sb : Superblock) : Follows (layout sb.phase3Enabled).tiles sb.fields := by
  have huuid := sb.filesystemUuid.2
  have hlabel := sb.label.2
  cases h : sb.phase3Enabled <;>
    simp [Follows, layout, fields, headerFields, phase3Fields, h, u16Field, u32Field, u64Field,
      huuid, hlabel, magic, labelCapacity, Tile.field, Tile.gap]

def toBlock (sb : Superblock) : Block :=
  (render blockSize sb.fields).stamp crc32c superblockChecksumOffset

/-- The encoder, with its checksum written as a stamp. -/
theorem encode_eq (sb : Superblock) : sb.encode = (do sb.validate none .readOnly; return sb.toBlock) := by
  rw [encode, putChecksum_render _ sb.follows_fields, toBlock]

/-- The only reserved tile besides the checksum is the tail of the block. -/
theorem reserved_iff (sb : Superblock) : (∀ t ∈ (layout sb.phase3Enabled).tiles,
    t.reserved = true → t ≠ Tile.gap superblockChecksumOffset 4 →
      allZero (slice b.1 t.offset t.length) = true) ↔
    allZero (slice b.1 sb.reservedStart (superblockChecksumOffset - sb.reservedStart)) = true := by
  obtain ⟨hmem, hne, htile⟩ : .gap sb.reservedStart (superblockChecksumOffset - sb.reservedStart) ∈
      (layout sb.phase3Enabled).tiles ∧ Tile.gap sb.reservedStart
        (superblockChecksumOffset - sb.reservedStart) ≠ Tile.gap superblockChecksumOffset 4 ∧
      ∀ t ∈ (layout sb.phase3Enabled).tiles, t.reserved = true → t ≠ .gap superblockChecksumOffset 4 →
          t = .gap sb.reservedStart (superblockChecksumOffset - sb.reservedStart) := by
    unfold reservedStart
    cases sb.phase3Enabled <;> decide
  exact ⟨fun h => h _ hmem rfl hne, fun h t ht hr hc => by rw [htile t ht hr hc]; exact h⟩

/-- What `validate` says about the geometry of an older volume. -/
theorem geometry_of_validate (h : sb.validate deviceBytes mode = .ok ()) (hp : sb.phase3Enabled = false) :
    sb.backupSuperblockBlock = 0 ∧ sb.filesystemStateBlock = 0 ∧ sb.journalFirstBlock = 0 ∧
      sb.journalBlockCount = 0 ∧ sb.journalMaxUpdates = 0 := by
  simp only [validate, validateGeometry, expectedFirstAllocatable, hp, run_eq_ok,
    Bool.false_eq_true, if_false] at h
  -- the position checks stand behind sixteen others
  obtain ⟨-, -, -, -, -, -, -, -, -, -, -, -, -, -, -, -, -, -, -, -, -, -, _, ⟨hzero, -⟩, -⟩ := h
  simpa only [not_or, not_not] using hzero

/-- The checks of the read-only mode on a volume of unknown size are the weakest. -/
theorem validate_readOnly (h : sb.validate deviceBytes mode = .ok ()) :
    sb.validate none .readOnly = .ok () := by
  simp only [validate, validateGeometry, Features.validate, run_eq_ok] at h ⊢
  obtain ⟨h1, h2, h3, h4, h5, ⟨h6, -⟩, -, h7, -, hrest⟩ := h
  exact ⟨h1, h2, h3, h4, h5, ⟨h6, by simp⟩, by simp, h7, by simp, hrest⟩

/-- The positions stored in the block of a superblock.  For an older volume they are read from the
reserved bytes, and `validate` has required them to be zero. -/
theorem holds_positions (hval : sb.validate none .readOnly = .ok ())
    (hres : allZero (slice b.1 sb.reservedStart (superblockChecksumOffset - sb.reservedStart)) = true) :
    (∀ f ∈ (if sb.phase3Enabled then sb.phase3Fields else []), Holds b f) ↔
      u64At b.1 168 = sb.backupSuperblockBlock ∧ u64At b.1 176 = sb.filesystemStateBlock ∧
        u64At b.1 184 = sb.journalFirstBlock ∧ u32At b.1 192 = sb.journalBlockCount ∧
          u32At b.1 196 = sb.journalMaxUpdates := by
  cases hp : sb.phase3Enabled with
  | true =>
    simp (disch := decide) only [if_true, phase3Fields, holds_fields, and_true]
  | false =>
    obtain ⟨h1, h2, h3, h4, h5⟩ := geometry_of_validate hval hp
    rw [reservedStart, hp, if_neg (by simp), b.allZero_slice (by decide)] at hres
    have hzero : ∀ o w, 168 ≤ o → o + w ≤ superblockChecksumOffset → slice b.1 o w = replicate w 0 := by
      intro o w ho hw
      have hn : o + w ≤ blockSize := hw.trans (by decide)
      have hz : allZero (slice b.1 o w) = true := by
        rw [b.allZero_slice hn]
        intro i h1 h2
        exact hres i (by omega) (by simp only [superblockChecksumOffset] at *; omega)
      rw [allZero_iff_replicate.1 hz, b.length_slice hn]
    rw [h1, h2, h3, h4, h5]
    exact iff_of_true (by simp) ⟨u64At_of_slice (hzero 168 8 (by decide) (by decide)),
      u64At_of_slice (hzero 176 8 (by decide) (by decide)),
      u64At_of_slice (hzero 184 8 (by decide) (by decide)),
      u32At_of_slice (hzero 192 4 (by decide) (by decide)),
      u32At_of_slice (hzero 196 4 (by decide) (by decide))⟩

/-- **When a buffer is the block of a superblock**: it is well formed and holds the superblock. -/
theorem eq_toBlock_iff (hl : LabelOk sb.label sb.labelLength)
    (hval : sb.validate none .readOnly = .ok ()) : b = sb.toBlock ↔
      WellFormed b sb ∧ sb.state.encode = u32At b.1 20 ∧ sb = readBlock b sb.state := by
  have hpositions := holds_positions (b := b) hval
  rw [toBlock, eq_stamp_iff _ sb.follows_fields, sb.reserved_iff, @eq_comm _ sb, Superblock.ext_iff,
    Features.ext_iff]
  simp (disch := decide) only [fields, forall_mem_append, headerFields, holds_fields,
    holds_bytes sb.filesystemUuid.2, holds_bytes sb.label.2, readBlock, true_and, and_assoc]
  constructor
  · rintro ⟨hmagic, hmajor, hminor, hheader, hsize, hstate, hc, hro, hinc, huuid, hlabel, hcap, hgroup,
      hcount, hdesc, hfirst, halloc, hpos, hres, hsum⟩
    obtain ⟨h1, h2, h3, h4, h5⟩ := (hpositions hres).1 hpos
    exact ⟨⟨hmagic, hsum, hheader, hsize, hres⟩, hstate.symm, hmajor, hminor, hc, hro, hinc,
      Subtype.ext huuid, Subtype.ext hlabel, (hlabel ▸ hl.length_eq).symm, hcap, hgroup, hcount, hdesc,
      hfirst, halloc, h1, h2, h3, h4, h5⟩
  · rintro ⟨hwf, hstate, hmajor, hminor, hc, hro, hinc, huuid, hlabel, -, hcap, hgroup, hcount, hdesc,
      hfirst, halloc, h1, h2, h3, h4, h5⟩
    exact ⟨hwf.magic, hmajor, hminor, hwf.headerSize, hwf.size, hstate.symm, hc, hro, hinc,
      congrArg Subtype.val huuid, congrArg Subtype.val hlabel, hcap, hgroup, hcount, hdesc, hfirst, halloc,
      (hpositions hwf.reserved).2 ⟨h1, h2, h3, h4, h5⟩, hwf.reserved, hwf.checksum⟩

/-- **Decoding inverts encoding** on built superblocks, in every mode and for every device size the
superblock is valid for. -/
theorem decode_encode (hb : Built sb) (h : sb.encode = .ok b)
    (hval : sb.validate deviceBytes mode = .ok ()) : decode b.1 deviceBytes mode = .ok sb := by
  rw [encode_eq, bind_eq_ok] at h
  obtain ⟨_, hval', hb'⟩ := h
  cases hb'
  obtain ⟨hwf, hstate, hread⟩ := (eq_toBlock_iff hb.labelOk hval').1 rfl
  rw [decode_eq_ok, ← hstate]
  exact ⟨hwf, sb.state.decode_encode, hb.labelOk, hread, hval⟩

/-! ### Encoding what was decoded -/

/-- **An accepted block is the encoding of what it decodes to**, whatever the mode and the size of
the device. -/
theorem encode_of_decode (h : decode b.1 deviceBytes mode = .ok sb) : sb.encode = .ok b := by
  obtain ⟨hwf, hstate, hlabel, hread, hval⟩ := decode_eq_ok.1 h
  have hvalid := validate_readOnly hval
  rw [encode_eq, hvalid, (eq_toBlock_iff hlabel hvalid).2 ⟨hwf, VolumeState.encode_of_decode hstate, hread⟩]
  rfl

/-! ### Absence of traps -/

theorem noTrap_validate (sb : Superblock) (deviceBytes : Option ℕ) (mode : MountMode) :
    NoTrap (sb.validate deviceBytes mode) := by
  have hcount : NoTrap (groupCount sb.capacityBlocks sb.allocationGroupBlocks) := by
    simp [groupCount, noTrap_bind]
  have hcap : NoTrap sb.checkDescriptorCapacity := by
    unfold checkDescriptorCapacity
    split_ifs <;> simp [noTrap_bind]
  have hfirst (e : ℕ) : NoTrap (sb.expectedFirstAllocatable e) := by
    unfold expectedFirstAllocatable
    split_ifs <;> simp [noTrap_bind]
  have hgeometry : NoTrap (sb.validateGeometry deviceBytes) := by
    simp [validateGeometry, noTrap_bind, hcount, hcap, hfirst]
  simp [validate, Features.validate, noTrap_bind, hgeometry]

theorem noTrap_decode (bytes : List UInt8) (deviceBytes : Option ℕ) (mode : MountMode) :
    NoTrap (decode bytes deviceBytes mode) := by
  by_cases hl : bytes.length < blockSize
  · rw [decode, if_pos hl]
    simp
  · rw [decode_take hl]
    have hlen : (bytes.take blockSize).length = blockSize := by simp; omega
    rw [show bytes.take blockSize = (⟨_, hlen⟩ : Block).1 from rfl, decode_buf]
    simp [noTrap_bind, VolumeState.noTrap_decode, noTrap_validate]

end Superblock

end NullFS
