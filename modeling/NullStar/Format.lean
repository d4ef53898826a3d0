/-
**The NullFS on-disk format: constants, errors and the checksum.**

The records of a NullFS volume share a block size, a set of fixed block numbers, one error type and
one checksum, CRC32C.  The codecs of the individual records are `NullStar/Inode.lean`,
`NullStar/Superblock.lean`, `NullStar/AllocationGroup.lean`, `NullStar/Directory.lean` and
`NullStar/Phase3.lean`.

* `CanonicalCodec` — the two halves of a codec are inverse to each other, and the decoder does
  not trap.
-/

import NullStar.Record

set_option autoImplicit false

namespace NullFS

open Bytes Rust

/-! ### Constants -/

def formatMajor : UInt16 := 1
def formatMinor : UInt16 := 2
def phase1FormatMinor : UInt16 := 0
def phase2FormatMinor : UInt16 := 1
def phase3FormatMinor : UInt16 := 2
def blockSize : ℕ := 4096
def reservedBootBytes : ℕ := 64 * 1024
def superblockBlock : ℕ := reservedBootBytes / blockSize
def firstDescriptorBlock : ℕ := superblockBlock + 1
def superblockHeaderBytes : UInt32 := 256
def superblockChecksumOffset : ℕ := blockSize - 4
def labelCapacity : ℕ := 64
def defaultAllocationGroupBlocks : UInt64 := 8192
def defaultDescriptorReservationBlocks : UInt32 := 1
def minimumVolumeBlocks : ℕ := firstDescriptorBlock + 1

def allocationGroupDescriptorsPerBlock : ℕ := 42

def phase3MaxUpdates : ℕ := 64
def journalControlBlocks : ℕ := 2
def phase3JournalBlockCount : ℕ := journalControlBlocks + phase3MaxUpdates + phase3MaxUpdates
def phase3BackupSuperblockBlock : ℕ := 18
def phase3FilesystemStateBlock : ℕ := 19
def phase3JournalFirstBlock : ℕ := 20
def phase3FirstAllocatableBlock : ℕ := phase3JournalFirstBlock + phase3JournalBlockCount
def phase3MinimumVolumeBlocks : ℕ := phase3FirstAllocatableBlock + 1

/-- One block of the device. -/
abbrev Block := Buf blockSize

/-- The ways a volume is opened by the format layer. -/
inductive MountMode where
  | readOnly | readWrite
  deriving DecidableEq

/-! ### Errors -/

/-- The errors of the format layer. -/
inductive FormatError where
  | truncatedSuperblock (actual : ℕ)
  | invalidMagic
  | checksumMismatch (expected actual : UInt32)
  | unsupportedMajorVersion (version : UInt16)
  | unsupportedMinorVersion (version : UInt16)
  | invalidHeaderSize (size : UInt32)
  | invalidBlockSize (size : UInt32)
  | invalidState (state : UInt32)
  | invalidUuid | invalidLabel | nonZeroReservedBytes
  | unsupportedIncompatibleFeatures (features : UInt64)
  | readOnlyFeaturesRequired (features : UInt64)
  | dirtyVolume | invalidCapacity | invalidAllocationGroupSize | invalidAllocationGroupCount
  | invalidDescriptorReservation | invalidDescriptorStart | invalidFirstAllocatableBlock
  | deviceTooSmall | arithmeticOverflow | labelTooLong | labelContainsNul
  | truncatedPhase2Record (expected actual : ℕ)
  | phase2ChecksumMismatch (expected actual : UInt32)
  | nonZeroPhase2ReservedBytes | invalidAllocationGroupTable | invalidAllocationGroupDescriptor
  | tooManyAllocationGroupDescriptors
  | invalidNodeKind (kind : UInt16)
  | invalidTimestamp | invalidInode | invalidFreeInode | tooManyExtents | invalidExtent
  | unsupportedInlineSymlink | invalidDirectoryBlock | invalidDirectoryEntry | invalidDirectoryName
  | duplicateDirectoryName | invalidPhase3Geometry
  | truncatedPhase3Block (actual : ℕ)
  | phase3ChecksumMismatch (expected actual : UInt32)
  | invalidJournalState (state : UInt32)
  | invalidJournalControl | invalidJournalTag | journalTagsMismatch | invalidFilesystemState
  | identifierExhausted | bitmapOutOfBounds | nonCanonicalBitmapTail
  deriving DecidableEq

/-! ### The checksum -/

def reversedCastagnoliPolynomial : UInt32 := 0x82f63b78

def crc32cBit (crc : UInt32) : UInt32 :=
  let mask := 0 - (crc &&& 1)
  (crc >>> 1) ^^^ (reversedCastagnoliPolynomial &&& mask)

def crc32cByte (crc : UInt32) (byte : UInt8) : UInt32 :=
  (List.range 8).foldl (fun crc _ => crc32cBit crc) (crc ^^^ byte.toUInt32)

/-- CRC32C (Castagnoli). -/
def crc32c (bytes : List UInt8) : UInt32 := ~~~ bytes.foldl crc32cByte 0xffffffff

-- the standard check vector, the digits 1 to 9
example : crc32c [49, 50, 51, 52, 53, 54, 55, 56, 57] = 0xe3069283 := by decide +kernel

/-! ### Stamped records -/

section

variable {n : ℕ}

/-- The checksum of a record whose checksum field, at offset `o`, is taken as zero. -/
def recordChecksum (o : ℕ) (b : Buf n) : UInt32 := crc32c (b.clear o 4).1

/-- The record with its checksum stored at offset `o`. -/
def putChecksum (o : ℕ) (b : Buf n) : Buf n := b.put o (toLe 4 (recordChecksum o b).toNat)

/-- The stored checksum as a number. -/
theorem ofLe_slice_of_u32At {o : ℕ} {b : Buf n} {v : UInt32} (hn : o + 4 ≤ n)
    (h : u32At b.1 o = v) : ofLe (slice b.1 o 4) = v.toNat := by
  have hlt : (u32At b.1 o).toNat < 256 ^ 4 := (u32At b.1 o).toNat_lt
  rw [← h, ← ofLe_toLe_of_lt hlt, toLe_u32At (by omega)]

variable {o c : ℕ} (L : StampedLayout n c) {fs : List Field} (h : Follows L.tiles fs)

include h

/-- Storing the checksum of a record in its still empty checksum field is stamping the record. -/
theorem putChecksum_render : putChecksum c (render n fs) = (render n fs).stamp crc32c c := by
  have hz := allZero_iff_replicate.1 (L.allZero_render_stamp h)
  rw [(render n fs).length_slice L.stamp_le] at hz
  have hclear : (render n fs).clear c 4 = render n fs := by
    rw [Buf.clear, ← hz, Buf.put_slice_self _ L.stamp_le]
  rw [putChecksum, recordChecksum, hclear, Buf.stamp]

/-- A stamped record carries the checksum of its cleared form. -/
theorem u32At_stamp_checksum : u32At ((render n fs).stamp crc32c c).1 c =
    recordChecksum c ((render n fs).stamp crc32c c) := by
  rw [recordChecksum, L.clear_stamp crc32c h]
  exact u32At_of_slice (Buf.slice_stamp_self crc32c _ L.stamp_le)

/-- A buffer is a stamped record exactly when it holds the fields and the checksum and is zero
elsewhere. -/
theorem eq_stamp_iff {b : Buf n} : b = (render n fs).stamp crc32c c ↔ (∀ f ∈ fs, Holds b f) ∧
    (∀ t ∈ L.tiles, t.reserved = true → t ≠ Tile.gap c 4 →
      allZero (slice b.1 t.offset t.length) = true) ∧ u32At b.1 c = recordChecksum c b := by
  constructor
  · rintro rfl
    exact ⟨fun f hf => L.slice_stamp crc32c h hf rfl,
      fun t ht hr hne => L.allZero_stamp crc32c h ht hr hne, u32At_stamp_checksum L h⟩
  · rintro ⟨hholds, hzero, hsum⟩
    rw [← fieldsOf_of_holds h hholds, L.stamp_fieldsOf crc32c b hzero (ofLe_slice_of_u32At L.stamp_le hsum)]

end

/-! ### Codecs -/

/-- A codec for blocks.  Of the values, only those with the property `P` are considered; `P` is what
the interface of the type guarantees about its values. -/
structure CanonicalCodec {α : Type} (P : α → Prop) (encode : α → Outcome FormatError Block)
    (decode : List UInt8 → Outcome FormatError α) : Prop where
  decode_encode : ∀ {x : α} {b : Block}, P x → encode x = .ok b → decode b.1 = .ok x
  encode_decode : ∀ {b : Block} {x : α}, decode b.1 = .ok x → encode x = .ok b
  noTrap : ∀ bytes : List UInt8, NoTrap (decode bytes)

/-- The decoder accepts the images of the valid values. -/
theorem CanonicalCodec.of_iff {α : Type} {validate : α → Outcome FormatError Unit} {image : α → Block}
    {decode : List UInt8 → Outcome FormatError α}
    (h : ∀ {b : Block} {x}, decode b.1 = .ok x ↔ b = image x ∧ validate x = .ok ())
    (hnoTrap : ∀ bytes, NoTrap (decode bytes)) :
    CanonicalCodec (fun _ => True) (fun x => do validate x; return image x) decode where
  decode_encode _ hx := by
    obtain ⟨_, hval, hb⟩ := bind_eq_ok.1 hx
    exact h.2 ⟨(Except.ok.inj hb).symm, hval⟩
  encode_decode hx := by
    obtain ⟨rfl, hval⟩ := h.1 hx
    rw [hval]
    rfl
  noTrap := hnoTrap

end NullFS
