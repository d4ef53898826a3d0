/-
**The writable format: journal tags, journal control blocks and the filesystem state.**

Three kinds of block carry the state of a writable volume.  They share a frame: a magic number, a
version, the size of the header, a checksum at offset 60, and nothing behind it.  The frame is
treated once (`Phase3Layout`); a record then only adds its own fields between the frame's
header and its checksum.

* `JournalTag`, `JournalControl`, `FilesystemState` — the three records;
* `Phase3Layout.Body.eq_toBlock_iff` — a block with a correct frame is determined by its fields;
* `canonicalCodec` for each of the records.
-/

import NullStar.Format

set_option autoImplicit false

namespace NullFS

open Bytes Rust List

/-! ### The common frame -/

def journalHeaderBytes : UInt16 := 64
def journalChecksumOffset : ℕ := 60

/-- A frame: its magic number, the error for a block that does not have it, and the ranges of the
fields between offset 16 and `bodyEnd`. -/
structure Phase3Layout where
  magic : List UInt8
  error : FormatError
  bodyRanges : List (ℕ × ℕ)
  bodyEnd : ℕ
  magic_length : magic.length = 8
  body_tiled : Tiled bodyEnd 16 (bodyRanges.map fun r => Tile.field r.1 r.2)
  bodyEnd_le : bodyEnd ≤ journalChecksumOffset

variable (bytes : List UInt8)

def checkedBlock : Outcome FormatError Block :=
  if bytes.length < blockSize then fail (.truncatedPhase3Block bytes.length)
  else leading blockSize bytes

def verifyChecksum (b : Block) (o : ℕ) : Outcome FormatError Unit := do
  let stored ← getU32 b.1 o
  let actual := recordChecksum o b
  rejectIf (stored ≠ actual) (.phase3ChecksumMismatch stored actual)

namespace Phase3Layout

variable (L : Phase3Layout)

/-- The ranges required to be zero. -/
def reserved : List (ℕ × ℕ) :=
  [(12, 4), (L.bodyEnd, journalChecksumOffset - L.bodyEnd), (64, blockSize - 64)]

/-- The checks every record makes on its block before it reads its own fields. -/
def openBlock (bytes : List UInt8) : Outcome FormatError Block := do
  let b ← checkedBlock bytes
  verifyChecksum b journalChecksumOffset
  let found ← subslice b.1 0 8
  let version ← getU16 b.1 8
  let headerBytes ← getU16 b.1 10
  let reserved ← subslices b.1 L.reserved
  rejectIf (found ≠ L.magic ∨ version ≠ 1 ∨ headerBytes ≠ journalHeaderBytes ∨
    allZero reserved = false) L.error
  return b

variable (body : List Field)

/-- The fields of the frame, followed by those of the record. -/
def frameFields : List Field :=
  (0, L.magic) :: u16Field 8 1 :: u16Field 10 journalHeaderBytes :: body

/-- The block of a record with the given fields. -/
def toBlock : Block :=
  (render blockSize (L.frameFields body)).stamp crc32c journalChecksumOffset

/-- The checks of `openBlock`. -/
structure WellFormed (b : Block) : Prop where
  checksum : u32At b.1 journalChecksumOffset = recordChecksum journalChecksumOffset b
  magic : slice b.1 0 8 = L.magic
  version : u16At b.1 8 = 1
  headerBytes : u16At b.1 10 = journalHeaderBytes
  reserved : ∀ r ∈ L.reserved, allZero (slice b.1 r.1 r.2) = true

theorem reserved_le {r : ℕ × ℕ} (hr : r ∈ L.reserved) : r.1 + r.2 ≤ blockSize := by
  have := L.bodyEnd_le
  simp only [reserved, mem_cons, not_mem_nil, or_false] at hr
  simp only [journalChecksumOffset, blockSize] at *
  rcases hr with rfl | rfl | rfl
  · decide
  · simp only
    omega
  · decide

/-- `openBlock` on a block, with its reads resolved. -/
theorem openBlock_buf (b : Block) : L.openBlock b.1 = (do
    rejectIf (u32At b.1 journalChecksumOffset ≠ recordChecksum journalChecksumOffset b)
      (.phase3ChecksumMismatch (u32At b.1 journalChecksumOffset)
        (recordChecksum journalChecksumOffset b))
    rejectIf (slice b.1 0 8 ≠ L.magic ∨ u16At b.1 8 ≠ 1 ∨ u16At b.1 10 ≠ journalHeaderBytes ∨
      allZero (L.reserved.flatMap fun r => slice b.1 r.1 r.2) = false) L.error
    return b) := by
  rw [openBlock, checkedBlock, if_neg (by omega), leading_buf, ok_bind, verifyChecksum,
    subslices_buf b fun r hr => L.reserved_le hr]
  simp (disch := decide) only [reads_buf, ok_bind]

theorem openBlock_eq_ok {b b' : Block} : L.openBlock b.1 = .ok b' ↔ b' = b ∧ L.WellFormed b := by
  rw [openBlock_buf]
  simp only [run_eq_ok, not_or, not_not, Bool.not_eq_false, allZero_flatMap]
  constructor
  · rintro ⟨hsum, ⟨hmagic, hversion, hheader, hres⟩, rfl⟩
    exact ⟨rfl, hsum, hmagic, hversion, hheader, hres⟩
  · rintro ⟨rfl, h⟩
    exact ⟨h.checksum, ⟨h.magic, h.version, h.headerBytes, h.reserved⟩, rfl⟩

theorem noTrap_openBlock (bytes : List UInt8) : NoTrap (L.openBlock bytes) := by
  by_cases hl : bytes.length < blockSize
  · rw [openBlock, checkedBlock, if_pos hl]
    simp
  · have hlen : (bytes.take blockSize).length = blockSize := by simp; omega
    have hopen : L.openBlock bytes = L.openBlock (⟨bytes.take blockSize, hlen⟩ : Block).1 := by
      rw [openBlock, openBlock, checkedBlock, checkedBlock, if_neg hl, if_neg (by simp; omega),
        leading_of_le (by omega), leading_buf]
    rw [hopen, openBlock_buf]
    simp [noTrap_bind]

/-! ### Building a block and taking it apart -/

def layout : StampedLayout blockSize journalChecksumOffset where
  tiles := ([.field 0 8, .field 8 2, .field 10 2, .gap 12 4] ++
    L.bodyRanges.map fun r => Tile.field r.1 r.2) ++
    [.gap L.bodyEnd (journalChecksumOffset - L.bodyEnd), .gap journalChecksumOffset 4,
      .gap 64 (blockSize - 64)]
  tiled := by
    have hend := L.bodyEnd_le
    refine Tiled.append (m := L.bodyEnd) (Tiled.append (m := 16) (by decide) L.body_tiled) ?_
    simp only [Tiled, Tile.gap, journalChecksumOffset, blockSize, true_and] at *
    omega
  stamp_mem := by simp

/-- The fields are those the frame has room for. -/
def Body : Prop :=
  (body.map fun f => (f.1, f.2.length)) = L.bodyRanges

variable {L}

theorem Body.follows {body : List Field} (h : L.Body body) : Follows L.layout.tiles (L.frameFields body) := by
  rw [Body] at h
  rw [Follows, layout, filter_append, filter_append, filter_fields]
  simp [frameFields, u16Field, h, L.magic_length, Tile.field, Tile.gap, Function.comp_def]

variable (L) in
/-- The ranges required to be zero are the gaps of the frame but the checksum. -/
theorem reserved_iff {b : Block} : (∀ t ∈ L.layout.tiles, t.reserved = true →
    t ≠ Tile.gap journalChecksumOffset 4 → allZero (slice b.1 t.offset t.length) = true) ↔
      ∀ r ∈ L.reserved, allZero (slice b.1 r.1 r.2) = true := by
  have hend : ¬ (L.bodyEnd = 60 ∧ 60 - L.bodyEnd = 4) := by omega
  simp only [layout, reserved, List.forall_mem_append, List.forall_mem_cons, List.forall_mem_map,
    List.not_mem_nil, IsEmpty.forall_iff, implies_true, and_true, true_and, Tile.field, Tile.gap,
    Bool.false_eq_true, forall_const, ne_eq, Tile.mk.injEq, journalChecksumOffset, hend,
    not_false_eq_true, not_true_eq_false, blockSize, Nat.reduceEqDiff, false_and]

/-- **A block with a correct frame is determined by its fields.** -/
theorem Body.eq_toBlock_iff {body : List Field} (h : L.Body body) {b : Block} :
    b = L.toBlock body ↔ L.WellFormed b ∧ ∀ f ∈ body, Holds b f := by
  rw [toBlock, eq_stamp_iff _ h.follows, reserved_iff]
  simp (disch := decide) only [frameFields, holds_fields, holds_bytes L.magic_length]
  constructor
  · rintro ⟨⟨hmagic, hversion, hheader, hbody⟩, hres, hsum⟩
    exact ⟨⟨hsum, hmagic, hversion, hheader, hres⟩, hbody⟩
  · rintro ⟨hwf, hbody⟩
    exact ⟨⟨hwf.magic, hwf.version, hwf.headerBytes, hbody⟩, hwf.reserved, hwf.checksum⟩

end Phase3Layout

/-! ### Identifiers -/

def initialGeneration : UInt64 := 1
def initialTransactionId : UInt64 := 1

def nextGeneration (current : UInt64) : Outcome FormatError UInt64 := do
  let next ← okOr (checkedAdd 64 current.toNat 1) .identifierExhausted
  return UInt64.ofNat next

def nextTransactionId (current : UInt64) : Outcome FormatError UInt64 := nextGeneration current

/-! ### Journal tags -/

/-- A tag says which home block one image of the journal belongs to. -/
@[ext] structure JournalTag where
  (transactionId targetHomeBlock : UInt64)
  (imageChecksum updateIndex : UInt32)
  deriving DecidableEq

variable (transactionId : UInt64)

namespace JournalTag

/-- The frame of a tag, with the magic number "NFSJTAG". -/
def frame : Phase3Layout where
  magic := [0x4e, 0x46, 0x53, 0x4a, 0x54, 0x41, 0x47, 0]
  error := .invalidJournalTag
  bodyRanges := [(16, 8), (24, 8), (32, 4), (36, 4)]
  bodyEnd := 40
  magic_length := rfl
  body_tiled := by decide
  bodyEnd_le := by decide

variable (tag : JournalTag)

def validate : Outcome FormatError Unit :=
  rejectIf (tag.transactionId = 0 ∨ tag.targetHomeBlock = 0 ∨
    phase3MaxUpdates ≤ tag.updateIndex.toNat) .invalidJournalTag

def new (updateIndex : UInt32) (targetHomeBlock : UInt64) (image : List UInt8) :
    Outcome FormatError JournalTag := do
  rejectIf (image.length ≠ blockSize) .invalidJournalTag
  let tag : JournalTag :=
    { transactionId, targetHomeBlock, imageChecksum := crc32c image, updateIndex }
  tag.validate
  return tag

def imageMatches (image : List UInt8) : Bool :=
  image.length == blockSize && crc32c image == tag.imageChecksum

def fields : List Field :=
  [u64Field 16 tag.transactionId, u64Field 24 tag.targetHomeBlock, u32Field 32 tag.imageChecksum,
    u32Field 36 tag.updateIndex]

def encode : Outcome FormatError Block := do
  tag.validate
  return frame.toBlock tag.fields

def decode : Outcome FormatError JournalTag := do
  let b ← frame.openBlock bytes
  let transactionId ← getU64 b.1 16
  let targetHomeBlock ← getU64 b.1 24
  let imageChecksum ← getU32 b.1 32
  let updateIndex ← getU32 b.1 36
  let tag : JournalTag := { transactionId, targetHomeBlock, imageChecksum, updateIndex }
  tag.validate
  return tag

def read (b : Block) : JournalTag :=
  { transactionId := u64At b.1 16, targetHomeBlock := u64At b.1 24, imageChecksum := u32At b.1 32,
    updateIndex := u32At b.1 36 }

theorem body_fields : frame.Body tag.fields := rfl

theorem decode_eq : decode bytes = (do
    let b ← frame.openBlock bytes
    (read b).validate
    return read b) := by
  simp (disch := decide) only [decode, reads_buf]
  rfl

variable {tag}

theorem decode_eq_ok {b : Block} :
    decode b.1 = .ok tag ↔ frame.WellFormed b ∧ tag = read b ∧ tag.validate = .ok () := by
  simp only [decode_eq, run_eq_ok, frame.openBlock_eq_ok]
  constructor
  · rintro ⟨b', ⟨rfl, hwf⟩, _, hval, rfl⟩
    exact ⟨hwf, rfl, hval⟩
  · rintro ⟨hwf, rfl, hval⟩
    exact ⟨b, ⟨rfl, hwf⟩, (), hval, rfl⟩

theorem eq_toBlock_iff {b : Block} : b = frame.toBlock tag.fields ↔ frame.WellFormed b ∧ tag = read b := by
  rw [tag.body_fields.eq_toBlock_iff, eq_comm]
  simp (disch := decide) only [fields, holds_fields, and_true, read, JournalTag.ext_iff]

theorem noTrap_decode : NoTrap (decode bytes) := by
  rw [decode_eq]
  simp [noTrap_bind, validate, frame.noTrap_openBlock]

theorem canonicalCodec : CanonicalCodec (fun _ => True) encode decode :=
  .of_iff (by simp only [decode_eq_ok, eq_toBlock_iff, and_assoc, implies_true]) noTrap_decode

end JournalTag

/-! ### Journal control blocks -/

inductive JournalState where
  | empty | committed
  deriving DecidableEq

def JournalState.code : JournalState → UInt32
  | .empty => 0
  | .committed => 1

def JournalState.decode (value : UInt32) : Outcome FormatError JournalState :=
  if value = 0 then .ok .empty
  else if value = 1 then .ok .committed
  else fail (.invalidJournalState value)

theorem JournalState.decode_eq_ok {v : UInt32} {s : JournalState} :
    JournalState.decode v = .ok s ↔ s.code = v := by
  constructor
  · intro h
    unfold JournalState.decode at h
    split_ifs at h <;> cases h <;> simp_all [JournalState.code]
  · rintro rfl
    cases s <;> rfl

theorem JournalState.noTrap_decode (v : UInt32) : NoTrap (JournalState.decode v) := by
  unfold JournalState.decode
  split_ifs <;> simp

/-- The control block of the journal: whether it holds a committed transaction, and which. -/
@[ext] structure JournalControl where
  (generation transactionId : UInt64)
  state : JournalState
  (updateCount tagsDigest : UInt32)
  deriving DecidableEq

/-- The loop of `validate_tag_sequence`; `prior` are the targets of the tags before the rest, whose
first tag has index `index`. -/
def checkTagSequence (transactionId : UInt64) : ℕ → List UInt64 → List JournalTag → Outcome FormatError Unit
  | _, _, [] => .ok ()
  | index, prior, tag :: rest => do
    tag.validate
    rejectIf (tag.transactionId ≠ transactionId ∨ tag.updateIndex.toNat ≠ index)
      .journalTagsMismatch
    rejectIf (tag.targetHomeBlock ∈ prior) .journalTagsMismatch
    checkTagSequence transactionId (index + 1) (prior ++ [tag.targetHomeBlock]) rest

variable (tags : List JournalTag)

def validateTagSequence : Outcome FormatError Unit := checkTagSequence transactionId 0 [] tags

/-- `tags_digest`.  The source copies the tags into an array with room for 64 of them; every caller
has checked that there are no more. -/
def tagsDigest : UInt32 :=
  crc32c (tags.flatMap fun tag => toLe 8 tag.transactionId.toNat ++
    toLe 8 tag.targetHomeBlock.toNat ++ toLe 4 tag.imageChecksum.toNat ++ toLe 4 tag.updateIndex.toNat)

namespace JournalControl

/-- The frame of a control block, with the magic number "NFSJCTL". -/
def frame : Phase3Layout where
  magic := [0x4e, 0x46, 0x53, 0x4a, 0x43, 0x54, 0x4c, 0]
  error := .invalidJournalControl
  bodyRanges := [(16, 8), (24, 8), (32, 4), (36, 4), (40, 4)]
  bodyEnd := 44
  magic_length := rfl
  body_tiled := by decide
  bodyEnd_le := by decide

def empty (generation : UInt64) : JournalControl :=
  { generation, transactionId := 0, state := .empty, updateCount := 0, tagsDigest := 0 }

def committed (generation transactionId : UInt64) (tags : List JournalTag) :
    Outcome FormatError JournalControl := do
  rejectIf (generation = 0 ∨ transactionId = 0 ∨ tags = [] ∨ phase3MaxUpdates < tags.length)
    .invalidJournalControl
  validateTagSequence transactionId tags
  return { generation, transactionId, state := .committed
           updateCount := UInt32.ofNat tags.length, tagsDigest := NullFS.tagsDigest tags }

variable (control : JournalControl)

/-- The fields agree with the state. -/
def canonical : Bool :=
  control.generation ≠ 0 && match control.state with
    | .empty => control.transactionId = 0 && control.updateCount = 0 && control.tagsDigest = 0
    | .committed => control.transactionId ≠ 0 && control.updateCount ≠ 0 &&
        control.updateCount.toNat ≤ phase3MaxUpdates

def validate : Outcome FormatError Unit :=
  rejectIf (control.canonical = false) .invalidJournalControl

def validateTags (tags : List JournalTag) : Outcome FormatError Unit := do
  control.validate
  match control.state with
  | .empty => rejectIf (tags ≠ []) .journalTagsMismatch
  | .committed => do
    rejectIf (tags.length ≠ control.updateCount.toNat) .journalTagsMismatch
    validateTagSequence control.transactionId tags
    rejectIf (NullFS.tagsDigest tags ≠ control.tagsDigest) .journalTagsMismatch

def fields : List Field :=
  [u64Field 16 control.generation, u64Field 24 control.transactionId,
    u32Field 32 control.state.code, u32Field 36 control.updateCount, u32Field 40 control.tagsDigest]

def encode : Outcome FormatError Block := do
  control.validate
  return frame.toBlock control.fields

def decode : Outcome FormatError JournalControl := do
  let b ← frame.openBlock bytes
  let generation ← getU64 b.1 16
  let transactionId ← getU64 b.1 24
  let state ← JournalState.decode (← getU32 b.1 32)
  let updateCount ← getU32 b.1 36
  let tagsDigest ← getU32 b.1 40
  let control : JournalControl := { generation, transactionId, state, updateCount, tagsDigest }
  control.validate
  return control

/-- The control block in the given state stored in a block. -/
def read (b : Block) (state : JournalState) : JournalControl :=
  { generation := u64At b.1 16, transactionId := u64At b.1 24, state
    updateCount := u32At b.1 36, tagsDigest := u32At b.1 40 }

theorem body_fields : frame.Body control.fields := rfl

theorem decode_eq : decode bytes = (do
    let b ← frame.openBlock bytes
    let state ← JournalState.decode (u32At b.1 32)
    (read b state).validate
    return read b state) := by
  simp (disch := decide) only [decode, reads_buf]
  rfl

variable {control}

theorem decode_eq_ok {b : Block} :
    decode b.1 = .ok control ↔ frame.WellFormed b ∧ control.state.code = u32At b.1 32 ∧
      control = read b control.state ∧ control.validate = .ok () := by
  simp only [decode_eq, run_eq_ok, frame.openBlock_eq_ok, JournalState.decode_eq_ok]
  constructor
  · rintro ⟨b', ⟨rfl, hwf⟩, state, hstate, _, hval, rfl⟩
    exact ⟨hwf, hstate, rfl, hval⟩
  · rintro ⟨hwf, hstate, hread, hval⟩
    refine ⟨b, ⟨rfl, hwf⟩, control.state, hstate, (), ?_, hread.symm⟩
    rwa [← hread]

theorem eq_toBlock_iff {b : Block} : b = frame.toBlock control.fields ↔
    frame.WellFormed b ∧ control.state.code = u32At b.1 32 ∧ control = read b control.state := by
  rw [control.body_fields.eq_toBlock_iff]
  simp (disch := decide) only [fields, holds_fields, JournalControl.ext_iff]
  tauto

theorem noTrap_decode : NoTrap (decode bytes) := by
  rw [decode_eq]
  simp [noTrap_bind, validate, frame.noTrap_openBlock, JournalState.noTrap_decode]

theorem canonicalCodec : CanonicalCodec (fun _ => True) encode decode :=
  .of_iff (by simp only [decode_eq_ok, eq_toBlock_iff, and_assoc, implies_true]) noTrap_decode

end JournalControl

/-! ### The filesystem state -/

@[ext] structure FilesystemState where
  (generation nextTransactionId orphanHead freeBlockCount freeInodeCount : UInt64)
  deriving DecidableEq

namespace FilesystemState

/-- The frame of the filesystem state, with the magic number "NFSSTAT". -/
def frame : Phase3Layout where
  magic := [0x4e, 0x46, 0x53, 0x53, 0x54, 0x41, 0x54, 0]
  error := .invalidFilesystemState
  bodyRanges := [(16, 8), (24, 8), (32, 8), (40, 8), (48, 8)]
  bodyEnd := 56
  magic_length := rfl
  body_tiled := by decide
  bodyEnd_le := by decide

def initial : FilesystemState :=
  { generation := initialGeneration, nextTransactionId := initialTransactionId, orphanHead := 0
    freeBlockCount := 0, freeInodeCount := 0 }

variable (state : FilesystemState)

def validate : Outcome FormatError Unit :=
  rejectIf (state.generation = 0 ∨ state.nextTransactionId = 0) .invalidFilesystemState

def fields : List Field :=
  [u64Field 16 state.generation, u64Field 24 state.nextTransactionId, u64Field 32 state.orphanHead,
    u64Field 40 state.freeBlockCount, u64Field 48 state.freeInodeCount]

def encode : Outcome FormatError Block := do
  state.validate
  return frame.toBlock state.fields

def decode : Outcome FormatError FilesystemState := do
  let b ← frame.openBlock bytes
  let generation ← getU64 b.1 16
  let nextTransactionId ← getU64 b.1 24
  let orphanHead ← getU64 b.1 32
  let freeBlockCount ← getU64 b.1 40
  let freeInodeCount ← getU64 b.1 48
  let state : FilesystemState :=
    { generation, nextTransactionId, orphanHead, freeBlockCount, freeInodeCount }
  state.validate
  return state

def read (b : Block) : FilesystemState :=
  { generation := u64At b.1 16, nextTransactionId := u64At b.1 24, orphanHead := u64At b.1 32
    freeBlockCount := u64At b.1 40, freeInodeCount := u64At b.1 48 }

theorem body_fields : frame.Body state.fields := rfl

theorem decode_eq : decode bytes = (do
    let b ← frame.openBlock bytes
    (read b).validate
    return read b) := by
  simp (disch := decide) only [decode, reads_buf]
  rfl

variable {state}

theorem decode_eq_ok {b : Block} :
    decode b.1 = .ok state ↔ frame.WellFormed b ∧ state = read b ∧ state.validate = .ok () := by
  simp only [decode_eq, run_eq_ok, frame.openBlock_eq_ok]
  constructor
  · rintro ⟨b', ⟨rfl, hwf⟩, _, hval, rfl⟩
    exact ⟨hwf, rfl, hval⟩
  · rintro ⟨hwf, rfl, hval⟩
    exact ⟨b, ⟨rfl, hwf⟩, (), hval, rfl⟩

theorem eq_toBlock_iff {b : Block} :
    b = frame.toBlock state.fields ↔ frame.WellFormed b ∧ state = read b := by
  rw [state.body_fields.eq_toBlock_iff, eq_comm]
  simp (disch := decide) only [fields, holds_fields, and_true, read, FilesystemState.ext_iff]

theorem noTrap_decode : NoTrap (decode bytes) := by
  rw [decode_eq]
  simp [noTrap_bind, validate, frame.noTrap_openBlock]

theorem canonicalCodec : CanonicalCodec (fun _ => True) encode decode :=
  .of_iff (by simp only [decode_eq_ok, eq_toBlock_iff, and_assoc, implies_true]) noTrap_decode

end FilesystemState

end NullFS
