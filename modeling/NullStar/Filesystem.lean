/-
**The NullFS core: the mounted volume and its journal.**

The codecs of the six kinds of metadata block are canonical: their two halves are inverse to each other
on what they accept, so no two blocks share a meaning, and whatever a block says is visible in the value.

A mounted volume is a block device together with the part of its metadata that is kept in memory.  A
mutation collects complete images of the blocks it changes in a transaction, and every read sees those
images before the contents of the device.  Functions that change the volume are in the monad
`FsM`, which keeps the volume when they fail.

A transaction is committed in four steps, separated by flushes: its images and their tags go to the
journal area; a control block in the older of two slots declares them committed; the images go to
their home blocks; a control block in the other slot declares the journal empty.  Mounting selects the
newer valid control block and, when it declares a committed transaction, writes its images again.

* `Error` — the errors of the core;
* `beginTransaction`, `commitTransaction` — transactions;
* `selectControl`, `recoverJournal` — recovery;
* `metadata_canonical` — **the codecs of all metadata blocks are canonical**.
-/

import NullStar.AllocationGroup
import NullStar.Directory
import NullStar.Phase3
import NullStar.Device
import NullStar.Machine

set_option autoImplicit false

namespace NullFS

open Bytes Rust

/-- The superblock, opened for a device and in a mode: its values are the built superblocks that are
valid there. -/
theorem Superblock.canonicalCodec (deviceBytes : Option ℕ) (mode : MountMode) :
    CanonicalCodec (fun sb => Built sb ∧ sb.validate deviceBytes mode = .ok ()) encode
      (decode · deviceBytes mode) where
  decode_encode h henc := decode_encode h.1 henc h.2
  encode_decode h := encode_of_decode h
  noTrap bytes := noTrap_decode bytes deviceBytes mode

theorem AllocationGroupTable.canonicalCodec (sb : Superblock) :
    CanonicalCodec (fun _ => True) (encode · sb) (decode · sb) where
  decode_encode _ h := decode_encode h
  encode_decode h := encode_of_decode h
  noTrap bytes := noTrap_decode bytes sb

theorem DirectoryBlock.canonicalCodec : CanonicalCodec (fun _ => True) encode decode where
  decode_encode _ h := decode_encode h
  encode_decode h := encode_of_decode h
  noTrap := noTrap_decode

/-- **The codecs of all metadata blocks are canonical.**  For the superblock this holds for every
device size and mode; a built superblock that can be encoded at all is recovered in the read-only
mode. -/
theorem metadata_canonical : (∀ (deviceBytes : Option ℕ) (mode : MountMode),
      CanonicalCodec (fun sb => Superblock.Built sb ∧ sb.validate deviceBytes mode = .ok ())
        Superblock.encode (Superblock.decode · deviceBytes mode)) ∧
    CanonicalCodec Superblock.Built Superblock.encode (Superblock.decode · none .readOnly) ∧
    (∀ sb : Superblock, CanonicalCodec (fun _ => True) (AllocationGroupTable.encode · sb)
      (AllocationGroupTable.decode · sb)) ∧
    CanonicalCodec (fun _ => True) DirectoryBlock.encode DirectoryBlock.decode ∧
    CanonicalCodec (fun _ => True) JournalTag.encode JournalTag.decode ∧
    CanonicalCodec (fun _ => True) JournalControl.encode JournalControl.decode ∧
    CanonicalCodec (fun _ => True) FilesystemState.encode FilesystemState.decode := by
  refine ⟨Superblock.canonicalCodec, ?_, AllocationGroupTable.canonicalCodec,
    DirectoryBlock.canonicalCodec, JournalTag.canonicalCodec, JournalControl.canonicalCodec,
    FilesystemState.canonicalCodec⟩
  have hsb := Superblock.canonicalCodec none .readOnly
  refine ⟨fun {sb b} hb henc => hsb.decode_encode ⟨hb, ?_⟩ henc, hsb.encode_decode, hsb.noTrap⟩
  rw [Superblock.encode_eq, bind_eq_ok] at henc
  obtain ⟨_, hval, -⟩ := henc
  exact hval

end NullFS

namespace NullFS

open Bytes Rust Storage

/-! ### Allocation bitmaps

One bitmap per allocation group says which of its blocks are in use, another which of its inodes.
Bit `k` of a bitmap is bit `k % 8` of byte `k / 8`; the bits behind the last one that stands for a
block or an inode are zero. -/

/-- The byte with the one bit `k`. -/
def bitMask (k : ℕ) : UInt8 := 1 <<< UInt8.ofNat k

variable (bitmap : Block) (bit : ℕ)

def bitmapTest : Option Bool :=
  (bitmap.1[bit / 8]?).map fun byte => byte &&& bitMask (bit % 8) != 0

def bitmapSet (value : Bool) : Outcome FormatError Block := do
  let byte ← okOr bitmap.1[bit / 8]? .bitmapOutOfBounds
  let mask := bitMask (bit % 8)
  return bitmap.put (bit / 8) [if value then byte ||| mask else byte &&& ~~~mask]

def validateBitmapTail (validBits : ℕ) : Outcome FormatError Unit := do
  rejectIf (bitmap.1.length * 8 < validBits) .bitmapOutOfBounds
  let full := validBits / 8
  let remainder := validBits % 8
  let tailStart := if remainder ≠ 0 then full + 1 else full
  rejectIf (remainder ≠ 0 ∧ bitmap.1.getD full 0 &&& ~~~(bitMask remainder - 1) ≠ 0)
    .nonCanonicalBitmapTail
  rejectIf ((bitmap.1.drop tailStart).any (· ≠ 0) = true) .nonCanonicalBitmapTail

/-! ### Errors -/

inductive BlockDeviceError where
  | invalidBlockSize | invalidBufferLength | outOfBounds | readOnly | arithmeticOverflow | io
  deriving DecidableEq

inductive Error where
  | device (error : BlockDeviceError)
  | format (error : FormatError)
  | phase2Required | invalidNode | invalidName | notFound | notDirectory | isDirectory
  | unsupportedNodeKind | invalidCookie | corruptVolume | arithmeticOverflow | phase3Required
  | redundantSuperblocksDisagree | corruptJournal | protectedBlock | transactionTooLarge | readOnly
  | poisoned | alreadyExists | noSpace | extentLimit | directoryNotEmpty | directoryCycle
  | transactionInProgress | invalidHandle | recoveryRequired
  deriving DecidableEq

/-- A computation of the format layer, used by the core. -/
def ofFormat {α : Type} (x : Outcome FormatError α) : Outcome Error α := mapErr .format x

@[simp] theorem ofFormat_eq_ok {α : Type} {x : Outcome FormatError α} {a : α} :
    ofFormat x = .ok a ↔ x = .ok a := mapErr_eq_ok

@[simp] theorem ofFormat_ok {α : Type} (a : α) : ofFormat (.ok a : Outcome FormatError α) = .ok a := rfl

/-! ### Transactions -/

/-- The image a transaction gives to one home block. -/
structure StagedBlock where
  target : ℕ
  image : Block

/-- The staged blocks of a mutation, with the state the volume will have. -/
structure Transaction where
  id : UInt64
  state : FilesystemState
  updates : List StagedBlock

namespace Transaction

def new (id : UInt64) (state : FilesystemState) : Transaction := { id, state, updates := [] }

/-- The updates with a new image for a target that has one already. -/
def replaceImage (target : ℕ) (image : Block) : List StagedBlock → Option (List StagedBlock)
  | [] => none
  | update :: rest =>
    if update.target = target then some ({ update with image } :: rest)
    else (replaceImage target image rest).map (update :: ·)

/-- `Transaction::stage`.  One journal entry is reserved for the filesystem state. -/
def stage (tx : Transaction) (target : ℕ) (image : Block) : Outcome Error Transaction :=
  match replaceImage target image tx.updates with
  | some updates => .ok { tx with updates }
  | none => do
    rejectIf (phase3MaxUpdates - 1 ≤ tx.updates.length) .transactionTooLarge
    return { tx with updates := tx.updates ++ [{ target, image }] }

def staged (tx : Transaction) (target : ℕ) : Option Block :=
  (tx.updates.find? (·.target = target)).map (·.image)

end Transaction

/-! ### Mounted volumes -/

inductive RuntimeMountMode where
  | readOnly | readWrite
  deriving DecidableEq

structure OpenHandle where
  (id node generation : UInt64)
  kind : NodeKind
  deriving DecidableEq

/-- A mounted volume.  The slot of the older journal control block is 0 or 1. -/
structure Filesystem where
  device : Device Block
  superblock : Superblock
  groups : List AllocationGroupDescriptor
  mountMode : RuntimeMountMode
  state : Option FilesystemState
  journalGeneration : UInt64
  olderControlSlot : ℕ
  poisoned : Bool
  transaction : Option Transaction
  openHandles : List OpenHandle
  nextHandleId : UInt64
  recoveryOverlay : List (ℕ × Block)

/-- Operations that change the volume. -/
abbrev FsM := EStateM (Fault Error) Filesystem

def rootInode : UInt64 := 1

/-- `read_blocks`, for one block. -/
def readBlocks (device : Device Block) (block : ℕ) : Outcome Error Block :=
  match device.read block with
  | none => fail (.device .io)
  | some image => do
    rejectIf (2 ^ 64 ≤ block + 1) (.device .arithmeticOverflow)
    rejectIf (device.blockCount < block + 1) (.device .outOfBounds)
    return image

/-- A block of a device that works can be read. -/
theorem readBlocks_of_lt {device : Device Block} {block : ℕ} (hc : device.crashed = false)
    (hb : block < device.blockCount) (hmax : device.blockCount < 2 ^ 64) :
    readBlocks device block = .ok (device.contents block) := by
  rw [readBlocks, Device.read, hc, if_neg (by decide)]
  simp only
  rw [rejectIf_of_not (by omega), ok_bind, rejectIf_of_not (by omega), ok_bind, pure_eq_ok]

variable (group : AllocationGroupDescriptor)

def dataBlocks : List ℕ :=
  List.range' group.firstDataBlock.toNat (group.dataEndBlock.toNat - group.firstDataBlock.toNat)

/-- The bit of a block in the bitmap of its group. -/
def blockBit (physical : ℕ) : ℕ :=
  physical - group.groupStartBlock.toNat

/-- `physical_block`: the loop over the extents in use. -/
def findExtent : List Extent → ℕ → Outcome Error (Option ℕ)
  | [], _ => .ok none
  | extent :: rest, logicalBlock => do
    let stop ← ofFormat extent.logicalEnd
    if extent.logicalFirstBlock.toNat ≤ logicalBlock ∧ logicalBlock < stop then do
      let relative := logicalBlock - extent.logicalFirstBlock.toNat
      let physical ← okOr (checkedAdd 64 extent.physicalFirstBlock.toNat relative)
        .arithmeticOverflow
      return some physical
    else findExtent rest logicalBlock

def physicalBlock (inode : Inode) (logicalBlock : ℕ) : Outcome Error (Option ℕ) :=
  findExtent inode.used logicalBlock

namespace Filesystem

variable (fs : Filesystem)

def readBlock (physical : ℕ) : Outcome Error Block :=
  match fs.transaction.bind (·.staged physical) with
  | some image => .ok image
  | none =>
    match fs.recoveryOverlay.find? (·.1 = physical) with
    | some (_, image) => .ok image
    | none => readBlocks fs.device physical

variable (node : UInt64)

def inodeLocation : Outcome Error (AllocationGroupDescriptor × ℕ) := do
  rejectIf (node = 0) .invalidNode
  let zeroBased := node.toNat - 1
  let descriptor ← okOr fs.groups[zeroBased / phase2InodesPerGroup]? .invalidNode
  return (descriptor, zeroBased % phase2InodesPerGroup)

/-- The record of an inode is strict, or on a writable volume that of an orphan. -/
def decodeInode (bytes : List UInt8) : Outcome Error Inode :=
  match Inode.decode bytes with
  | .ok inode => .ok inode
  | .error strictError =>
    if fs.superblock.phase3Enabled then
      match Inode.decodeWithMode bytes .phase3Orphan with
      | .ok inode => .ok inode
      | .error _ => ofFormat (.error strictError)
    else ofFormat (.error strictError)

def readInode : Outcome Error Inode := do
  let (descriptor, index) ← fs.inodeLocation node
  let byteOffset := index * inodeBytes
  let physical ← okOr (checkedAdd 64 descriptor.inodeTableFirstBlock.toNat (byteOffset / blockSize))
    .arithmeticOverflow
  let block ← fs.readBlock physical
  fs.decodeInode (slice block.1 (byteOffset % blockSize) inodeBytes)

def readAllocatedInode : Outcome Error Inode := do
  let inode ← fs.readInode node
  rejectIf (inode.kind = .free) .invalidNode
  return inode

def readDirectoryBlock (inode : Inode) (logicalBlock : ℕ) : Outcome Error DirectoryBlock := do
  let physical ← okOr (← physicalBlock inode logicalBlock) .corruptVolume
  let bytes ← fs.readBlock physical
  let block ← ofFormat (DirectoryBlock.decode bytes.1)
  rejectIf (block.ownerInode ≠ node ∨ block.logicalBlockIndex.toNat ≠ logicalBlock) .corruptVolume
  return block

/-! ### Directories -/

def slots (block : DirectoryBlock) : List (Fin directoryEntriesPerBlock × DirectoryEntry) :=
  (List.finRange directoryEntriesPerBlock).map fun slot => (slot, block.entries slot)

/-- The first used slot with a name. -/
def findSlot (name : List UInt8) : List (Fin directoryEntriesPerBlock × DirectoryEntry) →
    Outcome Error (Option (Fin directoryEntriesPerBlock × DirectoryEntry))
  | [] => .ok none
  | (slot, entry) :: rest =>
    if entry.isUnused then findSlot name rest
    else do
      let text ← ofFormat entry.nameText
      if text = name then return some (slot, entry) else findSlot name rest

/-- An entry of a directory with its place. -/
structure Located where
  logical : ℕ
  slot : Fin directoryEntriesPerBlock
  entry : DirectoryEntry

/-- The first entry with a name in the given blocks of a directory. -/
def searchBlocks (node : UInt64) (inode : Inode) (name : List UInt8) : List ℕ → Outcome Error (Option Located)
  | [] => .ok none
  | logical :: rest => do
    let block ← fs.readDirectoryBlock node inode logical
    match ← findSlot name (slots block) with
    | some (slot, entry) => return some { logical, slot, entry }
    | none => searchBlocks node inode name rest

def directoryBlocks (inode : Inode) : List ℕ := List.range (inode.size.toNat / blockSize)

end Filesystem

end NullFS

namespace NullFS

open Bytes Rust Storage Hoare

/-! ### Operations on the volume -/

/-- A computation that leaves the volume alone. -/
def liftOutcome {α : Type} (x : Outcome Error α) : FsM α := fun fs =>
  match x with
  | .ok a => .ok a fs
  | .error e => .error e fs

/-- A computation that reads the volume. -/
def reading {α : Type} (f : Filesystem → Outcome Error α) : FsM α := fun fs => liftOutcome (f fs) fs

theorem liftOutcome_bind {α β : Type} (x : Outcome Error α) (f : α → FsM β) (fs : Filesystem) :
    (liftOutcome x >>= f) fs = match x with
      | .ok a => f a fs
      | .error e => .error e fs := by
  cases x <;> rfl

theorem reading_bind {α β : Type} (g : Filesystem → Outcome Error α) (f : α → FsM β)
    (fs : Filesystem) : (reading g >>= f) fs = match g fs with
      | .ok a => f a fs
      | .error e => .error e fs := liftOutcome_bind (g fs) f fs

/-- `checked_block_range`, for one block. -/
def checkBlock (device : Device Block) (block : ℕ) : Outcome Error Unit := do
  rejectIf (2 ^ 64 ≤ block + 1) (.device .arithmeticOverflow)
  rejectIf (device.blockCount < block + 1) (.device .outOfBounds)

/-- The volume after an operation of its device, which may have failed. -/
def deviceStep (step : Device Block → Bool × Device Block) : FsM Unit := fun fs =>
  match step fs.device with
  | (true, device) => .ok () { fs with device }
  | (false, device) => .error (.err (.device .io)) { fs with device }

/-- `write_blocks`, for one block. -/
def writeBlocks (block : ℕ) (image : Block) : FsM Unit := do
  reading fun fs => checkBlock fs.device block
  deviceStep (·.write { block, image })

/-- `flush`. -/
def flushDevice : FsM Unit := deviceStep Device.flush

/-- When the operation fails, the volume must be recovered before it is used again. -/
def poisonOnError {α : Type} (x : FsM α) : FsM α := onError (fun fs => { fs with poisoned := true }) x

namespace Filesystem

variable (fs : Filesystem)

def ensureWritable : Outcome Error Unit := do
  rejectIf (fs.poisoned = true) .poisoned
  rejectIf (fs.mountMode ≠ .readWrite) .readOnly

def ensureHomeTarget (target : ℕ) : Outcome Error Unit :=
  rejectIf (target < fs.superblock.firstAllocatableBlock.toNat ∨
    fs.superblock.capacityBlocks.toNat ≤ target) .protectedBlock

def ensureHomeTargetOrState (target : ℕ) : Outcome Error Unit :=
  if target = fs.superblock.filesystemStateBlock.toNat then .ok () else fs.ensureHomeTarget target

/-- The block of a slot for a control block. -/
def controlBlock (slot : ℕ) : ℕ := fs.superblock.journalFirstBlock.toNat + slot

def tagBlock (index : ℕ) : ℕ := fs.superblock.journalFirstBlock.toNat + 2 + index

def imageBlock (index : ℕ) : ℕ := fs.superblock.journalFirstBlock.toNat + 2 + phase3MaxUpdates + index

end Filesystem

/-! ### Committing -/

def beginTransaction : FsM Unit := do
  reading (·.ensureWritable)
  let fs ← get
  if fs.transaction.isNone then do
    let state ← liftOutcome (okOr fs.state .corruptVolume)
    set { fs with transaction := some (Transaction.new state.nextTransactionId state) }
  else pure ()

/-- `commit_updates`: the tags and images, from `index` on. -/
def writeUpdates (id : UInt64) : ℕ → List StagedBlock → FsM (List JournalTag)
  | _, [] => pure []
  | index, update :: rest => do
    let fs ← get
    reading (·.ensureHomeTargetOrState update.target)
    let tag ← liftOutcome (ofFormat
      (JournalTag.new id (UInt32.ofNat index) (UInt64.ofNat update.target) update.image.1))
    let encoded ← liftOutcome (ofFormat tag.encode)
    writeBlocks (fs.tagBlock index) encoded
    writeBlocks (fs.imageBlock index) update.image
    let tags ← writeUpdates id (index + 1) rest
    pure (tag :: tags)

def writeHomes : List (ℕ × Block) → FsM Unit
  | [] => pure ()
  | (target, image) :: rest => do
    writeBlocks target image
    writeHomes rest

def writeControl (slot : ℕ) (control : JournalControl) : FsM Unit := do
  let fs ← get
  let encoded ← liftOutcome (ofFormat control.encode)
  writeBlocks (fs.controlBlock slot) encoded

def commitUpdates (tx : Transaction) (newState : FilesystemState) : FsM Unit := do
  let tags ← writeUpdates tx.id 0 tx.updates
  flushDevice
  let fs ← get
  let committedGeneration ← liftOutcome (ofFormat (nextGeneration fs.journalGeneration))
  let committed ← liftOutcome (ofFormat (JournalControl.committed committedGeneration tx.id tags))
  let olderSlot := fs.olderControlSlot
  writeControl olderSlot committed
  flushDevice
  writeHomes (tx.updates.map fun update => (update.target, update.image))
  flushDevice
  let emptyGeneration ← liftOutcome (ofFormat (nextGeneration committedGeneration))
  writeControl (1 - olderSlot) (JournalControl.empty emptyGeneration)
  flushDevice
  modify fun fs =>
    { fs with
      state := some newState
      journalGeneration := emptyGeneration
      olderControlSlot := olderSlot }

/-- `commit_transaction`: what is written, once the transaction has been taken. -/
def sealTransaction (fs : Filesystem) (tx : Transaction) : Outcome Error (Transaction × FilesystemState) := do
  let oldState ← okOr fs.state .corruptVolume
  let generation ← ofFormat (nextGeneration oldState.generation)
  let nextId ← ofFormat (NullFS.nextTransactionId tx.id)
  let newState := { tx.state with generation, nextTransactionId := nextId }
  let stateImage ← ofFormat newState.encode
  let stateBlock := fs.superblock.filesystemStateBlock.toNat
  rejectIf ((tx.staged stateBlock).isSome = true) .protectedBlock
  let tx ← tx.stage stateBlock stateImage
  return (tx, newState)

def commitTransaction : FsM Unit := do
  reading (·.ensureWritable)
  let fs ← get
  match fs.transaction with
  | none => pure ()
  | some tx => do
    set { fs with transaction := none }
    let (tx, newState) ← liftOutcome (sealTransaction fs tx)
    poisonOnError (commitUpdates tx newState)

/-! ### Recovery -/

namespace Filesystem

variable (fs : Filesystem)

/-- The control block in a slot, if it is valid. -/
def readControl (slot : ℕ) : Outcome Error (Option JournalControl) := do
  let bytes ← readBlocks fs.device (fs.controlBlock slot)
  match JournalControl.decode bytes.1 with
  | .ok control => return some control
  | .error _ => return none

/-- `select_control`: the newer of the valid control blocks and its slot. -/
def selectControl : Outcome Error (JournalControl × ℕ) := do
  let left ← fs.readControl 0
  let right ← fs.readControl 1
  match left, right with
  | none, none => fail .corruptJournal
  | some control, none => return (control, 0)
  | none, some control => return (control, 1)
  | some left, some right =>
    if left.generation = right.generation ∧ left ≠ right then fail .corruptJournal
    else if right.generation ≤ left.generation then return (left, 0)
    else return (right, 1)

/-- `recover_journal`: the tags and images of a committed transaction; `prior` are the targets of
the tags before `index`. -/
def readUpdates : List UInt64 → ℕ → ℕ → Outcome Error (List (JournalTag × Block))
  | _, _, 0 => .ok []
  | prior, index, count + 1 => do
    let bytes ← readBlocks fs.device (fs.tagBlock index)
    let tag ← ofFormat (JournalTag.decode bytes.1)
    fs.ensureHomeTargetOrState tag.targetHomeBlock.toNat
    rejectIf (tag.targetHomeBlock ∈ prior) .corruptJournal
    let image ← readBlocks fs.device (fs.imageBlock index)
    rejectIf (tag.imageMatches image.1 = false) .corruptJournal
    let rest ← readUpdates (tag.targetHomeBlock :: prior) (index + 1) count
    return (tag, image) :: rest

variable (control : JournalControl)

/-- `recover_journal`: the state a committed transaction leaves, checked against the one on disk. -/
def recoveredState (updates : List (JournalTag × Block)) : Outcome Error FilesystemState := do
  let stateTarget := fs.superblock.filesystemStateBlock
  let stateImages := updates.filter (·.1.targetHomeBlock = stateTarget)
  let (_, stateImage) ← okOr stateImages.head? .corruptJournal
  rejectIf (stateImages.tail ≠ []) .corruptJournal
  let recovered ← ofFormat (FilesystemState.decode stateImage.1)
  let oldImage ← readBlocks fs.device stateTarget.toNat
  let oldState ← ofFormat (FilesystemState.decode oldImage.1)
  let nextId ← ofFormat (NullFS.nextTransactionId control.transactionId)
  rejectIf (recovered.nextTransactionId ≠ nextId ∨ recovered.generation < oldState.generation)
    .corruptJournal
  return recovered

/-- `recover_journal`: everything a committed transaction is checked for before it is replayed. -/
def readCommitted : Outcome Error (List (JournalTag × Block) × FilesystemState) := do
  let updates ← fs.readUpdates [] 0 control.updateCount.toNat
  ofFormat (control.validateTags (updates.map (·.1)))
  let state ← fs.recoveredState control updates
  return (updates, state)

section

variable {fs} {fs' : Filesystem} (hd : fs'.device = fs.device) (hs : fs'.superblock = fs.superblock)
include hd hs

/-- Recovery looks at the device and the superblock only. -/
theorem selectControl_congr : fs'.selectControl = fs.selectControl := by
  unfold selectControl readControl controlBlock
  rw [hd, hs]

theorem readUpdates_congr (prior : List UInt64) (index count : ℕ) :
    fs'.readUpdates prior index count = fs.readUpdates prior index count := by
  induction count generalizing prior index with
  | zero => rfl
  | succ count ih =>
    simp only [readUpdates, tagBlock, imageBlock, ensureHomeTargetOrState, ensureHomeTarget, hd, hs, ih]

theorem readCommitted_congr (control : JournalControl) :
    fs'.readCommitted control = fs.readCommitted control := by
  simp only [readCommitted, recoveredState, readUpdates_congr hd hs, hd, hs]

end

end Filesystem

/-- The home blocks of a committed transaction. -/
def homesOf (updates : List (JournalTag × Block)) : List (ℕ × Block) :=
  updates.map fun update => (update.1.targetHomeBlock.toNat, update.2)

def recoverJournal : FsM Unit := do
  let (control, slot) ← reading (·.selectControl)
  modify fun fs => { fs with journalGeneration := control.generation, olderControlSlot := 1 - slot }
  if control.state = .empty then pure ()
  else do
    let (updates, recovered) ← reading (·.readCommitted control)
    let fs ← get
    if fs.mountMode = .readOnly then
      set { fs with recoveryOverlay := homesOf updates, state := some recovered }
    else do
      writeHomes (homesOf updates)
      flushDevice
      let emptyGeneration ← liftOutcome (ofFormat (nextGeneration control.generation))
      writeControl (1 - slot) (JournalControl.empty emptyGeneration)
      flushDevice
      modify fun fs => { fs with journalGeneration := emptyGeneration, olderControlSlot := slot }

/-- The recovery for writing of a journal that is not empty. -/
theorem recoverJournal_eq {fs : Filesystem} {control : JournalControl} {slot : ℕ}
    (hmode : fs.mountMode = .readWrite)
    (hselect : fs.selectControl = .ok (control, slot)) (hstate : control.state ≠ .empty) :
    recoverJournal fs = match fs.readCommitted control with
      | .error e =>
        .error e { fs with journalGeneration := control.generation, olderControlSlot := 1 - slot }
      | .ok (updates, _) => (do
        writeHomes (homesOf updates)
        flushDevice
        let emptyGeneration ← liftOutcome (ofFormat (nextGeneration control.generation))
        writeControl (1 - slot) (JournalControl.empty emptyGeneration)
        flushDevice
        modify fun fs => { fs with journalGeneration := emptyGeneration, olderControlSlot := slot } :
          FsM Unit) { fs with journalGeneration := control.generation, olderControlSlot := 1 - slot } := by
  have hcongr : { fs with journalGeneration := control.generation, olderControlSlot := 1 - slot
      }.readCommitted control = fs.readCommitted control :=
    Filesystem.readCommitted_congr (by rfl) (by rfl) control
  rw [recoverJournal, reading_bind, hselect]
  change (if control.state = .empty then _ else _ : FsM Unit)
    { fs with journalGeneration := control.generation, olderControlSlot := 1 - slot } = _
  rw [if_neg hstate, reading_bind, hcongr]
  cases fs.readCommitted control with
  | error => rfl
  | ok =>
    change (if fs.mountMode = .readOnly then _ else _ : FsM Unit) _ = _
    rw [if_neg (by rw [hmode]; decide)]

end NullFS
