/-
**Mounting, checking and unmounting NullFS volumes.**

A mount finds the superblock and the allocation groups, brings the journal and the orphan list to an
end, checks the whole volume and, for writing, publishes that the volume is dirty.  Unmounting
publishes that it is clean.  Power may fail at any time, after which the device comes back with some of
the writes that had not been flushed.

* `discoverMountMetadata`, `selectSuperblock` — the metadata a mount starts from;
* `Filesystem.validateVolume` — the check of the volume;
* `writeSuperblocks`, `finishMount`, `tryMountWithMode` — mounting;
* `sync`, `tryUnmount` — making the volume durable and clean;
* `Operation`, `World`, `World.step` — the operations of the core, and the events of
  a volume.
-/

import NullStar.Mutation

set_option autoImplicit false

namespace NullFS

open Bytes Rust Storage

/-! ### Superblocks -/

def selectSuperblock (primary backup : Option Superblock) : Outcome Error Superblock :=
  match primary, backup with
  | some primary, some backup =>
    if primary = backup then .ok primary
    else if { primary with state := .clean } = { backup with state := VolumeState.clean } then
      .ok (if backup.state = .dirty then { primary with state := .dirty } else primary)
    else fail .redundantSuperblocksDisagree
  | some primary, none => if primary.phase3Enabled then .ok primary else fail .corruptVolume
  | none, some backup => if backup.phase3Enabled then .ok backup else fail .corruptVolume
  | none, none => fail .corruptVolume

section

variable (device : Device Block)

/-- A superblock of the device, if it is valid. -/
def readSuperblock (block : ℕ) : Outcome Error (Option Superblock) := do
  let bytes ← readBlocks device block
  match Superblock.decode bytes.1 (some (device.blockCount * blockSize)) .readOnly with
  | .ok superblock => return some superblock
  | .error _ => return none

/-- `discover_mount_metadata`: the superblock. -/
def discoverSuperblock : Outcome Error Superblock := do
  rejectIf (2 ^ 64 ≤ device.blockCount * blockSize) .arithmeticOverflow
  let primary ← readSuperblock device superblockBlock
  let backup ← readSuperblock device phase3BackupSuperblockBlock
  match primary with
  | some superblock =>
    if superblock.phase3Enabled = false then return superblock
    else selectSuperblock primary backup
  | none => selectSuperblock primary backup

/-- `discover_mount_metadata`: the loop over the descriptor tables. -/
def readGroups (device : Device Block) (superblock : Superblock) :
    List ℕ → Outcome Error (List AllocationGroupDescriptor)
  | [] => .ok []
  | tableIndex :: rest => do
    let block ← readBlocks device (superblock.firstDescriptorBlock.toNat + tableIndex)
    let table ← ofFormat (AllocationGroupTable.decode block.1 superblock)
    let others ← readGroups device superblock rest
    return (List.ofFn table.descriptors).take table.descriptorCount.toNat ++ others

variable (mountMode : RuntimeMountMode)

def discoverMountMetadata : Outcome Error (Superblock × List AllocationGroupDescriptor) := do
  let superblock ← discoverSuperblock device
  rejectIf (superblock.phase2Enabled = false) .phase2Required
  rejectIf (mountMode = .readWrite ∧ superblock.phase3Enabled = false) .phase3Required
  let groups ← readGroups device superblock (List.range superblock.descriptorReservationBlocks.toNat)
  rejectIf (groups.length ≠ superblock.allocationGroupCount.toNat) .corruptVolume
  return (superblock, groups)

/-! ### Checking a volume -/

namespace Filesystem

variable (fs : Filesystem)

def inodeNumbers : List UInt64 := (List.range fs.totalInodes).map fun i => UInt64.ofNat (i + 1)

variable (group : AllocationGroupDescriptor)

/-- The blocks of a group before its data. -/
def metadataBlocks : List ℕ :=
  List.range' group.groupStartBlock.toNat
    (group.firstDataBlock.toNat - group.groupStartBlock.toNat)

/-- The bits behind the last one in use are zero; before Phase 3 there are no bits at all. -/
def checkTail (bitmap : Block) (validBits : ℕ) : Outcome Error Unit :=
  if fs.superblock.phase3Enabled then ofFormat (validateBitmapTail bitmap validBits)
  else rejectIf (allZero bitmap.1 = false) .corruptVolume

/-- `validate_volume`: the bitmaps of a group. -/
def checkBitmaps : Outcome Error Unit := do
  let bitmap ← fs.readBlock group.blockBitmapBlock.toNat
  fs.checkTail bitmap group.groupBlockCount.toNat
  onlyIf (fs.superblock.phase3Enabled = true)
    (each (fun b => rejectIf (bitmapTest bitmap (blockBit group b) ≠ some true) .corruptVolume)
      (metadataBlocks group))
  let bitmap ← fs.readBlock group.inodeBitmapBlock.toNat
  fs.checkTail bitmap group.inodesInGroup.toNat

def blockIsData (block : ℕ) : Bool := fs.groups.any (holdsData · block)

def blockBitmapValue (physical : ℕ) : Outcome Error Bool := do
  let group ← okOr (fs.groups.find? fun group => decide (group.groupStartBlock.toNat ≤ physical ∧
    physical < group.groupStartBlock.toNat + group.groupBlockCount.toNat)) .corruptVolume
  let bitmap ← fs.readBlock group.blockBitmapBlock.toNat
  okOr (bitmapTest bitmap (blockBit group physical)) .corruptVolume

/-- The bit of an inode. -/
def inodeBitmapValue (node : UInt64) : Outcome Error (Option Bool) := do
  let (group, index) ← fs.inodeLocation node
  let bitmap ← fs.readBlock group.inodeBitmapBlock.toNat
  return bitmapTest bitmap index

/-- `validate_volume`: the bit of a block with an owner. -/
def checkOwned (block : ℕ) : Outcome Error Unit := do
  let marked ← fs.blockBitmapValue block
  rejectIf (marked = false) .corruptVolume

/-- `validate_volume`: the bit of an allocated inode. -/
def checkAllocated (node : UInt64) : Outcome Error Unit := do
  let marked ← fs.inodeBitmapValue node
  rejectIf (marked ≠ some true) .corruptVolume

/-- `validate_volume`: the blocks of one inode, added to the blocks that have an owner. -/
def claimBlocks : List ℕ → List ℕ → Outcome Error (List ℕ)
  | [], owned => .ok owned
  | block :: rest, owned => do
    rejectIf (fs.blockIsData block = false ∨ block ∈ owned) .corruptVolume
    onlyIf (fs.superblock.phase3Enabled = true) (fs.checkOwned block)
    claimBlocks rest (owned ++ [block])

def extentRanges : List Extent → Outcome Error (List ℕ)
  | [] => .ok []
  | extent :: rest => do
    let _ ← ofFormat extent.physicalEnd
    let others ← extentRanges rest
    return extent.blocks.map (·.2) ++ others

/-- `validate_volume`: the loop over the inodes, with the allocated ones and the blocks that have an
owner. -/
def scanInodes : List UInt64 → List UInt64 × List ℕ → Outcome Error (List UInt64 × List ℕ)
  | [], found => .ok found
  | node :: rest, (allocated, owned) => do
    let inode ← fs.readInode node
    if inode.kind = .free then scanInodes rest (allocated, owned)
    else do
      onlyIf (fs.superblock.phase3Enabled = true) (fs.checkAllocated node)
      let blocks ← extentRanges inode.used
      let owned ← fs.claimBlocks blocks owned
      scanInodes rest (allocated ++ [node], owned)

variable (allocated : List UInt64)

/-- `validate_volume`: the inode bitmaps mark the allocated inodes. -/
def checkInodeBits : Outcome Error Unit :=
  each (fun node => do
    let marked ← fs.inodeBitmapValue node
    rejectIf (marked ≠ some (decide (node ∈ allocated))) .corruptVolume) fs.inodeNumbers

variable (owned : List ℕ)

/-- `validate_volume`: the block bitmaps mark the blocks with an owner. -/
def checkBlockBits : Outcome Error Unit :=
  each (fun group => do
    let bitmap ← fs.readBlock group.blockBitmapBlock.toNat
    each (fun b => do
      let marked ← okOr (bitmapTest bitmap (blockBit group b)) .corruptVolume
      rejectIf (marked ≠ decide (b ∈ owned)) .corruptVolume) (dataBlocks group)) fs.groups

def totalDataBlocks : List AllocationGroupDescriptor → ℕ → Outcome Error ℕ
  | [], total => .ok total
  | group :: rest, total => do
    let count ← trapSub group.dataEndBlock.toNat group.firstDataBlock.toNat
    let total ← okOr (checkedAdd 64 total count) .arithmeticOverflow
    totalDataBlocks rest total

/-- `validate_volume`: the free counts, unless both are still zero. -/
def checkCounts : Outcome Error Unit := do
  let state ← okOr fs.state .corruptVolume
  let total ← totalDataBlocks fs.groups 0
  let expectedInodes ← trapSub fs.totalInodes allocated.length
  let expectedBlocks ← trapSub total owned.length
  rejectIf ((state.freeInodeCount ≠ 0 ∨ state.freeBlockCount ≠ 0) ∧
    (state.freeInodeCount.toNat ≠ expectedInodes ∨ state.freeBlockCount.toNat ≠ expectedBlocks))
    .corruptVolume

/-- `validate_parent_chain`, for at most so many steps. -/
def validateParentChain : ℕ → UInt64 → Outcome Error Unit
  | 0, _ => fail .corruptVolume
  | steps + 1, cursor => do
    let inode ← fs.readAllocatedInode cursor
    rejectIf (inode.kind ≠ .directory) .corruptVolume
    if cursor = rootInode then rejectIf (inode.parentInode ≠ rootInode) .corruptVolume
    else validateParentChain steps inode.parentInode

/-- `validate_volume`: the entries of a directory, with the names and the referenced inodes so far. -/
def checkEntries (allocated : List UInt64) : List DirectoryEntry →
    List (List UInt8) × List UInt64 → Outcome Error (List (List UInt8) × List UInt64)
  | [], found => .ok found
  | entry :: rest, (names, referenced) => do
    rejectIf (entry.inode ∉ allocated) .corruptVolume
    let target ← fs.readAllocatedInode entry.inode
    rejectIf (target.generation ≠ entry.generation ∨ target.kind ≠ entry.kind) .corruptVolume
    let name ← ofFormat entry.nameText
    rejectIf (name ∈ names) .corruptVolume
    checkEntries allocated rest (names ++ [name], referenced ++ [entry.inode])

def usedEntries (block : DirectoryBlock) : List DirectoryEntry :=
  (List.ofFn block.entries).filter fun entry => !entry.isUnused

/-- `validate_volume`: the blocks of a directory. -/
def checkBlocks (allocated : List UInt64) (node : UInt64) (inode : Inode) : List ℕ →
    List (List UInt8) × List UInt64 → Outcome Error (List (List UInt8) × List UInt64)
  | [], found => .ok found
  | logical :: rest, found => do
    let block ← fs.readDirectoryBlock node inode logical
    let found ← fs.checkEntries allocated (usedEntries block) found
    checkBlocks allocated node inode rest found

/-- `validate_volume`: the loop over the directories, with the inodes referenced so far. -/
def checkDirectories (allocated : List UInt64) : List UInt64 → List UInt64 → Outcome Error (List UInt64)
  | [], referenced => .ok referenced
  | node :: rest, referenced => do
    let inode ← fs.readAllocatedInode node
    if inode.kind = .directory then do
      fs.validateParentChain (fs.totalInodes + 1) node
      -- every entry adds a name, so that the number of names is the number of entries
      let (names, referenced) ←
        fs.checkBlocks allocated node inode (directoryBlocks inode) ([], referenced)
      rejectIf (names.length ≠ inode.directoryEntryCount.toNat) .corruptVolume
      checkDirectories allocated rest referenced
    else checkDirectories allocated rest referenced

/-- `validate_volume`: what is known of the bitmaps and the free counts. -/
def checkAllocation : Outcome Error Unit := do
  fs.checkInodeBits allocated
  fs.checkBlockBits owned
  fs.checkCounts allocated owned

def validateVolume : Outcome Error Unit := do
  each fs.checkBitmaps fs.groups
  let (allocated, owned) ← fs.scanInodes fs.inodeNumbers ([], [])
  onlyIf (fs.superblock.phase3Enabled = true) (fs.checkAllocation allocated owned)
  rejectIf (rootInode ∉ allocated) .corruptVolume
  let root ← fs.readAllocatedInode rootInode
  rejectIf (root.kind ≠ .directory ∨ root.parentInode ≠ rootInode) .corruptVolume
  let referenced ← fs.checkDirectories allocated allocated [rootInode]
  rejectIf (∃ node ∈ allocated, node ∉ referenced) .corruptVolume

/-! ### Mounting -/

def freeCounts : List AllocationGroupDescriptor → Outcome Error (ℕ × ℕ)
  | [] => .ok (0, 0)
  | group :: rest => do
    let bitmap ← fs.readBlock group.blockBitmapBlock.toNat
    let blocks := (dataBlocks group).countP fun b =>
      bitmapTest bitmap (blockBit group b) = some false
    let bitmap ← fs.readBlock group.inodeBitmapBlock.toNat
    let inodes := (List.range group.inodesInGroup.toNat).countP (bitmapTest bitmap · = some false)
    let (otherBlocks, otherInodes) ← freeCounts rest
    return (blocks + otherBlocks, inodes + otherInodes)

end Filesystem

/-- `initialize_free_counts`: counts that are both zero are computed from the bitmaps. -/
def initializeFreeCounts : FsM Unit := do
  let fs ← get
  let state ← liftOutcome (okOr fs.state .corruptVolume)
  if state.freeBlockCount ≠ 0 ∨ state.freeInodeCount ≠ 0 then pure ()
  else do
    let (blocks, inodes) ← reading fun fs => fs.freeCounts fs.groups
    let counted : FilesystemState → FilesystemState := fun state =>
      { state with freeBlockCount := UInt64.ofNat blocks, freeInodeCount := UInt64.ofNat inodes }
    if fs.mountMode = .readWrite then do
      beginTransaction
      let fs ← get
      let tx ← liftOutcome (okOr fs.transaction .corruptVolume)
      set { fs with transaction := some { tx with state := counted tx.state } }
      commitTransaction
    else set { fs with state := some (counted state) }

def readState : FsM Unit := do
  let fs ← get
  let block ← liftOutcome (readBlocks fs.device fs.superblock.filesystemStateBlock.toNat)
  let state ← liftOutcome (ofFormat (FilesystemState.decode block.1))
  set { fs with state := some state }

def writeSuperblocks (state : VolumeState) : FsM Unit := do
  modify fun fs => { fs with superblock := { fs.superblock with state } }
  let fs ← get
  let encoded ← liftOutcome (ofFormat fs.superblock.encode)
  poisonOnError do
    writeBlocks fs.superblock.backupSuperblockBlock.toNat encoded
    flushDevice
    writeBlocks superblockBlock encoded
    flushDevice

/-- `finish_mount`: the journal and the orphan list. -/
def recoverVolume : FsM Unit := do
  recoverJournal
  let fs ← get
  onlyIf (fs.state.isNone = true) readState
  let fs ← get
  if fs.mountMode = .readWrite then reclaimOrphans
  else do
    let state ← liftOutcome (okOr fs.state .corruptVolume)
    liftOutcome (rejectIf (state.orphanHead ≠ 0) .recoveryRequired)

def finishMount : FsM Unit := do
  let fs ← get
  onlyIf (fs.superblock.phase3Enabled = true) recoverVolume
  reading (·.validateVolume)
  onlyIf (fs.superblock.phase3Enabled = true) initializeFreeCounts
  onlyIf (fs.mountMode = .readWrite) (writeSuperblocks .dirty)

/-- The volume `try_mount_with_mode` starts from. -/
def Filesystem.unrecovered (superblock : Superblock) (groups : List AllocationGroupDescriptor)
    (mountMode : RuntimeMountMode) : Filesystem where
  device := device
  superblock := superblock
  groups := groups
  mountMode := mountMode
  state := none
  journalGeneration := 0
  olderControlSlot := 0
  poisoned := false
  transaction := none
  openHandles := []
  nextHandleId := 1
  recoveryOverlay := []

/-- `try_mount_with_mode`; a failure gives the device back. -/
def tryMountWithMode : Except (Fault Error × Device Block) Filesystem :=
  match discoverMountMetadata device mountMode with
  | .error e => .error (e, device)
  | .ok (superblock, groups) =>
    match finishMount (.unrecovered device superblock groups mountMode) with
    | .ok _ fs => .ok fs
    | .error e fs => .error (e, fs.device)

def tryMount : Except (Fault Error × Device Block) Filesystem :=
  tryMountWithMode device .readOnly

def tryMountReadWrite : Except (Fault Error × Device Block) Filesystem :=
  tryMountWithMode device .readWrite

/-! ### Unmounting -/

def sync : FsM Unit := do
  reading (·.ensureWritable)
  commitTransaction
  poisonOnError flushDevice

/-- `try_unmount`: the recovery of a volume on which a commit failed. -/
def recoverPoisoned : FsM Unit := do
  modify fun fs => { fs with poisoned := false }
  poisonOnError do
    modify fun fs => { fs with transaction := none }
    recoverJournal
    readState
    reclaimOrphans
    reading (·.validateVolume)

def tryUnmount : FsM Unit := do
  let fs ← get
  if fs.mountMode = .readWrite then do
    onlyIf (fs.poisoned = true) recoverPoisoned
    sync
    writeSuperblocks .clean
  else pure ()

end

/-! ### Operations -/

/-- The operations of the core that may change a mounted volume. -/
inductive Operation where
  | create (parent : UInt64) (name : List UInt8) (mode : UInt16)
  | mkdir (parent : UInt64) (name : List UInt8) (mode : UInt16)
  | write (node : UInt64) (offset : UInt64) (input : List UInt8)
  | truncate (node size : UInt64)
  | unlink (parent : UInt64) (name : List UInt8)
  | rmdir (parent : UInt64) (name : List UInt8)
  | rename (oldParent : UInt64) (oldName : List UInt8) (newParent : UInt64) (newName : List UInt8)
  | openNode (node : UInt64)
  | closeNode (handle : OpenHandle)
  | writeHandle (handle : OpenHandle) (offset : UInt64) (input : List UInt8)
  | sync

inductive Reply where
  | done
  | node (node : UInt64)
  | count (count : ℕ)
  | handle (handle : OpenHandle)

def Operation.run : Operation → FsM Reply
  | .create parent name mode => .node <$> NullFS.create parent name mode
  | .mkdir parent name mode => .node <$> NullFS.mkdir parent name mode
  | .write node offset input => .count <$> NullFS.write node offset.toNat input
  | .truncate node size => do
    NullFS.truncate node size
    pure .done
  | .unlink parent name => do
    NullFS.unlink parent name
    pure .done
  | .rmdir parent name => do
    NullFS.rmdir parent name
    pure .done
  | .rename oldParent oldName newParent newName => do
    NullFS.rename oldParent oldName newParent newName
    pure .done
  | .openNode node => .handle <$> NullFS.openNode node
  | .closeNode handle => do
    NullFS.closeNode handle
    pure .done
  | .writeHandle handle offset input => .count <$> NullFS.writeHandle handle offset.toNat input
  | .sync => do
    NullFS.sync
    pure .done

/-! ### Runs -/

/-- A volume: a device alone, or mounted. -/
inductive World where
  | detached (device : Device Block)
  | mounted (fs : Filesystem)

inductive Event where
  | mount (mode : RuntimeMountMode)
  | operate (op : Operation)
  | tryUnmount | close
  | crash (image : ℕ → Block) (fuel : Option ℕ)

namespace World

def device : World → Device Block
  | .detached device => device
  | .mounted fs => fs.device

/-- The volume after an operation; a trap ends the program. -/
def after {α : Type} : EStateM.Result (Fault Error) Filesystem α → World
  | .ok _ fs => .mounted fs
  | .error (.err _) fs => .mounted fs
  | .error .trap fs => .detached fs.device

def afterMount : Except (Fault Error × Device Block) Filesystem → World
  | .ok fs => .mounted fs
  | .error (_, device) => .detached device

/-- The event can happen: a detached volume can be mounted and a mounted one used, and after a crash
every block holds what was flushed last or a write since then. -/
def Possible : World → Event → Prop
  | .detached _, .mount _ => True
  | .mounted _, .operate _ => True
  | .mounted _, .tryUnmount => True
  | .mounted _, .close => True
  | world, .crash image _ => world.device.CrashImage image
  | _, _ => False

def step : World → Event → World
  | .detached device, .mount mode => afterMount (tryMountWithMode device mode)
  | .mounted fs, .operate op => after (op.run fs)
  | .mounted fs, .tryUnmount => after (NullFS.tryUnmount fs)
  | .mounted fs, .close => .detached fs.device
  | world, .crash image fuel => .detached (world.device.restart image fuel)
  | world, _ => world

end World

/-- The volumes reached by events that meet the condition where they happen. -/
inductive Run (condition : World → Event → Prop) : World → World → Prop
  | refl (world : World) : Run condition world world
  | step {world world' : World} {event : Event} (h : Run condition world world')
      (hp : world'.Possible event) (hc : condition world' event) : Run condition world (world'.step event)

/-- One mount is a run. -/
theorem Run.mount {condition : World → Event → Prop} {device : Device Block} {mode : RuntimeMountMode}
    (hc : condition (.detached device) (.mount mode)) :
    Run condition (.detached device) (World.afterMount (tryMountWithMode device mode)) :=
  @Run.step _ _ _ (.mount mode) (.refl _) trivial hc

/-- **An invariant of every event is an invariant of every run.** -/
theorem Run.invariant {condition : World → Event → Prop} {I : World → Prop}
    (hstep : ∀ world event, I world → world.Possible event → condition world event →
      I (world.step event)) {world world' : World} (hrun : Run condition world world')
    (h : I world) : I world' := by
  induction hrun with
  | refl => exact h
  | step _ hp hc ih => exact hstep _ _ ih hp hc

end NullFS
