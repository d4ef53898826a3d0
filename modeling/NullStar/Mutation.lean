/-
**The mutations of the NullFS core.**

Every mutation runs in a transaction: it stages the blocks it changes, reading through what it has
staged already, and commits at the end; when it fails, the transaction is dropped.  The part of a
mutation that stages blocks is a computation on the transaction alone.

* `addExtent` — adding a block to the extents of a file;
* `allocateInode`, `allocateDataBlock`, `freeDataBlock`, `writeInode`, `findEntry`, `insertEntry`,
  `clearEntry`, `freeInodeAndBlocks` in `Filesystem` — the steps of the mutations;
* `createNode`, `write`, `truncate`, `remove`, `rename` — the
  mutations;
* `openNode`, `closeNode`, `reclaimOrphans` — open handles and orphans.
-/

import Mathlib
import NullStar.Filesystem
import Mathlib.Data.List.Sort

set_option autoImplicit false

namespace NullFS

open Bytes Rust Hoare

/-! ### Adding blocks to the extents of a file

An inode maps the logical blocks of its file to physical blocks with at most four extents, kept in
logical order.  A block is added by inserting an extent of its own and merging extents that continue
each other. -/

/-- The logical blocks of an extent with the physical blocks they are mapped to. -/
def Extent.blocks (extent : Extent) : List (ℕ × ℕ) :=
  (List.range extent.lengthBlocks.toNat).map fun relative =>
    (extent.logicalFirstBlock.toNat + relative, extent.physicalFirstBlock.toNat + relative)

/-- The extent continues the last one, both logically and physically. -/
def Extent.continues (extent last : Extent) : Outcome Error Bool := do
  let logicalEnd ← ofFormat last.logicalEnd
  if logicalEnd = extent.logicalFirstBlock.toNat then do
    let physicalEnd ← ofFormat last.physicalEnd
    return decide (physicalEnd = extent.physicalFirstBlock.toNat)
  else return false

/-- `add_extent_raw`: the loop that merges the pending extents; `merged` are the extents so far, the
last one first. -/
def mergeExtents : List Extent → List Extent → Outcome Error (List Extent)
  | merged, [] => .ok merged.reverse
  | [], extent :: rest => mergeExtents [extent] rest
  | last :: before, extent :: rest => do
    if ← extent.continues last then do
      let length ← okOr (checkedAdd 32 last.lengthBlocks.toNat extent.lengthBlocks.toNat)
        .arithmeticOverflow
      mergeExtents ({ last with lengthBlocks := UInt32.ofNat length } :: before) rest
    else do
      rejectIf ((last :: before).length = inlineExtentCount) .extentLimit
      mergeExtents (extent :: last :: before) rest

/-- `add_extent_raw`, on the extents in use. -/
def addExtentRaw (extents : List Extent) (logical physical : ℕ) : Outcome Error (List Extent) :=
  let added : Extent :=
    { logicalFirstBlock := UInt64.ofNat logical, physicalFirstBlock := UInt64.ofNat physical
      lengthBlocks := 1, flags := 0 }
  -- the keys are different, so that an unstable sort has only one result
  mergeExtents [] ((extents ++ [added]).insertionSort fun a b =>
    a.logicalFirstBlock ≤ b.logicalFirstBlock)

variable (inode : Inode)

namespace Inode

/-- The physical blocks of an inode, in the order of its extents. -/
def blocks : List ℕ := inode.used.flatMap fun extent => extent.blocks.map (·.2)

def withExtents (extents : List Extent) : Inode :=
  { inode with
    extents := fun i => extents.getD i {}
    extentCount := UInt16.ofNat extents.length }

end Inode

def addExtent (logical physical : ℕ) : Outcome Error Inode := do
  let extents ← addExtentRaw inode.used logical physical
  let allocated ← trapAdd 64 inode.allocatedBlocks.toNat 1
  return { inode.withExtents extents with allocatedBlocks := UInt64.ofNat allocated }

/-! ### Staging -/

/-- Changes to the transaction of a mutation.  What was staged is of no use once a step has failed. -/
abbrev StageM := StateT Transaction (Outcome Error)

/-- A computation that leaves the transaction alone. -/
def liftStage {α : Type} (x : Outcome Error α) : StageM α := fun tx => do
  let a ← x
  return (a, tx)

/-- A change of the state the transaction will commit. -/
def updateState (f : FilesystemState → Outcome Error FilesystemState) : StageM Unit := fun tx => do
  let state ← f tx.state
  return ((), { tx with state })

namespace Filesystem

variable (fs : Filesystem)

/-- The volume with a transaction in progress. -/
def during (tx : Transaction) : Filesystem := { fs with transaction := some tx }

/-- A computation that reads the volume through the transaction. -/
def observe {α : Type} (f : Filesystem → Outcome Error α) : StageM α := fun tx => do
  let a ← f (fs.during tx)
  return (a, tx)

/-- `stage_block`, in a mutation; its transaction has begun. -/
def stageBlock (target : ℕ) (image : Block) : StageM Unit := fun tx => do
  fs.ensureHomeTarget target
  let tx ← tx.stage target image
  return ((), tx)

def nextGenerationValue : Outcome Error UInt64 := do
  let state ← okOr fs.state .corruptVolume
  let next ← okOr (checkedAdd 64 state.generation.toNat 1) .arithmeticOverflow
  return UInt64.ofNat next

/-! ### Inodes and blocks -/

/-- `allocate_inode`: the loop over the groups, from the given one on. -/
def allocateInodeIn : ℕ → List AllocationGroupDescriptor → StageM UInt64
  | _, [] => liftStage (fail .noSpace)
  | groupIndex, group :: rest => do
    let bitmap ← fs.observe (·.readBlock group.inodeBitmapBlock.toNat)
    match (List.range group.inodesInGroup.toNat).find? (bitmapTest bitmap · = some false) with
    | none => allocateInodeIn (groupIndex + 1) rest
    | some index => do
      let bitmap ← liftStage (ofFormat (bitmapSet bitmap index true))
      fs.stageBlock group.inodeBitmapBlock.toNat bitmap
      updateState fun state => do
        let count ← okOr (checkedSub state.freeInodeCount.toNat 1) .corruptVolume
        return { state with freeInodeCount := UInt64.ofNat count }
      return UInt64.ofNat (groupIndex * group.inodesInGroup.toNat + index + 1)

def allocateInode : StageM UInt64 := fs.allocateInodeIn 0 fs.groups

/-- `allocate_data_block`: the loop over the groups. -/
def allocateDataBlockIn : List AllocationGroupDescriptor → StageM ℕ
  | [] => liftStage (fail .noSpace)
  | group :: rest => do
    let bitmap ← fs.observe (·.readBlock group.blockBitmapBlock.toNat)
    match (dataBlocks group).find? (fun b => bitmapTest bitmap (blockBit group b) = some false) with
    | none => allocateDataBlockIn rest
    | some physical => do
      let bitmap ← liftStage (ofFormat (bitmapSet bitmap (blockBit group physical) true))
      fs.stageBlock group.blockBitmapBlock.toNat bitmap
      updateState fun state => do
        let count ← okOr (checkedSub state.freeBlockCount.toNat 1) .corruptVolume
        return { state with freeBlockCount := UInt64.ofNat count }
      return physical

def allocateDataBlock : StageM ℕ := fs.allocateDataBlockIn fs.groups

/-- The block is a data block of the group. -/
def holdsData (group : AllocationGroupDescriptor) (physical : ℕ) : Bool :=
  decide (group.firstDataBlock.toNat ≤ physical ∧ physical < group.dataEndBlock.toNat)

def freeDataBlock (physical : ℕ) : StageM Unit := do
  let group ← liftStage (okOr (fs.groups.find? (holdsData · physical)) .corruptVolume)
  let bitmap ← fs.observe (·.readBlock group.blockBitmapBlock.toNat)
  let bitmap ← liftStage (ofFormat (bitmapSet bitmap (blockBit group physical) false))
  fs.stageBlock group.blockBitmapBlock.toNat bitmap
  updateState fun state => do
    let count ← okOr (checkedAdd 64 state.freeBlockCount.toNat 1) .arithmeticOverflow
    return { state with freeBlockCount := UInt64.ofNat count }

/-- The free loop over blocks. -/
def freeDataBlocks : List ℕ → StageM Unit
  | [] => pure ()
  | physical :: rest => do
    fs.freeDataBlock physical
    freeDataBlocks rest

/-- The mode an inode is stored in. -/
def storeMode : InodeValidationMode :=
  if inode.linkCount = 0 ∧ inode.kind ≠ .free then .phase3Orphan else .strict

variable (node : UInt64)

def writeInode (inode : Inode) : StageM Unit := do
  let (group, index) ← liftStage (fs.inodeLocation node)
  let byte := index * inodeBytes
  let physical ← liftStage (trapAdd 64 group.inodeTableFirstBlock.toNat (byte / blockSize))
  let block ← fs.observe (·.readBlock physical)
  let encoded ← liftStage (ofFormat (inode.encodeWithMode (storeMode inode)))
  fs.stageBlock physical (block.put (byte % blockSize) encoded.1)

def freeInodeAndBlocks (inode : Inode) : StageM Unit := do
  -- the ends of the extents do not overflow, because the inode was validated when it was read
  fs.freeDataBlocks inode.blocks
  fs.writeInode node {}
  let (group, index) ← liftStage (fs.inodeLocation node)
  let bitmap ← fs.observe (·.readBlock group.inodeBitmapBlock.toNat)
  let bitmap ← liftStage (ofFormat (bitmapSet bitmap index false))
  fs.stageBlock group.inodeBitmapBlock.toNat bitmap
  updateState fun state => do
    let count ← okOr (checkedAdd 64 state.freeInodeCount.toNat 1) .arithmeticOverflow
    return { state with freeInodeCount := UInt64.ofNat count }

/-! ### Directory entries -/

variable (directory : UInt64)

def findEntry (inode : Inode) (name : List UInt8) : Outcome Error (Option Located) := do
  rejectIf (inode.kind ≠ .directory) .notDirectory
  fs.searchBlocks directory inode name (directoryBlocks inode)

def validName (bytes : List UInt8) : Outcome Error Str :=
  if h : isUtf8 bytes = true then
    match DirectoryEntry.new 1 1 .regular ⟨bytes, h⟩ with
    | .ok _ => .ok ⟨bytes, h⟩
    | .error _ => fail .invalidName
  else fail .invalidName

def setEntry (block : DirectoryBlock) (slot : Fin directoryEntriesPerBlock) (entry : DirectoryEntry) :
    DirectoryBlock := { block with entries := Function.update block.entries slot entry }

def stageDirectoryBlock (physical : ℕ) (block : DirectoryBlock) : StageM Unit := do
  let encoded ← liftStage (ofFormat block.encode)
  fs.stageBlock physical encoded

def countEntry : Outcome Error Inode := do
  let count ← trapAdd 64 inode.directoryEntryCount.toNat 1
  return { inode with directoryEntryCount := UInt64.ofNat count }

/-- `insert_entry`: the loop over the blocks of the directory; the result says whether one of them
had room. -/
def insertInBlocks (directory : UInt64) (inode : Inode) (entry : DirectoryEntry) : List ℕ → StageM Bool
  | [] => pure false
  | logical :: rest => do
    let block ← fs.observe (·.readDirectoryBlock directory inode logical)
    match (List.finRange directoryEntriesPerBlock).find? fun i => (block.entries i).isUnused with
    | none => insertInBlocks directory inode entry rest
    | some slot => do
      let physical ← liftStage ((physicalBlock inode logical).bind (okOr · .corruptVolume))
      fs.stageDirectoryBlock physical (setEntry block slot entry)
      pure true

/-- `insert_entry`; the result is the inode of the directory afterwards. -/
def insertEntry (inode : Inode) (name : Str) (child : UInt64) (childInode : Inode) : StageM Inode := do
  let entry ← liftStage
    (ofFormat (DirectoryEntry.new child childInode.generation childInode.kind name))
  if ← fs.insertInBlocks directory inode entry (directoryBlocks inode) then
    liftStage (countEntry inode)
  else do
    let logical := inode.size.toNat / blockSize
    let physical ← fs.allocateDataBlock
    let inode ← liftStage (addExtent inode logical physical)
    let size ← liftStage (trapAdd 64 inode.size.toNat blockSize)
    let inode := { inode with size := UInt64.ofNat size }
    let block ← liftStage (ofFormat (DirectoryBlock.new directory (UInt64.ofNat logical)))
    fs.stageDirectoryBlock physical (setEntry block ⟨0, by decide⟩ entry)
    liftStage (countEntry inode)

/-- `clear_entry`; the result is the inode of the directory afterwards. -/
def clearEntry (inode : Inode) (logical : ℕ) (slot : Fin directoryEntriesPerBlock) : StageM Inode := do
  let block ← fs.observe (·.readDirectoryBlock directory inode logical)
  let physical ← liftStage ((physicalBlock inode logical).bind (okOr · .corruptVolume))
  fs.stageDirectoryBlock physical (setEntry block slot {})
  let count ← liftStage (okOr (checkedSub inode.directoryEntryCount.toNat 1) .corruptVolume)
  return { inode with directoryEntryCount := UInt64.ofNat count }

/-! ### Staged changes of the mutations -/

/-- `create_node`: the inode of the new object; a directory gets its first block. -/
def stageNewInode (inode : Inode) : StageM Inode :=
  if inode.kind = .directory then do
    let physical ← fs.allocateDataBlock
    let block ← liftStage (ofFormat (DirectoryBlock.new node 0))
    fs.stageDirectoryBlock physical block
    return { inode.withExtents [{ logicalFirstBlock := 0
                                  physicalFirstBlock := UInt64.ofNat physical
                                  lengthBlocks := 1, flags := 0 }] with
             size := UInt64.ofNat blockSize, allocatedBlocks := 1 }
  else return inode

/-- `create_node`: the changes. -/
def stageCreate (parent : UInt64) (name : List UInt8) (mode : UInt16) (kind : NodeKind) : StageM UInt64 := do
  let name ← liftStage (validName name)
  let parentInode ← fs.observe (·.readAllocatedInode parent)
  liftStage (rejectIf (parentInode.kind ≠ .directory) .notDirectory)
  let existing ← fs.observe (·.findEntry parent parentInode name.1)
  liftStage (rejectIf (existing.isSome = true) .alreadyExists)
  let node ← fs.allocateInode
  let generation ← liftStage fs.nextGenerationValue
  let inode ← fs.stageNewInode node
    { kind, mode, linkCount := 1, generation, parentInode := parent }
  fs.writeInode node inode
  let parentInode ← fs.insertEntry parent parentInode name node inode
  fs.writeInode parent parentInode
  return node

/-- `write_chunk`: the physical block of a logical one with its contents; a hole gets a new block. -/
def stageMapping (inode : Inode) (logical : ℕ) : StageM (ℕ × Block × Inode) := do
  match ← liftStage (physicalBlock inode logical) with
  | some physical => do
    let image ← fs.observe (·.readBlock physical)
    return (physical, image, inode)
  | none => do
    let physical ← fs.allocateDataBlock
    let inode ← liftStage (addExtent inode logical physical)
    return (physical, Buf.zero blockSize, inode)

/-- `write_chunk`: the loop over the logical blocks, with `consumed` bytes of the input written. -/
def stageBlocks (offset : ℕ) (input : List UInt8) : List ℕ → ℕ → Inode → StageM (Inode × ℕ)
  | [], consumed, inode => pure (inode, consumed)
  | logical :: rest, consumed, inode => do
    let within := if logical = offset / blockSize then offset % blockSize else 0
    let count := min (blockSize - within) (input.length - consumed)
    let (physical, image, inode) ← fs.stageMapping inode logical
    fs.stageBlock physical (image.put within ((input.drop consumed).take count))
    stageBlocks offset input rest (consumed + count) inode

/-- The kind of a file that can be written and truncated. -/
def ensureRegular : Outcome Error Unit := do
  rejectIf (inode.kind = .directory) .isDirectory
  rejectIf (inode.kind ≠ .regular) .unsupportedNodeKind

/-- `write_chunk`: the changes. -/
def stageWrite (offset : ℕ) (input : List UInt8) : StageM ℕ := do
  let inode ← fs.observe (·.readAllocatedInode node)
  liftStage (ensureRegular inode)
  let stop ← liftStage (okOr (checkedAdd 64 offset input.length) .arithmeticOverflow)
  let first := offset / blockSize
  let last := (stop - 1) / blockSize
  let (inode, consumed) ←
    fs.stageBlocks offset input (List.range' first (last + 1 - first)) 0 inode
  let inode := { inode with size := max inode.size (UInt64.ofNat stop) }
  fs.writeInode node inode
  return consumed

/-- `truncate`: the loop over the blocks of the file, with the extents retained so far. -/
def retainBlocks (retainedBlocks : ℕ) : List (ℕ × ℕ) → List Extent → StageM (List Extent)
  | [], retained => pure retained
  | (logical, physical) :: rest, retained =>
    if logical < retainedBlocks then do
      let retained ← liftStage (addExtentRaw retained logical physical)
      retainBlocks retainedBlocks rest retained
    else do
      fs.freeDataBlock physical
      retainBlocks retainedBlocks rest retained

/-- `truncate`: the bytes of the last block that are cut off become zero. -/
def clearTail (inode : Inode) (size : ℕ) : StageM Unit :=
  if size % blockSize = 0 then pure ()
  else do
    match ← liftStage (physicalBlock inode (size / blockSize)) with
    | none => pure ()
    | some physical => do
      let image ← fs.observe (·.readBlock physical)
      let within := size % blockSize
      fs.stageBlock physical (image.put within (List.replicate (blockSize - within) 0))

/-- `truncate`: the blocks behind the new size are freed. -/
def stageShrink (inode : Inode) (size : UInt64) : StageM Inode :=
  if size < inode.size then do
    let retainedBlocks := (size.toNat + (blockSize - 1)) / blockSize
    let retained ← fs.retainBlocks retainedBlocks (inode.used.flatMap Extent.blocks) []
    let inode := { inode.withExtents retained with
      allocatedBlocks := UInt64.ofNat (retained.map (·.lengthBlocks.toNat)).sum }
    fs.clearTail inode size.toNat
    return inode
  else return inode

/-- `truncate`: the changes. -/
def stageTruncate (size : UInt64) : StageM Unit := do
  let inode ← fs.observe (·.readAllocatedInode node)
  liftStage (ensureRegular inode)
  let inode ← fs.stageShrink inode size
  fs.writeInode node { inode with size }

/-- An open handle refers to the object. -/
def isOpen (generation : UInt64) : Bool :=
  fs.openHandles.any fun handle => handle.node == node && handle.generation == generation

/-- `remove`: the last name of an open file is gone, so that it goes to the orphan list. -/
def stageOrphan (inode : Inode) : StageM Unit := do
  let tx ← get
  fs.writeInode node { inode with linkCount := 0, parentInode := tx.state.orphanHead }
  updateState fun state => .ok { state with orphanHead := node }

/-- `remove`: the kind of object that may be removed. -/
def ensureRemovable (directory : Bool) : Outcome Error Unit :=
  if directory then do
    rejectIf (inode.kind ≠ .directory) .notDirectory
    rejectIf (inode.directoryEntryCount ≠ 0) .directoryNotEmpty
  else rejectIf (inode.kind = .directory) .isDirectory

/-- `remove`: what becomes of an object without a name. -/
def stageUnnamed (inode : Inode) : StageM Unit :=
  if fs.isOpen node inode.generation = true ∧ inode.kind = .regular then fs.stageOrphan node inode
  else fs.freeInodeAndBlocks node inode

/-- `remove`: the changes. -/
def stageRemove (parent : UInt64) (name : List UInt8) (directory : Bool) : StageM Unit := do
  let name ← liftStage (validName name)
  let parentInode ← fs.observe (·.readAllocatedInode parent)
  let found ← fs.observe (·.findEntry parent parentInode name.1)
  let found ← liftStage (okOr found .notFound)
  let node := found.entry.inode
  let inode ← fs.observe (·.readAllocatedInode node)
  liftStage (ensureRemovable inode directory)
  let parentInode ← fs.clearEntry parent parentInode found.logical found.slot
  fs.stageUnnamed node inode
  fs.writeInode parent parentInode

/-- `prevent_cycle`: the walk from the directory up, for at most so many steps. -/
def preventCycle (source : UInt64) : ℕ → UInt64 → Outcome Error Unit
  | 0, _ => fail .corruptVolume
  | steps + 1, cursor => do
    rejectIf (cursor = source) .directoryCycle
    if cursor = rootInode then return ()
    else do
      let inode ← fs.readAllocatedInode cursor
      rejectIf (inode.kind ≠ .directory) .notDirectory
      preventCycle source steps inode.parentInode

def totalInodes : ℕ := fs.groups.length * phase2InodesPerGroup

/-- `rename`: the entry that is replaced, if there is one, with the inode of the directory
afterwards. -/
def stageReplace (source : Inode) (sourceNode : UInt64) (directory : UInt64) (inode : Inode)
    (name : List UInt8) : StageM Inode := do
  match ← fs.observe (·.findEntry directory inode name) with
  | none => pure inode
  | some found => do
    liftStage (rejectIf (found.entry.inode = sourceNode) .alreadyExists)
    let target ← fs.observe (·.readAllocatedInode found.entry.inode)
    liftStage (rejectIf (source.kind = .directory ∧ target.kind ≠ .directory) .notDirectory)
    liftStage (rejectIf (source.kind ≠ .directory ∧ target.kind = .directory) .isDirectory)
    liftStage (rejectIf (target.kind = .directory ∧ target.directoryEntryCount ≠ 0)
      .directoryNotEmpty)
    let inode ← fs.clearEntry directory inode found.logical found.slot
    fs.freeInodeAndBlocks found.entry.inode target
    pure inode

/-- `rename`: the changes; the result says whether there are any. -/
def stageRename (oldParent : UInt64) (oldName : List UInt8) (newParent : UInt64)
    (newName : List UInt8) : StageM Bool := do
  let oldName ← liftStage (validName oldName)
  let newName ← liftStage (validName newName)
  let oldDir ← fs.observe (·.readAllocatedInode oldParent)
  let found ← fs.observe (·.findEntry oldParent oldDir oldName.1)
  let found ← liftStage (okOr found .notFound)
  let sourceNode := found.entry.inode
  let source ← fs.observe (·.readAllocatedInode sourceNode)
  onlyIf (source.kind = .directory)
    (fs.observe (·.preventCycle sourceNode (fs.totalInodes + 1) newParent))
  if oldParent = newParent ∧ oldName = newName then return false
  else if oldParent = newParent then do
    let oldDir ← fs.stageReplace source sourceNode oldParent oldDir newName.1
    let oldDir ← fs.clearEntry oldParent oldDir found.logical found.slot
    let oldDir ← fs.insertEntry oldParent oldDir newName sourceNode source
    fs.writeInode oldParent oldDir
    return true
  else do
    let newDir ← fs.observe (·.readAllocatedInode newParent)
    liftStage (rejectIf (newDir.kind ≠ .directory) .notDirectory)
    let newDir ← fs.stageReplace source sourceNode newParent newDir newName.1
    let oldDir ← fs.clearEntry oldParent oldDir found.logical found.slot
    let newDir ← fs.insertEntry newParent newDir newName sourceNode source
    onlyIf (source.kind = .directory)
      (fs.writeInode sourceNode { source with parentInode := newParent })
    fs.writeInode oldParent oldDir
    fs.writeInode newParent newDir
    return true

/-- `reclaim_one_orphan`: the loop that finds the orphan before this one.  More steps than there are
inodes mean that the list is cyclic, where the loop does not end. -/
def unlinkOrphan (node next : UInt64) : ℕ → UInt64 → StageM Unit
  | 0, _ => liftStage trapped
  | steps + 1, cursor => do
    liftStage (rejectIf (cursor = 0) .corruptVolume)
    let prior ← fs.observe (·.readAllocatedInode cursor)
    let priorNext ← liftStage (ofFormat prior.orphanNext)
    if priorNext = node then fs.writeInode cursor { prior with parentInode := next }
    else unlinkOrphan node next steps priorNext

/-- `reclaim_one_orphan`: the orphan leaves the list. -/
def stageUnlist (next : UInt64) : StageM Unit := do
  let tx ← get
  if tx.state.orphanHead = node then updateState fun state => .ok { state with orphanHead := next }
  else fs.unlinkOrphan node next (fs.totalInodes + 1) tx.state.orphanHead

/-- `reclaim_one_orphan`: the changes. -/
def stageReclaim (inode : Inode) : StageM Unit := do
  let next ← liftStage (ofFormat inode.orphanNext)
  fs.stageUnlist node next
  fs.freeInodeAndBlocks node inode

end Filesystem

/-! ### Mutations -/

def startMutation : FsM Unit := do
  reading (·.ensureWritable)
  let fs ← get
  liftOutcome (rejectIf (fs.transaction.isSome = true) .transactionInProgress)
  beginTransaction

/-- `finish_mutation`: a failure drops the transaction. -/
def finishMutation {α : Type} (x : FsM α) : FsM α :=
  onError (fun fs => { fs with transaction := none }) x

/-- The staged changes of a mutation, applied to the transaction. -/
def staged {α : Type} (body : Filesystem → StageM α) : FsM α := do
  let fs ← get
  let tx ← liftOutcome (okOr fs.transaction .corruptVolume)
  let (a, tx) ← liftOutcome (body fs tx)
  set { fs with transaction := some tx }
  pure a

/-- A transaction with staged changes, committed at the end. -/
def mutation {α : Type} (body : Filesystem → StageM α) : FsM α := do
  startMutation
  finishMutation do
    let a ← staged body
    commitTransaction
    pure a

variable (parent : UInt64) (name : List UInt8) (mode : UInt16)

def createNode (kind : NodeKind) : FsM UInt64 :=
  mutation fun fs => fs.stageCreate parent name mode kind

def create : FsM UInt64 :=
  createNode parent name mode .regular

def mkdir : FsM UInt64 :=
  createNode parent name mode .directory

def truncate (node size : UInt64) : FsM Unit := mutation fun fs => fs.stageTruncate node size

def remove (directory : Bool) : FsM Unit :=
  mutation fun fs => fs.stageRemove parent name directory

def unlink : FsM Unit := remove parent name false

def rmdir : FsM Unit := remove parent name true

def rename (oldParent : UInt64) (oldName : List UInt8) (newParent : UInt64) (newName : List UInt8) :
    FsM Unit := do
  startMutation
  finishMutation do
    if ← staged fun fs => fs.stageRename oldParent oldName newParent newName then commitTransaction
    else modify fun fs => { fs with transaction := none }

/-- A failure becomes a value, with the transaction dropped; a trap does not. -/
def attempt {α : Type} (x : FsM α) : FsM (Except Error α) := fun fs =>
  match x fs with
  | .ok a fs => .ok (.ok a) fs
  | .error (.err e) fs => .ok (.error e) { fs with transaction := none }
  | .error .trap fs => .error .trap fs

/-- `write_chunk`, with the transaction begun. -/
def writeChunk (node : UInt64) (offset : ℕ) (input : List UInt8) : FsM ℕ := do
  let consumed ← staged fun fs => fs.stageWrite node offset input
  commitTransaction
  pure consumed

/-- `write`: how much of the input goes into one transaction.  The state, a block of the inode table
and two bitmaps have to fit as well. -/
def chunkLength (fs : Filesystem) (offset length : ℕ) : Outcome Error ℕ := do
  let dataBudget ← okOr (checkedSub fs.superblock.journalMaxUpdates.toNat 4) .transactionTooLarge
  let capacity ← okOr (checkedSub (dataBudget * blockSize) (offset % blockSize)) .transactionTooLarge
  return min length capacity

/-- `write`: the loop over the chunks, with `committed` bytes written.  A chunk of which nothing is
written would make it run forever. -/
def writeFrom (node : UInt64) (offset : ℕ) (input : List UInt8) (committed : ℕ) : FsM ℕ :=
  if committed < input.length then do
    let chunkOffset ← liftOutcome (okOr (checkedAdd 64 offset committed) .arithmeticOverflow)
    let chunk ← reading (chunkLength · chunkOffset (input.length - committed))
    startMutation
    match ← attempt (writeChunk node chunkOffset ((input.drop committed).take chunk)) with
    | .ok count =>
      if 0 < count then writeFrom node offset input (committed + count)
      else liftOutcome trapped
    | .error error => if committed = 0 then liftOutcome (fail error) else pure committed
  else pure committed
termination_by input.length - committed

def write (node : UInt64) (offset : ℕ) (input : List UInt8) : FsM ℕ := do
  reading (·.ensureWritable)
  if input = [] then pure 0 else writeFrom node offset input 0

/-! ### Open handles and orphans -/

def reclaimOneOrphan (node : UInt64) (inode : Inode) : FsM Unit :=
  mutation fun fs => fs.stageReclaim node inode

/-- `reclaim_orphans`: the walk over the orphan list, with the inodes seen so far.  An inode that
was seen before stops it, so there are at most as many steps as inodes, and one more. -/
def Filesystem.orphanList (fs : Filesystem) : ℕ → List UInt64 → UInt64 → Outcome Error (List UInt64)
  | 0, _, _ => trapped
  | steps + 1, seen, cursor =>
    if cursor = 0 then return seen
    else do
      rejectIf (cursor ∈ seen) .corruptVolume
      let inode ← fs.readAllocatedInode cursor
      ofFormat (inode.validateWithMode .phase3Orphan)
      let next ← ofFormat inode.orphanNext
      fs.orphanList steps (seen ++ [cursor]) next

/-- `reclaim_orphans`: the loop over the orphans. -/
def reclaimAll : List UInt64 → FsM Unit
  | [] => pure ()
  | node :: rest => do
    let inode ← reading (·.readAllocatedInode node)
    reclaimOneOrphan node inode
    reclaimAll rest

def reclaimOrphans : FsM Unit := do
  let orphans ← reading fun fs => do
    let state ← okOr fs.state .corruptVolume
    fs.orphanList (fs.totalInodes + 2) [] state.orphanHead
  reclaimAll orphans

def openNode (node : UInt64) : FsM OpenHandle := do
  let inode ← reading (·.readAllocatedInode node)
  liftOutcome (rejectIf (inode.linkCount = 0) .invalidNode)
  let fs ← get
  let handle : OpenHandle :=
    { id := fs.nextHandleId, node, generation := inode.generation, kind := inode.kind }
  let next ← liftOutcome (okOr (checkedAdd 64 fs.nextHandleId.toNat 1) .arithmeticOverflow)
  set { fs with nextHandleId := UInt64.ofNat next, openHandles := fs.openHandles ++ [handle] }
  pure handle

def Filesystem.validateHandle (fs : Filesystem) (handle : OpenHandle) : Outcome Error UInt64 := do
  let record ← okOr (fs.openHandles.find? (·.id = handle.id)) .invalidHandle
  rejectIf (record ≠ handle) .invalidHandle
  let inode ← fs.readAllocatedInode handle.node
  rejectIf (inode.generation ≠ handle.generation ∨ inode.kind ≠ handle.kind) .invalidHandle
  return handle.node

variable (handle : OpenHandle)

def writeHandle (offset : ℕ) (input : List UInt8) : FsM ℕ := do
  let node ← reading (·.validateHandle handle)
  write node offset input

/-- `swap_remove`: the last element takes the place of the removed one. -/
def swapRemove {α : Type} (as : List α) (position : ℕ) : List α :=
  match as.getLast? with
  | none => []
  | some last => (as.set position last).dropLast

/-- `close_node`: the last handle of an unlinked file is gone. -/
def reclaimClosed : FsM Unit := do
  let inode ← reading (·.readAllocatedInode handle.node)
  if inode.generation = handle.generation ∧ inode.linkCount = 0 then
    reclaimOneOrphan handle.node inode
  else pure ()

def closeNode : FsM Unit := do
  let fs ← get
  let position ← liftOutcome
    (okOr (fs.openHandles.findIdx? (·.id = handle.id)) .invalidHandle)
  liftOutcome (rejectIf (fs.openHandles[position]? ≠ some handle) .invalidHandle)
  let fs := { fs with openHandles := swapRemove fs.openHandles position }
  set fs
  if fs.isOpen handle.node handle.generation = true then pure ()
  else onError (fun fs => { fs with openHandles := fs.openHandles ++ [handle] }) (reclaimClosed handle)

end NullFS
