/-
**A volume is marked dirty before it is changed.**

A mount for writing marks both superblocks dirty, and a clean unmount marks them clean.  The question
is whether any other block is written while the superblock that a mount would select is clean.  It is
not, in runs that mount a clean volume only when there is nothing to recover on it, and that leave a
volume alone once it has been unmounted.  Without these conditions it is: recovery, the reclamation of
orphans and the initialization of the free counts all come before the superblocks are marked dirty.

* `dirtyBeforeWrites_of_cautious` — runs of cautious events;
* `not_dirtyBeforeWrites_replay` — a mount that replays the journal of a clean volume.
-/

import NullStar.Effects

set_option autoImplicit false

namespace NullFS

open Bytes Rust Storage Hoare Superblock List Function Triple Filesystem Keeps JournalControl Machine

/-! ### The superblock a mount selects -/

/-- The superblock that `discover_mount_metadata` selects from the given contents. -/
def selectedSuperblock (blockCount : ℕ) (contents : ℕ → Block) : Outcome Error Superblock :=
  discoverSuperblock { blockCount, durable := contents }

/-- The superblock a mount would select has state dirty. -/
def DirtyContents (blockCount : ℕ) (contents : ℕ → Block) : Prop :=
  ∃ sb, selectedSuperblock blockCount contents = .ok sb ∧ sb.state = .dirty

/-- The device is marked dirty. -/
def MarkedDirty (device : Device Block) : Prop := DirtyContents device.blockCount device.contents

/-- Whenever a block other than the superblocks was written, the device was marked dirty. -/
def DirtyBeforeWrites (device : Device Block) : Prop :=
  ∀ entry ∈ device.history, entry.1.block ≠ superblockBlock →
    entry.1.block ≠ phase3BackupSuperblockBlock → DirtyContents device.blockCount entry.2

section

variable {block blockCount : ℕ} {sb : Superblock} {c : (ℕ → Block) → Prop} {fs : Filesystem}
  {device device' : Device Block} {w : BlockWrite Block} {groups : List AllocationGroupDescriptor}
  {mode : RuntimeMountMode} {I : Filesystem → Prop} {world : World}

theorem readSuperblock_congr (hc : device'.crashed = device.crashed)
    (hn : device'.blockCount = device.blockCount) (hb : device'.contents block = device.contents block) :
    readSuperblock device' block = readSuperblock device block := by
  unfold readSuperblock readBlocks Device.read
  rw [hc, hn, hb]

/-- The selection looks at the two superblocks only. -/
theorem discoverSuperblock_congr (hc : device'.crashed = device.crashed)
    (hn : device'.blockCount = device.blockCount)
    (hp : device'.contents superblockBlock = device.contents superblockBlock)
    (hb : device'.contents phase3BackupSuperblockBlock = device.contents phase3BackupSuperblockBlock) :
    discoverSuperblock device' = discoverSuperblock device := by
  unfold discoverSuperblock
  rw [readSuperblock_congr hc hn hp, readSuperblock_congr hc hn hb, hn]

theorem DirtyContents.congr {contents contents' : ℕ → Block} (h : DirtyContents blockCount contents)
    (hp : contents' superblockBlock = contents superblockBlock)
    (hb : contents' phase3BackupSuperblockBlock = contents phase3BackupSuperblockBlock) :
    DirtyContents blockCount contents' := by
  obtain ⟨sb, hs, hd⟩ := h
  refine ⟨sb, ?_, hd⟩
  rw [← hs]
  exact discoverSuperblock_congr rfl rfl hp hb

theorem discoverSuperblock_of_not_crashed (h : device.crashed = false) :
    discoverSuperblock device = selectedSuperblock device.blockCount device.contents :=
  discoverSuperblock_congr h rfl rfl rfl

/-- A superblock of a Phase 3 volume that fits on the device. -/
structure ValidSuperblock (blockCount : ℕ) (sb : Superblock) : Prop where
  built : sb.Built
  valid : sb.validate (some (blockCount * blockSize)) .readOnly = .ok ()
  fits : blockCount * blockSize < 2 ^ 64

theorem ValidSuperblock.capacity_le (h : ValidSuperblock blockCount sb) :
    sb.capacityBlocks.toNat ≤ blockCount := by
  have hc := capacity_le_of_validate h.valid
  rwa [Nat.mul_div_cancel _ (by decide)] at hc

theorem Superblock.validate_withState (sb : Superblock) (state : VolumeState) (deviceBytes : Option ℕ) :
    { sb with state }.validate deviceBytes .readOnly = sb.validate deviceBytes .readOnly := by
  rfl

theorem ValidSuperblock.withState (h : ValidSuperblock blockCount sb) (state : VolumeState) :
    ValidSuperblock blockCount { sb with state } where
  built := .assign h.built rfl rfl
  valid := by
    exact h.valid
  fits := h.fits

theorem readSuperblock_valid (hmax : device.blockCount * blockSize < 2 ^ 64)
    (h : readSuperblock device block = .ok (some sb)) : ValidSuperblock device.blockCount sb := by
  simp only [readSuperblock, bind_eq_ok] at h
  obtain ⟨bytes, -, h⟩ := h
  split at h
  case h_1 found hd =>
    cases h
    exact ⟨.decode hd, (decode_eq_ok.1 hd).2.2.2.2, hmax⟩
  case h_2 => cases h

theorem discoverSuperblock_valid (h : discoverSuperblock device = .ok sb) :
    ValidSuperblock device.blockCount sb := by
  simp only [discoverSuperblock, bind_eq_ok] at h
  obtain ⟨_, hmax, primary, hp, backup, hb, h⟩ := h
  rw [rejectIf_eq_ok, Nat.not_le] at hmax
  have hselect : selectSuperblock primary backup = .ok sb → ValidSuperblock device.blockCount sb := by
    intro hs
    cases primary with
    | none =>
      cases backup with
      | none => cases hs
      | some =>
        obtain ⟨-, rfl⟩ := ite_fail_eq_ok.1 hs
        exact readSuperblock_valid hmax hb
    | some =>
      have hvalid := readSuperblock_valid hmax hp
      cases backup with
      | none =>
        obtain ⟨-, rfl⟩ := ite_fail_eq_ok.1 hs
        exact hvalid
      | some =>
        simp only [selectSuperblock] at hs
        split at hs
        · cases hs
          exact hvalid
        · obtain ⟨-, rfl⟩ := ite_fail_eq_ok.1 hs
          split
          · exact hvalid.withState .dirty
          · exact hvalid
  cases primary with
  | none => exact hselect h
  | some =>
    simp only at h
    split at h
    · cases h
      exact readSuperblock_valid hmax hp
    · exact hselect h

/-! ### The condition on a mounted volume -/

/-- A write while the device is marked dirty, or of a superblock. -/
theorem DirtyBeforeWrites.push (h : DirtyBeforeWrites device) (fuel : Option ℕ)
    (hw : w.block ≠ superblockBlock → w.block ≠ phase3BackupSuperblockBlock → MarkedDirty device) :
    DirtyBeforeWrites ({ device with fuel }.push w) := by
  intro entry he hp hb
  rcases mem_cons.1 he with rfl | he
  · exact hw hp hb
  · exact h entry he hp hb

/-- A write behind the superblocks leaves the device marked. -/
theorem MarkedDirty.push (h : MarkedDirty device) (fuel : Option ℕ)
    (hw : 19 ≤ w.block) : MarkedDirty ({ device with fuel }.push w) := by
  refine h.congr ?_ ?_
  · exact update_of_ne (by simp only [superblockBlock, reservedBootBytes, blockSize]; omega) _ _
  · exact update_of_ne (by simp only [phase3BackupSuperblockBlock]; omega) _ _

/-- A volume on which writing is safe: it is mounted for reading only, or marked dirty. -/
structure Guarded (fs : Filesystem) : Prop where
  writes : DirtyBeforeWrites fs.device
  valid : fs.mountMode = .readWrite → ValidSuperblock fs.device.blockCount fs.superblock
  phase3 : fs.mountMode = .readWrite → fs.superblock.phase3Enabled = true
  state : fs.mountMode = .readWrite → fs.superblock.state = .dirty
  marked : fs.mountMode = .readWrite → MarkedDirty fs.device

theorem Guarded.congr : MountInvariant Guarded := fun h hs =>
  ⟨hs.device ▸ h.writes, hs.mountMode ▸ hs.device ▸ hs.superblock ▸ h.valid,
    hs.mountMode ▸ hs.superblock ▸ h.phase3, hs.mountMode ▸ hs.superblock ▸ h.state,
    hs.mountMode ▸ hs.device ▸ h.marked⟩

theorem writeInvariant_guarded : WriteInvariant Guarded where
  session h hs := h.congr hs.toSameMount
  congr := .congr
  phase3 h hm := phase3_of_validate (h.valid hm).valid (h.phase3 hm)
  write {fs} w h hm hb := by
    rcases fs.device.attempt_cases (·.push w) with ⟨crashed, hd⟩ | ⟨fuel, hd⟩
    · rw [Device.write, hd]
      exact { h with }
    · rw [Device.write, hd]
      exact ⟨h.writes.push fuel fun _ _ => h.marked hm, h.valid, h.phase3, h.state,
        fun hm => (h.marked hm).push fuel hb⟩
  flush {fs} h hm := by
    rcases fs.device.attempt_cases .settle with ⟨crashed, hd⟩ | ⟨fuel, hd⟩
    · rw [Device.flush, hd]
      exact { h with }
    · rw [Device.flush, hd]
      exact { h with }

/-! ### Writing the superblocks -/

/-- Both superblocks hold the same valid superblock. -/
theorem selectedSuperblock_of_both {contents : ℕ → Block} {b : Block}
    (hv : ValidSuperblock blockCount sb) (hp : sb.phase3Enabled = true) (he : sb.encode = .ok b)
    (h16 : contents superblockBlock = b) (h18 : contents phase3BackupSuperblockBlock = b) :
    selectedSuperblock blockCount contents = .ok sb := by
  have hdecode := decode_encode hv.built he hv.valid
  have hmax := hv.fits
  have hcap := (phase3_of_validate hv.valid hp).capacity
  have hn := hv.capacity_le
  have hsmall : blockCount < 2 ^ 64 := lt_of_le_of_lt (Nat.le_mul_of_pos_right _ (by decide)) hmax
  have hread : ∀ block, block < 19 → contents block = b →
      readSuperblock { blockCount, durable := contents } block = .ok (some sb) := by
    intro block hlt hb
    have hblocks : readBlocks { blockCount, durable := contents } block = .ok b := by
      rw [← hb]
      exact readBlocks_of_lt rfl (by change block < blockCount; omega) hsmall
    rw [readSuperblock, hblocks, ok_bind]
    simp only [hdecode]
    rfl
  rw [selectedSuperblock, discoverSuperblock, rejectIf_of_not (Nat.not_le.2 hmax),
    hread _ (by decide) h16, hread _ (by decide) h18]
  simp [selectSuperblock]

/-- A volume while its superblocks are written: the parts of the volume that stay the same, with a
condition on the contents of the device. -/
structure Publishing (fs : Filesystem) (c : (ℕ → Block) → Prop) (fs' : Filesystem) : Prop where
  writes : DirtyBeforeWrites fs'.device
  blockCount : fs'.device.blockCount = fs.device.blockCount
  superblock : fs'.superblock = fs.superblock
  mountMode : fs'.mountMode = fs.mountMode
  transaction : fs'.transaction = fs.transaction
  contents : c fs'.device.contents

theorem Publishing.forget {fs' : Filesystem} (h : Publishing fs c fs') : Publishing fs (fun _ => True) fs' :=
  { h with contents := trivial }

theorem triple_writeBlocks_publishing (image : Block)
    (hb : block = superblockBlock ∨ block = phase3BackupSuperblockBlock) :
    Triple (Publishing fs c) (writeBlocks block image) (fun _ => Publishing fs fun contents =>
        ∃ before, c before ∧ contents = update before block image)
      (fun _ => Publishing fs fun _ => True) := by
  intro fs' h
  rcases writeBlocks_cases block image fs' with ⟨e, crashed, hr⟩ | ⟨fuel, hr⟩
  · rw [hr]
    exact { h.forget with }
  · rw [hr]
    refine ⟨h.writes.push fuel fun hp hb' => ?_, h.blockCount, h.superblock, h.mountMode,
      h.transaction, fs'.device.contents, h.contents, rfl⟩
    rcases hb with hb | hb
    · exact absurd hb hp
    · exact absurd hb hb'

theorem triple_flushDevice_publishing : Triple (Publishing fs c) flushDevice (fun _ => Publishing fs c)
      (fun _ => Publishing fs fun _ => True) := by
  intro fs' h
  rcases flushDevice_cases fs' with ⟨e, crashed, hr⟩ | ⟨fuel, hr⟩
  · rw [hr]
    exact { h.forget with }
  · rw [hr]
    exact { h with }

/-- Writing the superblocks: when it succeeds, a mount would select the new superblock. -/
theorem post_writeSuperblocks (state : VolumeState) (hw : DirtyBeforeWrites fs.device)
    (hv : ValidSuperblock fs.device.blockCount fs.superblock) (hp : fs.superblock.phase3Enabled = true) :
    Post (fun _ => Publishing { fs with superblock := { fs.superblock with state } } fun contents =>
        selectedSuperblock fs.device.blockCount contents = .ok { fs.superblock with state })
      (fun _ => Publishing { fs with superblock := { fs.superblock with state } } fun _ => True)
      (writeSuperblocks state fs) := by
  have hbackup := (phase3_of_validate hv.valid hp).backup
  have hv' := hv.withState state
  refine triple_lift_bind
    (fun _ _ h => h) (fun encoded he => ?_) _ ⟨hw, rfl, rfl, rfl, rfl, trivial⟩
  rw [ofFormat_eq_ok] at he
  refine onError (E := fun _ => Publishing _ fun _ => True) ?_ fun _ _ h => { h with }
  refine (triple_writeBlocks_publishing encoded (.inr hbackup)).bind fun _ => ?_
  refine triple_flushDevice_publishing.bind fun _ => ?_
  refine (triple_writeBlocks_publishing encoded (.inl rfl)).bind fun _ => ?_
  refine triple_flushDevice_publishing.imp_ok fun _ fs' h => ?_
  obtain ⟨_, ⟨before, -, rfl⟩, hc⟩ := h.contents
  refine { h with contents := selectedSuperblock_of_both hv' hp he ?_ ?_ }
  · rw [hc, update_self]
  · rw [hc, update_of_ne (by decide), hbackup]
    exact update_self _ _ _

/-! ### Mounting -/

/-- There is nothing to do for a mount before it marks the volume dirty: the journal is empty, there
are no orphans, and the free counts are known. -/
structure Settled (device : Device Block) (sb : Superblock) : Prop where
  journal : ∀ {control slot}, (Filesystem.unrecovered device sb [] .readWrite).selectControl =
    .ok (control, slot) → control.state = .empty
  orphans : ∀ {bytes state}, readBlocks device sb.filesystemStateBlock.toNat = .ok bytes →
    FilesystemState.decode bytes.1 = .ok state → state.orphanHead = 0
  counts : ∀ {bytes state}, readBlocks device sb.filesystemStateBlock.toNat = .ok bytes →
    FilesystemState.decode bytes.1 = .ok state → state.freeBlockCount ≠ 0 ∨ state.freeInodeCount ≠ 0

/-- A volume being mounted for which nothing has been written, with a condition on its state. -/
structure Untouched (device : Device Block) (sb : Superblock) (c : Option FilesystemState → Prop)
    (fs : Filesystem) : Prop where
  device : fs.device = device
  superblock : fs.superblock = sb
  mountMode : fs.mountMode = .readWrite
  state : c fs.state

theorem Untouched.forget {c : Option FilesystemState → Prop} (h : Untouched device sb c fs) :
    Untouched device sb (fun _ => True) fs := { h with state := trivial }

section

variable {sb : Superblock}

theorem triple_recoverJournal_settled (h : Settled device sb) :
    Triple (Untouched device sb (· = none)) recoverJournal
      (fun _ => Untouched device sb (· = none)) (fun _ => Untouched device sb (· = none)) := by
  refine triple_reading_bind (fun _ _ h => h) fun ⟨control, slot⟩ => ?_
  intro fs ⟨hs, hfs⟩
  have hempty : control.state = .empty := by
    apply @Settled.journal _ _ h control slot
    rw [← hs]
    exact selectControl_congr hfs.device.symm hfs.superblock.symm
  refine bind
    (Q := fun _ => Untouched device sb (· = none))
    (.update (fun _ h => { h with }))
    (fun _ => ?_) fs hfs
  rw [if_pos hempty]
  exact pure fun _ h => h

/-- The state on the disk, if the volume is settled. -/
def SettledState (state : Option FilesystemState) : Prop :=
  ∃ st, state = some st ∧ st.orphanHead = 0 ∧ (st.freeBlockCount ≠ 0 ∨ st.freeInodeCount ≠ 0)

theorem triple_readState_settled (h : Settled device sb) :
    Triple (Untouched device sb fun _ => True) readState
      (fun _ => Untouched device sb SettledState) (fun _ => Untouched device sb fun _ => True) := by
  refine get_bind fun fs hfs => ?_
  refine triple_lift_bind (fun _ _ h => h ▸ hfs) fun bytes hbytes => ?_
  refine triple_lift_bind (fun _ _ h => h ▸ hfs) fun state hstate => ?_
  rw [hfs.device, hfs.superblock] at hbytes
  rw [ofFormat_eq_ok] at hstate
  exact put ⟨hfs.device, hfs.superblock, hfs.mountMode, state, rfl,
    h.orphans hbytes hstate, h.counts hbytes hstate⟩

theorem triple_reclaimOrphans_settled : Triple (Untouched device sb SettledState) reclaimOrphans
      (fun _ => Untouched device sb SettledState) (fun _ => Untouched device sb fun _ => True) := by
  refine triple_reading_bind (fun _ _ h => h.forget) fun orphans => ?_
  intro fs ⟨hs, hfs⟩
  obtain ⟨st, hst, hhead, -⟩ := hfs.state
  have hnone : orphans = [] := by
    rw [hst, okOr_some, ok_bind, hhead] at hs
    cases hs
    rfl
  rw [hnone]
  exact hfs

theorem triple_recoverVolume_settled (h : Settled device sb) :
    Triple (Untouched device sb (· = none)) recoverVolume
      (fun _ => Untouched device sb SettledState) (fun _ => Untouched device sb fun _ => True) := by
  refine bind ((triple_recoverJournal_settled h).imp_error fun _ _ h => h.forget) fun _ => ?_
  refine get_bind fun fs hfs => ?_
  refine bind (Q := fun _ => Untouched device sb SettledState) ?_ fun _ => ?_
  · rw [onlyIf, if_pos (by rw [hfs.state]; rfl)]
    exact (triple_readState_settled h).mono (fun _ hs => hs ▸ hfs.forget) (fun _ _ h => h)
      (fun _ _ h => h)
  · refine get_bind fun fs' hfs' => ?_
    rw [if_pos hfs'.mountMode]
    exact triple_reclaimOrphans_settled.mono (fun _ h => h ▸ hfs') (fun _ _ h => h) (fun _ _ h => h)

theorem triple_initializeFreeCounts_settled : Triple (Untouched device sb SettledState) initializeFreeCounts
      (fun _ => Untouched device sb SettledState) (fun _ => Untouched device sb fun _ => True) := by
  refine get_bind fun fs hfs => ?_
  refine triple_lift_bind (fun _ _ h => h ▸ hfs.forget) fun state hstate => ?_
  obtain ⟨st, hst, -, hcounts⟩ := hfs.state
  rw [hst] at hstate
  cases hstate
  rw [if_pos hcounts]
  exact pure fun _ h => h ▸ hfs

end

/-- Marking the volume dirty makes it safe to write. -/
theorem post_markDirty (hw : DirtyBeforeWrites fs.device)
    (hv : ValidSuperblock fs.device.blockCount fs.superblock) (hp : fs.superblock.phase3Enabled = true) :
    Post (fun _ => Guarded) (fun _ fs' => DirtyBeforeWrites fs'.device) (writeSuperblocks .dirty fs) := by
  refine (post_writeSuperblocks .dirty hw hv hp).imp (fun _ fs' h => ?_) fun _ _ h => h.writes
  have hstate : fs'.superblock.state = .dirty := by rw [h.superblock]
  refine ⟨h.writes, fun _ => ?_, fun _ => ?_, fun _ => hstate, fun _ => ⟨fs'.superblock, ?_, hstate⟩⟩
  · rw [h.blockCount, h.superblock]
    exact hv.withState .dirty
  · rw [h.superblock]
    exact hp
  · rw [h.blockCount, h.superblock]
    exact h.contents

theorem discoverSuperblock_not_crashed (h : discoverSuperblock device = .ok sb) : device.crashed = false := by
  by_contra hc
  rw [Bool.not_eq_false] at hc
  simp [discoverSuperblock, readSuperblock, readBlocks, Device.read, hc, bind_eq_ok] at h

/-- What a mount starts from. -/
theorem discoverMountMetadata_eq_ok (h : discoverMountMetadata device mode = .ok (sb, groups)) :
    discoverSuperblock device = .ok sb ∧ (mode = .readWrite → sb.phase3Enabled = true) := by
  simp only [discoverMountMetadata, run_eq_ok, not_and, Bool.not_eq_false] at h
  obtain ⟨found, hd, -, hp, _, -, -, rfl, -⟩ := h
  exact ⟨hd, hp⟩

/-- A mount for reading only, or of a volume that is marked dirty. -/
theorem post_finishMount_guarded (h : Guarded fs) :
    Post (fun _ => Guarded) (fun _ fs' => DirtyBeforeWrites fs'.device) (finishMount fs) := by
  refine (Triple.get_bind fun fs' hfs' => ?_) fs h
  refine mono (P := fun s => Guarded s ∧ s.mountMode = fs'.mountMode) ?_
    (by rintro _ rfl; exact ⟨hfs', rfl⟩) (fun _ _ h => h) (fun _ _ h => h)
  have hI := writeInvariant_guarded.mounted fs'.mountMode
  have hkeep : Keeps (fun s => Guarded s ∧ s.mountMode = fs'.mountMode) (do
      onlyIf (fs'.superblock.phase3Enabled = true) recoverVolume
      reading (·.validateVolume)
      onlyIf (fs'.superblock.phase3Enabled = true) initializeFreeCounts) :=
    (keeps_onlyIf fun _ => keeps_recoverVolume hI).bind fun _ => keeps_reading.bind fun _ =>
      keeps_onlyIf fun _ => keeps_initializeFreeCounts hI
  have hlast : Triple (fun s => Guarded s ∧ s.mountMode = fs'.mountMode)
      (onlyIf (fs'.mountMode = .readWrite) (writeSuperblocks .dirty)) (fun _ => Guarded)
      (fun _ s => DirtyBeforeWrites s.device) := by
    unfold onlyIf
    split
    case isTrue hm =>
      intro s ⟨hs, hsm⟩
      rw [hm] at hsm
      exact post_markDirty hs.writes (hs.valid hsm) (hs.phase3 hsm)
    case isFalse => exact pure fun _ h => h.1
  have hrun := bind
    (mono hkeep (fun _ h => h) (fun _ _ h => h) fun _ _ h => h.1.writes) fun _ => hlast
  simpa only [bind_assoc] using hrun

/-- A mount for writing of a volume on which there is nothing to recover. -/
theorem post_finishMount_settled (hs : Settled device sb)
    (hw : DirtyBeforeWrites device) (hv : ValidSuperblock device.blockCount sb)
    (hp : sb.phase3Enabled = true) : Post (fun _ => Guarded) (fun _ fs' => DirtyBeforeWrites fs'.device)
      (finishMount (.unrecovered device sb groups .readWrite)) := by
  have hdone : ∀ {c : Option FilesystemState → Prop} {fs : Filesystem}, Untouched device sb c fs →
      DirtyBeforeWrites fs.device := by
    intro c fs h
    rw [h.device]
    exact hw
  have hstart : Untouched device sb (· = none) (.unrecovered device sb groups .readWrite) :=
    ⟨rfl, rfl, rfl, rfl⟩
  refine (get_bind (P := (· = .unrecovered device sb groups .readWrite)) fun fs hfs => ?_) _ rfl
  have hphase : fs.superblock.phase3Enabled = true := by rw [hfs]; exact hp
  have hmode : fs.mountMode = .readWrite := by rw [hfs]; rfl
  rw [onlyIf, onlyIf, onlyIf, if_pos hphase, if_pos hphase, if_pos hmode]
  refine bind ((triple_recoverVolume_settled hs).mono
    (fun _ h => by rw [h, hfs]; exact hstart) (fun _ _ h => h) fun _ _ h => hdone h) fun _ => ?_
  refine triple_reading_bind (fun _ _ h => hdone h) fun _ => ?_
  refine bind (triple_initializeFreeCounts_settled.mono (fun _ h => h.2) (fun _ _ h => h)
    fun _ _ h => hdone h) fun _ => ?_
  intro fs' h
  refine post_markDirty (hdone h) ?_ ?_
  · rw [h.device, h.superblock]
    exact hv
  · rw [h.superblock]
    exact hp

/-! ### Unmounting -/

/-- A mounted volume in a run: it is marked dirty, or else there is no transaction. -/
structure Sound (fs : Filesystem) : Prop where
  writes : DirtyBeforeWrites fs.device
  valid : fs.mountMode = .readWrite → ValidSuperblock fs.device.blockCount fs.superblock
  phase3 : fs.mountMode = .readWrite → fs.superblock.phase3Enabled = true
  marked : fs.mountMode = .readWrite → fs.superblock.state = .dirty → MarkedDirty fs.device
  idle : fs.mountMode = .readWrite → fs.superblock.state ≠ .dirty → fs.transaction = none

theorem Guarded.sound (h : Guarded fs) : Sound fs :=
  ⟨h.writes, h.valid, h.phase3, fun hm _ => h.marked hm, fun hm hs => absurd (h.state hm) hs⟩

theorem Sound.guarded (h : Sound fs) (hs : fs.mountMode = .readOnly ∨ fs.superblock.state = .dirty) :
    Guarded fs where
  writes := h.writes
  valid := h.valid
  phase3 := h.phase3
  state hm := by
    rcases hs with hs | hs
    · rw [hm] at hs
      cases hs
    · exact hs
  marked hm := by
    rcases hs with hs | hs
    · rw [hm] at hs
      cases hs
    · exact h.marked hm hs

/-- A volume that is not marked dirty, and has no transaction. -/
theorem Publishing.sound {fs' : Filesystem} (h : Publishing fs c fs')
    (hv : ValidSuperblock fs.device.blockCount fs.superblock) (hp : fs.superblock.phase3Enabled = true)
    (hd : fs.superblock.state ≠ .dirty) (ht : fs.transaction = none) : Sound fs' := by
  refine ⟨h.writes, fun _ => ?_, fun _ => ?_, fun _ hs => ?_, fun _ _ => h.transaction.trans ht⟩
  · rw [h.blockCount, h.superblock]
    exact hv
  · rw [h.superblock]
    exact hp
  · rw [h.superblock] at hs
    exact absurd hs hd

/-- Marking a volume clean when there is no transaction. -/
theorem post_markClean (hw : DirtyBeforeWrites fs.device)
    (hv : ValidSuperblock fs.device.blockCount fs.superblock)
    (hp : fs.superblock.phase3Enabled = true) (ht : fs.transaction = none) :
    Post (fun _ => Sound) (fun _ => Sound) (writeSuperblocks .clean fs) := by
  have hv' := hv.withState .clean
  exact (post_writeSuperblocks .clean hw hv hp).imp (fun _ _ h => h.sound hv' hp (by simp) ht)
    fun _ _ h => h.sound hv' hp (by simp) ht

theorem keeps_recoverPoisoned (hI : WriteInvariant I) : Keeps I recoverPoisoned := by
  refine bind (update (fun _ h => hI.congr h ⟨rfl, rfl, rfl⟩)) fun _ => ?_
  refine keeps_poisonOnError hI.toJournalInvariant ?_
  refine bind (update (fun _ h => hI.congr h ⟨rfl, rfl, rfl⟩)) fun _ => ?_
  exact (keeps_recoverJournal hI).bind fun _ => (keeps_readState hI.congr).bind fun _ =>
    (keeps_reclaimOrphans hI).bind fun _ => keeps_reading

/-- After a successful `sync` there is no transaction. -/
theorem triple_sync (hI : WriteInvariant I) :
    Triple I sync (fun _ fs => I fs ∧ fs.transaction = none) (fun _ => I) := by
  refine triple_reading_bind (fun _ _ h => h) fun _ => ?_
  refine mono (P := Writable I) (Q := fun _ fs => Writable I fs ∧ fs.transaction = none)
    (E := fun _ => Writable I) ?_ ?_ (fun _ _ h => ⟨h.1.1, h.2⟩) (fun _ _ h => h.1)
  · refine (triple_commitTransaction hI.writable).bind fun _ => ?_
    refine onError (E := fun _ => Writable I) ?_ fun _ _ h =>
      hI.writable.congr h ⟨rfl, rfl, rfl⟩
    refine mono
      (keeps_flushDevice hI.toJournalInvariant.idle)
      (fun _ h => ⟨⟨h.1.1, h.2⟩, h.1.2⟩) (fun _ _ h => ⟨⟨h.1.1, h.2⟩, h.1.2⟩)
      (fun _ _ h => ⟨h.1.1, h.2⟩)
  · rintro fs ⟨hw, hfs⟩
    simp only [ensureWritable, run_eq_ok, not_not] at hw
    exact ⟨hfs, hw.2⟩

/-- Without a transaction, `sync` only flushes. -/
theorem triple_sync_idle (ht : fs.transaction = none) :
    Triple (Publishing fs c) sync (fun _ => Publishing fs fun _ => True)
      (fun _ => Publishing fs fun _ => True) := by
  refine triple_reading_bind (fun _ _ h => h.forget) fun _ => ?_
  refine bind (Q := fun _ => Publishing fs fun _ => True) ?_ fun _ => ?_
  · refine triple_reading_bind (fun _ _ h => h.2.forget) fun _ => ?_
    refine get_bind fun fs' hfs' => ?_
    rw [hfs'.2.2.transaction, ht]
    exact pure fun _ h => h ▸ hfs'.2.2.forget
  · exact triple_flushDevice_publishing.onError fun _ _ h => { h with }

/-- Unmounting a volume that is marked dirty, or on which nothing has failed. -/
theorem post_tryUnmount (h : Sound fs)
    (hc : fs.mountMode = .readOnly ∨ fs.superblock.state = .dirty ∨ fs.poisoned = false) :
    Post (fun _ => Sound) (fun _ => Sound) (tryUnmount fs) := by
  refine (get_bind (P := (· = fs)) fun fs' hfs' => ?_) fs rfl
  rw [hfs']
  split
  case isFalse => exact pure fun _ hs => hs ▸ h
  case isTrue hm =>
    by_cases hd : fs.superblock.state = .dirty
    · have hI := writeInvariant_guarded
      have hI' := hI.writable
      refine mono (P := Writable Guarded) ?_ (fun _ hs => hs ▸ ⟨h.guarded (.inr hd), hm⟩)
        (fun _ _ h => h) (fun _ _ h => h)
      refine bind (Q := fun _ => Writable Guarded) ?_ fun _ => ?_
      · exact (keeps_onlyIf fun _ => keeps_recoverPoisoned hI').imp_error fun _ _ h => h.1.sound
      · refine bind
          ((triple_sync hI').imp_error fun _ _ h => h.1.sound) fun _ => ?_
        intro fs' ⟨⟨hg, hm'⟩, ht⟩
        exact post_markClean hg.writes (hg.valid hm') (hg.phase3 hm') ht
    · have ht := h.idle hm hd
      have hpoison : ¬ fs.poisoned = true := by
        rcases hc with hc | hc | hc
        · rw [hm] at hc
          cases hc
        · exact absurd hc hd
        · simp [hc]
      have hsound {fs' : Filesystem} (hp : Publishing fs (fun _ => True) fs') : Sound fs' :=
        hp.sound (h.valid hm) (h.phase3 hm) hd ht
      rw [onlyIf, if_neg hpoison]
      refine bind (Q := fun _ => Publishing fs fun _ => True) ?_ fun _ => ?_
      · exact pure (by rintro _ rfl; exact ⟨h.writes, rfl, rfl, rfl, rfl, trivial⟩)
      · refine bind ((triple_sync_idle ht).imp_error fun _ _ h => hsound h) fun _ => ?_
        intro fs' hp
        have hs := hsound hp
        have hm' : fs'.mountMode = .readWrite := hp.mountMode.trans hm
        exact post_markClean hs.writes (hs.valid hm') (hs.phase3 hm') (hp.transaction.trans ht)

/-! ### Runs -/

/-- The condition on the events of a run: a volume that is not marked dirty is mounted for writing
only when there is nothing to recover on it, and it is not used any more after it was marked clean. -/
def Cautious : World → Event → Prop
  | .detached device, .mount .readWrite => ∀ sb, discoverSuperblock device = .ok sb →
      sb.state = .dirty ∨ Settled device sb
  | .mounted fs, .operate _ => fs.mountMode = .readOnly ∨ fs.superblock.state = .dirty
  | .mounted fs, .tryUnmount => fs.mountMode = .readOnly ∨ fs.superblock.state = .dirty ∨ fs.poisoned = false
  | _, _ => True

/-- The condition on the volumes of a run. -/
def World.Sound : World → Prop
  | .detached device => DirtyBeforeWrites device
  | .mounted fs => NullFS.Sound fs

theorem World.Sound.writes (h : world.Sound) : DirtyBeforeWrites world.device := by
  cases world with
  | detached => exact h
  | mounted => exact h.writes

theorem World.sound_after {α : Type} {r : EStateM.Result (Fault Error) Filesystem α}
    (h : Post (fun _ => NullFS.Sound) (fun _ => NullFS.Sound) r) : (World.after r).Sound := by
  match r with
  | .ok _ fs => exact h
  | .error (.err _) fs => exact h
  | .error .trap fs => exact h.writes

theorem World.sound_mount (h : DirtyBeforeWrites device) (hc : Cautious (.detached device) (.mount mode)) :
    (World.afterMount (tryMountWithMode device mode)).Sound := by
  unfold tryMountWithMode
  cases hd : discoverMountMetadata device mode with
  | error => exact h
  | ok found =>
    obtain ⟨sb, groups⟩ := found
    obtain ⟨hsb, hphase⟩ := discoverMountMetadata_eq_ok hd
    have hvalid := discoverSuperblock_valid hsb
    have hpost : Post (fun _ => Guarded) (fun _ fs' => DirtyBeforeWrites fs'.device)
        (finishMount (.unrecovered device sb groups mode)) := by
      cases mode with
      | readOnly =>
        refine post_finishMount_guarded ⟨h, ?_, ?_, ?_, ?_⟩ <;> exact fun hm => nomatch hm
      | readWrite =>
        rcases hc sb hsb with hdirty | hsettled
        · refine post_finishMount_guarded ⟨h, fun _ => hvalid, fun _ => hphase rfl,
            fun _ => hdirty, fun _ => ⟨sb, ?_, hdirty⟩⟩
          rw [← hsb]
          exact (discoverSuperblock_of_not_crashed (discoverSuperblock_not_crashed hsb)).symm
        · exact post_finishMount_settled hsettled h hvalid (hphase rfl)
    simp only
    cases hr : finishMount (.unrecovered device sb groups mode) with
    | ok =>
      rw [hr] at hpost
      exact hpost.sound
    | error =>
      rw [hr] at hpost
      exact hpost

theorem World.sound_step {event : Event} (h : world.Sound) (hp : world.Possible event)
    (hc : Cautious world event) : (world.step event).Sound := by
  cases event with
  | crash =>
    have hw := h.writes
    cases world <;> exact hw
  | mount =>
    cases world with
    | mounted => exact hp.elim
    | detached => exact World.sound_mount h hc
  | operate op =>
    cases world with
    | detached => exact hp.elim
    | mounted fs =>
      refine World.sound_after ?_
      exact mono (op.keeps writeInvariant_guarded) (fun _ h => h)
        (fun _ _ h => h.sound) (fun _ _ h => h.sound) fs (h.guarded hc)
  | tryUnmount =>
    cases world with
    | detached => exact hp.elim
    | mounted => exact World.sound_after (post_tryUnmount h hc)
  | close =>
    cases world with
    | detached => exact hp.elim
    | mounted => exact h.writes

/-- **In a run of cautious events, every block but the superblocks is written on a device that is
marked dirty.** -/
theorem dirtyBeforeWrites_of_cautious {world : World}
    (hnew : device.history = []) (hrun : Run Cautious (.detached device) world) :
    DirtyBeforeWrites world.device := by
  refine World.Sound.writes (hrun.invariant (fun _ _ => World.sound_step) ?_)
  intro entry he
  rw [hnew] at he
  cases he

/-! ### Recovery on a device that does not lose power -/

/-- The device does not lose power. -/
structure Works (device : Device Block) : Prop where
  crashed : device.crashed = false
  fuel : device.fuel = none
  small : device.blockCount < 2 ^ 64

section

variable {slot : ℕ} {image : Block} {homes : List (ℕ × Block)}
  {control : JournalControl} {updates : List (JournalTag × Block)} {recovered : FilesystemState}

theorem Works.attempt (h : Works device) (effect : Device Block → Device Block) :
    device.attempt effect = (true, effect device) := by
  rw [Device.attempt, h.crashed, if_neg (by decide), Device.tick, h.fuel]

theorem Works.writeBlocks (h : Works fs.device) (hb : block < fs.device.blockCount) (image : Block) :
    writeBlocks block image fs = .ok () { fs with device := fs.device.push { block, image } } := by
  have hsmall := h.small
  have hcheck : checkBlock fs.device block = .ok () := by
    rw [checkBlock, rejectIf_of_not (by omega), ok_bind, rejectIf_of_not (by omega)]
  rw [NullFS.writeBlocks, reading_bind, hcheck]
  simp only [deviceStep, Device.write, h.attempt]

theorem Works.flushDevice (h : Works fs.device) :
    flushDevice fs = .ok () { fs with device := fs.device.settle } := by
  simp only [NullFS.flushDevice, deviceStep, Device.flush, h.attempt]

theorem Works.writeControl (h : Works fs.device) (hencode : control.encode = .ok image)
    (hb : fs.controlBlock slot < fs.device.blockCount) : writeControl slot control fs =
      .ok () { fs with device := fs.device.push { block := fs.controlBlock slot, image } } := by
  change (liftOutcome (ofFormat control.encode) >>= NullFS.writeBlocks (fs.controlBlock slot)) fs = _
  rw [hencode]
  exact h.writeBlocks hb image

theorem encode_empty {generation : UInt64} (h : generation ≠ 0) :
    ∃ b, (JournalControl.empty generation).encode = .ok b := by
  rw [JournalControl.encode, JournalControl.validate, rejectIf_of_not (by simp [canonical, empty, h])]
  exact ⟨_, rfl⟩

/-- The device after the images were written. -/
def writeAll : List (ℕ × Block) → Device Block → Device Block
  | [], device => device
  | (block, image) :: rest, device => writeAll rest (device.push { block, image })

theorem Works.writeAll (h : Works device) (homes : List (ℕ × Block)) :
    Works (writeAll homes device) ∧ (NullFS.writeAll homes device).blockCount = device.blockCount := by
  induction homes generalizing device with
  | nil => exact ⟨h, rfl⟩
  | cons home rest ih => exact ih { h with }

theorem Works.writeHomes (h : Works fs.device) (hb : ∀ home ∈ homes, home.1 < fs.device.blockCount) :
    writeHomes homes fs = .ok () { fs with device := NullFS.writeAll homes fs.device } := by
  induction homes generalizing fs with
  | nil => rfl
  | cons home rest ih =>
    rw [forall_mem_cons] at hb
    exact bind_ok.2 ⟨_, _, h.writeBlocks hb.1 home.2, ih { h with } hb.2⟩

/-- The replay of a committed transaction, on a device that works. -/
theorem Works.recoverJournal {next : UInt64} (h : Works fs.device) (hmode : fs.mountMode = .readWrite)
    (hselect : fs.selectControl = .ok (control, slot)) (hstate : control.state ≠ .empty)
    (hread : fs.readCommitted control = .ok (updates, recovered))
    (hhomes : ∀ home ∈ homesOf updates, home.1 < fs.device.blockCount)
    (hslot : fs.controlBlock (1 - slot) < fs.device.blockCount)
    (hnext : nextGeneration control.generation = .ok next)
    (hempty : (JournalControl.empty next).encode = .ok image) :
    recoverJournal fs = .ok () { fs with
      journalGeneration := next
      olderControlSlot := slot
      device := ((NullFS.writeAll (homesOf updates) fs.device).settle.push
        { block := fs.controlBlock (1 - slot), image }).settle } := by
  obtain ⟨hafter, hcount⟩ := h.writeAll (homesOf updates)
  rw [recoverJournal_eq hmode hselect hstate, hread]
  refine bind_ok.2 ⟨_, _, Works.writeHomes h hhomes, ?_⟩
  refine bind_ok.2 ⟨_, _, hafter.flushDevice, ?_⟩
  rw [hnext]
  refine bind_ok.2 ⟨_, _, rfl, bind_ok.2 ⟨_, _,
    Works.writeControl { hafter with } hempty (hcount ▸ hslot), ?_⟩⟩
  exact bind_ok.2 ⟨_, _, Works.flushDevice { hafter with }, rfl⟩

/-- The journal holds the transaction that its control block declares committed: the tags and images
are intact and belong to it, and one of the images is the new state. -/
structure IntactJournal (fs : Filesystem) (control : JournalControl)
    (updates : List (JournalTag × Block)) (recovered : FilesystemState) : Prop where
  committed : control.state = .committed
  read : fs.readUpdates [] 0 control.updateCount.toNat = .ok updates
  tags : control.validateTags (updates.map (·.1)) = .ok ()
  state : ∃ tag image, updates.filter (·.1.targetHomeBlock = fs.superblock.filesystemStateBlock) =
    [(tag, image)] ∧ FilesystemState.decode image.1 = .ok recovered
  next : nextTransactionId control.transactionId = .ok recovered.nextTransactionId

/-- The state on the disk is not torn, and not newer than the recovered one. -/
def OlderState (fs : Filesystem) (recovered : FilesystemState) : Prop :=
  ∃ old, FilesystemState.decode
      (fs.device.contents fs.superblock.filesystemStateBlock.toNat).1 = .ok old ∧
    old.generation ≤ recovered.generation

theorem IntactJournal.readCommitted_eq_ok (hjournal : IntactJournal fs control updates recovered)
    (hvalid : ValidSuperblock fs.device.blockCount fs.superblock)
    (hphase : fs.superblock.phase3Enabled = true) (hcrashed : fs.device.crashed = false)
    (hsmall : fs.device.blockCount < 2 ^ 64) {r : List (JournalTag × Block) × FilesystemState} :
    fs.readCommitted control = .ok r ↔ OlderState fs recovered ∧ r = (updates, recovered) := by
  obtain ⟨tag, image, hfilter, hdecode⟩ := hjournal.state
  have hstate := (phase3_of_validate hvalid.valid hphase).stateBlock
  have hcapacity := (phase3_of_validate hvalid.valid hphase).capacity
  have hfits := hvalid.capacity_le
  rw [readCommitted, hjournal.read, ok_bind, hjournal.tags, recoveredState, hfilter, head?_cons, okOr_some]
  simp only [tail_cons, ne_eq, not_true_eq_false, rejectIf_of_not, not_false_eq_true, ok_bind,
    hdecode, ofFormat_ok, readBlocks_of_lt hcrashed
      (by omega : fs.superblock.filesystemStateBlock.toNat < _) hsmall,
    hjournal.next, run_eq_ok, ofFormat_eq_ok, false_or, UInt64.not_lt]
  constructor
  · rintro ⟨_, ⟨old, hold, hle, rfl⟩, rfl⟩
    exact ⟨⟨old, hold, hle⟩, rfl⟩
  · rintro ⟨⟨old, hold, hle⟩, rfl⟩
    exact ⟨recovered, ⟨old, hold, hle, rfl⟩, rfl⟩

end

/-- A mount fails when the journal is not recovered. -/
theorem mount_error {groups : List AllocationGroupDescriptor} {mode : RuntimeMountMode} {e : Fault Error}
    (hdiscover : discoverMountMetadata device mode = .ok (sb, groups)) (hphase : sb.phase3Enabled = true)
    (hrecover : recoverJournal (.unrecovered device sb groups mode) = .error e fs) :
    tryMountWithMode device mode = .error (e, fs.device) := by
  have hvolume : onlyIf (sb.phase3Enabled = true) recoverVolume (.unrecovered device sb groups mode) =
      .error e fs := by
    rw [onlyIf, if_pos hphase]
    exact bind_error.2 (.inl hrecover)
  have hfinish : finishMount (.unrecovered device sb groups mode) = .error e fs := by
    exact bind_error.2 (.inr ⟨_, _, rfl, bind_error.2 (.inl hvolume)⟩)
  rw [tryMountWithMode, hdiscover]
  simp only [hfinish]

end

/-! ### A clean volume with a committed transaction -/

namespace Replay

/-- The superblock of a volume with 256 blocks, marked clean. -/
def superblock : Superblock where
  formatMajor := 1
  formatMinor := 2
  state := .clean
  features := { incompatible := 3 }
  filesystemUuid := ⟨List.replicate 16 7, rfl⟩
  label := Buf.zero labelCapacity
  labelLength := 0
  capacityBlocks := 256
  allocationGroupBlocks := 8192
  allocationGroupCount := 1
  descriptorReservationBlocks := 1
  firstDescriptorBlock := 17
  firstAllocatableBlock := 150
  backupSuperblockBlock := 18
  filesystemStateBlock := 19
  journalFirstBlock := 20
  journalBlockCount := 130
  journalMaxUpdates := 64

/-- Its only allocation group. -/
def group : AllocationGroupDescriptor where
  groupBlockCount := 256
  blockBitmapBlock := 150
  inodeBitmapBlock := 151
  inodeTableFirstBlock := 152
  inodeTableBlockCount := 16
  inodesInGroup := 256
  firstDataBlock := 168
  dataEndBlock := 256
  rootInodeIndex := some 0

def table : AllocationGroupTable :=
  { AllocationGroupTable.new 0 1 0 1 17 with
    descriptorCount := 1
    descriptors := fun i => if i.val = 0 then group else {} }

/-- The state on the disk, and the one of the committed transaction. -/
def oldState : FilesystemState := { FilesystemState.initial with freeBlockCount := 1 }
def newState : FilesystemState := { oldState with generation := 2, nextTransactionId := 2 }

def stateImage (state : FilesystemState) : Block := FilesystemState.frame.toBlock state.fields

/-- The tag of its only update. -/
def tag : JournalTag where
  transactionId := 1
  targetHomeBlock := 19
  imageChecksum := crc32c (stateImage newState).1
  updateIndex := 0

def control : JournalControl where
  generation := 3
  transactionId := 1
  state := .committed
  updateCount := 1
  tagsDigest := tagsDigest [tag]

def contents (block : ℕ) : Block :=
  if block = 16 ∨ block = 18 then superblock.toBlock
  else if block = 17 then (match table.encode superblock with
    | .ok b => b
    | .error _ => Buf.zero blockSize)
  else if block = 19 then stateImage oldState
  else if block = 20 then JournalControl.frame.toBlock control.fields
  else if block = 22 then JournalTag.frame.toBlock tag.fields
  else if block = 86 then stateImage newState
  else Buf.zero blockSize

/-- A clean volume whose journal holds a committed transaction. -/
def device : Device Block := { blockCount := 256, durable := contents }

theorem built_superblock : superblock.Built := @Built.formatPhase3
    { deviceBytes := 1048576, uuid := ⟨replicate 16 7, rfl⟩, label := ⟨[], rfl⟩ } _
    (by decide +kernel)

theorem validate_superblock (deviceBytes : Option ℕ) (h : deviceBytes = none ∨
    deviceBytes = some 1048576) : superblock.validate deviceBytes .readOnly = .ok () := by
  rcases h with rfl | rfl <;> decide +kernel

theorem validate_table : table.validate superblock = .ok () := by decide +kernel

variable {block : ℕ} {state : FilesystemState} {entry : BlockWrite Block × (ℕ → Block)}

/-- The device, with power for one more operation. -/
def lastWrite : Device Block := device.restart contents (some 1)

theorem readBlocks_lastWrite (h : block < 256) :
    readBlocks lastWrite block = .ok (contents block) := readBlocks_of_lt rfl h (by decide)

theorem encode_superblock : superblock.encode = .ok superblock.toBlock := by
  rw [encode_eq, validate_superblock none (.inl rfl), ok_bind, pure_eq_ok]

theorem validSuperblock : ValidSuperblock 256 superblock :=
  ⟨built_superblock, validate_superblock _ (.inr rfl), by decide⟩

theorem selected_contents : selectedSuperblock 256 contents = .ok superblock :=
  selectedSuperblock_of_both validSuperblock rfl encode_superblock rfl rfl

/-- The same volume, marked dirty. -/
def dirtyDevice : Device Block where
  blockCount := 256
  durable block :=
    if block = 16 ∨ block = 18 then { superblock with state := .dirty }.toBlock else contents block

theorem discover_dirty : discoverSuperblock dirtyDevice = .ok { superblock with state := .dirty } := by
  have hvalid := validSuperblock.withState .dirty
  have hencode : { superblock with state := .dirty }.encode =
      .ok { superblock with state := .dirty }.toBlock := by
    rw [encode_eq, validate_withState, validate_superblock none (.inl rfl), ok_bind, pure_eq_ok]
  exact selectedSuperblock_of_both hvalid rfl hencode rfl rfl

theorem discover : discoverMountMetadata lastWrite .readWrite = .ok (superblock, [group]) := by
  have hencode : ∃ b, table.encode superblock = .ok b := by
    exact ⟨_, rfl⟩
  obtain ⟨b, hb⟩ := hencode
  have htable : contents 17 = b := by
    rw [contents, if_neg (by decide), if_pos rfl, hb]
  have hgroups : readGroups lastWrite superblock (range 1) = .ok [group] := by
    rw [show range 1 = [0] from rfl, readGroups,
      show superblock.firstDescriptorBlock.toNat + 0 = 17 from rfl, readBlocks_lastWrite (by decide),
      ok_bind, htable, AllocationGroupTable.decode_encode hb]
    rfl
  have hsuperblock : discoverSuperblock lastWrite = .ok superblock :=
    (@discoverSuperblock_congr device lastWrite rfl rfl rfl rfl).trans selected_contents
  rw [discoverMountMetadata, hsuperblock, ok_bind, rejectIf_of_not (by decide), ok_bind,
    rejectIf_of_not (by decide), ok_bind, show superblock.descriptorReservationBlocks.toNat = 1 from rfl,
    hgroups, ok_bind, rejectIf_of_not (by decide), ok_bind, pure_eq_ok]

/-- The volume the mount starts from. -/
def startOn (d : Device Block) : Filesystem := .unrecovered d superblock [group] .readWrite

theorem decode_stateImage (h : state.validate = .ok ()) :
    FilesystemState.decode (stateImage state).1 = .ok state := by
  refine FilesystemState.canonicalCodec.decode_encode trivial ?_
  rw [FilesystemState.encode, h]
  rfl

theorem validateTags_control : control.validateTags [tag] = .ok () := by
  rw [validateTags, JournalControl.validate, rejectIf_of_not (by decide), ok_bind,
    show control.state = .committed from rfl]
  simp only
  rw [rejectIf_of_not (by decide), ok_bind, validateTagSequence, checkTagSequence,
    show tag.validate = .ok () from rfl, ok_bind, rejectIf_of_not (by decide), ok_bind,
    rejectIf_of_not (by simp), ok_bind, checkTagSequence, ok_bind, rejectIf_of_not (by simp [control])]

section

variable {d : Device Block}
  (hd : ∀ block < 256, block ≠ 19 → readBlocks (startOn d).device block = .ok (contents block))
include hd

/-- The journal, whatever the state block holds. -/
theorem selectControl_start : (startOn d).selectControl = .ok (control, 0) := by
  have hleft : (startOn d).readControl 0 = .ok (some control) := by
    have hencode : control.encode = .ok (frame.toBlock control.fields) := by
      rw [JournalControl.encode, JournalControl.validate, rejectIf_of_not (by decide), ok_bind, pure_eq_ok]
    rw [readControl, show (startOn d).controlBlock 0 = 20 from rfl, hd 20 (by decide) (by decide),
      ok_bind, show contents 20 = frame.toBlock control.fields from rfl,
      canonicalCodec.decode_encode trivial hencode]
    rfl
  have hright : (startOn d).readControl 1 = .ok none := by
    rw [readControl, show (startOn d).controlBlock 1 = 21 from rfl,
      hd 21 (by decide) (by decide), ok_bind, show contents 21 = Buf.zero blockSize from rfl]
    cases h : JournalControl.decode (Buf.zero blockSize).1 with
    | error => rfl
    | ok =>
      have hmagic := (JournalControl.decode_eq_ok.1 h).1.magic
      cases hmagic
  rw [selectControl, hleft, hright]
  rfl

theorem readUpdates_start : (startOn d).readUpdates [] 0 1 = .ok [(tag, stateImage newState)] := by
  have htag : JournalTag.decode (contents 22).1 = .ok tag := by
    refine JournalTag.canonicalCodec.decode_encode trivial ?_
    rfl
  have hmatch : tag.imageMatches (stateImage newState).1 = true := by
    rw [JournalTag.imageMatches, (stateImage newState).2]
    simp [tag]
  rw [readUpdates, show (startOn d).tagBlock 0 = 22 from rfl,
    hd 22 (by decide) (by decide), ok_bind, htag, ofFormat_ok, ok_bind,
    show (startOn d).ensureHomeTargetOrState tag.targetHomeBlock.toNat = .ok () from rfl, ok_bind,
    rejectIf_of_not (by simp), ok_bind, show (startOn d).imageBlock 0 = 86 from rfl,
    hd 86 (by decide) (by decide), ok_bind, show contents 86 = stateImage newState from rfl,
    rejectIf_of_not (by rw [hmatch]; decide), ok_bind, readUpdates, ok_bind, pure_eq_ok]

theorem intact : IntactJournal (startOn d) control [(tag, stateImage newState)] newState where
  committed := rfl
  read := by
    exact readUpdates_start hd
  tags := validateTags_control
  state := by
    refine ⟨tag, stateImage newState, ?_, decode_stateImage rfl⟩
    rw [filter_cons_of_pos (by rfl), filter_nil]
  next := rfl

end

/-- A mount that loses power after it has written the home block. -/
theorem mount_lastWrite : ∃ e d, tryMountWithMode lastWrite .readWrite = .error (e, d) ∧
    d.blockCount = 256 ∧ ({ block := 19, image := stateImage newState }, contents) ∈ d.history := by
  have hread : ∀ block < 256, block ≠ 19 →
      readBlocks (startOn lastWrite).device block = .ok (contents block) := fun _ h _ =>
    readBlocks_lastWrite h
  have hcommitted : (startOn lastWrite).readCommitted control =
      .ok ([(tag, stateImage newState)], newState) :=
    ((intact hread).readCommitted_eq_ok validSuperblock rfl rfl (by exact (by decide : 256 < 2 ^ 64))).2
      ⟨⟨oldState, decode_stateImage rfl, by decide⟩, rfl⟩
  obtain ⟨fs, hrecover, hcount, hseen⟩ : ∃ fs, recoverJournal (startOn lastWrite) =
      .error (.err (.device .io)) fs ∧ fs.device.blockCount = 256 ∧
        ({ block := 19, image := stateImage newState }, contents) ∈ fs.device.history := by
    rw [recoverJournal_eq rfl (selectControl_start hread) (by decide), hcommitted]
    exact ⟨_, rfl, rfl, mem_cons_self⟩
  exact ⟨_, _, mount_error discover rfl hrecover, hcount, hseen⟩

end Replay

theorem dirtyBeforeWrites_replay_dirty : DirtyBeforeWrites
    (World.afterMount (tryMountWithMode Replay.dirtyDevice .readWrite)).device := by
  refine @dirtyBeforeWrites_of_cautious Replay.dirtyDevice _ rfl (.mount fun sb hsb => .inl ?_)
  rw [Replay.discover_dirty] at hsb
  rw [← Except.ok.inj hsb]

/-- **A mount that replays the journal of a clean volume writes before the volume is marked dirty.** -/
theorem not_dirtyBeforeWrites_replay : Replay.device.history = [] ∧
    discoverSuperblock Replay.device = .ok Replay.superblock ∧ Replay.superblock.phase3Enabled = true ∧
    ∃ world, Run (fun _ _ => True) (.detached Replay.device) world ∧ ¬ DirtyBeforeWrites world.device := by
  obtain ⟨e, d, hmount, hcount, hseen⟩ := Replay.mount_lastWrite
  have hrun : Run (fun _ _ => True) (.detached Replay.device) (.detached d) := by
    have hcrash := @Run.step (fun _ _ => True) _ _ (.crash Replay.contents (some 1))
      (.refl (.detached Replay.device)) (fun _ => .inl rfl) trivial
    have hstep := @Run.step _ _ _ (.mount .readWrite) hcrash trivial trivial
    change Run _ _ (World.afterMount (tryMountWithMode Replay.lastWrite .readWrite)) at hstep
    rwa [hmount] at hstep
  refine ⟨rfl, Replay.selected_contents, rfl, _, hrun, fun h => ?_⟩
  obtain ⟨sb, hsb, hdirty⟩ := h _ hseen (by simp [superblockBlock, reservedBootBytes, blockSize])
    (by simp [phase3BackupSuperblockBlock])
  change selectedSuperblock d.blockCount _ = _ at hsb
  rw [hcount, Replay.selected_contents] at hsb
  rw [← Except.ok.inj hsb] at hdirty
  cases hdirty

end NullFS
