/-
**Recovery and the blocks it overwrites.**

A committed transaction is replayed from its tags and images in the journal.  The home blocks may hold
anything by then, since the crash may have torn any of them.  Recovery does not look at them, with one
exception: it decodes the filesystem state on the disk and compares its generation with that of the
new one.  The state block is a home block of every transaction, so a torn state block stops the recovery.

* `recovery_succeeds_iff` — when recovery replays a committed transaction;
* `Replay.torn_state_not_recovered` — a state block that was torn.
-/

import NullStar.DirtyFirst

set_option autoImplicit false

namespace NullFS

open Bytes Rust Storage List Filesystem

section

variable {fs : Filesystem} {d : Device Block} {block slot : ℕ} {homes : List (ℕ × Block)}
  {control : JournalControl} {updates : List (JournalTag × Block)} {recovered : FilesystemState}

/-! ### Contents of the home blocks -/

/-- A block that is not written keeps its contents. -/
theorem contents_writeAll_other (h : block ∉ homes.map (·.1)) :
    (writeAll homes d).contents block = d.contents block := by
  induction homes generalizing d with
  | nil => rfl
  | cons home rest ih =>
    rw [map_cons, mem_cons, not_or] at h
    exact (ih h.2).trans (Function.update_of_ne h.1 _ _)

theorem contents_writeAll (hnodup : (homes.map (·.1)).Nodup) :
    ∀ home ∈ homes, (writeAll homes d).contents home.1 = home.2 := by
  induction homes generalizing d with
  | nil => simp
  | cons home rest ih =>
    rw [map_cons, nodup_cons] at hnodup
    refine forall_mem_cons.2 ⟨?_, ih hnodup.2⟩
    exact (contents_writeAll_other hnodup.1).trans (Function.update_self ..)

/-! ### Recovery -/

theorem nextGeneration_eq_ok {current next : UInt64} : nextGeneration current = .ok next ↔
    current.toNat + 1 < 2 ^ 64 ∧ UInt64.ofNat (current.toNat + 1) = next := by
  simp only [nextGeneration, run_eq_ok, checkedAdd_eq_some]
  constructor
  · rintro ⟨_, ⟨hlt, rfl⟩, rfl⟩
    exact ⟨hlt, rfl⟩
  · rintro ⟨hlt, rfl⟩
    exact ⟨_, ⟨hlt, rfl⟩, rfl⟩

theorem liftOutcome_eq_check {α : Type} (x : Outcome Error α) : liftOutcome x = Machine.check x := by
  cases x <;> rfl

/-- A block is not updated twice. -/
theorem Filesystem.readUpdates_nodup {prior : List UInt64} {index count : ℕ}
    (h : fs.readUpdates prior index count = .ok updates) : (updates.map (·.1.targetHomeBlock)).Nodup ∧
      ∀ update ∈ updates, update.1.targetHomeBlock ∉ prior := by
  induction count generalizing prior index updates with
  | zero =>
    cases h
    simp
  | succ count ih =>
    simp only [readUpdates, bind_eq_ok, return_eq_ok, rejectIf_eq_ok] at h
    obtain ⟨_, _, tag, _, _, _, _, hnew, image, _, _, _, rest, hrest, rfl⟩ := h
    obtain ⟨hnodup, hprior⟩ := ih hrest
    simp only [mem_cons, not_or] at hprior
    refine ⟨nodup_cons.2 ⟨fun hmem => ?_, hnodup⟩, forall_mem_cons.2 ⟨hnew, fun u hu => (hprior u hu).2⟩⟩
    obtain ⟨u, hu, heq⟩ := mem_map.1 hmem
    exact (hprior u hu).1 heq

/-- A recovery that succeeds has read a transaction, and a control block follows the one that
declared it. -/
theorem recoverJournal_eq_ok {fs' : Filesystem} (hmode : fs.mountMode = .readWrite)
    (hselect : fs.selectControl = .ok (control, slot)) (hstate : control.state ≠ .empty)
    (hrun : recoverJournal fs = .ok () fs') : ∃ r, fs.readCommitted control = .ok r ∧
      ∃ next, nextGeneration control.generation = .ok next := by
  rw [recoverJournal_eq hmode hselect hstate] at hrun
  cases hr : fs.readCommitted control with
  | error => simp [hr] at hrun
  | ok r =>
    rw [hr] at hrun
    simp only [Machine.op_ok, liftOutcome_eq_check] at hrun
    obtain ⟨_, _, -, _, _, -, next, _, ⟨hnext, -⟩, -⟩ := hrun
    exact ⟨r, rfl, next, ofFormat_eq_ok.1 hnext⟩

section

variable (hvalid : ValidSuperblock fs.device.blockCount fs.superblock)
  (hphase : fs.superblock.phase3Enabled = true) (hjournal : IntactJournal fs control updates recovered)
include hvalid hphase hjournal

/-- The home blocks of the transaction are different, on the device, and not in the journal. -/
theorem IntactJournal.targets : ((homesOf updates).map (·.1)).Nodup ∧ ∀ home ∈ homesOf updates,
    home.1 < fs.device.blockCount ∧ ∀ slot ≤ 1, home.1 ≠ fs.controlBlock slot := by
  obtain ⟨-, -, hstate, hfirst, -, hallocatable, -, -, hcapacity⟩ :=
    Superblock.phase3_of_validate hvalid.valid hphase
  have hfits := hvalid.capacity_le
  refine ⟨?_, fun home hhome => ?_⟩
  · have hnodup := (readUpdates_nodup hjournal.read).1.map fun _ _ => UInt64.toNat_inj.1
    rw [map_map] at hnodup
    rw [homesOf, map_map]
    exact hnodup
  · obtain ⟨update, hupdate, rfl⟩ := mem_map.1 hhome
    have htarget := readUpdates_home hjournal.read update hupdate
    simp only [controlBlock]
    unfold ensureHomeTargetOrState at htarget
    split at htarget
    · exact ⟨by omega, fun slot hslot => by omega⟩
    · rw [ensureHomeTarget, rejectIf_eq_ok] at htarget
      exact ⟨by omega, fun slot hslot => by omega⟩

/-- **Recovery replays an intact transaction exactly if the state block was not torn.** -/
theorem recovery_succeeds_iff (hworks : Works fs.device) (hmode : fs.mountMode = .readWrite)
    (hselect : fs.selectControl = .ok (control, slot)) :
    Machine.Returns fs recoverJournal (fun _ fs' => ∀ update ∈ updates,
      fs'.device.contents update.1.targetHomeBlock.toNat = update.2) ↔
    OlderState fs recovered ∧ control.generation.toNat + 1 < 2 ^ 64 := by
  obtain ⟨hnodup, hhomes⟩ := hjournal.targets hvalid hphase
  obtain ⟨-, -, -, hfirst, -, -, -, -, hcapacity⟩ := Superblock.phase3_of_validate hvalid.valid hphase
  have hfits := hvalid.capacity_le
  have hread := @IntactJournal.readCommitted_eq_ok _ _ _ _ hjournal hvalid hphase hworks.crashed hworks.small
  have hstate : control.state ≠ .empty := by
    rw [hjournal.committed]
    decide
  constructor
  · rintro ⟨_, fs', hrun, -⟩
    obtain ⟨_, hcommitted, hnext⟩ := recoverJournal_eq_ok hmode hselect hstate hrun
    exact ⟨(hread.1 hcommitted).1, (nextGeneration_eq_ok.1 hnext.choose_spec).1⟩
  · rintro ⟨hold, hlt⟩
    have hpos : UInt64.ofNat (control.generation.toNat + 1) ≠ 0 := by
      rw [ne_eq, ← UInt64.toNat_inj, UInt64.toNat_ofNat_of_lt' hlt]
      exact Nat.succ_ne_zero _
    obtain ⟨_, hempty⟩ := encode_empty hpos
    have hslot : fs.controlBlock (1 - slot) < fs.device.blockCount := by
      rw [controlBlock]
      omega
    refine ⟨(), _, hworks.recoverJournal hmode hselect hstate (hread.2 ⟨hold, rfl⟩)
      (fun home h => (hhomes home h).1) hslot (nextGeneration_eq_ok.2 ⟨hlt, rfl⟩) hempty, ?_⟩
    intro update hupdate
    have hhome : (update.1.targetHomeBlock.toNat, update.2) ∈ homesOf updates :=
      mem_map.2 ⟨update, hupdate, rfl⟩
    refine (Function.update_of_ne ((hhomes _ hhome).2 (1 - slot) (by omega)) _ _).trans ?_
    exact contents_writeAll hnodup _ hhome

end

end

namespace Replay

/-- The device of the volume, with some contents of the state block. -/
def deviceWith (state : Block) : Device Block :=
  { device with durable := Function.update contents 19 state }

variable {block : ℕ} {state : Block}

theorem readBlocks_deviceWith (h : block < 256) (hne : block ≠ 19) :
    readBlocks (startOn (deviceWith state)).device block = .ok (contents block) := by
  have hsame : (deviceWith state).contents block = contents block := Function.update_of_ne hne _ _
  exact hsame ▸ readBlocks_of_lt rfl h (show 256 < 2 ^ 64 by decide)

theorem works : Works (deviceWith state) := ⟨rfl, rfl, show 256 < 2 ^ 64 by decide⟩

theorem recovery_succeeds_replay :
    Machine.Returns (startOn (deviceWith (stateImage oldState))) recoverJournal fun _ fs' =>
      ∀ update ∈ [(tag, stateImage newState)],
        fs'.device.contents update.1.targetHomeBlock.toNat = update.2 := by
  have hold : OlderState (startOn (deviceWith (stateImage oldState))) newState :=
    ⟨oldState, decode_stateImage rfl, by decide⟩
  exact (recovery_succeeds_iff validSuperblock rfl (intact fun _ => readBlocks_deviceWith) works rfl
    (selectControl_start fun _ => readBlocks_deviceWith)).2 ⟨hold, by decide⟩

/-- **A state block that was torn stops the recovery of an intact transaction.** -/
theorem torn_state_not_recovered :
    IntactJournal (startOn (deviceWith (Buf.zero blockSize))) control [(tag, stateImage newState)]
      newState ∧ ∀ fs', recoverJournal (startOn (deviceWith (Buf.zero blockSize))) ≠ .ok () fs' := by
  have hintact := intact fun _ => @readBlocks_deviceWith _ (.zero blockSize)
  refine ⟨hintact, fun fs' hrun => ?_⟩
  obtain ⟨r, hr, -⟩ :=
    recoverJournal_eq_ok rfl (selectControl_start fun _ => readBlocks_deviceWith) (by decide) hrun
  obtain ⟨⟨old, hold, -⟩, -⟩ :=
    (hintact.readCommitted_eq_ok validSuperblock rfl works.crashed works.small).1 hr
  have hmagic := (FilesystemState.decode_eq_ok.1 hold).1.magic
  cases hmagic

end Replay

end NullFS
