/-
**What the operations of the core write.**

Outside of mounting and unmounting, the core writes only to the journal, to the state block and to
blocks behind the journal.  So a condition on the device that such writes keep is kept by every
operation.

* `keeps_commitTransaction`, `keeps_recoverJournal` — commits and recovery keep it;
* `Operation.keeps` — every operation keeps it.
-/

import NullStar.Mount

set_option autoImplicit false

namespace NullFS

open Rust Storage Hoare Keeps Triple Filesystem List

/-! ### The positions of a Phase 3 volume -/

/-- The fixed positions of a Phase 3 volume. -/
structure Superblock.Phase3 (sb : Superblock) : Prop where
  enabled : sb.phase3Enabled = true
  backup : sb.backupSuperblockBlock.toNat = 18
  stateBlock : sb.filesystemStateBlock.toNat = 19
  journal : sb.journalFirstBlock.toNat = 20
  maxUpdates : sb.journalMaxUpdates.toNat = 64
  firstAllocatable : sb.firstAllocatableBlock.toNat = 150
  firstDescriptor : sb.firstDescriptorBlock.toNat = 17
  reservation : sb.descriptorReservationBlocks = 1
  capacity : 150 < sb.capacityBlocks.toNat

theorem Superblock.phase3_of_validate {sb : Superblock} {deviceBytes : Option ℕ} {mode : MountMode}
    (h : sb.validate deviceBytes mode = .ok ()) (hp : sb.phase3Enabled = true) : sb.Phase3 := by
  simp only [validate, validateGeometry, expectedFirstAllocatable, hp, run_eq_ok, if_true, not_or,
    not_not] at h
  obtain ⟨-, -, -, -, -, _, -, -, -, -, -, _, -, -, -, -, -, _, -, hd, last, -, first,
    ⟨⟨hres, hcap, -, hb, hs, hj, -, hm⟩, rfl⟩, ha, -⟩ := h
  exact ⟨hp, hb, hs, hj, hm, ha, hd, hres, Nat.not_lt.1 hcap⟩

/-- A valid superblock describes a volume that fits on the device. -/
theorem Superblock.capacity_le_of_validate {sb : Superblock} {bytes : ℕ} {mode : MountMode}
    (h : sb.validate (some bytes) mode = .ok ()) : sb.capacityBlocks.toNat ≤ bytes / blockSize := by
  simp only [validate, validateGeometry, run_eq_ok] at h
  obtain ⟨-, -, -, -, -, _, -, -, -, hcap, -⟩ := h
  simpa using hcap

/-! ### Rules for the steps of operations -/

section

variable {α β : Type} {I P : Filesystem → Prop} {R : β → Filesystem → Prop}
  {E : Fault Error → Filesystem → Prop}

theorem keeps_liftOutcome {x : Outcome Error α} : Keeps I (liftOutcome x) := by
  intro fs h
  cases x with
  | ok | error => exact h

theorem keeps_reading {f : Filesystem → Outcome Error α} : Keeps I (reading f) :=
  fun fs h => keeps_liftOutcome fs h

theorem keeps_onlyIf {p : Prop} [Decidable p] {x : FsM Unit} (h : p → Keeps I x) :
    Keeps I (onlyIf p x) := ite h fun _ => .pure _

/-- What is lifted is known afterwards. -/
theorem triple_lift_bind {x : Outcome Error α} {f : α → FsM β} (hE : ∀ e fs, P fs → E e fs)
    (h : ∀ a, x = .ok a → Triple P (f a) R E) : Triple P (liftOutcome x >>= f) R E := by
  intro fs hfs
  cases x with
  | ok a => exact h a rfl fs hfs
  | error e => exact hE e fs hfs

/-- What is read is known afterwards. -/
theorem triple_reading_bind {g : Filesystem → Outcome Error α} {f : α → FsM β}
    (hE : ∀ e fs, P fs → E e fs) (h : ∀ a, Triple (fun fs => g fs = .ok a ∧ P fs) (f a) R E) :
    Triple P (reading g >>= f) R E := by
  intro fs hfs
  have hlift := triple_lift_bind (P := (· = fs))
    (fun e _ hs => hs ▸ hE e fs hfs)
    (fun a ha fs' hs => by subst hs; exact h a fs' ⟨ha, hfs⟩)
  exact hlift fs rfl

end

/-! ### Conditions that survive writes -/

/-- The volumes have the same device and are mounted in the same way. -/
structure SameMount (fs fs' : Filesystem) : Prop where
  device : fs'.device = fs.device
  superblock : fs'.superblock = fs.superblock
  mountMode : fs'.mountMode = fs.mountMode

/-- The volumes differ in the state and the journal only. -/
structure SameSession (fs fs' : Filesystem) : Prop extends SameMount fs fs' where
  groups : fs'.groups = fs.groups
  transaction : fs'.transaction = fs.transaction
  openHandles : fs'.openHandles = fs.openHandles
  nextHandleId : fs'.nextHandleId = fs.nextHandleId

/-- A condition that does not depend on the state and the journal, and that on a volume mounted for
writing is kept by flushes and by writes behind the superblocks. -/
structure JournalInvariant (I : Filesystem → Prop) : Prop where
  session : ∀ {fs fs'}, I fs → SameSession fs fs' → I fs'
  phase3 : ∀ {fs}, I fs → fs.mountMode = .readWrite → fs.superblock.Phase3
  write : ∀ {fs} (w : BlockWrite Block), I fs → fs.mountMode = .readWrite → 19 ≤ w.block →
    I { fs with device := (fs.device.write w).2 }
  flush : ∀ {fs}, I fs → fs.mountMode = .readWrite → I { fs with device := fs.device.flush.2 }

variable (I : Filesystem → Prop)

/-- A condition that depends on the device, the superblock and the mode of the mount alone. -/
def MountInvariant : Prop := ∀ {fs fs'}, I fs → SameMount fs fs' → I fs'

/-- Such a condition, kept by flushes and by writes behind the superblocks. -/
structure WriteInvariant (I : Filesystem → Prop) : Prop extends JournalInvariant I where
  congr : MountInvariant I

/-- The condition, on a volume mounted for writing. -/
def Writable (fs : Filesystem) : Prop := I fs ∧ fs.mountMode = .readWrite

variable {α : Type} {I}

theorem JournalInvariant.mounted (hI : JournalInvariant I) (mode : RuntimeMountMode) :
    JournalInvariant fun fs => I fs ∧ fs.mountMode = mode where
  session h hs := ⟨hI.session h.1 hs, hs.mountMode.trans h.2⟩
  phase3 h hm := hI.phase3 h.1 hm
  write w h hm hb := ⟨hI.write w h.1 hm hb, h.2⟩
  flush h hm := ⟨hI.flush h.1 hm, h.2⟩

theorem JournalInvariant.writable (hI : JournalInvariant I) : JournalInvariant (Writable I) :=
  hI.mounted .readWrite

theorem WriteInvariant.mounted (hI : WriteInvariant I) (mode : RuntimeMountMode) :
    WriteInvariant fun fs => I fs ∧ fs.mountMode = mode where
  toJournalInvariant := hI.toJournalInvariant.mounted mode
  congr h hs := ⟨hI.congr h.1 hs, hs.mountMode.trans h.2⟩

theorem WriteInvariant.writable (hI : WriteInvariant I) : WriteInvariant (Writable I) := hI.mounted .readWrite

theorem keeps_deviceStep {step : Device Block → Bool × Device Block}
    (h : ∀ fs, I fs → I { fs with device := (step fs.device).2 }) : Keeps I (deviceStep step) := by
  intro fs hfs
  have h := h fs hfs
  unfold deviceStep
  cases hs : step fs.device with
  | mk done =>
    rw [hs] at h
    cases done with
    | true | false => exact h

/-- A write fails without an effect, or is pending afterwards. -/
theorem writeBlocks_cases (block : ℕ) (image : Block) (fs : Filesystem) :
    (∃ e crashed, writeBlocks block image fs =
      .error e { fs with device := { fs.device with crashed := crashed } }) ∨
    ∃ fuel, writeBlocks block image fs =
      .ok () { fs with device := { fs.device with fuel := fuel }.push { block, image } } := by
  rw [writeBlocks, reading_bind]
  cases checkBlock fs.device block with
  | error e => exact .inl ⟨e, fs.device.crashed, rfl⟩
  | ok =>
    rcases fs.device.attempt_cases (·.push { block, image }) with ⟨crashed, h⟩ | ⟨fuel, h⟩
    · refine .inl ⟨.err (.device .io), crashed, ?_⟩
      simp only [deviceStep, Device.write, h]
    · refine .inr ⟨fuel, ?_⟩
      simp only [deviceStep, Device.write, h]

/-- A flush fails without an effect, or leaves nothing pending. -/
theorem flushDevice_cases (fs : Filesystem) : (∃ e crashed, flushDevice fs =
      .error e { fs with device := { fs.device with crashed := crashed } }) ∨ ∃ fuel, flushDevice fs =
      .ok () { fs with device := { fs.device with fuel := fuel }.settle } := by
  rcases fs.device.attempt_cases .settle with ⟨crashed, h⟩ | ⟨fuel, h⟩
  · refine .inl ⟨.err (.device .io), crashed, ?_⟩
    simp only [flushDevice, deviceStep, Device.flush, h]
  · refine .inr ⟨fuel, ?_⟩
    simp only [flushDevice, deviceStep, Device.flush, h]

section

variable (hI : MountInvariant I)
include hI

theorem keeps_finishMutation {x : FsM α} (h : Keeps I x) : Keeps I (finishMutation x) :=
  h.onError fun _ hs => hI hs ⟨rfl, rfl, rfl⟩

theorem keeps_attempt {x : FsM α} (h : Keeps I x) : Keeps I (attempt x) := by
  intro fs hfs
  have h := h fs hfs
  unfold attempt
  cases hr : x fs with
  | ok =>
    rw [hr] at h
    exact h
  | error e fs' =>
    rw [hr] at h
    cases e with
    | err => exact hI h ⟨rfl, rfl, rfl⟩
    | trap => exact h

theorem keeps_beginTransaction : Keeps I beginTransaction := by
  refine keeps_reading.bind fun _ => get_bind_eq fun fs hfs => ?_
  split
  · exact triple_lift_bind (fun _ _ h => h ▸ hfs) fun state _ =>
      put (hI hfs ⟨rfl, rfl, rfl⟩)
  · exact pure fun _ h => h ▸ hfs

theorem keeps_startMutation : Keeps I startMutation :=
  keeps_reading.bind fun _ => get_bind fun _ _ => keeps_liftOutcome.bind fun _ =>
    keeps_beginTransaction hI

theorem keeps_staged (body : Filesystem → StageM α) : Keeps I (staged body) := by
  refine get_bind_eq fun fs hfs => ?_
  refine triple_lift_bind (fun _ _ h => h ▸ hfs) fun tx _ => ?_
  refine triple_lift_bind (fun _ _ h => h ▸ hfs) fun ⟨a, tx'⟩ _ => ?_
  exact bind (put (by exact hI hfs ⟨rfl, rfl, rfl⟩)) fun _ =>
    pure _

end

section

variable (hI : JournalInvariant I)
include hI

/-! ### Commits -/

theorem keeps_poisonOnError {x : FsM α} (h : Keeps I x) : Keeps I (poisonOnError x) :=
  h.onError fun _ hs => hI.session hs ⟨⟨rfl, rfl, rfl⟩, rfl, rfl, rfl, rfl⟩

theorem keeps_writeBlocks {block : ℕ} (image : Block) (hb : 19 ≤ block) :
    Keeps (Writable I) (writeBlocks block image) :=
  keeps_reading.bind fun _ => keeps_deviceStep fun _ h => ⟨hI.write _ h.1 h.2 hb, h.2⟩

theorem keeps_flushDevice : Keeps (Writable I) flushDevice :=
  keeps_deviceStep fun _ h => ⟨hI.flush h.1 h.2, h.2⟩

/-- The journal lies behind the superblocks. -/
theorem journal_ge {fs : Filesystem} (h : Writable I fs) (slot index : ℕ) :
    19 ≤ fs.controlBlock slot ∧ 19 ≤ fs.tagBlock index ∧ 19 ≤ fs.imageBlock index := by
  have hj := (hI.phase3 h.1 h.2).journal
  rw [controlBlock, tagBlock, imageBlock]
  omega

/-- A home block lies behind the superblocks. -/
theorem home_ge {fs : Filesystem} (h : Writable I fs) {target : ℕ}
    (ht : fs.ensureHomeTargetOrState target = .ok ()) : 19 ≤ target := by
  have hs := (hI.phase3 h.1 h.2).stateBlock
  have ha := (hI.phase3 h.1 h.2).firstAllocatable
  unfold ensureHomeTargetOrState at ht
  split at ht
  · omega
  · rw [ensureHomeTarget, rejectIf_eq_ok] at ht
    omega

/-- Journalling updates keeps the condition, and their targets are home blocks. -/
theorem triple_writeUpdates (id : UInt64) (index : ℕ) (updates : List StagedBlock) :
    Triple (Writable I) (writeUpdates id index updates)
      (fun _ fs => Writable I fs ∧ ∀ update ∈ updates, 19 ≤ update.target) (fun _ => Writable I) := by
  induction updates generalizing index with
  | nil => exact pure fun _ h => ⟨h, by simp⟩
  | cons update rest ih =>
    refine get_bind fun fs hfs => ?_
    obtain ⟨-, htag, himage⟩ := journal_ge hI hfs 0 index
    -- from here on only the condition and the checked target are needed
    refine triple_reading_bind (fun _ _ h => h ▸ hfs) fun _ => ?_
    have hpre : ∀ s, s.ensureHomeTargetOrState update.target = .ok () ∧ s = fs →
        Writable I s ∧ 19 ≤ update.target := by
      rintro s ⟨ht, rfl⟩
      exact ⟨hfs, home_ge hI hfs ht⟩
    refine mono ?_ hpre (fun _ _ h => h)
      (fun _ _ h => h)
    intro s ⟨hs, ht⟩
    refine (Triple.bind keeps_liftOutcome fun tag => ?_) s hs
    refine bind keeps_liftOutcome fun encoded => ?_
    refine bind (keeps_writeBlocks hI _ htag) fun _ => ?_
    refine bind (keeps_writeBlocks hI _ himage) fun _ => ?_
    exact (ih (index + 1)).bind fun tags => pure fun s h =>
      ⟨h.1, forall_mem_cons.2 ⟨ht, h.2⟩⟩

theorem keeps_writeHomes {homes : List (ℕ × Block)} (h : ∀ home ∈ homes, 19 ≤ home.1) :
    Keeps (Writable I) (writeHomes homes) := by
  induction homes with
  | nil => exact .pure _
  | cons home rest ih =>
    exact (keeps_writeBlocks hI _ (h home mem_cons_self)).bind fun _ =>
      ih fun other hother => h other (mem_cons_of_mem _ hother)

theorem keeps_writeControl (slot : ℕ) (control : JournalControl) :
    Keeps (Writable I) (writeControl slot control) :=
  get_bind fun _ hfs => keeps_liftOutcome.bind fun _ =>
    keeps_writeBlocks hI _ (journal_ge hI hfs slot 0).1

theorem keeps_commitUpdates (tx : Transaction) (newState : FilesystemState) :
    Keeps (Writable I) (commitUpdates tx newState) := by
  refine (triple_writeUpdates hI tx.id 0 tx.updates).bind fun tags => ?_
  intro fs ⟨hfs, htargets⟩
  refine ((keeps_flushDevice hI).bind fun _ => .get_bind fun fs' hfs' => ?_) fs hfs
  refine keeps_liftOutcome.bind fun _ => keeps_liftOutcome.bind fun _ => ?_
  refine (keeps_writeControl hI _ _).bind fun _ => (keeps_flushDevice hI).bind fun _ => ?_
  refine (keeps_writeHomes hI ?_).bind fun _ => (keeps_flushDevice hI).bind fun _ => ?_
  · intro home hhome
    obtain ⟨update, hu, rfl⟩ := mem_map.1 hhome
    exact htargets update hu
  · refine keeps_liftOutcome.bind fun _ => (keeps_writeControl hI _ _).bind fun _ => ?_
    exact (keeps_flushDevice hI).bind fun _ => .update fun _ h =>
      hI.writable.session h ⟨⟨rfl, rfl, rfl⟩, rfl, rfl, rfl, rfl⟩

end

section

variable (hI : WriteInvariant I)
include hI

omit hI in
/-- What a check that the volume is writable guards. -/
theorem keeps_of_ensureWritable {f : Unit → FsM α} (h : ∀ u, Keeps (Writable I) (f u)) :
    Keeps I (reading (·.ensureWritable) >>= f) := by
  refine triple_reading_bind (fun _ _ h => h) fun u => ?_
  refine (h u).mono ?_ (fun _ _ h => h.1) (fun _ _ h => h.1)
  rintro fs ⟨hw, hfs⟩
  simp only [Filesystem.ensureWritable, run_eq_ok, not_not] at hw
  exact ⟨hfs, hw.2⟩

omit hI in
theorem JournalInvariant.idle (hI : JournalInvariant I) :
    JournalInvariant fun fs => I fs ∧ fs.transaction = none where
  session h hs := ⟨hI.session h.1 hs, hs.transaction.trans h.2⟩
  phase3 h hm := hI.phase3 h.1 hm
  write w h hm hb := ⟨hI.write w h.1 hm hb, h.2⟩
  flush h hm := ⟨hI.flush h.1 hm, h.2⟩

/-- After a successful commit there is no transaction. -/
theorem triple_commitTransaction : Triple I commitTransaction
    (fun _ fs => I fs ∧ fs.transaction = none) (fun _ => I) := by
  refine triple_reading_bind (fun _ _ h => h) fun _ => ?_
  intro fs ⟨hw, hfs⟩
  simp only [ensureWritable, run_eq_ok, not_not] at hw
  refine (get_bind (P := (· = fs)) fun fs' hfs' => ?_) fs rfl
  rw [hfs']
  split
  case h_1 htx => exact pure fun _ h => h ▸ ⟨hfs, htx⟩
  case h_2 tx htx =>
    refine bind (Q := fun _ => Writable fun fs => I fs ∧ fs.transaction = none)
      (put ⟨⟨hI.congr hfs ⟨rfl, rfl, rfl⟩, rfl⟩, hw.2⟩) fun _ => ?_
    refine mono
      (Q := fun _ => Writable fun fs => I fs ∧ fs.transaction = none)
      (E := fun _ => Writable fun fs => I fs ∧ fs.transaction = none) ?_
      (fun _ h => h) (fun _ _ h => h.1) (fun _ _ h => h.1.1)
    exact keeps_liftOutcome.bind fun _ => keeps_poisonOnError
      hI.toJournalInvariant.idle.writable (keeps_commitUpdates hI.toJournalInvariant.idle _ _)

theorem keeps_commitTransaction : Keeps I commitTransaction :=
  (triple_commitTransaction hI).imp_ok fun _ _ h => h.1

/-! ### Recovery -/

omit hI in
/-- What recovery replays are home blocks. -/
theorem Filesystem.readUpdates_home {fs : Filesystem} {prior : List UInt64} {index count : ℕ}
    {updates : List (JournalTag × Block)} (h : fs.readUpdates prior index count = .ok updates) :
    ∀ update ∈ updates, fs.ensureHomeTargetOrState update.1.targetHomeBlock.toNat = .ok () := by
  induction count generalizing prior index updates with
  | zero =>
    cases h
    simp
  | succ count ih =>
    simp only [readUpdates, bind_eq_ok, ofFormat_eq_ok, return_eq_ok] at h
    obtain ⟨_, _, tag, _, _, htag, _, _, image, _, _, _, rest, hrest, rfl⟩ := h
    exact List.forall_mem_cons.2 ⟨htag, ih hrest⟩

theorem keeps_recoverJournal : Keeps I recoverJournal := by
  refine keeps_reading.bind fun ⟨control, slot⟩ => ?_
  refine .bind (.update fun _ h => hI.congr h ⟨rfl, rfl, rfl⟩) fun _ => ?_
  refine ite (fun _ => .pure _) fun _ => ?_
  refine triple_reading_bind (fun _ _ h => h) fun ⟨updates, recovered⟩ => ?_
  intro fs ⟨hread, hfs⟩
  have hhomes : fs.mountMode = .readWrite → ∀ home ∈ homesOf updates, 19 ≤ home.1 := by
    intro hm home hhome
    obtain ⟨update, hu, rfl⟩ := mem_map.1 hhome
    simp only [readCommitted, run_eq_ok] at hread
    obtain ⟨_, hupdates, _, _, _, _, rfl, _⟩ := hread
    exact home_ge hI.toJournalInvariant ⟨hfs, hm⟩ (readUpdates_home hupdates update hu)
  change Post (fun _ => I) (fun _ => I) ((if fs.mountMode = .readOnly then _ else _ : FsM Unit) fs)
  split
  · exact put (by exact hI.congr hfs ⟨rfl, rfl, rfl⟩) fs hfs
  case isFalse hm =>
    have hm : fs.mountMode = .readWrite := by
      cases h : fs.mountMode with
      | readOnly => exact absurd h hm
      | readWrite => rfl
    refine mono (P := Writable I) (Q := fun _ => Writable I) (E := fun _ => Writable I) ?_
      (fun _ h => h) (fun _ _ h => h.1) (fun _ _ h => h.1) fs ⟨hfs, hm⟩
    refine .bind (keeps_writeHomes hI.toJournalInvariant (hhomes hm)) fun _ => ?_
    refine .bind (keeps_flushDevice hI.toJournalInvariant) fun _ => keeps_liftOutcome.bind fun _ => ?_
    refine (keeps_writeControl hI.toJournalInvariant _ _).bind fun _ =>
      (keeps_flushDevice hI.toJournalInvariant).bind fun _ => ?_
    exact .update fun _ h =>
      hI.writable.session h ⟨⟨rfl, rfl, rfl⟩, rfl, rfl, rfl, rfl⟩

/-! ### Mutations -/

theorem keeps_mutation (body : Filesystem → StageM α) : Keeps I (mutation body) :=
  (keeps_startMutation hI.congr).bind fun _ => keeps_finishMutation hI.congr <|
    (keeps_staged hI.congr body).bind fun _ => (keeps_commitTransaction hI).bind fun _ => .pure _

theorem keeps_rename (oldParent : UInt64) (oldName : List UInt8) (newParent : UInt64)
    (newName : List UInt8) : Keeps I (rename oldParent oldName newParent newName) := by
  refine (keeps_startMutation hI.congr).bind fun _ => keeps_finishMutation hI.congr ?_
  refine (keeps_staged hI.congr _).bind fun changed => ite (fun _ => keeps_commitTransaction hI) ?_
  exact fun _ => .update fun _ h => hI.congr h ⟨rfl, rfl, rfl⟩

variable (node : UInt64) (offset : ℕ) (input : List UInt8)

theorem keeps_writeFrom (committed : ℕ) : Keeps I (writeFrom node offset input committed) := by
  fun_induction writeFrom node offset input committed with
  | case1 committed hlt ih =>
    refine keeps_liftOutcome.bind fun _ => keeps_reading.bind fun _ => ?_
    refine (keeps_startMutation hI.congr).bind fun _ => ?_
    refine .bind (keeps_attempt hI.congr ?_) fun result => ?_
    · exact (keeps_staged hI.congr _).bind fun _ => (keeps_commitTransaction hI).bind fun _ => .pure _
    · cases result with
      | ok count => exact ite (ih count) fun _ => keeps_liftOutcome
      | error => exact ite (fun _ => keeps_liftOutcome) fun _ => .pure _
  | case2 committed hge => exact .pure _

theorem keeps_write : Keeps I (write node offset input) :=
  keeps_reading.bind fun _ => ite (fun _ => .pure _) fun _ => keeps_writeFrom hI _ _ _ _

/-! ### Handles and orphans -/

theorem keeps_reclaimAll (nodes : List UInt64) : Keeps I (reclaimAll nodes) := by
  induction nodes with
  | nil => exact .pure _
  | cons node rest ih =>
    exact keeps_reading.bind fun _ => (keeps_mutation hI _).bind fun _ => ih

theorem keeps_reclaimOrphans : Keeps I reclaimOrphans := keeps_reading.bind fun _ => keeps_reclaimAll hI _

theorem keeps_openNode : Keeps I (openNode node) := by
  refine keeps_reading.bind fun _ => keeps_liftOutcome.bind fun _ => ?_
  refine get_bind_eq fun fs hfs => triple_lift_bind (fun _ _ h => h ▸ hfs) fun next _ => ?_
  exact bind (put (by exact hI.congr hfs ⟨rfl, rfl, rfl⟩)) fun _ =>
    pure _

theorem keeps_closeNode (handle : OpenHandle) : Keeps I (closeNode handle) := by
  refine get_bind_eq fun fs hfs => triple_lift_bind (fun _ _ h => h ▸ hfs) fun position _ => ?_
  refine triple_lift_bind (fun _ _ h => h ▸ hfs) fun _ _ => ?_
  refine bind (Q := fun _ => I) (put (hI.congr hfs ⟨rfl, rfl, rfl⟩)) fun _ => ?_
  refine ite (fun _ => .pure _) fun _ => onError ?_ fun _ h =>
    hI.congr h ⟨rfl, rfl, rfl⟩
  exact keeps_reading.bind fun _ => ite (fun _ => keeps_mutation hI _) fun _ => .pure _

theorem keeps_sync : Keeps I sync := by
  refine keeps_of_ensureWritable fun _ => ?_
  refine .bind (keeps_commitTransaction hI.writable) fun _ => ?_
  exact keeps_poisonOnError hI.toJournalInvariant.writable (keeps_flushDevice hI.toJournalInvariant)

/-! ### Mounting, up to the superblocks -/

omit hI in
theorem keeps_readState (hI : MountInvariant I) : Keeps I readState := by
  refine .get_bind_eq fun fs hfs => triple_lift_bind (fun _ _ h => h ▸ hfs) fun block _ => ?_
  refine triple_lift_bind (fun _ _ h => h ▸ hfs) fun state _ => ?_
  exact .put (hI hfs ⟨rfl, rfl, rfl⟩)

theorem keeps_recoverVolume : Keeps I recoverVolume := by
  refine .bind (keeps_recoverJournal hI) fun _ => .get_bind fun fs _ => ?_
  refine .bind (keeps_onlyIf fun _ => keeps_readState hI.congr) fun _ => ?_
  refine get_bind fun fs' _ => ite (fun _ => keeps_reclaimOrphans hI) fun _ => ?_
  exact keeps_liftOutcome.bind fun _ => keeps_liftOutcome

theorem keeps_initializeFreeCounts : Keeps I initializeFreeCounts := by
  refine get_bind_eq fun fs hfs => triple_lift_bind (fun _ _ h => h ▸ hfs) fun state _ => ?_
  refine mono ?_
    (fun _ h => h ▸ hfs) (fun _ _ h => h) (fun _ _ h => h)
  refine ite (fun _ => .pure _) fun _ => keeps_reading.bind fun ⟨blocks, inodes⟩ => ?_
  refine ite (fun _ => ?_) fun _ => put (hI.congr hfs ⟨rfl, rfl, rfl⟩)
  refine (keeps_beginTransaction hI.congr).bind fun _ => get_bind_eq fun fs' hfs' => ?_
  refine triple_lift_bind (fun _ _ h => h ▸ hfs') fun tx _ => ?_
  exact bind (put (by exact hI.congr hfs' ⟨rfl, rfl, rfl⟩))
    fun _ => keeps_commitTransaction hI

/-- **Every operation keeps a condition that writes behind the superblocks keep.** -/
theorem Operation.keeps (op : Operation) : Keeps I op.run := by
  cases op with
  | create | mkdir | truncate | unlink | rmdir =>
    exact .bind (keeps_mutation hI _) fun _ => .pure _
  | write => exact .bind (keeps_write hI _ _ _) fun _ => .pure _
  | rename =>
    exact .bind (keeps_rename hI _ _ _ _) fun _ => .pure _
  | openNode => exact .bind (keeps_openNode hI _) fun _ => .pure _
  | closeNode => exact .bind (keeps_closeNode hI _) fun _ => .pure _
  | writeHandle =>
    exact .bind (.bind keeps_reading fun _ => keeps_write hI _ _ _) fun _ =>
      .pure _
  | sync => exact .bind (keeps_sync hI) fun _ => .pure _

end

end NullFS
