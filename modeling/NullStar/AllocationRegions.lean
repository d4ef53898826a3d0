/-
**Where an allocation group keeps its metadata.**

A group has two bitmap blocks, an inode table and a range of data blocks.  The check of a descriptor
compares the bitmaps with each other and with the inode table, and the data with the inode table, but
not the bitmaps with the data.  So a bitmap may lie among the data blocks, and then it is handed out as
a data block.  The regions of a group are separate exactly if both bitmaps lie before the data.

* `AllocationGroupDescriptor.regions` — the four regions of a group;
* `regions_separate_iff` — when regions are separate, and what is allocated then;
* `bitmap_allocated` — a bitmap that is handed out as a data block.
-/

import Mathlib
import NullStar.DirtyFirst

set_option autoImplicit false

namespace NullFS

open Rust Bytes AllocationGroupDescriptor

variable {sb : Superblock} {d : AllocationGroupDescriptor} {table : AllocationGroupTable} {fs : Filesystem}

namespace AllocationGroupDescriptor

section

variable (d : AllocationGroupDescriptor)

def inodeTable : Set ℕ :=
  Set.Ico d.inodeTableFirstBlock.toNat (d.inodeTableFirstBlock.toNat + d.inodeTableBlockCount.toNat)

/-- The blocks that hold allocation metadata. -/
def metadata : Set ℕ :=
  {d.blockBitmapBlock.toNat, d.inodeBitmapBlock.toNat} ∪ d.inodeTable

def regions : List (Set ℕ) :=
  [{d.blockBitmapBlock.toNat}, {d.inodeBitmapBlock.toNat}, d.inodeTable,
    Set.Ico d.firstDataBlock.toNat d.dataEndBlock.toNat]

end

/-- The regions do not meet, lie inside the group, and leave the blocks before the first allocatable
one alone. -/
structure Separate (sb : Superblock) (d : AllocationGroupDescriptor) : Prop where
  disjoint : d.regions.Pairwise Disjoint
  inside : ∀ region ∈ d.regions, region ⊆
    Set.Ico (max d.groupStartBlock.toNat sb.firstAllocatableBlock.toNat)
      (d.groupStartBlock.toNat + d.groupBlockCount.toNat)

/-- Both bitmaps lie before the data. -/
def BitmapsFirst (d : AllocationGroupDescriptor) : Prop :=
  d.blockBitmapBlock < d.firstDataBlock ∧ d.inodeBitmapBlock < d.firstDataBlock

theorem mem_metadata {block : ℕ} : block ∈ d.metadata ↔
    (block = d.blockBitmapBlock.toNat ∨ block = d.inodeBitmapBlock.toNat) ∨
    d.inodeTableFirstBlock.toNat ≤ block ∧
      block < d.inodeTableFirstBlock.toNat + d.inodeTableBlockCount.toNat := .rfl

/-- What the check of a descriptor establishes about its blocks. -/
structure Geometry (sb : Superblock) (d : AllocationGroupDescriptor) : Prop where
  start : d.groupStartBlock.toNat = d.groupIndex.toNat * sb.allocationGroupBlocks.toNat
  count : d.groupBlockCount.toNat ≤ sb.allocationGroupBlocks.toNat
  stop : d.dataEndBlock.toNat = d.groupStartBlock.toNat + d.groupBlockCount.toNat
  inside : ∀ block ∈ d.metadata,
    max d.groupStartBlock.toNat sb.firstAllocatableBlock.toNat ≤ block ∧ block < d.dataEndBlock.toNat
  bitmaps : d.blockBitmapBlock.toNat ≠ d.inodeBitmapBlock.toNat ∧ d.blockBitmapBlock.toNat ∉ d.inodeTable ∧
    d.inodeBitmapBlock.toNat ∉ d.inodeTable
  data : max d.groupStartBlock.toNat sb.firstAllocatableBlock.toNat ≤ d.inodeTableFirstBlock.toNat ∧
    d.inodeTableFirstBlock.toNat + d.inodeTableBlockCount.toNat ≤ d.firstDataBlock.toNat

theorem geometry_of_validate (h : d.validate sb = .ok ()) : d.Geometry sb := by
  simp only [validate, run_eq_ok, checkedMul_eq_some, checkedSub_eq_some, checkedAdd_eq_some,
    trapAdd_eq_ok, not_or, not_not, UInt64.le_iff_toNat_le, ← UInt64.toNat_inj] at h
  obtain ⟨-, _, ⟨-, rfl⟩, _, ⟨-, rfl⟩, _, ⟨-, rfl⟩, ⟨hstart, hcount, -, -, -, hstop⟩, _, ⟨-, rfl⟩,
  _, ⟨-, rfl⟩, hrest⟩ := h
  rw [← hstart] at hcount
  simp only [← hstart] at hstop hrest
  constructor
  case inside =>
    intro block hblock
    simp only [mem_metadata] at hblock
    omega
  case bitmaps =>
    simp only [inodeTable, Set.mem_Ico]
    omega
  all_goals omega

theorem Geometry.separate_iff (h : d.Geometry sb) : d.Separate sb ↔ d.BitmapsFirst := by
  obtain ⟨-, -, hstop, hinside, hbitmaps, hdata⟩ := h
  have hblock := hinside d.blockBitmapBlock.toNat (mem_metadata.2 (by simp))
  have hinode := hinside d.inodeBitmapBlock.toNat (mem_metadata.2 (by simp))
  rw [BitmapsFirst, UInt64.lt_iff_toNat_lt, UInt64.lt_iff_toNat_lt]
  constructor
  · intro hs
    have hdisjoint := hs.disjoint
    simp only [regions, List.pairwise_cons, List.mem_cons, forall_eq_or_imp, Set.disjoint_singleton_left,
      Set.mem_Ico] at hdisjoint
    omega
  · intro hfirst
    simp only [inodeTable, mem_metadata] at hbitmaps hinside
    constructor <;> simp only [regions, inodeTable, List.pairwise_cons]
    all_goals grind

/-- Different groups do not meet. -/
theorem Geometry.disjoint {d' : AllocationGroupDescriptor} (h : d.Geometry sb) (h' : d'.Geometry sb)
    (hne : d.groupIndex ≠ d'.groupIndex) {block : ℕ}
    (hblock : d.groupStartBlock.toNat ≤ block ∧ block < d.dataEndBlock.toNat) :
    block < d'.groupStartBlock.toNat ∨ d'.dataEndBlock.toNat ≤ block := by
  obtain ⟨hstart, hcount, hstop, -⟩ := h
  obtain ⟨hstart', hcount', hstop', -⟩ := h'
  rcases Nat.lt_or_gt_of_ne (mt UInt32.toNat_inj.1 hne) with hlt | hlt
  all_goals
    have hmul := Nat.mul_le_mul_right sb.allocationGroupBlocks.toNat hlt
    rw [Nat.succ_mul] at hmul
    omega

end AllocationGroupDescriptor

/-- The groups of a table, as a mount reads them. -/
def AllocationGroupTable.groups (table : AllocationGroupTable) : List AllocationGroupDescriptor :=
  (List.ofFn table.descriptors).take table.descriptorCount.toNat

theorem AllocationGroupTable.groups_of_validate (h : table.validate sb = .ok ()) (hd : d ∈ table.groups) :
    d.validate sb = .ok () ∧ ∀ d' ∈ table.groups, d'.groupIndex = d.groupIndex → d' = d := by
  have hfound : ∀ {d}, d ∈ table.groups → ∃ i : Fin _, d = table.descriptors i ∧
      d.groupIndex.toNat = table.firstDescriptorIndex.toNat + i ∧ d.validate sb = .ok () := by
    intro d hd
    obtain ⟨i, hi, rfl⟩ := List.mem_take_iff_getElem.1 hd
    rw [lt_inf_iff] at hi
    simp only [validate, run_eq_ok] at h
    obtain ⟨-, _, -, -, _, -, -, _, hused, -⟩ := h
    rw [each_eq_ok] at hused
    have hi := hused ⟨i, hi.2⟩ (List.mem_filter.2 ⟨List.mem_finRange _, by simpa using hi.1⟩)
    simp only [checkDescriptor, run_eq_ok, trapAdd_eq_ok, not_not] at hi
    obtain ⟨_, ⟨-, rfl⟩, hindex, hvalid⟩ := hi
    exact ⟨⟨i, _⟩, List.getElem_ofFn .., by rw [List.getElem_ofFn, hindex], by rwa [List.getElem_ofFn]⟩
  obtain ⟨i, rfl, hi, hvalid⟩ := hfound hd
  refine ⟨hvalid, fun d' hd' heq => ?_⟩
  obtain ⟨j, rfl, hj, -⟩ := hfound hd'
  rw [heq, hi] at hj
  rw [Fin.ext (Nat.add_left_cancel hj)]

theorem stage_bind_eq_ok {α β : Type} {x : StageM α} {f : α → StageM β} {tx : Transaction}
    {r : β × Transaction} : (x >>= f) tx = .ok r ↔ ∃ a tx', x tx = .ok (a, tx') ∧ f a tx' = .ok r := by
  change (x tx >>= fun p => f p.1 p.2) = .ok r ↔ _
  rw [bind_eq_ok, Prod.exists]

theorem Filesystem.allocateDataBlock_data {tx tx' : Transaction} {physical : ℕ}
    (h : fs.allocateDataBlock tx = .ok (physical, tx')) :
    ∃ d ∈ fs.groups, d.firstDataBlock.toNat ≤ physical ∧ physical < d.dataEndBlock.toNat := by
  unfold allocateDataBlock at h
  generalize fs.groups = groups at h
  induction groups generalizing tx with
  | nil => cases h
  | cons d rest ih =>
    rw [allocateDataBlockIn, stage_bind_eq_ok] at h
    obtain ⟨bitmap, tx, -, h⟩ := h
    cases hfind : (dataBlocks d).find? fun b => bitmapTest bitmap (blockBit d b) = some false with
    | none =>
      rw [hfind] at h
      obtain ⟨d, hd, hdata⟩ := ih h
      exact ⟨d, List.mem_cons_of_mem _ hd, hdata⟩
    | some block =>
      simp only [hfind, stage_bind_eq_ok] at h
      obtain ⟨_, _, -, _, _, -, _, _, -, h⟩ := h
      cases h
      have hmem := List.mem_range'_1.1 (List.mem_of_find?_eq_some hfind)
      exact ⟨d, List.mem_cons_self, by omega⟩

/-- **The regions of a group are separate, and no block of metadata is handed out, exactly if the
bitmaps lie before the data.** -/
theorem regions_separate_iff (sb : Superblock) :
    (∀ d : AllocationGroupDescriptor, d.validate sb = .ok () → (d.Separate sb ↔ d.BitmapsFirst)) ∧
    ∀ table : AllocationGroupTable, table.validate sb = .ok () →
      (((∀ d ∈ table.groups, d.Separate sb) ∧ ∀ fs : Filesystem, fs.groups = table.groups → ∀ tx physical tx',
        fs.allocateDataBlock tx = .ok (physical, tx') → ∀ d ∈ table.groups, physical ∉ d.metadata) ↔
      ∀ d ∈ table.groups, d.BitmapsFirst) := by
  refine ⟨fun d h => (geometry_of_validate h).separate_iff, fun table h => ?_⟩
  have hgeometry {d} (hd : d ∈ table.groups) := geometry_of_validate (table.groups_of_validate h hd).1
  constructor
  · exact fun hs d hd => (hgeometry hd).separate_iff.1 (hs.1 d hd)
  · intro hfirst
    refine ⟨fun d hd => (hgeometry hd).separate_iff.2 (hfirst d hd),
      fun fs hgroups tx physical tx' halloc d hd hmeta => ?_⟩
    obtain ⟨d', hd', hdata⟩ := fs.allocateDataBlock_data halloc
    rw [hgroups] at hd'
    have hinside := (hgeometry hd).inside physical hmeta
    have hdata' := (hgeometry hd').data
    by_cases hindex : d'.groupIndex = d.groupIndex
    · -- the data of a group lie behind its metadata
      obtain rfl := (table.groups_of_validate h hd).2 d' hd' hindex
      have hbefore := hfirst d' hd
      rw [BitmapsFirst, UInt64.lt_iff_toNat_lt, UInt64.lt_iff_toNat_lt] at hbefore
      rw [mem_metadata] at hmeta
      omega
    · have hapart := (hgeometry hd').disjoint (hgeometry hd) hindex ⟨by omega, hdata.2⟩
      omega

theorem regions_separate_replay : Replay.group.Separate Replay.superblock ∧
    ∀ d ∈ Replay.table.groups, d.Separate Replay.superblock := by
  have hfirst : Replay.group.BitmapsFirst := ⟨by decide, by decide⟩
  obtain ⟨hgroup, htable⟩ := regions_separate_iff Replay.superblock
  refine ⟨(hgroup _ (by decide +kernel)).2 hfirst, ((htable _ Replay.validate_table).2 fun d hd => ?_).1⟩
  rwa [List.mem_singleton.1 hd]

/-- A group whose block bitmap is its first data block. -/
def strayGroup : AllocationGroupDescriptor :=
  { Replay.group with blockBitmapBlock := 168 }

/-- A volume with that group only, on a device without any data. -/
def strayVolume : Filesystem :=
  .unrecovered { blockCount := 256, durable := fun _ => Buf.zero blockSize } Replay.superblock
  [strayGroup] .readWrite

theorem bitmap_allocated : Replay.superblock.validate (some (256 * blockSize)) .readOnly = .ok () ∧
    strayGroup.validate Replay.superblock = .ok () ∧ ¬ strayGroup.Separate Replay.superblock ∧
    ∃ tx tx', strayVolume.allocateDataBlock tx = .ok (168, tx') ∧ strayGroup.blockBitmapBlock = 168 := by
  have hvalid : strayGroup.validate Replay.superblock = .ok () := by decide +kernel
  refine ⟨Replay.validate_superblock _ (.inr rfl), hvalid, fun h => ?_, .new 1 Replay.oldState, _, rfl, rfl⟩
  exact absurd ((geometry_of_validate hvalid).separate_iff.1 h).1 (by decide)

end NullFS
