/-
**Decoding a checkpoint never fails an assertion.**

Any bytes can be given to the decoders of grants and checkpoints: they return a value or an error.

* `noTrap_decodeCheckpoint` — the decoder of checkpoints.
-/

import NullStar.PermissionRuns

set_option autoImplicit false

namespace Permission

open Rust Machine NullFS ApplicationPermissionStore List NoTrap Option

/-! ### Decoding any bytes -/

theorem ApplicationGrantRecord.noTrap_decode (bytes : List UInt8) :
    NoTrap (ApplicationGrantRecord.decode bytes) := by
  apply noTrap_sized bytes
  simp (disch := decide) only [reads_buf]
  simp [noTrap_bind]

/-- The records are read in bounds when they are all inside. -/
theorem noTrap_decodeRecords {bytes : List UInt8} {index count : ℕ}
    (h : checkpointHeaderBytes + (index + count) * applicationGrantRecordBytes ≤ bytes.length) :
    NoTrap (decodeRecords bytes index count) := by
  induction count generalizing index with
  | zero => exact noTrap_ok
  | succ count ih =>
    have hfirst : (index + 1) * applicationGrantRecordBytes ≤
        (index + (count + 1)) * applicationGrantRecordBytes := Nat.mul_le_mul_right _ (by omega)
    refine (noTrap_subslice ?_).bind fun _ _ => (ApplicationGrantRecord.noTrap_decode _).mapErr.bind
      fun _ _ => (@ih (index + 1) ?_).bind fun _ _ => noTrap_ok
    · rw [Nat.add_mul] at hfirst
      omega
    · rwa [add_right_comm, add_assoc]

theorem noTrap_restoreEach {nextGrantId nextRevision : UInt64}
    {records : List (Option ApplicationGrantRecord)} (h : none ∉ records)
    (done : List ApplicationGrantRecord) : NoTrap (restoreEach nextGrantId nextRevision done records) := by
  induction records generalizing done with
  | nil => exact noTrap_ok
  | cons slot records ih =>
    rw [mem_cons, not_or] at h
    cases slot with
    | none => exact absurd rfl h.1
    | some =>
      simp [restoreEach, checkRestored, noTrap_bind, ih h.2]

theorem noTrap_decodeCheckpoint (bytes : List UInt8) :
    NoTrap (decodeApplicationPermissionCheckpoint bytes) := by
  apply noTrap_sized bytes
  intro b
  simp (disch := decide) only [reads_buf, ok_bind]
  refine rejectIf_bind fun _ => rejectIf_bind fun _ => rejectIf_bind fun hheader =>
    rejectIf_bind fun _ => ?_
  simp only [not_or, not_not, not_lt] at hheader
  obtain ⟨-, -, hcount, -, hpayload⟩ := hheader
  -- the payload is as long as the count of records says
  have hfit : checkpointHeaderBytes + (u16At b.1 32).toNat * applicationGrantRecordBytes ≤ b.1.length := by
    rw [b.2]
    exact Nat.add_le_add_left (Nat.mul_le_mul_right _ hcount) _
  rw [hpayload, sliceFrom, if_pos hfit, sliceFrom, if_pos ((Nat.le_add_right _ _).trans hfit)]
  refine noTrap_rejectIf.bind fun _ _ => noTrap_rejectIf.bind fun _ _ =>
    (noTrap_decodeRecords (by rwa [zero_add])).bind fun records _ =>
    bind (mapErr ?_) fun _ _ => noTrap_ok
  -- the slots without a record are refused before they are looked at
  refine noTrap_rejectIf.bind fun _ hcapacity => noTrap_rejectIf.bind fun _ _ =>
    bind ?_ fun _ _ => noTrap_ok
  rw [rejectIf_eq_ok, not_or, not_or] at hcapacity
  exact noTrap_restoreEach hcapacity.2.1 []

end Permission
