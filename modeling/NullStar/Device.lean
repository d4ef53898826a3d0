/-
**Media that lose power.**

A device keeps its blocks in two places: what has been flushed survives, and the writes since the last
flush are only pending.  Reads see the pending writes.  When power fails, every block independently
holds either what was flushed last or the image of one of the pending writes to it, so the contents
after a crash are the flushed contents with an arbitrary part of the pending writes applied.  Power
fails at a write or a flush that the caller cannot foresee: the device counts the operations that still
succeed.

A slot is written as a whole.  Until the write has been synchronized it may hold the new content, any
content it could hold before, or something torn.

* `Device.attempt_cases` — an operation fails without an effect, or takes effect;
* `Durable.Slot.mayHold_write`, `Durable.Slot.mayHold_settles` — what can be found in a slot later.
-/

import Mathlib.Tactic
import Mathlib.Logic.Function.Basic

set_option autoImplicit false

namespace Storage

variable {β : Type}

/-! ### Writes -/

/-- A write of one whole block. -/
structure BlockWrite (β : Type) where
  block : ℕ
  image : β

/-- The contents with writes applied; the first write of the list is the latest. -/
def overlay : List (BlockWrite β) → (ℕ → β) → ℕ → β
  | [], contents => contents
  | w :: ws, contents => Function.update (overlay ws contents) w.block w.image

/-! ### Devices -/

/-- A block device with pending writes.  `fuel` is the number of writes and flushes that still
succeed before power fails, if it fails at all.  `history` records every write of a block together
with the contents the write found; no operation looks at it. -/
structure Device (β : Type) where
  blockCount : ℕ
  durable : ℕ → β
  epoch : List (BlockWrite β) := []
  fuel : Option ℕ := none
  crashed : Bool := false
  history : List (BlockWrite β × (ℕ → β)) := []

namespace Device

variable (d : Device β)

/-- What a read sees. -/
def contents : ℕ → β := overlay d.epoch d.durable

/-- Spending one operation; `none` when power fails. -/
def tick : Option (Device β) :=
  match d.fuel with
  | none => some d
  | some 0 => none
  | some (n + 1) => some { d with fuel := some n }

/-- A pending write. -/
def push (w : BlockWrite β) : Device β :=
  { d with epoch := w :: d.epoch, history := (w, d.contents) :: d.history }

/-- Everything pending becomes durable. -/
def settle : Device β := { d with durable := d.contents, epoch := [] }

variable (effect : Device β → Device β)

/-- An operation that takes effect unless power has failed or fails now. -/
def attempt : Bool × Device β :=
  if d.crashed then (false, d)
  else match d.tick with
    | none => (false, { d with crashed := true })
    | some d => (true, effect d)

/-- A write of one block; the result says whether it succeeded. -/
def write (w : BlockWrite β) : Bool × Device β := d.attempt (·.push w)

/-- A flush; the result says whether it succeeded. -/
def flush : Bool × Device β := d.attempt settle

/-- A read, which fails once power has failed. -/
def read (b : ℕ) : Option β := if d.crashed then none else some (d.contents b)

theorem tick_eq_some {d d' : Device β} (h : d.tick = some d') : ∃ fuel, d' = { d with fuel := fuel } := by
  unfold tick at h
  split at h
  case h_1 hf => exact ⟨d.fuel, (Option.some.inj h).symm⟩
  case h_2 => cases h
  case h_3 n _ => exact ⟨some n, (Option.some.inj h).symm⟩

/-- An operation leaves the device alone but for its fuel and whether power has failed, or takes
effect. -/
theorem attempt_cases : (∃ crashed, d.attempt effect = (false, { d with crashed := crashed })) ∨
      ∃ fuel, d.attempt effect = (true, effect { d with fuel := fuel }) := by
  unfold attempt
  split
  · exact .inl ⟨d.crashed, rfl⟩
  · cases h : d.tick with
    | none => exact .inl ⟨true, rfl⟩
    | some =>
      obtain ⟨fuel, rfl⟩ := tick_eq_some h
      exact .inr ⟨fuel, rfl⟩

/-! ### Contents after a crash -/

/-- The contents power may come back with: every block holds what was flushed last, or the image of
a pending write to it. -/
def CrashImage (image : ℕ → β) : Prop :=
  ∀ b, image b = d.durable b ∨ ∃ w ∈ d.epoch, w.block = b ∧ image b = w.image

/-- The device after power has come back with the given contents. -/
def restart (image : ℕ → β) (fuel : Option ℕ) : Device β :=
  { d with durable := image, epoch := [], fuel := fuel, crashed := false }

end Device

end Storage

namespace Durable

/-- A slot holds what was synchronized, or what was written last or something older. -/
inductive Slot (α : Type) where
  | settled (image : α)
  | pending (image : α) (older : List α)

namespace Slot

variable {α : Type} {torn : α → Prop} {slot slot' : Slot α} {x y : α}

/-- The content is one that a read can find, where `torn` tells torn contents. -/
def MayHold (torn : α → Prop) : Slot α → α → Prop
  | .settled x, y => y = x
  | .pending x older, y => y = x ∨ y ∈ older ∨ torn y

def write (x : α) : Slot α → Slot α
  | .settled y => .pending x [y]
  | .pending y older => .pending x (y :: older)

def sync : Slot α → Slot α
  | .settled x => .settled x
  | .pending x _ => .settled x

/-- What a crash makes of a slot. -/
def Settles (torn : α → Prop) (slot slot' : Slot α) : Prop :=
  ∃ y, slot.MayHold torn y ∧ slot' = .settled y

/-- What was written last. -/
def last : Slot α → α
  | .settled x => x
  | .pending x _ => x

@[simp] theorem last_settled : (settled x).last = x := rfl

@[simp] theorem last_pending (older : List α) : (pending x older).last = x := rfl

theorem mayHold_last (slot : Slot α) : slot.MayHold torn slot.last := by
  cases slot with
  | settled => rfl
  | pending => exact .inl rfl

@[simp] theorem mayHold_settled : (settled x).MayHold torn y ↔ y = x := .rfl

theorem mayHold_write (h : (slot.write x).MayHold torn y) : y = x ∨ slot.MayHold torn y ∨ torn y := by
  cases slot with
  | settled =>
    rcases h with h | h | h
    · exact .inl h
    · exact .inr (.inl (List.mem_singleton.1 h))
    · exact .inr (.inr h)
  | pending =>
    rcases h with h | h | h
    · exact .inl h
    · rcases List.mem_cons.1 h with h | h
      · exact .inr (.inl (.inl h))
      · exact .inr (.inl (.inr (.inl h)))
    · exact .inr (.inr h)

@[simp] theorem sync_write (slot : Slot α) : (slot.write x).sync = .settled x := by
  cases slot <;> rfl

theorem mayHold_settles (hs : slot.Settles torn slot') (h : slot'.MayHold torn y) : slot.MayHold torn y := by
  obtain ⟨z, hz, rfl⟩ := hs
  rw [h]
  exact hz

/-- A crash does not change what was synchronized. -/
theorem Settles.of_settled (h : (settled x).Settles torn slot') : slot' = settled x := by
  obtain ⟨z, rfl, hslot⟩ := h
  exact hslot

end Slot

end Durable
