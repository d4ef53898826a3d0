/-
**Byte strings, little-endian numbers and fixed-size buffers.**

Every on-disk record and every wire body of the system is a string of bytes with numbers stored in
little-endian order at fixed offsets.  This module is the part of that story that does not depend
on any particular record: numbers of a given width as byte strings, slices of a byte string, and
buffers of a fixed size that are overwritten in place.

* `ofLe_toLe`, `toLe_ofLe` — reading and writing a number are inverse to each other;
* `Buf.byteAt_put` — what a buffer holds after a copy, byte by byte;
* `Buf.ext_byteAt` — a buffer is determined by its bytes.
-/

import Mathlib.Tactic
import Mathlib.Data.List.GetD

set_option autoImplicit false

namespace Bytes

open List

/-! ### Little-endian numbers -/

/-- The `w` low bytes of `n`, the least significant first. -/
def toLe : ℕ → ℕ → List UInt8
  | 0, _ => []
  | w + 1, n => UInt8.ofNat n :: toLe w (n / 256)

/-- The number a byte string stands for, the least significant byte first. -/
def ofLe : List UInt8 → ℕ
  | [] => 0
  | b :: bs => b.toNat + 256 * ofLe bs

@[simp] theorem length_toLe (w n : ℕ) : (toLe w n).length = w := by
  induction w generalizing n with
  | zero => rfl
  | succ w ih => simp [toLe, ih]

/-- Reading a number back gives the number, cut to the width it was written with. -/
theorem ofLe_toLe (w n : ℕ) : ofLe (toLe w n) = n % 256 ^ w := by
  induction w generalizing n with
  | zero => simp [toLe, ofLe, Nat.mod_one]
  | succ w ih =>
    have hb : (UInt8.ofNat n).toNat = n % 256 := by simp
    rw [toLe, ofLe, ih, hb, pow_succ, mul_comm (256 ^ w) 256, Nat.mod_mul]

variable {w : ℕ} {b : List UInt8}

theorem ofLe_toLe_of_lt {n : ℕ} (h : n < 256 ^ w) : ofLe (toLe w n) = n := by
  rw [ofLe_toLe, Nat.mod_eq_of_lt h]

theorem ofLe_lt (bs : List UInt8) : ofLe bs < 256 ^ bs.length := by
  induction bs with
  | nil => simp [ofLe]
  | cons b bs ih =>
    have hb : b.toNat < 256 := b.toNat_lt
    simp only [ofLe, length_cons]
    omega

/-- Writing the number of a byte string with the string's own width gives the string. -/
theorem toLe_ofLe {bs : List UInt8} (h : bs.length = w) : toLe w (ofLe bs) = bs := by
  induction w generalizing bs with
  | zero => rw [length_eq_zero_iff.1 h]; rfl
  | succ w ih =>
    match bs with
    | [] => simp at h
    | b :: bs =>
      have hb : b.toNat < 256 := b.toNat_lt
      have hd : (b.toNat + 256 * ofLe bs) / 256 = ofLe bs := by omega
      have hm : .ofNat (b.toNat + 256 * ofLe bs) = b := by
        simp
      rw [ofLe, toLe, hd, hm, ih (by simpa using h)]

/-- The number read from a byte string determines it, among the strings of one length. -/
theorem ofLe_injective {bs cs : List UInt8} (hl : bs.length = cs.length) (h : ofLe bs = ofLe cs) :
    bs = cs := by
  have hb : toLe bs.length (ofLe bs) = bs := toLe_ofLe rfl
  rw [← hb, h, hl, toLe_ofLe rfl]

/-! ### Slices -/

/-- The `w` bytes of `b` from offset `o` on; fewer where `b` ends first. -/
def slice (b : List UInt8) (o w : ℕ) : List UInt8 := (b.drop o).take w

theorem length_slice (b : List UInt8) (o w : ℕ) : (slice b o w).length = min w (b.length - o) := by
  simp [slice]

theorem length_slice_of_le {o : ℕ} (h : o + w ≤ b.length) : (slice b o w).length = w := by
  rw [length_slice]
  omega

/-- A byte of a slice is the byte of the string at the shifted position. -/
theorem getD_slice {o i : ℕ} (h : i < w) : (slice b o w).getD i 0 = b.getD (o + i) 0 := by
  simp [slice, h]

/-- Byte strings of one length that agree at every position are equal. -/
theorem ext_getD {a : List UInt8} (hl : a.length = b.length)
    (h : ∀ i < b.length, a.getD i 0 = b.getD i 0) : a = b := by
  refine ext_getElem hl ?_
  intro i h1 h2
  have := h i h2
  rwa [getD_eq_getElem _ _ h1, getD_eq_getElem _ _ h2] at this

/-! ### Agreement on a range -/

/-- The two byte strings agree from position `lo` up to position `hi`. -/
def Agree (a b : List UInt8) (lo hi : ℕ) : Prop :=
  ∀ i, lo ≤ i → i < hi → a.getD i 0 = b.getD i 0

namespace Agree

variable {a b : List UInt8} {lo mid hi : ℕ}

theorem empty (h : hi ≤ lo) : Agree a b lo hi := by
  intro i h1 h2
  omega

theorem trans (h : Agree a b lo mid) (h' : Agree a b mid hi) : Agree a b lo hi := by
  intro i h1 h2
  rcases i.lt_or_ge mid with hi | hi
  · exact h i h1 hi
  · exact h' i hi h2

theorem of_slice_eq {w : ℕ} (h : slice a lo w = slice b lo w) : Agree a b lo (lo + w) := by
  intro i h1 h2
  have hi : lo + (i - lo) = i := by omega
  rw [← hi, ← getD_slice (show i - lo < w by omega), h, getD_slice (by omega)]

/-- Strings of one length that agree everywhere are equal. -/
theorem eq (hl : a.length = b.length) (h : Agree a b 0 b.length) : a = b :=
  ext_getD hl fun i hi => h i i.zero_le hi

end Agree

/-! ### Buffers -/

/-- A byte string of length `n`: the array type `[u8; n]`. -/
abbrev Buf (n : ℕ) := {b : List UInt8 // b.length = n}

namespace Buf

variable {n : ℕ}

/-- The buffer of zero bytes. -/
def zero (n : ℕ) : Buf n := ⟨List.replicate n 0, by simp⟩

/-- Copying `vs` into the buffer at offset `o`.  What would stick out beyond the end of the buffer
is cut off. -/
def put (b : Buf n) (o : ℕ) (vs : List UInt8) : Buf n :=
  ⟨(b.1.take o ++ vs ++ b.1.drop (o + vs.length)).take n, by
    have := b.2
    simp only [List.length_take, List.length_append, List.length_drop]
    omega⟩

/-- The byte at position `i`, zero beyond the end. -/
def byteAt (b : Buf n) (i : ℕ) : UInt8 := b.1.getD i 0

variable {i o w : ℕ} {vs : List UInt8} (b : Buf n)

theorem byteAt_of_ge (h : n ≤ i) : b.byteAt i = 0 := by
  simp [byteAt, getElem?_eq_none (by omega : b.1.length ≤ i)]

@[simp] theorem byteAt_zero (i : ℕ) : (zero n).byteAt i = 0 := by
  simp only [zero, byteAt, getD_eq_getElem?_getD, getElem?_replicate]
  split <;> rfl

/-- What a buffer holds after a copy. -/
theorem byteAt_put (o : ℕ) (vs : List UInt8) (hi : i < n) :
    (b.put o vs).byteAt i = if o ≤ i ∧ i < o + vs.length then vs.getD (i - o) 0 else b.byteAt i := by
  simp only [put, byteAt, getD_eq_getElem?_getD, getElem?_take, hi,
    getElem?_append, length_take, length_append, getElem?_drop]
  by_cases h1 : i < o
  · have h2 : ¬ (o ≤ i ∧ i < o + vs.length) := by omega
    simp only [h2, ↓reduceIte]
    rw [if_pos (by omega), if_pos (by omega), if_pos h1]
  · by_cases h2 : i < o + vs.length
    · simp only [h2, show o ≤ i by omega, ↓reduceIte]
      rw [if_pos (by omega), if_neg (by omega)]
      congr 3
      omega
    · simp only [h2, and_false, ↓reduceIte]
      rw [if_neg (by omega)]
      congr 3
      omega

/-- A buffer is determined by its bytes. -/
theorem ext_byteAt {a b : Buf n} (h : ∀ i < n, a.byteAt i = b.byteAt i) : a = b := by
  refine Subtype.ext (ext_getD (by omega) ?_)
  intro i hi
  exact h i (by omega)

theorem byteAt_put_of_not_mem (h : i < o ∨ o + vs.length ≤ i) : (b.put o vs).byteAt i = b.byteAt i := by
  by_cases hi : i < n
  · rw [byteAt_put b o vs hi, if_neg (by omega)]
  · rw [byteAt_of_ge _ (by omega), byteAt_of_ge _ (by omega)]

/-- A byte of a slice of a buffer. -/
theorem getD_slice_byteAt (h : i < w) : (slice b.1 o w).getD i 0 = b.byteAt (o + i) := getD_slice h

theorem length_slice (h : o + w ≤ n) : (slice b.1 o w).length = w := length_slice_of_le (by rw [b.2]; exact h)

theorem slice_one (h : i < n) : slice b.1 i 1 = [b.byteAt i] := by
  have hl := b.length_slice (show i + 1 ≤ n from h)
  refine ext_getD hl fun j hj => ?_
  obtain rfl : j = 0 := by simpa using hj
  rw [b.getD_slice_byteAt (by decide)]
  rfl

/-- Reading the range that was just written gives what was written. -/
theorem slice_put_self (h : o + vs.length ≤ n) : slice (b.put o vs).1 o vs.length = vs := by
  refine ext_getD (length_slice _ h) ?_
  intro i hi
  rw [getD_slice_byteAt _ hi, byteAt_put _ _ _ (by omega), if_pos (by omega)]
  congr 1
  omega

/-- Reading a range that a copy did not touch. -/
theorem slice_put_of_disjoint {o' : ℕ} (hw : o' + w ≤ n) (h : o' + w ≤ o ∨ o + vs.length ≤ o') :
    slice (b.put o vs).1 o' w = slice b.1 o' w := by
  refine ext_getD (by rw [length_slice _ hw, length_slice _ hw]) ?_
  intro i hi
  rw [length_slice _ hw] at hi
  rw [getD_slice_byteAt _ hi, getD_slice_byteAt _ hi]
  exact byteAt_put_of_not_mem b (by omega)

/-- Writing back what was read changes nothing. -/
theorem put_slice_self (h : o + w ≤ n) : b.put o (slice b.1 o w) = b := by
  refine ext_byteAt fun i hi => ?_
  rw [byteAt_put _ _ _ hi, length_slice b h]
  split
  · rename_i hr
    rw [getD_slice_byteAt _ (by omega)]
    congr 1
    omega
  · rfl

/-- The second of two copies to the same range wins. -/
theorem put_put_self {ws : List UInt8} (h : vs.length = ws.length) : (b.put o vs).put o ws = b.put o ws := by
  refine ext_byteAt fun i hi => ?_
  rw [byteAt_put _ _ _ hi, byteAt_put _ _ _ hi, byteAt_put _ _ _ hi, h]
  split <;> rfl

end Buf

end Bytes
