/-
**Computations that return, fail or trap.**

A function of the modelled code returns a value, returns an error, or traps: an index beyond the end
of a slice and an arithmetic overflow abort the computation.  The two kinds of failure are kept
apart, so that "this function never traps" is a statement about the model and not a convention of
it.

* `each`, `tabulate` — a loop over a list, and an array computed element by element;
* `bind_eq_ok` — a sequence of two computations returns exactly when both do;
* `NoTrap.bind` — a sequence does not trap when neither part does;
* `toLe_u64At`, `u64At_of_slice` and their narrower companions — the words read from a
  byte string.
-/

import NullStar.Bytes

set_option autoImplicit false

namespace Rust

open Bytes List

/-! ### Outcomes -/

/-- How a computation fails: with an error of its own, or by a trap. -/
inductive Fault (ε : Type) where
  | err (e : ε)
  | trap
  deriving DecidableEq

/-- The result of a computation with errors in `ε`. -/
abbrev Outcome (ε α : Type) := Except (Fault ε) α

instance {ε α : Type} [DecidableEq ε] [DecidableEq α] : DecidableEq (Outcome ε α)
  | .ok a, .ok b => if h : a = b then .isTrue (by rw [h]) else .isFalse (by simpa using h)
  | .error a, .error b => if h : a = b then .isTrue (by rw [h]) else .isFalse (by simpa using h)
  | .ok _, .error _ => .isFalse (by simp)
  | .error _, .ok _ => .isFalse (by simp)

section

variable {ε α β : Type}

/-- Returning an error. -/
def fail (e : ε) : Outcome ε α := .error (.err e)

def trapped : Outcome ε α := .error .trap

/-- Returning an error when the condition holds. -/
def rejectIf (p : Prop) [Decidable p] (e : ε) : Outcome ε Unit := if p then fail e else .ok ()

/-- The value, or an error when there is none. -/
def okOr (o : Option α) (e : ε) : Outcome ε α :=
  match o with
  | some a => .ok a
  | none => fail e

@[simp] theorem fail_ne_ok (e : ε) (a : α) : (fail e : Outcome ε α) ≠ .ok a := by simp [fail]

@[simp] theorem trapped_ne_ok (a : α) : (trapped : Outcome ε α) ≠ .ok a := by simp [trapped]

variable {e : ε} {p : Prop} {a : α} {f : α → Outcome ε β} {x : Outcome ε α}

@[simp] theorem rejectIf_eq_ok [Decidable p] {u : Unit} : rejectIf p e = .ok u ↔ ¬ p := by
  unfold rejectIf
  split <;> simp_all

theorem rejectIf_of_not [Decidable p] (h : ¬ p) : rejectIf p e = .ok () :=
  if_neg h

@[simp] theorem okOr_some (a : α) (e : ε) : okOr (some a) e = .ok a := rfl

@[simp] theorem okOr_none (e : ε) : okOr (none : Option α) e = fail e := rfl

@[simp] theorem okOr_eq_ok {o : Option α} : okOr o e = .ok a ↔ o = some a := by
  cases o <;> simp

theorem ite_fail_eq_ok [Decidable p] {a b : α} : (if p then .ok a else fail e : Outcome ε α) = .ok b ↔
    p ∧ a = b := by
  split <;> simp [*]

/-- A value whose construction needs a condition. -/
theorem dite_eq_ok [Decidable p] {g : p → α} :
    (if h : p then .ok (g h) else fail e : Outcome ε α) = .ok a ↔ ∃ h, a = g h := by
  split_ifs with h
  · exact ⟨fun ha => ⟨h, (Except.ok.inj ha).symm⟩, fun ⟨_, ha⟩ => ha ▸ rfl⟩
  · exact ⟨fun ha => absurd ha (fail_ne_ok e a), fun ⟨hp, _⟩ => absurd hp h⟩

/-- A value that is made when a check passes. -/
def checked : (check : Except ε Unit) → (check = .ok () → α) → Except ε α
  | .ok (), make => .ok (make rfl)
  | .error e, _ => .error e

theorem checked_eq_ok {check : Except ε Unit} {make : check = .ok () → α} :
    checked check make = .ok a ↔ ∃ h, make h = a := by
  cases check with
  | ok => exact ⟨fun ha => ⟨rfl, Except.ok.inj ha⟩, fun ⟨_, ha⟩ => congrArg _ ha⟩
  | error => exact ⟨nofun, fun ⟨h, _⟩ => nomatch h⟩

/-- A result with errors of another type. -/
def ofExcept {ε' : Type} (f : ε' → ε) : Except ε' α → Outcome ε α
  | .ok a => .ok a
  | .error e => fail (f e)

theorem ofExcept_eq_ok {ε' : Type} {f : ε' → ε} {x : Except ε' α} : ofExcept f x = .ok a ↔ x = .ok a := by
  cases x <;> simp [ofExcept]

/-- A sequence of two computations returns exactly when both do. -/
theorem bind_eq_ok {b : β} : (x >>= f) = .ok b ↔ ∃ a, x = .ok a ∧ f a = .ok b := by
  cases x with
  | ok | error => simp [bind, Except.bind]

theorem bind_eq_err {e : Fault ε} :
    (x >>= f) = .error e ↔ x = .error e ∨ ∃ a, x = .ok a ∧ f a = .error e := by
  cases x <;> simp [bind, Except.bind]

@[simp] theorem rejectIf_eq_err [Decidable p] {e' : ε} : rejectIf p e = .error (.err e') ↔ p ∧ e = e' := by
  unfold rejectIf
  split <;> simp_all [fail]

@[simp] theorem okOr_eq_err {o : Option α} {e' : ε} : okOr o e = .error (.err e') ↔ o = none ∧ e = e' := by
  cases o <;> simp [okOr, fail]

@[simp] theorem fail_bind (e : ε) (f : α → Outcome ε β) : ((fail e : Outcome ε α) >>= f) = fail e := rfl

@[simp] theorem ok_bind (a : α) (f : α → Outcome ε β) : ((.ok a : Outcome ε α) >>= f) = f a := rfl

@[simp] theorem pure_eq_ok (a : α) : (pure a : Outcome ε α) = .ok a := rfl

theorem return_eq_ok {a b : α} : (pure a : Outcome ε α) = .ok b ↔ a = b := Except.ok.injEq a b ▸ .rfl

/-- A step that is taken only under a condition. -/
def onlyIf {m : Type → Type} [Monad m] (p : Prop) [Decidable p] (x : m Unit) : m Unit :=
  if p then x else pure ()

/-- The computation with its errors converted. -/
def mapErr {ε' : Type} (f : ε → ε') (x : Outcome ε α) : Outcome ε' α :=
  match x with
  | .ok a => .ok a
  | .error (.err e) => fail (f e)
  | .error .trap => trapped

@[simp] theorem mapErr_eq_ok {ε' : Type} {f : ε → ε'} : mapErr f x = .ok a ↔ x = .ok a := by
  match x with
  | .ok b => simp [mapErr]
  | .error (.err e) => simp [mapErr]
  | .error .trap => simp [mapErr]

/-- When a run returns: the rules for the combinators it is made of. -/
theorem run_eq_ok : (∀ {ε α β : Type} {x : Outcome ε α} {f : α → Outcome ε β} {b : β},
      (x >>= f) = .ok b ↔ ∃ a, x = .ok a ∧ f a = .ok b) ∧
    (∀ {ε : Type} {p : Prop} [Decidable p] {e : ε} {u : Unit}, rejectIf p e = .ok u ↔ ¬ p) ∧
    (∀ {ε α : Type} {o : Option α} {e : ε} {a : α}, okOr o e = .ok a ↔ o = some a) ∧
    (∀ {ε α : Type} {a b : α}, (pure a : Outcome ε α) = .ok b ↔ a = b) ∧
    (∀ {ε ε' α : Type} {f : ε → ε'} {x : Outcome ε α} {a : α}, mapErr f x = .ok a ↔ x = .ok a) ∧
    (∀ {p : Prop}, (∃ _ : Unit, p) ↔ p) :=
  ⟨bind_eq_ok, rejectIf_eq_ok, okOr_eq_ok, return_eq_ok, mapErr_eq_ok, exists_const Unit⟩

@[simp] theorem mapErr_ok {ε' : Type} (f : ε → ε') (a : α) : mapErr f (.ok a : Outcome ε α) = .ok a := rfl

/-! ### Absence of traps -/

/-- The computation does not trap. -/
def NoTrap (x : Outcome ε α) : Prop := x ≠ .error .trap

@[simp] theorem noTrap_ok {a : α} : NoTrap (.ok a : Outcome ε α) := by simp [NoTrap]

@[simp] theorem noTrap_fail {e : ε} : NoTrap (fail e : Outcome ε α) := by simp [NoTrap, fail]

@[simp] theorem noTrap_rejectIf {p : Prop} [Decidable p] {e : ε} : NoTrap (rejectIf p e) := by
  unfold rejectIf
  split <;> simp

@[simp] theorem noTrap_okOr {o : Option α} {e : ε} : NoTrap (okOr o e) := by
  cases o <;> simp

theorem noTrap_ofExcept {ε' : Type} (f : ε' → ε) (x : Except ε' α) : NoTrap (ofExcept f x) := by
  cases x <;> simp [ofExcept]

theorem NoTrap.mapErr {ε' : Type} {f : ε → ε'} (h : NoTrap x) : NoTrap (mapErr f x) := by
  match x with
  | .ok a => exact noTrap_ok
  | .error (.err e) => exact noTrap_fail
  | .error .trap => exact absurd rfl h

/-- A sequence does not trap when its first part does not and, for every value this part returns,
neither does the second. -/
theorem NoTrap.bind (hx : NoTrap x) (hf : ∀ a, x = .ok a → NoTrap (f a)) : NoTrap (x >>= f) := by
  cases x with
  | ok a => exact hf a rfl
  | error e =>
    intro h
    have he : (.error e : Outcome ε β) = .error .trap := h
    exact hx (by rw [Except.error.inj he])

theorem noTrap_bind : NoTrap (x >>= f) ↔ NoTrap x ∧ ∀ a, x = .ok a → NoTrap (f a) := by
  refine ⟨fun h => ⟨?_, ?_⟩, fun h => h.1.bind h.2⟩
  · rintro rfl
    exact h rfl
  · rintro a rfl
    exact h

/-- A rejection guards the rest of the sequence. -/
theorem NoTrap.rejectIf_bind [Decidable p] {f : Unit → Outcome ε β} (hf : ¬ p → NoTrap (f ())) :
    NoTrap (rejectIf p e >>= f) :=
  noTrap_rejectIf.bind fun _ h => hf (rejectIf_eq_ok.1 h)

theorem NoTrap.ite [Decidable p] {y : Outcome ε α} (hx : p → NoTrap x) (hy : ¬ p → NoTrap y) :
    NoTrap (if p then x else y) := by
  split
  · exact hx ‹_›
  · exact hy ‹_›

end

/-! ### Checked arithmetic -/

/-- Addition of `w`-bit numbers, `none` on overflow. -/
def checkedAdd (w a b : ℕ) : Option ℕ := if a + b < 2 ^ w then some (a + b) else none

/-- Multiplication of `w`-bit numbers, `none` on overflow. -/
def checkedMul (w a b : ℕ) : Option ℕ := if a * b < 2 ^ w then some (a * b) else none

/-- Subtraction of unsigned numbers, `none` below zero. -/
def checkedSub (a b : ℕ) : Option ℕ := if b ≤ a then some (a - b) else none

/-- Addition of `w`-bit numbers that traps on overflow. -/
def trapAdd {ε : Type} (w a b : ℕ) : Outcome ε ℕ := if a + b < 2 ^ w then .ok (a + b) else trapped

/-- Subtraction of unsigned numbers that traps below zero. -/
def trapSub {ε : Type} (a b : ℕ) : Outcome ε ℕ := if b ≤ a then .ok (a - b) else trapped

variable {a b c w o : ℕ}

@[simp] theorem checkedAdd_eq_some : checkedAdd w a b = some c ↔ a + b < 2 ^ w ∧ c = a + b := by
  unfold checkedAdd
  split <;> simp_all [eq_comm]

@[simp] theorem checkedMul_eq_some : checkedMul w a b = some c ↔ a * b < 2 ^ w ∧ c = a * b := by
  unfold checkedMul
  split <;> simp_all [eq_comm]

@[simp] theorem checkedSub_eq_some : checkedSub a b = some c ↔ b ≤ a ∧ c = a - b := by
  unfold checkedSub
  split <;> simp_all [eq_comm]

/-- Addition of 64-bit words, `none` on overflow. -/
def checkedAddU64 (a b : UInt64) : Option UInt64 :=
  if a.toNat + b.toNat < 2 ^ 64 then some (a + b) else none

theorem checkedAddU64_eq_some {a b c : UInt64} :
    checkedAddU64 a b = some c ↔ c.toNat = a.toNat + b.toNat := by
  unfold checkedAddU64
  constructor
  · intro h
    split at h
    · next hlt =>
        rw [← Option.some.inj h, UInt64.toNat_add, Nat.mod_eq_of_lt hlt]
    · simp at h
  · intro h
    have hlt : a.toNat + b.toNat < 2 ^ 64 := h ▸ c.toNat_lt
    rw [if_pos hlt]
    congr 1
    refine UInt64.toNat.inj ?_
    rw [UInt64.toNat_add, Nat.mod_eq_of_lt hlt, h]

theorem checkedAddU64_one {a : UInt64} (h : a.toNat + 1 < 2 ^ 64) : checkedAddU64 a 1 = some (a + 1) :=
  if_pos h

theorem trapAdd_of_lt {ε : Type} (h : a + b < 2 ^ w) : (trapAdd w a b : Outcome ε ℕ) = .ok (a + b) := if_pos h

theorem trapAdd_eq_ok {ε : Type} : (trapAdd w a b : Outcome ε ℕ) = .ok c ↔ a + b < 2 ^ w ∧ c = a + b := by
  unfold trapAdd
  split <;> simp_all [eq_comm, trapped]

theorem noTrap_trapAdd {ε : Type} (h : a + b < 2 ^ w) : NoTrap (trapAdd w a b : Outcome ε ℕ) := by
  rw [trapAdd_of_lt h]
  simp

theorem trapSub_of_le {ε : Type} (h : b ≤ a) : (trapSub a b : Outcome ε ℕ) = .ok (a - b) := if_pos h

theorem noTrap_trapSub {ε : Type} (h : b ≤ a) : NoTrap (trapSub a b : Outcome ε ℕ) := by
  rw [trapSub_of_le h]
  simp

/-! ### Words of a byte string -/

/-- The two-byte word at offset `o`. -/
def u16At (b : List UInt8) (o : ℕ) : UInt16 := UInt16.ofNat (ofLe (slice b o 2))

/-- The four-byte word at offset `o`. -/
def u32At (b : List UInt8) (o : ℕ) : UInt32 := UInt32.ofNat (ofLe (slice b o 4))

/-- The eight-byte word at offset `o`. -/
def u64At (b : List UInt8) (o : ℕ) : UInt64 := UInt64.ofNat (ofLe (slice b o 8))

theorem toLe_u16At {b : List UInt8} (h : o + 2 ≤ b.length) : toLe 2 (u16At b o).toNat = slice b o 2 := by
  have hl := length_slice_of_le h
  have hlt : ofLe (slice b o 2) < 2 ^ 16 := by
    have := ofLe_lt (slice b o 2)
    rwa [hl] at this
  rw [u16At, UInt16.toNat_ofNat', Nat.mod_eq_of_lt hlt, toLe_ofLe hl]

theorem toLe_u32At {b : List UInt8} (h : o + 4 ≤ b.length) : toLe 4 (u32At b o).toNat = slice b o 4 := by
  have hl := length_slice_of_le h
  have hlt : ofLe (slice b o 4) < 2 ^ 32 := by
    have := ofLe_lt (slice b o 4)
    rwa [hl] at this
  rw [u32At, UInt32.toNat_ofNat', Nat.mod_eq_of_lt hlt, toLe_ofLe hl]

theorem toLe_u64At {b : List UInt8} (h : o + 8 ≤ b.length) : toLe 8 (u64At b o).toNat = slice b o 8 := by
  have hl := length_slice_of_le h
  have hlt : ofLe (slice b o 8) < 2 ^ 64 := by
    have := ofLe_lt (slice b o 8)
    rwa [hl] at this
  rw [u64At, UInt64.toNat_ofNat', Nat.mod_eq_of_lt hlt, toLe_ofLe hl]

theorem u16At_of_slice {b : List UInt8} {v : UInt16} (h : slice b o 2 = toLe 2 v.toNat) : u16At b o = v := by
  rw [u16At, h, ofLe_toLe_of_lt (by simpa using v.toNat_lt), UInt16.ofNat_toNat]

theorem u32At_of_slice {b : List UInt8} {v : UInt32} (h : slice b o 4 = toLe 4 v.toNat) : u32At b o = v := by
  rw [u32At, h, ofLe_toLe_of_lt (by simpa using v.toNat_lt), UInt32.ofNat_toNat]

theorem u64At_of_slice {b : List UInt8} {v : UInt64} (h : slice b o 8 = toLe 8 v.toNat) : u64At b o = v := by
  rw [u64At, h, ofLe_toLe_of_lt (by simpa using v.toNat_lt), UInt64.ofNat_toNat]

/-! ### Reads that trap -/

section

variable {ε : Type}

section

variable (b : List UInt8) (o w : ℕ)

/-- `b[i]`. -/
def index (i : ℕ) : Outcome ε UInt8 :=
  if i < b.length then .ok (b.getD i 0) else trapped

/-- `&b[o..o + w]`. -/
def subslice : Outcome ε (List UInt8) :=
  if o + w ≤ b.length then .ok (slice b o w) else trapped

/-- `&b[o..]`. -/
def sliceFrom : Outcome ε (List UInt8) :=
  if o ≤ b.length then .ok (b.drop o) else trapped

/-- The little-endian `u16` at offset `o`. -/
def getU16 : Outcome ε UInt16 :=
  if o + 2 ≤ b.length then .ok (u16At b o) else trapped

/-- The little-endian `u32` at offset `o`. -/
def getU32 : Outcome ε UInt32 :=
  if o + 4 ≤ b.length then .ok (u32At b o) else trapped

/-- The little-endian `u64` at offset `o`. -/
def getU64 : Outcome ε UInt64 :=
  if o + 8 ≤ b.length then .ok (u64At b o) else trapped

/-- `&b[o..o + w]`, copied into an array of `w` bytes. -/
def subarray : Outcome ε (Buf w) :=
  if h : o + w ≤ b.length then .ok ⟨slice b o w, length_slice_of_le h⟩ else trapped

end

/-- The bytes of several ranges, one after the other. -/
def subslices (b : List UInt8) : List (ℕ × ℕ) → Outcome ε (List UInt8)
  | [] => .ok []
  | (o, w) :: rs => do
    let s ← subslice b o w
    let t ← subslices b rs
    return s ++ t

/-- `&b[..n]` as a buffer of `n` bytes. -/
def leading (n : ℕ) (b : List UInt8) : Outcome ε (Buf n) :=
  if h : n ≤ b.length then .ok ⟨b.take n, by simpa using h⟩ else trapped

variable {b : List UInt8} {o w i : ℕ}

theorem leading_of_le {n : ℕ} (h : n ≤ b.length) :
    (leading n b : Outcome ε (Buf n)) = .ok ⟨b.take n, by simpa using h⟩ := dif_pos h

/-- The leading bytes of a buffer of the right size are the buffer. -/
@[simp] theorem leading_buf {n : ℕ} (b : Buf n) : (leading n b.1 : Outcome ε (Buf n)) = .ok b := by
  rw [leading_of_le (by omega)]
  congr
  exact take_of_length_le (by omega)

theorem subslices_of_le {rs : List (ℕ × ℕ)} (h : ∀ r ∈ rs, r.1 + r.2 ≤ b.length) :
    (subslices b rs : Outcome ε (List UInt8)) = .ok (rs.flatMap fun r => slice b r.1 r.2) := by
  induction rs with
  | nil => rfl
  | cons r rs ih =>
    rw [subslices, subslice, if_pos (h r mem_cons_self), ih fun s hs => h s (mem_cons_of_mem _ hs)]
    rfl

theorem index_of_lt (h : i < b.length) : (index b i : Outcome ε UInt8) = .ok (b.getD i 0) :=
  if_pos h

theorem subslice_of_le (h : o + w ≤ b.length) :
    (subslice b o w : Outcome ε (List UInt8)) = .ok (slice b o w) := if_pos h

theorem subslice_eq_ok {s : List UInt8} :
    (subslice b o w : Outcome ε (List UInt8)) = .ok s ↔ o + w ≤ b.length ∧ slice b o w = s := by
  unfold subslice
  split_ifs with h <;> simp [h]

theorem sliceFrom_eq_ok {s : List UInt8} :
    (sliceFrom b o : Outcome ε (List UInt8)) = .ok s ↔ o ≤ b.length ∧ b.drop o = s := by
  unfold sliceFrom
  split_ifs with h <;> simp [h]

theorem noTrap_subslice (h : o + w ≤ b.length) : NoTrap (subslice b o w : Outcome ε (List UInt8)) := by
  rw [subslice_of_le h]
  exact noTrap_ok

theorem subarray_of_le (h : o + w ≤ b.length) :
    (subarray b o w : Outcome ε (Buf w)) = .ok ⟨slice b o w, length_slice_of_le h⟩ := dif_pos h

theorem getU16_of_le (h : o + 2 ≤ b.length) : (getU16 b o : Outcome ε UInt16) = .ok (u16At b o) :=
  if_pos h

theorem getU32_of_le (h : o + 4 ≤ b.length) : (getU32 b o : Outcome ε UInt32) = .ok (u32At b o) :=
  if_pos h

theorem getU64_of_le (h : o + 8 ≤ b.length) : (getU64 b o : Outcome ε UInt64) = .ok (u64At b o) :=
  if_pos h

end

/-! ### Loops and arrays -/

section

variable {ε α : Type}

/-- Running `f` on the elements of a list in order, up to the first failure. -/
def each (f : α → Outcome ε Unit) : List α → Outcome ε Unit
  | [] => .ok ()
  | a :: as => do
    f a
    each f as

theorem each_eq_ok {f : α → Outcome ε Unit} {as : List α} : each f as = .ok () ↔ ∀ a ∈ as, f a = .ok () := by
  induction as with
  | nil => simp [each]
  | cons a as ih =>
    rw [each, bind_eq_ok, forall_mem_cons, ← ih]
    constructor
    · rintro ⟨_, ha, has⟩
      exact ⟨ha, has⟩
    · rintro ⟨ha, has⟩
      exact ⟨(), ha, has⟩

theorem NoTrap.each {f : α → Outcome ε Unit} {as : List α} (h : ∀ a ∈ as, NoTrap (f a)) :
    NoTrap (each f as) := by
  induction as with
  | nil => simp [Rust.each]
  | cons a as ih =>
    exact (h a mem_cons_self).bind fun _ _ => ih fun b hb => h b (mem_cons_of_mem _ hb)

/-- The array of `n` elements whose `i`-th element is computed by `f i`, in increasing order of
`i`. -/
def tabulate : (n : ℕ) → (Fin n → Outcome ε α) → Outcome ε (Fin n → α)
  | 0, _ => .ok Fin.elim0
  | n + 1, f => do
    let a ← f 0
    let as ← tabulate n fun i => f i.succ
    return Fin.cons a as

variable {n : ℕ} {f : Fin n → Outcome ε α}

theorem tabulate_eq_ok {as : Fin n → α} : tabulate n f = .ok as ↔ ∀ i, f i = .ok (as i) := by
  induction n with
  | zero => simp [tabulate, eq_iff_true_of_subsingleton]
  | succ n ih =>
    simp only [tabulate, bind_eq_ok, ih, return_eq_ok]
    constructor
    · rintro ⟨a, ha, bs, hbs, rfl⟩ i
      cases i using Fin.cases with
      | zero => exact ha
      | succ i => exact hbs i
    · intro h
      exact ⟨as 0, h 0, fun i => as i.succ, fun i => h i.succ, Fin.cons_self_tail as⟩

theorem tabulate_ok {as : Fin n → α} (h : ∀ i, f i = .ok (as i)) : tabulate n f = .ok as := tabulate_eq_ok.2 h

theorem NoTrap.tabulate (h : ∀ i, NoTrap (f i)) : NoTrap (tabulate n f) := by
  induction n with
  | zero => simp [Rust.tabulate]
  | succ n ih => exact (h 0).bind fun a _ => (ih fun i => h i.succ).bind fun as _ => by simp

end

/-! ### Text -/

/-- A byte that continues a UTF-8 sequence. -/
def isContinuation (b : UInt8) : Bool := 0x80 ≤ b && b ≤ 0xbf

/-- The bytes are well-formed UTF-8: no overlong form, no surrogate, nothing above U+10FFFF. -/
def isUtf8 : List UInt8 → Bool
  | [] => true
  | a :: rest =>
    if a < 0x80 then isUtf8 rest
    else match rest with
      | [] => false
      | b :: rest =>
        if 0xc2 ≤ a && a ≤ 0xdf then isContinuation b && isUtf8 rest
        else match rest with
          | [] => false
          | c :: rest =>
            if 0xe0 ≤ a && a ≤ 0xef then
              (if a = 0xe0 then 0xa0 ≤ b && b ≤ 0xbf
                else if a = 0xed then 0x80 ≤ b && b ≤ 0x9f
                else isContinuation b) && isContinuation c && isUtf8 rest
            else match rest with
              | [] => false
              | d :: rest =>
                if 0xf0 ≤ a && a ≤ 0xf4 then
                  (if a = 0xf0 then 0x90 ≤ b && b ≤ 0xbf
                    else if a = 0xf4 then 0x80 ≤ b && b ≤ 0x8f
                    else isContinuation b) && isContinuation c && isContinuation d && isUtf8 rest
                else false

/-- A string slice: bytes that are well-formed UTF-8. -/
abbrev Str := {bs : List UInt8 // isUtf8 bs = true}

end Rust
