/-
**What the parts of the NSWP validator check.**

Each function of the validator gets one statement that says when it returns and what it then has
established.  The statements about references and envelopes come in pairs: what was read, and that
two bodies in which the same was read agree on the bytes that were looked at.

* `parseEnvelope_eq_ok`, `Envelope.agree` — an envelope, and its 24 bytes;
* `SliceRef.agree`, `TableRef.agree` — the references of strings, vectors and tables;
* `validateAllocation_eq_ok`, `validateVector_eq_ok`, `validateTable_eq_ok` — the
  validators of the kinds that own a region.
-/

import NullStar.Schema

set_option autoImplicit false

namespace NSWP

open Bytes Rust List Option

/-! ### Addresses, slices and padding -/

section

variable {body a b : List UInt8} {x y z hi lo : ℕ} {r : SliceRef} {indices : List ℕ}

@[simp] theorem add_eq_ok : add x y = .ok z ↔ x + y < 2 ^ 64 ∧ z = x + y := by
  simp [add]

@[simp] theorem mul_eq_ok : mul x y = .ok z ↔ x * y < 2 ^ 64 ∧ z = x * y := by
  simp [mul]

variable {index n start w o tableStart : ℕ} {u : Unit} {e : Envelope} {es : List Envelope}

theorem elementStart_eq_ok {target stride s : ℕ} : elementStart target stride index = .ok s ↔
      index * stride < 2 ^ 64 ∧ target + index * stride < 2 ^ 64 ∧ s = target + index * stride := by
  simp only [elementStart, bind_eq_ok, mul_eq_ok, add_eq_ok]
  constructor
  · rintro ⟨_, ⟨h, rfl⟩, h', rfl⟩
    exact ⟨h, h', rfl⟩
  · rintro ⟨h, h', rfl⟩
    exact ⟨_, ⟨h, rfl⟩, h', rfl⟩

theorem sliceAt_eq_ok {r : List UInt8} : sliceAt body start n = .ok r ↔
      start + n < 2 ^ 64 ∧ start + n ≤ body.length ∧ r = slice body start n := by
  simp only [sliceAt, run_eq_ok, add_eq_ok, not_lt]
  constructor
  · rintro ⟨_, ⟨h, rfl⟩, h', rfl⟩
    exact ⟨h, h', rfl⟩
  · rintro ⟨h, h', rfl⟩
    exact ⟨_, ⟨h, rfl⟩, h', rfl⟩

theorem requireTarget_eq_ok {actual expected : ℕ} :
    requireTarget actual expected = .ok u ↔ actual % bodyAlignment = 0 ∧ actual = expected := by
  simp [requireTarget, bind_eq_ok]

theorem requireZero_eq_ok : requireZero body lo hi = .ok u ↔
      lo ≤ hi ∧ hi ≤ body.length ∧ (slice body lo (hi - lo)).any (· ≠ 0) = false := by
  simp only [requireZero, run_eq_ok, not_or, not_lt, Bool.not_eq_true]
  tauto

/-- Two bodies with the same padding agree on it. -/
theorem agree_of_requireZero {v : Unit} (ha : requireZero a lo hi = .ok u)
    (hb : requireZero b lo hi = .ok v) : Agree a b lo hi := by
  have zero : ∀ {c : List UInt8} {w : Unit}, requireZero c lo hi = .ok w → ∀ i, lo ≤ i → i < hi →
      c.getD i 0 = 0 := by
    intro c w hc i h1 h2
    obtain ⟨_, hl, hz⟩ := requireZero_eq_ok.1 hc
    have hlen : (slice c lo (hi - lo)).length = hi - lo := length_slice_of_le (by omega)
    have hpos : lo + (i - lo) = i := by omega
    rw [← hpos, ← getD_slice (show i - lo < hi - lo by omega), getD_eq_getElem _ _ (by omega)]
    have hmem : (slice c lo (hi - lo))[i - lo] ∈ slice c lo (hi - lo) := getElem_mem _
    simpa using any_eq_false.1 hz _ hmem
  intro i h1 h2
  rw [zero ha i h1 h2, zero hb i h1 h2]

theorem agree_of_all_zero (ha : start + w ≤ a.length) (hb : start + w ≤ b.length)
    (hza : (slice a start w).all (· = 0) = true) (hzb : (slice b start w).all (· = 0) = true) :
    Agree a b start (start + w) := by
  apply Agree.of_slice_eq
  have hrep : ∀ {c : List UInt8}, start + w ≤ c.length → (slice c start w).all (· = 0) = true →
      slice c start w = replicate w 0 := by
    intro c hc hz
    refine eq_replicate_iff.2 ⟨length_slice_of_le hc, fun x hx => ?_⟩
    simpa using all_eq_true.1 hz x hx
  rw [hrep ha hza, hrep hb hzb]

/-- Two bodies in which the same number is read agree on its bytes. -/
theorem agree_of_word (ha : start + n ≤ a.length) (hb : start + n ≤ b.length) (ho : o + w ≤ n)
    (h : word (slice a start n) o w = word (slice b start n) o w) :
    Agree a b (start + o) (start + o + w) := by
  have hl : ∀ {c : List UInt8}, start + n ≤ c.length →
      slice (slice c start n) o w = slice c (start + o) w := by
    intro c hc
    refine ext_getD ?_ ?_
    · rw [length_slice_of_le (by rw [length_slice_of_le hc]; omega), length_slice_of_le (by omega)]
    · intro i hi
      rw [length_slice_of_le (by omega)] at hi
      rw [getD_slice hi, getD_slice (by omega), getD_slice hi, Nat.add_assoc]
  apply Agree.of_slice_eq
  rw [← hl ha, ← hl hb]
  refine ofLe_injective ?_ h
  simp only [length_slice]
  omega

/-- The numbers of the given widths, one behind the other. -/
def words (bytes : List UInt8) : ℕ → List ℕ → List ℕ
  | _, [] => []
  | o, w :: ws => word bytes o w :: words bytes (o + w) ws

/-- Two bodies in which the same numbers are read agree on their bytes. -/
theorem agree_of_words {ws : List ℕ} (ha : start + n ≤ a.length) (hb : start + n ≤ b.length)
    (ho : o + ws.sum ≤ n) (h : words (slice a start n) o ws = words (slice b start n) o ws) :
    Agree a b (start + o) (start + o + ws.sum) := by
  induction ws generalizing o with
  | nil => exact .empty (by simp)
  | cons w ws ih =>
    rw [sum_cons, ← Nat.add_assoc] at ho ⊢
    obtain ⟨hw, hws⟩ := cons.inj h
    have hrest := ih ho hws
    rw [← Nat.add_assoc] at hrest
    exact (agree_of_word ha hb (by omega) hw).trans hrest

/-- A read inside the string does not trap. -/
theorem getWord_of_le {bytes : List UInt8} (h : o + w ≤ bytes.length) :
    getWord bytes o w = .ok (word bytes o w) := by
  rw [getWord, subslice_of_le h]
  rfl

/-- A read inside a slice of the body. -/
theorem getWord_slice (h : start + n ≤ body.length) (ho : o + w ≤ n) :
    getWord (slice body start n) o w = .ok (word (slice body start n) o w) :=
  getWord_of_le (by rw [length_slice_of_le h]; exact ho)

theorem IntegerRepr.bytes_ne_zero (repr : IntegerRepr) : repr.layout.bytes ≠ 0 := by
  cases repr <;> decide

/-- A number that is read from the body, byte by byte. -/
theorem readScalar_eq_ok {raw : ℕ} (hw : w ≠ 0) : readScalar body start w = .ok raw ↔
      (w = 1 ∨ start + w < 2 ^ 64) ∧ start + w ≤ body.length ∧ raw = ofLe (slice body start w) := by
  unfold readScalar
  split
  case isTrue h1 =>
    subst h1
    simp only [run_eq_ok, true_or, true_and]
    constructor
    · rintro ⟨byte, hbyte, rfl⟩
      obtain ⟨hlt, rfl⟩ := List.getElem?_eq_some_iff.1 hbyte
      refine ⟨hlt, ?_⟩
      simp [slice, take_one, hbyte, ofLe]
    · rintro ⟨hlt, rfl⟩
      simp [slice, take_one, getElem?_eq_getElem hlt, ofLe]
  case isFalse h1 =>
    simp only [bind_eq_ok, sliceAt_eq_ok, h1, false_or]
    have hword : ∀ {n : ℕ}, start + n ≤ body.length →
        word (slice body start n) 0 n = ofLe (slice body start n) := by
      intro n hn
      rw [word, slice, drop_zero, take_of_length_le (by rw [length_slice_of_le hn])]
    constructor
    · rintro ⟨_, ⟨hlt, hle, rfl⟩, h⟩
      rw [getWord_slice hle (by omega), hword hle] at h
      exact ⟨hlt, hle, (Except.ok.inj h).symm⟩
    · rintro ⟨hlt, hle, rfl⟩
      exact ⟨_, ⟨hlt, hle, rfl⟩, by rw [getWord_slice hle (by omega), hword hle]⟩

/-! ### References -/

/-- The words of a reference, where its bytes are there. -/
theorem sliceRef_eq : sliceRef body start = (do
    let reference ← sliceAt body start sliceRefBytes
    return { relativeOffset := word reference 0 4, count := word reference 4 4
             regionBytes := word reference 8 4, reserved := word reference 12 4 }) := by
  unfold sliceRef
  cases h : sliceAt body start sliceRefBytes with
  | error => rfl
  | ok =>
    obtain ⟨_, hle, rfl⟩ := sliceAt_eq_ok.1 h
    simp (disch := decide) only [ok_bind, getWord_slice hle]

theorem tableRef_eq : tableRef body start = (do
    let reference ← sliceAt body start tableRefBytes
    return { relativeOffset := word reference 0 4, fieldCount := word reference 4 2
             reserved := word reference 6 2, regionBytes := word reference 8 4
             reservedTail := word reference 12 4 }) := by
  unfold tableRef
  cases h : sliceAt body start tableRefBytes with
  | error => rfl
  | ok =>
    obtain ⟨_, hle, rfl⟩ := sliceAt_eq_ok.1 h
    simp (disch := decide) only [ok_bind, getWord_slice hle]

theorem sliceRef_eq_ok (h : sliceRef body start = .ok r) :
    start + 16 ≤ body.length ∧ words (slice body start 16) 0 [4, 4, 4, 4] =
      [r.relativeOffset, r.count, r.regionBytes, r.reserved] := by
  simp only [sliceRef_eq, run_eq_ok, sliceAt_eq_ok] at h
  obtain ⟨_, ⟨_, hl, rfl⟩, rfl⟩ := h
  exact ⟨hl, rfl⟩

/-- Two bodies with the same reference agree on its bytes. -/
theorem SliceRef.agree (ha : sliceRef a start = .ok r) (hb : sliceRef b start = .ok r) :
    Agree a b start (start + 16) := by
  obtain ⟨hla, hwa⟩ := sliceRef_eq_ok ha
  obtain ⟨hlb, hwb⟩ := sliceRef_eq_ok hb
  exact agree_of_words hla hlb le_rfl (hwa.trans hwb.symm)

theorem tableRef_eq_ok {r : TableRef} (h : tableRef body start = .ok r) :
    start + 16 ≤ body.length ∧ words (slice body start 16) 0 [4, 2, 2, 4, 4] =
      [r.relativeOffset, r.fieldCount, r.reserved, r.regionBytes, r.reservedTail] := by
  simp only [tableRef_eq, run_eq_ok, sliceAt_eq_ok] at h
  obtain ⟨_, ⟨_, hl, rfl⟩, rfl⟩ := h
  exact ⟨hl, rfl⟩

/-- Two bodies with the same table reference agree on its bytes. -/
theorem TableRef.agree {r : TableRef} (ha : tableRef a start = .ok r)
    (hb : tableRef b start = .ok r) : Agree a b start (start + 16) := by
  obtain ⟨hla, hwa⟩ := tableRef_eq_ok ha
  obtain ⟨hlb, hwb⟩ := tableRef_eq_ok hb
  exact agree_of_words hla hlb le_rfl (hwa.trans hwb.symm)

/-! ### Envelopes -/

/-- The payload range that an offset and a length in the envelope at `start` describe. -/
def PayloadField (start offset bytes : ℕ) : Option PayloadRange → Prop
  | none => offset = 0 ∧ bytes = 0
  | some range => offset ≠ 0 ∧ bytes ≠ 0 ∧ range = ⟨start + 8 + offset, start + 8 + offset + bytes⟩

/-- The words of an envelope, where its bytes are there. -/
theorem parseEnvelope_slice (h : sliceAt body start envelopeBytes = .ok (slice body start 24)) :
    parseEnvelope body start = (do
      rejectIf (word (slice body start 24) 4 2 ≠ 0 ∨ word (slice body start 24) 6 2 ≠ 0 ∨
        word (slice body start 24) 16 2 ≠ 0 ∨ word (slice body start 24) 18 2 ≠ 0 ∨
        word (slice body start 24) 20 4 ≠ 0) .reservedValueUsed
      let ordinal := word (slice body start 24) 0 4
      let relativeOffset := word (slice body start 24) 8 4
      let payloadBytes := word (slice body start 24) 12 4
      if relativeOffset = 0 ∧ payloadBytes = 0 then return { ordinal, payload := none }
      else do
        rejectIf (relativeOffset = 0 ∨ payloadBytes = 0 ∨ payloadBytes % bodyAlignment ≠ 0)
          .invalidReference
        let offsetField ← add start 8
        let payloadStart ← add offsetField relativeOffset
        rejectIf (payloadStart % bodyAlignment ≠ 0) .misaligned
        let payloadEnd ← add payloadStart payloadBytes
        rejectIf (body.length < payloadEnd) .outOfBounds
        return { ordinal, payload := some ⟨payloadStart, payloadEnd⟩ }) := by
  obtain ⟨_, hle, _⟩ := sliceAt_eq_ok.1 h
  have hle : start + 24 ≤ body.length := hle
  rw [parseEnvelope, h]
  simp (disch := decide) only [ok_bind, getWord_slice hle]

theorem parseEnvelope_eq_ok (h : parseEnvelope body start = .ok e) :
    start + 24 ≤ body.length ∧ ∃ offset bytes, PayloadField start offset bytes e.payload ∧
      words (slice body start 24) 0 [4, 2, 2, 4, 4, 2, 2, 4] = [e.ordinal, 0, 0, offset, bytes, 0, 0, 0] := by
  have hs : ∃ bs, sliceAt body start envelopeBytes = .ok bs := by
    rw [parseEnvelope, bind_eq_ok] at h
    exact ⟨_, h.choose_spec.1⟩
  obtain ⟨_, hs⟩ := hs
  obtain ⟨_, hl, rfl⟩ := sliceAt_eq_ok.1 hs
  rw [parseEnvelope_slice hs] at h
  simp only [run_eq_ok, not_or, not_not] at h
  obtain ⟨⟨h1, h2, h3, h4, h5⟩, h⟩ := h
  refine ⟨hl, word (slice body start 24) 8 4, word (slice body start 24) 12 4, ?_⟩
  simp only [words, h1, h2, h3, h4, h5]
  split at h
  case isTrue hz =>
    cases h
    exact ⟨hz, rfl⟩
  case isFalse =>
    simp only [run_eq_ok, add_eq_ok, not_or] at h
    obtain ⟨⟨hoff, hbytes, _⟩, _, ⟨_, rfl⟩, _, ⟨_, rfl⟩, _, _, ⟨_, rfl⟩, _, rfl⟩ := h
    exact ⟨⟨hoff, hbytes, rfl⟩, rfl⟩

theorem PayloadField.inj {o1 n1 o2 n2 : ℕ} {p : Option PayloadRange}
    (h1 : PayloadField start o1 n1 p) (h2 : PayloadField start o2 n2 p) : o1 = o2 ∧ n1 = n2 := by
  cases p with
  | none => exact ⟨h1.1.trans h2.1.symm, h1.2.trans h2.2.symm⟩
  | some =>
    have heq := h1.2.2.symm.trans h2.2.2
    simp only [PayloadRange.mk.injEq] at heq
    omega

/-- Two bodies with the same envelope agree on its bytes. -/
theorem Envelope.agree (ha : parseEnvelope a start = .ok e) (hb : parseEnvelope b start = .ok e) :
    Agree a b start (start + 24) := by
  obtain ⟨hla, _, _, hpa, hwa⟩ := parseEnvelope_eq_ok ha
  obtain ⟨hlb, _, _, hpb, hwb⟩ := parseEnvelope_eq_ok hb
  obtain ⟨rfl, rfl⟩ := hpa.inj hpb
  exact agree_of_words hla hlb le_rfl (hwa.trans hwb.symm)

theorem envelopeAt_eq_ok : envelopeAt body tableStart index = .ok e ↔
      index * 24 < 2 ^ 64 ∧ tableStart + index * 24 < 2 ^ 64 ∧
        parseEnvelope body (tableStart + index * 24) = .ok e := by
  simp only [envelopeAt, bind_eq_ok, mul_eq_ok, add_eq_ok]
  constructor
  · rintro ⟨_, ⟨h, rfl⟩, _, ⟨h', rfl⟩, he⟩
    exact ⟨h, h', he⟩
  · rintro ⟨h, h', he⟩
    exact ⟨_, ⟨h, rfl⟩, _, ⟨h', rfl⟩, he⟩

theorem envelopesAt_cons {rest : List ℕ} : envelopesAt body tableStart (index :: rest) = .ok es ↔
      ∃ e es', envelopeAt body tableStart index = .ok e ∧
        envelopesAt body tableStart rest = .ok es' ∧ es = e :: es' := by
  simp only [envelopesAt, run_eq_ok]
  constructor
  · rintro ⟨e, he, es', hes, rfl⟩
    exact ⟨e, es', he, hes, rfl⟩
  · rintro ⟨e, es', he, hes, rfl⟩
    exact ⟨e, he, es', hes, rfl⟩

theorem length_envelopesAt (h : envelopesAt body tableStart indices = .ok es) :
    es.length = indices.length := by
  induction indices generalizing es with
  | nil => exact congrArg length (Except.ok.inj h).symm
  | cons index rest ih =>
    obtain ⟨e, es', _, hes, rfl⟩ := envelopesAt_cons.1 h
    simp [ih hes]

/-- Two bodies with the same envelopes agree on the bytes of each of them. -/
theorem agree_of_envelopesAt (ha : envelopesAt a tableStart indices = .ok es)
    (hb : envelopesAt b tableStart indices = .ok es) :
    ∀ index ∈ indices, Agree a b (tableStart + index * 24) (tableStart + index * 24 + 24) := by
  induction indices generalizing es with
  | nil => simp
  | cons index rest ih =>
    obtain ⟨e, es', he, hes, rfl⟩ := envelopesAt_cons.1 ha
    obtain ⟨e', es'', he', hes', heq⟩ := envelopesAt_cons.1 hb
    cases heq
    refine forall_mem_cons.2 ⟨?_, ih hes hes'⟩
    exact Envelope.agree (envelopeAt_eq_ok.1 he).2.2 (envelopeAt_eq_ok.1 he').2.2

/-- Equal slots, one behind the other: agreement on each is agreement on all. -/
theorem agree_slots (h : ∀ index ∈ range n, Agree a b (start + index * w) (start + index * w + w)) :
    Agree a b start (start + n * w) := by
  induction n with
  | zero => exact .empty (by simp)
  | succ n ih =>
    have hn := h n (by simp)
    rw [Nat.succ_mul, ← Nat.add_assoc]
    refine .trans (ih fun index hi => h index ?_) hn
    simp only [mem_range] at hi ⊢
    omega

end

/-! ### Valid descriptors -/

/-- The descriptor passes the checks of `validate_type_descriptor`. -/
def Valid (d : TypeDescriptor) : Prop :=
  ∃ nesting visits left, validateTypeDescriptor nesting d visits = .ok left

variable {nesting visits previous : ℕ} {u : Unit}

theorem valid_of_visitAll {left : ℕ} {ds : List TypeDescriptor}
    (h : visitAll (validateTypeDescriptor nesting) ds visits = .ok left) : ∀ d ∈ ds, Valid d := by
  induction ds generalizing visits with
  | nil => simp
  | cons d ds ih =>
    simp only [visitAll, bind_eq_ok] at h
    obtain ⟨visits', hd, hds⟩ := h
    exact forall_mem_cons.2 ⟨⟨nesting, visits, visits', hd⟩, ih hds⟩

theorem valid_of_checkStructureFields {bytes previousEnd greatest : ℕ} {r : ℕ × ℕ}
    {fields : List (StructureFieldDescriptor TypeDescriptor)}
    (h : checkStructureFields (validateTypeDescriptor nesting) bytes fields previousEnd greatest
      visits = .ok r) : ∀ field ∈ fields, Valid field.ty := by
  induction fields generalizing previousEnd greatest visits with
  | nil => simp
  | cons field fields ih =>
    simp only [checkStructureFields, bind_eq_ok] at h
    obtain ⟨_, _, _, _, _, _, _, _, visits', hfield, hrest⟩ := h
    exact forall_mem_cons.2 ⟨⟨nesting, visits, visits', hfield⟩, ih hrest⟩

/-- The fields of a table come in strictly increasing order of their ordinals. -/
theorem sorted_of_checkTableFields {table : TableDescriptor TypeDescriptor}
    {fields : List (TableFieldDescriptor TypeDescriptor)}
    (h : checkTableFields table previous fields = .ok u) : (∀ field ∈ fields, previous < field.ordinal) ∧
      fields.Pairwise (fun f g => f.ordinal < g.ordinal) := by
  induction fields generalizing previous with
  | nil => simp
  | cons field fields ih =>
    simp only [checkTableFields, run_eq_ok, not_le] at h
    obtain ⟨hlt, _, _, _, _, _, hrest⟩ := h
    obtain ⟨hgt, hsorted⟩ := ih hrest
    refine ⟨forall_mem_cons.2 ⟨hlt, ?_⟩, pairwise_cons.2 ⟨hgt, hsorted⟩⟩
    exact fun g hg => lt_trans hlt (hgt g hg)

theorem payload_of_checkAlternatives {alternatives : List (UnionAlternativeDescriptor TypeDescriptor)}
    (h : checkAlternatives previous alternatives = .ok u) :
    ∀ x ∈ alternatives, ∀ p, x.payload = some p → p.isUnit = false := by
  induction alternatives generalizing previous with
  | nil => simp
  | cons x rest ih =>
    simp only [checkAlternatives, run_eq_ok] at h
    obtain ⟨_, h⟩ := h
    cases hx : x.payload with
    | none =>
      rw [hx] at h
      exact forall_mem_cons.2 ⟨by simp [hx], ih h⟩
    | some =>
      rw [hx] at h
      simp only [run_eq_ok, not_or, Bool.not_eq_true] at h
      obtain ⟨⟨hq, _⟩, _, _, h⟩ := h
      refine forall_mem_cons.2 ⟨fun p hp => ?_, ih h⟩
      rwa [some.inj (hx.symm.trans hp)] at hq

namespace Valid

variable {d : TypeDescriptor} (h : Valid d)

include h

/-- What one visit of `validate_type_descriptor` goes through. -/
theorem visit : ∃ nesting visits left, validateTypeDescriptor (nesting + 1) d visits = .ok left := by
  obtain ⟨nesting, visits, left, h⟩ := h
  cases nesting with
  | zero => simp [validateTypeDescriptor] at h
  | succ nesting => exact ⟨nesting, visits, left, h⟩

theorem fields {fields : List (StructureFieldDescriptor TypeDescriptor)}
    (hk : d.kind = .struct fields) : ∀ field ∈ fields, Valid field.ty := by
  obtain ⟨nesting, visits, left, h⟩ := h.visit
  simp only [validateTypeDescriptor, hk, run_eq_ok] at h
  obtain ⟨_, _, _, _, _, hfields, _⟩ := h
  exact valid_of_checkStructureFields hfields

theorem element {n : ℕ} {e : TypeDescriptor} (hk : d.kind = .vector n e) : Valid e := by
  obtain ⟨nesting, visits, left, h⟩ := h.visit
  simp only [validateTypeDescriptor, hk, run_eq_ok] at h
  obtain ⟨_, _, _, _, _, _, _, _, h⟩ := h
  exact ⟨_, _, _, h⟩

theorem value {v : TypeDescriptor} (hk : d.kind = .optional v) : Valid v := by
  obtain ⟨nesting, visits, left, h⟩ := h.visit
  simp only [validateTypeDescriptor, hk, run_eq_ok] at h
  obtain ⟨_, _, _, _, _, h⟩ := h
  exact ⟨_, _, _, h⟩

theorem table {t : TableDescriptor TypeDescriptor} (hk : d.kind = .table t) :
    t.fields.Pairwise (fun f g => f.ordinal < g.ordinal) ∧ ∀ field ∈ t.fields, Valid field.ty := by
  obtain ⟨nesting, visits, left, h⟩ := h.visit
  simp only [validateTypeDescriptor, hk, validateTableDescriptor, run_eq_ok] at h
  obtain ⟨_, _, _, _, _, _, ⟨_, _, hfields, _⟩, hvisit⟩ := h
  refine ⟨(sorted_of_checkTableFields hfields).2, ?_⟩
  intro field hf
  exact valid_of_visitAll hvisit _ (mem_map_of_mem hf)

theorem alternative {xs : List (UnionAlternativeDescriptor TypeDescriptor)} (hk : d.kind = .closedUnion xs) :
    ∀ x ∈ xs, ∀ p, x.payload = some p → Valid p ∧ p.isUnit = false := by
  obtain ⟨nesting, visits, left, h⟩ := h.visit
  simp only [validateTypeDescriptor, hk, validateUnionDescriptor, run_eq_ok] at h
  obtain ⟨_, _, _, _, _, _, ⟨_, hxs⟩, hvisit⟩ := h
  intro x hx p hp
  refine ⟨?_, payload_of_checkAlternatives hxs x hx p hp⟩
  exact valid_of_visitAll hvisit _ (mem_filterMap.2 ⟨x, hx, hp⟩)

end Valid

/-! ### The validators -/

section

variable {ctx : SchemaContext} {check : Check} {levels start : ℕ} {cursor result : Cursor} {u : Unit}

@[simp] theorem requireLayout_eq_ok {actual expected : InlineLayout} :
    requireLayout actual expected = .ok u ↔ actual = expected := by
  simp [requireLayout]

theorem kind_of_isUnit {d : TypeDescriptor} (h : d.isUnit = true) : d.kind = .unit := by
  unfold TypeDescriptor.isUnit at h
  split at h
  case h_1 hk => exact hk
  case h_2 => cases h

theorem descriptorInlineBytes_eq_ok {d : TypeDescriptor} {n : ℕ}
    (h : descriptorInlineBytes d = .ok n) : n = d.layout.bytes := by
  simp only [descriptorInlineBytes, run_eq_ok] at h
  obtain ⟨_, _, _, rfl⟩ := h
  rfl

variable {stop maximum : ℕ} {table : TableDescriptor TypeDescriptor}

/-- An allocation is the inline part, padding, and the regions of the value up to the end. -/
theorem validateAllocation_eq_ok {d : TypeDescriptor}
    (h : validateAllocation ctx check d start stop = .ok u) :
    ∃ childrenStart result, alignUp (start + d.layout.bytes) bodyAlignment = .ok childrenStart ∧
      requireZero ctx.body (start + d.layout.bytes) childrenStart = .ok () ∧
      check d start ⟨childrenStart, stop⟩ = .ok result ∧ result.next = stop := by
  simp only [validateAllocation, run_eq_ok, add_eq_ok, not_not] at h
  obtain ⟨_, n, hn, _, ⟨_, rfl⟩, _, childrenStart, hc, _, _, hz, result, hv, hr⟩ := h
  obtain rfl := descriptorInlineBytes_eq_ok hn
  exact ⟨childrenStart, result, hc, hz, hv, hr⟩

/-- A selected payload: none for the unit type, and an allocation at the cursor otherwise. -/
theorem validateSelectedPayload_eq_ok {d : TypeDescriptor} {payload : Option PayloadRange}
    (h : validateSelectedPayload ctx levels check d payload cursor = .ok result) :
    (d.isUnit = true ∧ payload = none ∧ result = cursor) ∨
      (d.isUnit = false ∧ ∃ range, payload = some range ∧ range.start = cursor.next ∧
        validateAllocation ctx check d range.start range.stop = .ok () ∧
        result = { cursor with next := range.stop }) := by
  simp only [validateSelectedPayload, run_eq_ok] at h
  obtain ⟨_, h⟩ := h
  split at h
  case isTrue hu =>
    simp only [run_eq_ok, Bool.not_eq_true, isSome_eq_false_iff, isNone_iff_eq_none] at h
    obtain ⟨_, _, hp, rfl⟩ := h
    exact .inl ⟨hu, hp, rfl⟩
  case isFalse hu =>
    simp only [run_eq_ok, requireTarget_eq_ok] at h
    obtain ⟨range, hp, ⟨_, ht⟩, _, ha, rfl⟩ := h
    exact .inr ⟨by simpa using hu, range, hp, ht, ha, rfl⟩

/-- A string or byte string: empty with an empty reference, or in the region at the cursor. -/
theorem validateBytesLike_eq_ok {utf8 : Bool}
    (h : validateBytesLike ctx start maximum utf8 cursor = .ok result) :
    ∃ r, sliceRef ctx.body start = .ok r ∧ r.reserved = 0 ∧ r.count ≤ maximum ∧
      ((r.count = 0 ∧ r.relativeOffset = 0 ∧ r.regionBytes = 0 ∧ result = cursor) ∨
        (r.count ≠ 0 ∧ alignUp r.count bodyAlignment = .ok r.regionBytes ∧
          start + r.relativeOffset = cursor.next ∧ start + r.relativeOffset < 2 ^ 64 ∧
          requireZero ctx.body (cursor.next + r.count) (cursor.next + r.regionBytes) = .ok () ∧
          requireUtf8 ctx.body utf8 cursor.next r.count = .ok () ∧ cursor.next + r.count < 2 ^ 64 ∧
          result = { cursor with next := cursor.next + r.regionBytes })) := by
  simp only [validateBytesLike, run_eq_ok, not_not, not_lt] at h
  obtain ⟨r, hr, hres, hle, h⟩ := h
  refine ⟨r, hr, hres, hle, ?_⟩
  split at h
  case isTrue hc =>
    simp only [run_eq_ok, not_or, not_not] at h
    obtain ⟨⟨ho, hb⟩, rfl⟩ := h
    exact .inl ⟨hc, ho, hb, rfl⟩
  case isFalse hc =>
    simp only [run_eq_ok, not_or, not_not, add_eq_ok, requireTarget_eq_ok] at h
    obtain ⟨region, hregion, ⟨_, rfl⟩, _, ⟨hlt, rfl⟩, ⟨_, ht⟩, _, ⟨hd, rfl⟩, _, ⟨_, rfl⟩, _, _, hz,
      _, hu, rfl⟩ := h
    rw [ht] at hz hu hd ⊢
    exact .inr ⟨hc, hregion, rfl, ht ▸ hlt, hz, hu, hd, rfl⟩

/-- A vector: empty with an empty reference, or its elements with their padding and then the regions
of the elements, in the region at the cursor. -/
theorem validateVector_eq_ok {element : TypeDescriptor}
    (h : validateVector ctx check maximum element start cursor = .ok result) :
    ∃ r stride, sliceRef ctx.body start = .ok r ∧ r.reserved = 0 ∧ r.count ≤ maximum ∧
      elementStride element = .ok stride ∧
      ((r.count = 0 ∧ r.relativeOffset = 0 ∧ r.regionBytes = 0 ∧ result = cursor) ∨
        (r.count ≠ 0 ∧ start + r.relativeOffset = cursor.next ∧ start + r.relativeOffset < 2 ^ 64 ∧
          ∃ childrenStart inner, alignUp (cursor.next + r.count * stride) bodyAlignment = .ok childrenStart ∧
            (∀ index ∈ range r.count, checkElementPadding ctx cursor.next stride
              element.layout.bytes index = .ok ()) ∧
            requireZero ctx.body (cursor.next + r.count * stride) childrenStart = .ok () ∧
            checkElements check element cursor.next stride (range r.count)
              ⟨childrenStart, cursor.next + r.regionBytes⟩ = .ok inner ∧
            inner.next = cursor.next + r.regionBytes ∧
            result = { cursor with next := cursor.next + r.regionBytes })) := by
  simp only [validateVector, run_eq_ok, not_not, not_lt] at h
  obtain ⟨r, hr, hres, hle, stride, hs, h⟩ := h
  refine ⟨r, stride, hr, hres, hle, hs, ?_⟩
  split at h
  case isTrue hc =>
    simp only [run_eq_ok, not_or, not_not] at h
    obtain ⟨⟨ho, hb⟩, rfl⟩ := h
    exact .inl ⟨hc, ho, hb, rfl⟩
  case isFalse hc =>
    simp only [run_eq_ok, not_not, add_eq_ok, mul_eq_ok, requireTarget_eq_ok] at h
    obtain ⟨_, _, ⟨hlt, rfl⟩, ⟨_, ht⟩, _, ⟨_, rfl⟩, _, _, ⟨_, rfl⟩, _, ⟨_, rfl⟩, childrenStart, hcs, _,
      n, hn, _, hpad, _, hz, inner, hin, hnext, rfl⟩ := h
    obtain rfl := descriptorInlineBytes_eq_ok hn
    rw [ht] at hcs hpad hz hin hnext ⊢
    exact .inr ⟨hc, rfl, ht ▸ hlt, childrenStart, inner, hcs, each_eq_ok.1 hpad, hz, hin, hnext, rfl⟩

/-- Two bodies with the padding of an element checked agree on it. -/
theorem agree_of_checkElementPadding {c1 c2 : SchemaContext} {target stride bytes index : ℕ}
    {v : Unit} (h1 : checkElementPadding c1 target stride bytes index = .ok u)
    (h2 : checkElementPadding c2 target stride bytes index = .ok v) :
    Agree c1.body c2.body (target + index * stride + bytes) (target + index * stride + stride) := by
  simp only [checkElementPadding, bind_eq_ok, elementStart_eq_ok, add_eq_ok] at h1 h2
  obtain ⟨_, ⟨_, _, rfl⟩, _, ⟨_, rfl⟩, _, ⟨_, rfl⟩, hz1⟩ := h1
  obtain ⟨_, ⟨_, _, rfl⟩, _, ⟨_, rfl⟩, _, ⟨_, rfl⟩, hz2⟩ := h2
  exact agree_of_requireZero hz1 hz2

/-- The envelopes of a table are all read by the first pass, in increasing order of ordinals. -/
theorem prevalidateEnvelopes_eq_ok {tableStart payloadCursor left : ℕ} {previous : Option ℕ}
    {indices : List ℕ}
    (h : prevalidateEnvelopes ctx levels table tableStart stop indices previous payloadCursor =
      .ok left) : ∃ es, envelopesAt ctx.body tableStart indices = .ok es ∧
      (∀ e ∈ es, ∀ o ∈ previous, o < e.ordinal) ∧ es.Pairwise (fun e e' => e.ordinal < e'.ordinal) := by
  induction indices generalizing previous payloadCursor with
  | nil => exact ⟨[], rfl, by simp, .nil⟩
  | cons index rest ih =>
    simp only [prevalidateEnvelopes, run_eq_ok] at h
    obtain ⟨e, he, _, hdup, horder, _, _, _, _, h⟩ := h
    obtain ⟨es, hes, hgt, hsorted⟩ := ih h
    have hlt : ∀ o ∈ previous, o < e.ordinal := by
      intro o ho
      obtain rfl := mem_def.1 ho
      simp only [any_some, decide_eq_true_eq, some.injEq] at horder hdup
      omega
    refine ⟨e :: es, envelopesAt_cons.2 ⟨e, es, he, hes, rfl⟩, forall_mem_cons.2 ⟨hlt, ?_⟩, ?_⟩
    · exact fun e' he' o ho => lt_trans (hlt o ho) (hgt e' he' _ rfl)
    · exact pairwise_cons.2 ⟨fun e' he' => hgt e' he' _ rfl, hsorted⟩

/-- A table: empty with an empty reference, or its envelopes and then their payloads, in the region
at the cursor. -/
theorem validateTable_eq_ok (h : validateTable ctx levels check table start cursor = .ok result) :
    ∃ r, tableRef ctx.body start = .ok r ∧ r.reserved = 0 ∧ r.reservedTail = 0 ∧
      ((r.fieldCount = 0 ∧ r.relativeOffset = 0 ∧ r.regionBytes = 0 ∧ result = cursor) ∨
        (r.fieldCount ≠ 0 ∧ start + r.relativeOffset = cursor.next ∧ start + r.relativeOffset < 2 ^ 64 ∧
          (∃ es, envelopesAt ctx.body cursor.next (range r.fieldCount) = .ok es ∧
            es.Pairwise (fun e e' => e.ordinal < e'.ordinal)) ∧
          checkTable ctx levels check cursor.next (cursor.next + r.regionBytes)
            (range r.fieldCount) table.fields (cursor.next + r.fieldCount * 24) =
            .ok (cursor.next + r.regionBytes) ∧
          result = { cursor with next := cursor.next + r.regionBytes })) := by
  simp only [validateTable, run_eq_ok, not_not, not_or] at h
  obtain ⟨r, hr, ⟨hres, htail⟩, _, h⟩ := h
  refine ⟨r, hr, hres, htail, ?_⟩
  split at h
  case isTrue hc =>
    simp only [run_eq_ok, not_or, not_not] at h
    obtain ⟨⟨ho, hb⟩, _, _, rfl⟩ := h
    exact .inl ⟨hc, ho, hb, rfl⟩
  case isFalse hc =>
    simp only [run_eq_ok, not_not, add_eq_ok, mul_eq_ok, requireTarget_eq_ok, prevalidateTableEnvelopes] at h
    obtain ⟨_, _, ⟨hlt, rfl⟩, ⟨_, ht⟩, _, ⟨_, rfl⟩, _, _, ⟨_, rfl⟩, _, ⟨_, rfl⟩, _,
      ⟨_, hpre, _⟩, left, hcheck, rfl, rfl⟩ := h
    obtain ⟨es, hes, _, hsorted⟩ := prevalidateEnvelopes_eq_ok hpre
    rw [ht] at hes hcheck ⊢
    exact .inr ⟨hc, rfl, ht ▸ hlt, ⟨es, hes, hsorted⟩, hcheck, rfl⟩

/-- What is left of one level behind the checks of the inline part. -/
theorem validateNode_kind {d : TypeDescriptor} {kind : TypeKind TypeDescriptor} (hk : d.kind = kind)
    (h : validateNode ctx levels check d start cursor = .ok result) :
    match kind with
    | .unit => d.layout = .unit ∧ result = cursor
    | .primitive kind => d.layout = kind.layout ∧
        validatePrimitive ctx.body start kind = .ok () ∧ result = cursor
    | .bytes maximum => validateBytesLike ctx start maximum false cursor = .ok result
    | .string maximum => validateBytesLike ctx start maximum true cursor = .ok result
    | .struct fields => checkFields ctx check d.layout.bytes start fields 0 cursor = .ok result
    | .vector maximum element => validateVector ctx check maximum element start cursor = .ok result
    | .optional value => validateOptional ctx levels check value start cursor = .ok result
    | .table table => validateTable ctx levels check table start cursor = .ok result
    | .closedEnum enumeration => d.layout = enumeration.repr.layout ∧
        validateClosedEnum ctx d.layout enumeration start = .ok () ∧ result = cursor
    | .closedUnion alternatives =>
      validateClosedUnion ctx levels check alternatives start cursor = .ok result := by
  simp only [validateNode, bind_eq_ok] at h
  obtain ⟨_, _, _, _, _, _, _, _, h⟩ := h
  cases kind with
  | struct =>
    simp only [hk, validateStructure, bind_eq_ok] at h
    exact h.choose_spec.2
  | closedEnum =>
    simp only [hk, run_eq_ok] at h
    obtain ⟨_, he, rfl⟩ := h
    have hl := he
    simp only [validateClosedEnum, bind_eq_ok, requireLayout_eq_ok] at hl
    exact ⟨hl.choose_spec.1, he, rfl⟩
  | _ =>
    simp only [hk, run_eq_ok, requireLayout_eq_ok] at h
    first
      | exact h.2
      | exact ⟨h.1, h.2.symm⟩
      | exact ⟨h.1, h.2.choose_spec.1, h.2.choose_spec.2.symm⟩

end

end NSWP
