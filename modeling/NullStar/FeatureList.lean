/-
**Lists of features on the wire.**

A negotiation message is a root of fixed size followed by a list of feature records of eight bytes each.
The root holds a reference to the list: where it starts, how many records it has and how long it is; all
three are zero for the empty list.  The reader keeps the list as bytes and decodes a record only when it is
asked for, so what a list *contains* is what its iterator yields.

* `FeatureRecord`, `FeatureList` — a feature, and a list of them as bytes;
* `FeatureList.get`, `FeatureList.records` — one record, and the records the iterator yields;
* `encodeFeatures`, `encodeFeatureRef`, `decodeFeatureRef` — writing a list and its
  reference, and reading them;
* `records_encodeFeatures`, `exists_records` — the list of records and its bytes determine each
  other;
* `decodeFeatureRef_eq_ok` — what the reader of a list accepts;
* `encodeFeatureRef_eq_ok`, `refersTo_iff` — what its writer writes.
-/

import NullStar.Packet

set_option autoImplicit false

namespace NSWP

open Bytes Rust List Option NoTrap

def negotiateRequestRootBytes : ℕ := 48
def negotiateResponseRootBytes : ℕ := 64
def featureRecordBytes : ℕ := 8
def requestFeaturesOffset : ℕ := 0x20
def responseFeaturesOffset : ℕ := 0x28

/-! ### Feature records -/

inductive FeatureFlags where
  | optional | required
  deriving DecidableEq

namespace FeatureFlags

def bits : FeatureFlags → UInt32
  | .optional => 0
  | .required => 1

def fromRequestBits (bits : UInt32) : Outcome NegotiationError FeatureFlags :=
  match bits with
  | 0 => .ok .optional
  | 1 => .ok .required
  | _ => fail .unknownFeatureFlags

theorem fromRequestBits_eq_ok {bits : UInt32} {flags : FeatureFlags} :
    fromRequestBits bits = .ok flags ↔ flags.bits = bits := by
  constructor
  · intro h
    unfold fromRequestBits at h
    split at h <;> cases h <;> rfl
  · rintro rfl
    cases flags <;> rfl

theorem noTrap_fromRequestBits (bits : UInt32) : NoTrap (fromRequestBits bits) := by
  unfold fromRequestBits
  split <;> simp

end FeatureFlags

@[ext] structure FeatureRecord where
  id : UInt32
  flags : FeatureFlags
  deriving DecidableEq

namespace FeatureRecord

/-- `enabled`: the form in which a response lists a feature. -/
def enabled (id : UInt32) : FeatureRecord := ⟨id, .optional⟩

def isRequired (feature : FeatureRecord) : Bool := feature.flags.bits = FeatureFlags.required.bits

end FeatureRecord

inductive FeatureEncoding where
  | request | response
  deriving DecidableEq

/-- A list of features, as the bytes that hold it. -/
structure FeatureList where
  bytes : List UInt8
  encoding : FeatureEncoding
  deriving DecidableEq

variable (encoding : FeatureEncoding) (bytes : List UInt8)

def decodeRecord : Option FeatureRecord :=
  match encoding with
  | .request =>
    match FeatureFlags.fromRequestBits (u32At bytes 4) with
    | .ok flags => some ⟨u32At bytes 0, flags⟩
    | .error _ => none
  | .response => if u32At bytes 4 = 0 then some ⟨u32At bytes 0, .optional⟩ else none

/-- The flag word that is written for a record. -/
def flagWord (feature : FeatureRecord) : UInt32 :=
  match encoding with
  | .request => feature.flags.bits
  | .response => 0

/-- The eight bytes written for a record. -/
def encodeRecord (feature : FeatureRecord) : List UInt8 :=
  toLe 4 feature.id.toNat ++ toLe 4 (flagWord encoding feature).toNat

variable (features : List FeatureRecord)

def encodeFeatures (encoding : FeatureEncoding) : List UInt8 :=
  features.flatMap (encodeRecord encoding)

namespace FeatureList

variable (list : FeatureList)

def get (index : ℕ) : Option FeatureRecord := do
  let offset ← checkedMul 64 index featureRecordBytes
  let stop ← checkedAdd 64 offset featureRecordBytes
  if stop ≤ list.bytes.length then
    decodeRecord list.encoding (slice list.bytes offset featureRecordBytes)
  else none

/-- The iterator from an index on: it ends at the first record that `get` does not return. -/
def iterFrom (list : FeatureList) : ℕ → ℕ → List FeatureRecord
  | 0, _ => []
  | fuel + 1, index =>
    match list.get index with
    | some feature => feature :: iterFrom list fuel (index + 1)
    | none => []

/-- `iter`.  There are fewer records than bytes. -/
def records : List FeatureRecord := list.iterFrom (list.bytes.length + 1) 0

def isEmpty : Bool := list.bytes.isEmpty

def len : ℕ := list.bytes.length / featureRecordBytes

def contains (id : UInt32) : Bool := list.records.any (·.id = id)

end FeatureList

/-- The order in which the features of a list have to come. -/
def checkOrder (previous : Option UInt32) (id : UInt32) : Outcome NegotiationError Unit :=
  match previous with
  | none => .ok ()
  | some previous => do
    rejectIf (id = previous) .duplicateFeature
    rejectIf (id < previous) .unsortedFeatures

/-- The flags of a record that is to be written. -/
def checkFlags (flags : FeatureFlags) : Outcome NegotiationError Unit :=
  match encoding with
  | .request => rejectIf (¬ flags.bits ≤ 1) .unknownFeatureFlags
  | .response => rejectIf (flags.bits ≠ 0) .unknownFeatureFlags

/-- The loop of `validate_feature_records`. -/
def validateRecordsFrom (encoding : FeatureEncoding) :
    Option UInt32 → List FeatureRecord → Outcome NegotiationError Unit
  | _, [] => .ok ()
  | previous, feature :: rest => do
    rejectIf (feature.id = 0) .invalidFeatureId
    checkFlags encoding feature.flags
    checkOrder previous feature.id
    validateRecordsFrom encoding (some feature.id) rest

def validateFeatureRecords (encoding : FeatureEncoding) :
    Outcome NegotiationError Unit := validateRecordsFrom encoding none features

/-- The flags of a record that was read. -/
def checkEncodedFlags (flags : UInt32) : Outcome NegotiationError Unit :=
  match encoding with
  | .request => do
    let _ ← FeatureFlags.fromRequestBits flags
    return ()
  | .response => rejectIf (flags ≠ 0) .unknownFeatureFlags

/-- `chunks_exact`: the whole records in some bytes. -/
def chunksExact : List (List UInt8) :=
  (List.range (bytes.length / featureRecordBytes)).map fun i =>
    slice bytes (i * featureRecordBytes) featureRecordBytes

/-- The loop of `validate_encoded_features`. -/
def validateEncodedFrom (encoding : FeatureEncoding) :
    Option UInt32 → List (List UInt8) → Outcome NegotiationError Unit
  | _, [] => .ok ()
  | previous, record :: rest => do
    let id ← getU32 record 0
    let flags ← getU32 record 4
    rejectIf (id = 0) .invalidFeatureId
    checkEncodedFlags encoding flags
    checkOrder previous id
    validateEncodedFrom encoding (some id) rest

def validateEncodedFeatures (encoding : FeatureEncoding) :
    Outcome NegotiationError Unit := validateEncodedFrom encoding none (chunksExact bytes)

def decodeFeatureRef (input : List UInt8) (fieldOffset rootBytes : ℕ) (encoding : FeatureEncoding) :
    Outcome NegotiationError FeatureList := do
  let relativeOffset ← getU32 input fieldOffset
  let count ← getU32 input (fieldOffset + 4)
  let regionBytes ← getU32 input (fieldOffset + 8)
  let reserved ← getU32 input (fieldOffset + 12)
  rejectIf (reserved ≠ 0) .invalidSlice
  if count = 0 then
    rejectIf (relativeOffset ≠ 0 ∨ regionBytes ≠ 0 ∨ input.length ≠ rootBytes) .invalidSlice
    return ⟨[], encoding⟩
  else
    let expectedRegion ← okOr (checkedMul 64 count.toNat featureRecordBytes) .arithmeticOverflow
    let expectedRelative ← okOr (checkedSub rootBytes fieldOffset) .arithmeticOverflow
    let total := checkedAdd 64 rootBytes regionBytes.toNat
    rejectIf (relativeOffset.toNat ≠ expectedRelative ∨ regionBytes.toNat ≠ expectedRegion ∨
      regionBytes.toNat % 8 ≠ 0) .invalidSlice
    let total ← okOr total .arithmeticOverflow
    rejectIf (input.length ≠ total) .invalidSlice
    let bytes ← subslice input rootBytes (input.length - rootBytes)
    validateEncodedFeatures bytes encoding
    return ⟨bytes, encoding⟩

/-- `encode_feature_ref`: the fields of the reference, none for the empty list. -/
def encodeFeatureRef (fieldOffset rootBytes count : ℕ) : Outcome EncodeError (List Field) :=
  if count = 0 then .ok []
  else do
    let relativeOffset ← okOr ((checkedSub rootBytes fieldOffset).bind fun value =>
      if value < 2 ^ 32 then some value else none) .arithmeticOverflow
    let regionBytes ← okOr ((checkedMul 64 count featureRecordBytes).bind fun value =>
      if value < 2 ^ 32 then some value else none) .arithmeticOverflow
    return [u32Field fieldOffset (UInt32.ofNat relativeOffset),
      u32Field (fieldOffset + 4) (UInt32.ofNat count), u32Field (fieldOffset + 8) (UInt32.ofNat regionBytes)]

/-! ### Records and their bytes -/

/-- The flags of the record can be written. -/
def Writable (feature : FeatureRecord) : Prop :=
  encoding = .response → feature.flags = .optional

variable {encoding} {feature : FeatureRecord} {u : Unit} {bytes} {fs : List FeatureRecord}
  {previous : Option UInt32} {count n o : ℕ}

theorem checkFlags_eq_ok : checkFlags encoding feature.flags = .ok u ↔ Writable encoding feature := by
  obtain ⟨id, flags⟩ := feature
  cases encoding <;> cases flags <;> simp [checkFlags, Writable, FeatureFlags.bits]

section

variable (encoding : FeatureEncoding) (feature : FeatureRecord)

@[simp] theorem length_encodeRecord : (encodeRecord encoding feature).length = 8 := by simp [encodeRecord]

@[simp] theorem length_encodeFeatures : (encodeFeatures features encoding).length = 8 * features.length := by
  simp [encodeFeatures, Nat.mul_comm]

theorem u32At_encodeRecord : u32At (encodeRecord encoding feature) 0 = feature.id ∧
      u32At (encodeRecord encoding feature) 4 = flagWord encoding feature := by
  constructor
  · exact u32At_of_slice (by simp [slice, encodeRecord])
  · exact u32At_of_slice (by simp [slice, encodeRecord])

end

theorem decodeRecord_encodeRecord (h : Writable encoding feature) :
    decodeRecord encoding (encodeRecord encoding feature) = some feature := by
  obtain ⟨hid, hflags⟩ := u32At_encodeRecord encoding feature
  cases encoding with
  | request =>
    simp only [decodeRecord, hflags, flagWord, FeatureFlags.fromRequestBits_eq_ok.2 rfl, hid]
  | response =>
    simp only [decodeRecord, hflags, flagWord, if_true, hid, ← h rfl]

theorem encodeRecord_of_decodeRecord (hl : bytes.length = 8)
    (h : decodeRecord encoding bytes = some feature) :
    encodeRecord encoding feature = bytes ∧ Writable encoding feature := by
  have hid := toLe_u32At (b := bytes) (o := 0) (by omega)
  have hflags := toLe_u32At (b := bytes) (o := 4) (by omega)
  have hsplit : slice bytes 0 4 ++ slice bytes 4 4 = bytes := by
    have hdrop : (bytes.drop 4).take 4 = bytes.drop 4 := take_of_length_le (by simp [hl])
    simp [slice, hdrop]
  cases encoding with
  | request =>
    simp only [decodeRecord] at h
    split at h
    case h_1 flags hbits =>
      cases h
      rw [FeatureFlags.fromRequestBits_eq_ok] at hbits
      simp only [encodeRecord, flagWord, hbits, hid, hflags, hsplit, Writable]
      simp
    case h_2 => cases h
  | response =>
    simp only [decodeRecord] at h
    split at h
    case isTrue hzero =>
      cases h
      simp only [encodeRecord, flagWord, ← hzero, hid, hflags, hsplit, Writable]
      simp
    case isFalse => cases h

theorem checkEncodedFlags_eq_ok :
    checkEncodedFlags encoding (u32At bytes 4) = .ok u ↔ ∃ f, decodeRecord encoding bytes = some f := by
  cases encoding with
  | request =>
    simp only [checkEncodedFlags, bind_eq_ok, decodeRecord]
    cases FeatureFlags.fromRequestBits (u32At bytes 4) <;> simp
  | response =>
    simp only [checkEncodedFlags, decodeRecord]
    by_cases h : u32At bytes 4 = 0 <;> simp

theorem id_of_decodeRecord {f : FeatureRecord} (h : decodeRecord encoding bytes = some f) :
    u32At bytes 0 = f.id := by
  cases encoding with
  | request | response =>
    simp only [decodeRecord] at h
    split at h <;> cases h
    rfl

/-! ### Lists of records -/

theorem chunksExact_append {record rest : List UInt8} (h : record.length = 8) :
    chunksExact (record ++ rest) = record :: chunksExact rest := by
  have hcount : (record ++ rest).length / featureRecordBytes = rest.length / featureRecordBytes + 1 := by
    simp only [length_append, featureRecordBytes]
    omega
  rw [chunksExact, hcount, range_succ_eq_map, map_cons, List.map_map]
  congr 1
  · simp [slice, featureRecordBytes, ← h]
  · refine map_congr_left fun i _ => ?_
    have hoffset : (i + 1) * featureRecordBytes = record.length + i * featureRecordBytes := by
      rw [featureRecordBytes]
      omega
    simp only [Function.comp_apply, slice, hoffset, drop_append, Nat.add_sub_cancel_left]
    rw [drop_of_length_le (by omega), nil_append]

@[simp] theorem chunksExact_nil : chunksExact [] = [] := rfl

theorem encodeFeatures_cons (f : FeatureRecord) (fs : List FeatureRecord) (e : FeatureEncoding) :
    encodeFeatures (f :: fs) e = encodeRecord e f ++ encodeFeatures fs e := rfl

/-- The reader's checks pass on the bytes of a list that passes the writer's. -/
theorem validateEncodedFrom_encodeFeatures (h : validateRecordsFrom encoding previous fs = .ok ()) :
    validateEncodedFrom encoding previous (chunksExact (encodeFeatures fs encoding)) = .ok () := by
  induction fs generalizing previous with
  | nil =>
    rw [encodeFeatures, flatMap_nil, chunksExact_nil, validateEncodedFrom]
  | cons f fs ih =>
    simp only [validateRecordsFrom, run_eq_ok, checkFlags_eq_ok] at h
    obtain ⟨hid, hflags, _, horder, hrest⟩ := h
    obtain ⟨hid', -⟩ := u32At_encodeRecord encoding f
    have hread : checkEncodedFlags encoding (u32At (encodeRecord encoding f) 4) = .ok () :=
      checkEncodedFlags_eq_ok.2 ⟨f, decodeRecord_encodeRecord hflags⟩
    rw [encodeFeatures_cons, chunksExact_append (length_encodeRecord _ _), validateEncodedFrom,
      getU32_of_le (by simp), getU32_of_le (by simp), ok_bind, hid', rejectIf_of_not hid,
      ok_bind, hread, horder]
    exact ih hrest

/-- Bytes that pass the reader's checks are the bytes of a list that passes the writer's. -/
theorem exists_records (hl : bytes.length = 8 * count)
    (h : validateEncodedFrom encoding previous (chunksExact bytes) = .ok u) :
    ∃ fs : List FeatureRecord, fs.length = count ∧ encodeFeatures fs encoding = bytes ∧
      validateRecordsFrom encoding previous fs = .ok () := by
  induction count generalizing bytes previous with
  | zero =>
    rw [length_eq_zero_iff] at hl
    subst hl
    exact ⟨[], rfl, rfl, rfl⟩
  | succ count ih =>
    have htake : (bytes.take 8).length = 8 := by
      rw [length_take]
      omega
    rw [← take_append_drop 8 bytes, chunksExact_append htake, validateEncodedFrom,
      getU32_of_le (by omega), ok_bind, getU32_of_le (by omega), ok_bind] at h
    simp only [run_eq_ok, checkEncodedFlags_eq_ok] at h
    obtain ⟨hid, ⟨f, hf⟩, _, horder, hrest⟩ := h
    obtain ⟨fs, hlen, hbytes, hvalid⟩ := ih (by rw [length_drop]; omega) hrest
    obtain ⟨hrecord, hwritable⟩ := encodeRecord_of_decodeRecord htake hf
    rw [id_of_decodeRecord hf] at hid horder hvalid
    refine ⟨f :: fs, by rw [length_cons, hlen], ?_, ?_⟩
    · rw [encodeFeatures_cons, hrecord, hbytes, take_append_drop]
    · have hflags : checkFlags encoding f.flags = .ok () := checkFlags_eq_ok.2 hwritable
      rw [validateRecordsFrom, rejectIf_of_not hid, hflags, horder]
      exact hvalid

/-- What the writer requires of a list. -/
theorem validateRecordsFrom_eq_ok : validateRecordsFrom encoding previous fs = .ok () ↔
      (∀ f ∈ fs, f.id ≠ 0 ∧ Writable encoding f ∧ ∀ p ∈ previous, p < f.id) ∧
        fs.Pairwise (fun f g => f.id < g.id) := by
  have horder : ∀ {q : Option UInt32} {id : UInt32} {u : Unit},
      checkOrder q id = .ok u ↔ ∀ p ∈ q, p < id := by
    intro q id u
    cases q with
    | none => simp [checkOrder]
    | some =>
      simp only [checkOrder, run_eq_ok, mem_some_iff, forall_eq']
      rw [← UInt32.toNat_inj, UInt32.lt_iff_toNat_lt, UInt32.lt_iff_toNat_lt]
      omega
  induction fs generalizing previous with
  | nil => simp [validateRecordsFrom]
  | cons f fs ih =>
    simp only [validateRecordsFrom, run_eq_ok, checkFlags_eq_ok, horder, ih, forall_mem_cons,
      pairwise_cons, mem_some_iff, forall_eq']
    constructor
    · rintro ⟨hid, hflags, hprev, hrest, hsorted⟩
      refine ⟨⟨⟨hid, hflags, hprev⟩, fun g hg => ?_⟩, fun g hg => (hrest g hg).2.2, hsorted⟩
      exact ⟨(hrest g hg).1, (hrest g hg).2.1, fun p hp =>
        UInt32.lt_trans (hprev p hp) (hrest g hg).2.2⟩
    · rintro ⟨⟨⟨hid, hflags, hprev⟩, hrest⟩, hlt, hsorted⟩
      exact ⟨hid, hflags, hprev, fun g hg => ⟨(hrest g hg).1, (hrest g hg).2.1, hlt g hg⟩, hsorted⟩

theorem validateFeatureRecords_eq_ok : validateFeatureRecords fs encoding = .ok u ↔
      (∀ f ∈ fs, f.id ≠ 0 ∧ Writable encoding f) ∧ fs.Pairwise (fun f g => f.id < g.id) := by
  have h : validateRecordsFrom encoding none fs = .ok () ↔ _ := validateRecordsFrom_eq_ok
  simpa [validateFeatureRecords] using h

section Records

variable {fs : List FeatureRecord}

theorem slice_encodeFeatures {i : ℕ} (h : i < fs.length) :
    slice (encodeFeatures fs encoding) (i * 8) 8 = encodeRecord encoding fs[i] := by
  induction fs generalizing i with
  | nil => simp at h
  | cons f fs ih =>
    rw [encodeFeatures_cons]
    cases i with
    | zero =>
      exact take_left' (length_encodeRecord encoding f)
    | succ i =>
      have hoffset : (i + 1) * 8 = (encodeRecord encoding f).length + i * 8 := by
        rw [length_encodeRecord]
        omega
      have hi : i < fs.length := by simpa using h
      rw [getElem_cons_succ, ← ih hi, slice, hoffset, drop_append,
        drop_of_length_le (by omega), nil_append, Nat.add_sub_cancel_left, slice]

/-- A record of a list that was written. -/
theorem get_encodeFeatures (hw : ∀ f ∈ fs, Writable encoding f) (hl : 8 * fs.length < 2 ^ 32) (i : ℕ) :
    FeatureList.get ⟨encodeFeatures fs encoding, encoding⟩ i = fs[i]? := by
  by_cases hi : i < fs.length
  · have hmul : checkedMul 64 i featureRecordBytes = some (i * 8) :=
      checkedMul_eq_some.2 ⟨by rw [featureRecordBytes]; omega, rfl⟩
    have hadd : checkedAdd 64 (i * 8) featureRecordBytes = some (i * 8 + 8) :=
      checkedAdd_eq_some.2 ⟨by rw [featureRecordBytes]; omega, rfl⟩
    rw [FeatureList.get, hmul, bind_eq_bind, bind_some, hadd, bind_some,
      if_pos (by rw [length_encodeFeatures]; omega), featureRecordBytes, slice_encodeFeatures hi,
      decodeRecord_encodeRecord (hw _ (getElem_mem hi)), getElem?_eq_getElem hi]
  · rw [getElem?_eq_none (by omega)]
    simp only [FeatureList.get, bind_eq_bind, bind_eq_none_iff, checkedMul_eq_some,
      checkedAdd_eq_some, featureRecordBytes]
    rintro _ ⟨-, rfl⟩ _ ⟨-, rfl⟩
    rw [if_neg (by rw [length_encodeFeatures]; omega)]

/-- **The iterator yields the records that were written.** -/
theorem records_encodeFeatures (hw : ∀ f ∈ fs, Writable encoding f) (hl : 8 * fs.length < 2 ^ 32) :
    FeatureList.records ⟨encodeFeatures fs encoding, encoding⟩ = fs := by
  have hfrom : ∀ fuel index, fs.length < fuel + index →
      FeatureList.iterFrom ⟨encodeFeatures fs encoding, encoding⟩ fuel index = fs.drop index := by
    intro fuel
    induction fuel with
    | zero =>
      intro index h
      rw [FeatureList.iterFrom, drop_of_length_le (by omega)]
    | succ fuel ih =>
      intro index h
      rw [FeatureList.iterFrom, get_encodeFeatures hw hl]
      by_cases hi : index < fs.length
      · rw [getElem?_eq_getElem hi, drop_eq_getElem_cons hi]
        simp only [ih (index + 1) (by omega)]
      · rw [getElem?_eq_none (by omega), drop_of_length_le (by omega)]
  rw [FeatureList.records, hfrom _ _ (by simp; omega), drop_zero]

end Records

/-! ### References to a list -/

/-- The three words of a reference to a list of `count` records; all are zero for the empty list. -/
def refWords (fieldOffset rootBytes count : ℕ) : ℕ × ℕ × ℕ :=
  if count = 0 then (0, 0, 0) else (rootBytes - fieldOffset, count, 8 * count)

/-- The fields of a reference, written out also for the empty list. -/
def refFields (fieldOffset rootBytes count : ℕ) : List Field :=
  let words := refWords fieldOffset rootBytes count
  [u32Field fieldOffset (UInt32.ofNat words.1), u32Field (fieldOffset + 4) (UInt32.ofNat words.2.1),
    u32Field (fieldOffset + 8) (UInt32.ofNat words.2.2)]

/-- The reference at an offset of a root is that of a list of `count` records. -/
structure RefersTo {n : ℕ} (b : Buf n) (fieldOffset length : ℕ) : Prop where
  relative : (u32At b.1 fieldOffset).toNat = (refWords fieldOffset n length).1
  count : (u32At b.1 (fieldOffset + 4)).toNat = (refWords fieldOffset n length).2.1
  region : (u32At b.1 (fieldOffset + 8)).toNat = (refWords fieldOffset n length).2.2
  reserved : u32At b.1 (fieldOffset + 12) = 0

section

variable {n o : ℕ} {ε : Type} (b : Buf n) (rest : List UInt8)

theorem slice_root {w : ℕ} (h : o + w ≤ n) : slice (b.1 ++ rest) o w = slice b.1 o w := by
  rw [slice, slice, drop_append_of_le_length (by omega),
    take_append_of_le_length (by rw [length_drop]; omega)]

theorem getU16_root (h : o + 2 ≤ n) : (getU16 (b.1 ++ rest) o : Outcome ε UInt16) = .ok (u16At b.1 o) := by
  rw [getU16_of_le (by rw [length_append]; omega), u16At, slice_root b rest h, u16At]

theorem getU32_root (h : o + 4 ≤ n) : (getU32 (b.1 ++ rest) o : Outcome ε UInt32) = .ok (u32At b.1 o) := by
  rw [getU32_of_le (by rw [length_append]; omega), u32At, slice_root b rest h, u32At]

theorem getU64_root (h : o + 8 ≤ n) : (getU64 (b.1 ++ rest) o : Outcome ε UInt64) = .ok (u64At b.1 o) := by
  rw [getU64_of_le (by rw [length_append]; omega), u64At, slice_root b rest h, u64At]

end

theorem noTrap_validateEncodedFrom (encoding : FeatureEncoding) (previous : Option UInt32)
    {chunks : List (List UInt8)} (h : ∀ chunk ∈ chunks, 8 ≤ chunk.length) :
    NoTrap (validateEncodedFrom encoding previous chunks) := by
  have hflags : ∀ flags, NoTrap (checkEncodedFlags encoding flags) := by
    cases encoding with
    | request => simp [checkEncodedFlags, noTrap_bind, FeatureFlags.noTrap_fromRequestBits]
    | response => simp [checkEncodedFlags]
  have horder : ∀ q id, NoTrap (checkOrder q id) := by
    intro q id
    cases q <;> simp [checkOrder, noTrap_bind]
  induction chunks generalizing previous with
  | nil => exact noTrap_ok
  | cons chunk chunks ih =>
    have hlen := h chunk mem_cons_self
    rw [validateEncodedFrom, getU32_of_le (by omega), getU32_of_le (by omega)]
    refine rejectIf_bind fun _ => (hflags _).bind fun _ _ => (horder _ _).bind fun _ _ => ?_
    exact ih _ fun c hc => h c (mem_cons_of_mem _ hc)

theorem noTrap_validateEncodedFeatures (bytes : List UInt8) (encoding : FeatureEncoding) :
    NoTrap (validateEncodedFeatures bytes encoding) := by
  refine noTrap_validateEncodedFrom _ _ fun chunk hchunk => ?_
  obtain ⟨i, hi, rfl⟩ := mem_map.1 hchunk
  rw [mem_range, featureRecordBytes] at hi
  rw [length_slice, featureRecordBytes]
  omega

section

variable {n o : ℕ} (encoding : FeatureEncoding) (b : Buf n) (rest : List UInt8) (ho : o + 16 ≤ n)

include ho

/-- What the reader of a list accepts: a reference to the list that follows the root. -/
theorem decodeFeatureRef_eq_ok (hn : n < 2 ^ 32) {list : FeatureList} :
    decodeFeatureRef (b.1 ++ rest) o n encoding = .ok list ↔ ∃ fs : List FeatureRecord,
      RefersTo b o fs.length ∧ 8 * fs.length < 2 ^ 32 ∧
        validateFeatureRecords fs encoding = .ok () ∧ rest = encodeFeatures fs encoding ∧
          list = ⟨rest, encoding⟩ := by
  have hregion := (u32At b.1 (o + 8)).toNat_lt
  unfold decodeFeatureRef
  simp (disch := omega) only [getU32_root, ok_bind]
  simp only [run_eq_ok, not_not]
  constructor
  · rintro ⟨hreserved, h⟩
    split at h
    case isTrue hzero =>
      simp only [run_eq_ok, not_or, not_not] at h
      obtain ⟨⟨hrel, hreg, hlen⟩, rfl⟩ := h
      have hrest : rest = [] := by
        rw [length_append] at hlen
        exact length_eq_zero_iff.1 (by omega)
      subst hrest
      refine ⟨[], ⟨?_, ?_, ?_, hreserved⟩, by simp, rfl, rfl, rfl⟩
      · simp [refWords, hrel]
      · simp [refWords, hzero]
      · simp [refWords, hreg]
    case isFalse hzero =>
      have hpos : (u32At b.1 (o + 4)).toNat ≠ 0 := fun h0 => hzero (UInt32.toNat_inj.1 h0)
      simp only [run_eq_ok, checkedMul_eq_some, checkedSub_eq_some, checkedAdd_eq_some, not_or, not_not] at h
      obtain ⟨_, ⟨-, rfl⟩, _, ⟨-, rfl⟩, ⟨hrel, hreg, -⟩, _, ⟨-, rfl⟩, hlen, bytes, hbytes, _, hvalid,
        rfl⟩ := h
      rw [length_append] at hlen
      have hbytes' : bytes = rest := by
        rw [subslice_of_le (by rw [length_append]; omega)] at hbytes
        rw [← Except.ok.inj hbytes, slice, drop_left' b.2, length_append]
        exact take_of_length_le (by omega)
      subst hbytes'
      have hbytes : bytes.length = 8 * (u32At b.1 (o + 4)).toNat := by
        rw [hreg, featureRecordBytes] at hlen
        omega
      obtain ⟨fs, hfs, rfl, hrecords⟩ := exists_records hbytes hvalid
      refine ⟨fs, ⟨?_, ?_, ?_, hreserved⟩, by omega, hrecords, rfl, rfl⟩
      · rw [refWords, if_neg (by omega)]
        exact hrel
      · rw [refWords, if_neg (by omega)]
        exact hfs.symm
      · rw [refWords, if_neg (by omega)]
        change _ = 8 * fs.length
        omega
  · rintro ⟨fs, href, hsmall, hvalid, rfl, rfl⟩
    refine ⟨href.reserved, ?_⟩
    have hrel := href.relative
    have hcnt := href.count
    have hreg := href.region
    by_cases hempty : fs.length = 0
    · rw [length_eq_zero_iff] at hempty
      subst hempty
      rw [if_pos (UInt32.toNat_inj.1 hcnt)]
      simp only [run_eq_ok, not_or, not_not]
      refine ⟨⟨UInt32.toNat_inj.1 hrel, UInt32.toNat_inj.1 hreg, ?_⟩, rfl⟩
      rw [length_append, b.2, length_encodeFeatures, length_nil, Nat.add_zero]
    · simp only [refWords, if_neg hempty] at hrel hcnt hreg
      have hne : ¬ u32At b.1 (o + 4) = 0 := by
        intro h0
        rw [h0] at hcnt
        exact hempty hcnt.symm
      have hsub : (subslice (b.1 ++ encodeFeatures fs encoding) n
          ((b.1 ++ encodeFeatures fs encoding).length - n) : Outcome NegotiationError (List UInt8)) =
            .ok (encodeFeatures fs encoding) := by
        rw [subslice_of_le (by rw [length_append]; omega), slice, drop_left' b.2,
          length_append, b.2, Nat.add_sub_cancel_left, take_length]
      rw [if_neg hne]
      simp only [run_eq_ok, checkedMul_eq_some, checkedSub_eq_some, checkedAdd_eq_some, not_or, not_not, hsub]
      refine ⟨_, ⟨by rw [featureRecordBytes]; omega, rfl⟩, _, ⟨by omega, rfl⟩, ⟨hrel, ?_, by omega⟩, _,
        ⟨by omega, rfl⟩, ?_, _, rfl, (), validateEncodedFrom_encodeFeatures hvalid, rfl⟩
      · rw [featureRecordBytes]
        omega
      · rw [length_append, length_encodeFeatures]
        omega

theorem noTrap_decodeFeatureRef : NoTrap (decodeFeatureRef (b.1 ++ rest) o n encoding) := by
  unfold decodeFeatureRef
  simp (disch := omega) only [getU32_root]
  refine rejectIf_bind fun _ => ite (fun _ => by simp [noTrap_bind]) fun _ => ?_
  · refine noTrap_okOr.bind fun _ _ => noTrap_okOr.bind fun _ _ =>
      rejectIf_bind fun _ => noTrap_okOr.bind fun _ _ => rejectIf_bind fun _ => ?_
    rw [subslice_of_le (by rw [length_append]; omega)]
    exact (noTrap_validateEncodedFeatures _ _).bind fun _ _ => noTrap_ok

end

/-- When a reference can be written. -/
theorem encodeFeatureRef_eq_ok (ho : o ≤ n) (hn : n < 2 ^ 32) {ref : List Field} :
    encodeFeatureRef o n count = .ok ref ↔
      8 * count < 2 ^ 32 ∧ ref = if count = 0 then [] else refFields o n count := by
  unfold encodeFeatureRef
  by_cases hc : count = 0
  · rw [if_pos hc]
    simp [hc]
  · have hsub : checkedSub n o = some (n - o) := checkedSub_eq_some.2 ⟨ho, rfl⟩
    rw [if_neg hc, hsub, bind_some, if_pos (by omega), okOr_some, ok_bind]
    simp only [run_eq_ok, bind_eq_some_iff, checkedMul_eq_some, featureRecordBytes, ite_none_right_eq_some]
    constructor
    · rintro ⟨_, ⟨_, ⟨-, rfl⟩, hlt, hsome⟩, rfl⟩
      rw [← some.inj hsome]
      refine ⟨by omega, ?_⟩
      simp only [refFields, refWords, if_neg hc, Nat.mul_comm 8 count]
    · rintro ⟨hlt, rfl⟩
      refine ⟨count * 8, ⟨_, ⟨by omega, rfl⟩, by omega, rfl⟩, ?_⟩
      simp only [refFields, refWords, if_neg hc, Nat.mul_comm 8 count]

/-- Leaving out the reference of an empty list writes the same root. -/
theorem render_ref {fs gs : List Field} (h : Fits n (fs ++ (refFields o n count ++ gs))) :
    render n (fs ++ ((if count = 0 then [] else refFields o n count) ++ gs)) =
      render n (fs ++ (refFields o n count ++ gs)) := by
  by_cases hc : count = 0
  · rw [if_pos hc]
    have hzero : ∀ i, u32Field i (.ofNat 0) = (i, replicate 4 0) := fun i => rfl
    have hfits1 := h
    simp only [refFields, refWords, if_pos hc, hzero, cons_append] at hfits1 ⊢
    have hfits2 := hfits1.of_cons
    rw [render_zero_field hfits1, render_zero_field hfits2, render_zero_field hfits2.of_cons]
  · rw [if_neg hc]

/-- A reference is held as its three words, with zeros behind. -/
theorem refersTo_iff {b : Buf n} (ho : o + 16 ≤ n) (hn : n < 2 ^ 32) (hcount : 8 * count < 2 ^ 32) :
    RefersTo b o count ↔ (∀ f ∈ refFields o n count, Holds b f) ∧ u32At b.1 (o + 12) = 0 := by
  have hword {i w : ℕ} (hi : i + 4 ≤ n) (hw : w < 2 ^ 32) :
      Holds b (u32Field i (.ofNat w)) ↔ (u32At b.1 i).toNat = w := by
    rw [holds_u32Field hi, ← UInt32.toNat_inj, UInt32.toNat_ofNat_of_lt' hw]
  have hsmall : (refWords o n count).1 < 2 ^ 32 ∧ (refWords o n count).2.1 < 2 ^ 32 ∧
      (refWords o n count).2.2 < 2 ^ 32 := by
    unfold refWords
    split
    · simp
    · exact ⟨by simp only; omega, by simp only; omega, by simp only; omega⟩
  simp only [refFields, forall_mem_cons, not_mem_nil, IsEmpty.forall_iff, implies_true,
    and_true, hword (show o + 4 ≤ n by omega) hsmall.1, hword (show o + 4 + 4 ≤ n by omega) hsmall.2.1,
    hword (show o + 8 + 4 ≤ n by omega) hsmall.2.2]
  exact ⟨fun ⟨h1, h2, h3, h4⟩ => ⟨⟨h1, h2, h3⟩, h4⟩, fun ⟨⟨h1, h2, h3⟩, h4⟩ => ⟨h1, h2, h3, h4⟩⟩

end NSWP
