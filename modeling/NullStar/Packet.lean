/-
**NSWP packets: protocol identifiers, the header and the protocol error record.**

A protocol is named by a random (version 4) identifier of sixteen bytes, with a canonical text.  An
identifier carries the proof that its bytes have passed the checks.

Every packet starts with a header of 64 bytes in a fixed layout; a protocol error carries a record of 24
bytes behind it.  The reader refuses what the writer cannot produce: unknown codes, reserved bytes that
are not zero, and fields that do not belong together for the kind of packet.

* `ProtocolId` — an identifier whose bytes are valid, with `parse` and `display`;
* `Header`, with `encode`, `decode`, `decodePrefix` and `validateIntrinsic`;
* `ProtocolErrorRecord`, with `encode` and `decode` in the context of its header;
* `ProtocolId.parse_display`, `ProtocolId.display_of_parse` — identifiers and their text;
* `Header.canonical`, `Header.encode_of_decodePrefix` — the header;
* `ProtocolErrorRecord.canonical` — the record, for every header.
-/

import NullStar.Record

set_option autoImplicit false

namespace NSWP

open Bytes Rust List Option

/-! ### Errors -/

inductive ProtocolIdError where
  | invalidLength | nonCanonical | invalidHex | nil | allOnes | invalidVersion | invalidVariant
  deriving DecidableEq

inductive NegotiationError where
  | truncatedRoot | invalidProtocolMajor | invalidMinorRange | invalidLimits | invalidFlags
  | invalidSlice | invalidFeatureId | unknownFeatureFlags | unknownStatus | unsortedFeatures
  | duplicateFeature | invalidSuccess | invalidFailure | echoMismatch | selectionOutsideRange
  | limitIncrease | missingRequiredFeature | missingFeatureProfile | featureUnavailableAtVersion
  | featureBoundsExceeded | unexpectedFeature | outputTooSmall | arithmeticOverflow
  deriving DecidableEq

inductive DecodeError where
  | packetTooShort | invalidMagic | unsupportedWireVersion | invalidHeaderSize | unknownPacketKind
  | unknownFlags | reservedValueUsed | unknownTransportStatus | invalidPacketRelationship
  | invalidDirection | invalidConnectionState | lengthMismatch | bodyNotAligned | bodyLimitExceeded
  | handleCountMismatch | handleLimitExceeded
  | invalidProtocolId (e : ProtocolIdError)
  | invalidNegotiation (e : NegotiationError)
  | invalidProtocolError | transactionReuse | transactionMismatch
  deriving DecidableEq

inductive EncodeError where
  | invalidHeader (e : DecodeError)
  | invalidNegotiation (e : NegotiationError)
  | outputTooSmall | arithmeticOverflow
  deriving DecidableEq

/-! ### Identifiers -/

variable (bytes : Buf 16)

def validateBytes : Outcome ProtocolIdError Unit := do
  rejectIf (bytes.1.all (· = 0) = true) .nil
  rejectIf (bytes.1.all (· = 255) = true) .allOnes
  rejectIf (bytes.byteAt 6 >>> 4 ≠ 4) .invalidVersion
  rejectIf (bytes.byteAt 8 &&& 0xc0 ≠ 0x80) .invalidVariant

structure ProtocolId where
  bytes : Buf 16
  valid : validateBytes bytes = .ok ()
  deriving DecidableEq

namespace ProtocolId

@[ext] theorem ext {a b : ProtocolId} (h : a.bytes = b.bytes) : a = b := by
  cases b
  cases h
  rfl

def fromBytes : Outcome ProtocolIdError ProtocolId :=
  match h : validateBytes bytes with
  | .ok _ => .ok ⟨bytes, h⟩
  | .error e => .error e

theorem fromBytes_eq_ok {bytes : Buf 16} {id : ProtocolId} : fromBytes bytes = .ok id ↔ id.bytes = bytes := by
  unfold fromBytes
  split
  case h_1 h =>
    simp only [Except.ok.injEq, ProtocolId.ext_iff]
    exact eq_comm
  case h_2 e h =>
    constructor
    · intro h
      cases h
    · rintro rfl
      rw [id.valid] at h
      cases h

theorem noTrap_fromBytes : NoTrap (fromBytes bytes) := by
  have hvalidate : NoTrap (validateBytes bytes) := by simp [validateBytes, noTrap_bind]
  unfold fromBytes
  split
  case h_1 => exact noTrap_ok
  case h_2 e h =>
    rw [h] at hvalidate
    intro he
    exact hvalidate (congrArg _ (Except.error.inj he))

/-! ### Text -/

/-- The dash, as a byte. -/
def dash : UInt8 := 45

variable (byte : UInt8)

def hexValue : Option UInt8 :=
  if 48 ≤ byte ∧ byte ≤ 57 then some (byte - 48)
  else if 97 ≤ byte ∧ byte ≤ 102 then some (byte - 97 + 10)
  else none

def isAsciiHexdigit : Bool :=
  (48 ≤ byte && byte ≤ 57) || (97 ≤ byte && byte ≤ 102) || (65 ≤ byte && byte ≤ 70)

/-- One character of a text: dashes in their places, lower-case digits elsewhere. -/
def checkChar (index : ℕ) (byte : UInt8) : Outcome ProtocolIdError Unit :=
  if index ∈ [8, 13, 18, 23] then rejectIf (byte ≠ dash) .nonCanonical
  else rejectIf (¬ (48 ≤ byte ∧ byte ≤ 57) ∧ ¬ (97 ≤ byte ∧ byte ≤ 102))
    (if isAsciiHexdigit byte then .nonCanonical else .invalidHex)

/-- The loop of `parse` over the characters. -/
def checkText : ℕ → List UInt8 → Outcome ProtocolIdError Unit
  | _, [] => .ok ()
  | index, byte :: rest => do
    checkChar index byte
    checkText (index + 1) rest

/-- `bytes[output] = value`. -/
def setByte (output : ℕ) (value : UInt8) : Outcome ProtocolIdError (Buf 16) :=
  if output < 16 then .ok (bytes.put output [value]) else trapped

/-- The loop of `parse` over the digits; `high` is the first digit of a pair. -/
def parseDigits : List UInt8 → Buf 16 → ℕ → Option UInt8 → Outcome ProtocolIdError (Buf 16)
  | [], bytes, _, _ => .ok bytes
  | byte :: rest, bytes, output, high => do
    let nibble ← okOr (hexValue byte) .invalidHex
    match high with
    | some first => do
      let bytes ← setByte bytes output ((first <<< 4) ||| nibble)
      parseDigits rest bytes (output + 1) none
    | none => parseDigits rest bytes output (some nibble)

def parse (text : List UInt8) : Outcome ProtocolIdError ProtocolId := do
  rejectIf (text.length ≠ 36) .invalidLength
  checkText 0 text
  let bytes ← parseDigits (text.filter (· ≠ dash)) (Buf.zero 16) 0 none
  fromBytes bytes

/-- A digit of a number in base sixteen. -/
def hexDigit (nibble : UInt8) : UInt8 := if nibble < 10 then nibble + 48 else nibble + 87

/-- A byte as two digits. -/
def hexPair : List UInt8 := [hexDigit (byte >>> 4), hexDigit (byte &&& 15)]

/-- The text of sixteen bytes: a dash goes before the bytes 4, 6, 8 and 10. -/
def displayBytes (bytes : List UInt8) : List UInt8 :=
  bytes.zipIdx.flatMap fun (byte, index) =>
    (if index ∈ [4, 6, 8, 10] then [dash] else []) ++ hexPair byte

/-- `Display::fmt`. -/
def display (id : ProtocolId) : List UInt8 := displayBytes id.bytes.1

/-! ### Digits -/

theorem forall_uint8 {p : UInt8 → Prop} (h : ∀ n : Fin 256, p (UInt8.ofFin n)) (b : UInt8) : p b := by
  have := h b.toFin
  simpa using this

/-- Each digit of a byte is read back. -/
theorem hexValue_hexPair (b : UInt8) : hexValue (hexDigit (b >>> 4)) = some (b >>> 4) ∧
    hexValue (hexDigit (b &&& 15)) = some (b &&& 15) ∧ ((b >>> 4) <<< 4) ||| (b &&& 15) = b := by
  revert b
  apply forall_uint8
  decide +kernel

/-- A digit stands for a number below sixteen, and is its digit. -/
theorem hexDigit_of_hexValue {b n : UInt8} (h : hexValue b = some n) :
    n < 16 ∧ hexDigit n = b ∧ b ≠ dash := by
  have hall : ∀ b : UInt8, ∀ n ∈ hexValue b, n < 16 ∧ hexDigit n = b ∧ b ≠ dash := by
    apply forall_uint8
    decide +kernel
  exact hall b n h

/-- The byte of two digits. -/
theorem nibbles_of_byte {a b : UInt8} (ha : a < 16) (hb : b < 16) :
    ((a <<< 4) ||| b) >>> 4 = a ∧ ((a <<< 4) ||| b) &&& 15 = b := by
  have hall : ∀ i j : Fin 16, ((UInt8.ofNat i.val <<< 4) ||| UInt8.ofNat j.val) >>> 4 = UInt8.ofNat i.val ∧
        ((UInt8.ofNat i.val <<< 4) ||| UInt8.ofNat j.val) &&& 15 = UInt8.ofNat j.val := by
    decide +kernel
  have := hall ⟨a.toNat, ha⟩ ⟨b.toNat, hb⟩
  simpa using this

/-- Reading the digits of some bytes writes the bytes. -/
theorem parseDigits_flatMap (bs : List UInt8) (buffer : Buf 16) {output : ℕ} (h : output + bs.length ≤ 16) :
    parseDigits (bs.flatMap hexPair) buffer output none = .ok (buffer.put output bs) := by
  induction bs generalizing buffer output with
  | nil =>
    rw [flatMap_nil, parseDigits]
    congr 1
    refine Buf.ext_byteAt fun i hi => ?_
    rw [Buf.byteAt_put_of_not_mem _ (by simp; omega)]
  | cons b bs ih =>
    obtain ⟨hhigh, hlow, hbyte⟩ := hexValue_hexPair b
    simp only [length_cons] at h
    simp only [flatMap_cons, hexPair, cons_append, nil_append, parseDigits, hhigh,
      hlow, okOr_some, ok_bind, hbyte, setByte, if_pos (show output < 16 by omega)]
    rw [ih _ (by omega)]
    congr 1
    -- one byte and then the rest is all of them
    refine Buf.ext_byteAt fun i hi => ?_
    rw [Buf.byteAt_put _ _ _ hi, Buf.byteAt_put _ _ _ hi, Buf.byteAt_put _ _ _ hi]
    simp only [length_cons, length_nil]
    by_cases h1 : i = output
    · subst h1
      simp
    · by_cases h2 : output + 1 ≤ i ∧ i < output + 1 + bs.length
      · rw [if_pos h2, if_pos (by omega), show i - output = i - (output + 1) + 1 by omega]
        simp
      · rw [if_neg h2, if_neg (by omega), if_neg (by omega)]

/-- Characters that are all digits, in pairs, are the digits of some bytes. -/
theorem exists_flatMap {m : ℕ} {digits : List UInt8} (hl : digits.length = 2 * m)
    (hd : ∀ d ∈ digits, hexValue d ≠ none) : ∃ bs : List UInt8, bs.length = m ∧
      bs.flatMap hexPair = digits := by
  induction m generalizing digits with
  | zero => exact ⟨[], rfl, (length_eq_zero_iff.1 hl).symm⟩
  | succ m ih =>
    match digits with
    | [] => simp at hl
    | [_] => simp at hl; omega
    | c :: d :: rest =>
      simp only [length_cons] at hl
      obtain ⟨bs, hbs, hflat⟩ := ih (show rest.length = 2 * m by omega)
        fun x hx => hd x (mem_cons_of_mem _ (mem_cons_of_mem _ hx))
      obtain ⟨p, hp⟩ := ne_none_iff_exists'.1 (hd c (by simp))
      obtain ⟨q, hq⟩ := ne_none_iff_exists'.1 (hd d (by simp))
      obtain ⟨hp1, hp2, _⟩ := hexDigit_of_hexValue hp
      obtain ⟨hq1, hq2, _⟩ := hexDigit_of_hexValue hq
      obtain ⟨h1, h2⟩ := nibbles_of_byte hp1 hq1
      refine ⟨((p <<< 4) ||| q) :: bs, by simp [hbs], ?_⟩
      rw [flatMap_cons, hexPair, h1, h2, hp2, hq2, hflat]
      rfl

/-! ### Characters -/

variable {index : ℕ} {u : Unit} {text : List UInt8}

theorem checkChar_eq_ok {byte : UInt8} : checkChar index byte = .ok u ↔
      if index ∈ [8, 13, 18, 23] then byte = dash else hexValue byte ≠ none := by
  unfold checkChar
  split
  · simp
  · simp only [rejectIf_eq_ok, hexValue]
    split <;> simp_all

@[simp] theorem checkText_nil (index : ℕ) : checkText index [] = .ok () := rfl

theorem checkText_cons {byte : UInt8} {rest : List UInt8} : checkText index (byte :: rest) = .ok u ↔
      (if index ∈ [8, 13, 18, 23] then byte = dash else hexValue byte ≠ none) ∧
        checkText (index + 1) rest = .ok u := by
  simp only [checkText, run_eq_ok, checkChar_eq_ok]

/-- Two accepted texts of one length with the same digits are equal: the places of the dashes are
fixed. -/
theorem eq_of_checkText {s t : List UInt8} {v : Unit} (hl : s.length = t.length)
    (hs : checkText index s = .ok u) (ht : checkText index t = .ok v)
    (h : s.filter (· ≠ dash) = t.filter (· ≠ dash)) : s = t := by
  induction s generalizing index t with
  | nil => exact (length_eq_zero_iff.1 hl.symm).symm
  | cons a s ih =>
    match t with
    | [] => simp at hl
    | b :: t =>
      obtain ⟨ha, hs'⟩ := checkText_cons.1 hs
      obtain ⟨hb, ht'⟩ := checkText_cons.1 ht
      have hlen : s.length = t.length := by simpa using hl
      split at ha
      case isTrue hindex =>
        rw [if_pos hindex] at hb
        subst ha hb
        rw [ih hlen hs' ht' (by simpa using h)]
      case isFalse hindex =>
        rw [if_neg hindex] at hb
        obtain ⟨m, hm⟩ := ne_none_iff_exists'.1 ha
        obtain ⟨n, hn⟩ := ne_none_iff_exists'.1 hb
        have hda := (hexDigit_of_hexValue hm).2.2
        have hdb := (hexDigit_of_hexValue hn).2.2
        simp only [filter_cons, ne_eq, hda, not_false_eq_true, decide_true, if_true, hdb, cons.injEq] at h
        rw [h.1, ih hlen hs' ht' h.2]

/-- The characters of an accepted text that are not dashes are digits. -/
theorem digits_of_checkText (h : checkText index text = .ok u) :
    ∀ d ∈ text.filter (· ≠ dash), hexValue d ≠ none := by
  induction text generalizing index with
  | nil => simp
  | cons a text ih =>
    obtain ⟨ha, h⟩ := checkText_cons.1 h
    intro d hd
    rw [filter_cons] at hd
    split at hd
    case isTrue hdash =>
      rcases mem_cons.1 hd with rfl | hd
      · split at ha
        · simp [ha] at hdash
        · exact ha
      · exact ih h d hd
    case isFalse => exact ih h d hd

/-- An accepted text has a digit in every place that is not for a dash. -/
theorem length_digits (h : checkText index text = .ok u) : (text.filter (· ≠ dash)).length =
      ((range' index text.length).filter (· ∉ [8, 13, 18, 23])).length := by
  induction text generalizing index with
  | nil => rfl
  | cons a text ih =>
    obtain ⟨ha, h⟩ := checkText_cons.1 h
    rw [length_cons, range'_succ, filter_cons, filter_cons]
    split at ha
    case isTrue hindex =>
      rw [if_neg (by simp [ha]), if_neg (by simp only [hindex]; decide)]
      exact ih h
    case isFalse hindex =>
      obtain ⟨n, hn⟩ := ne_none_iff_exists'.1 ha
      have hdash := (hexDigit_of_hexValue hn).2.2
      rw [if_pos (by simpa using hdash), if_pos (by simpa using hindex), length_cons, length_cons, ih h]

/-! ### Reading and writing -/

/-- A list of sixteen bytes, byte by byte. -/
theorem exists_bytes {bs : List UInt8} (h : bs.length = 16) :
    ∃ b0 b1 b2 b3 b4 b5 b6 b7 b8 b9 c0 c1 c2 c3 c4 c5,
      bs = [b0, b1, b2, b3, b4, b5, b6, b7, b8, b9, c0, c1, c2, c3, c4, c5] := by
  match bs, h with
  | [b0, b1, b2, b3, b4, b5, b6, b7, b8, b9, c0, c1, c2, c3, c4, c5], _ =>
    exact ⟨_, _, _, _, _, _, _, _, _, _, _, _, _, _, _, _, rfl⟩

/-- The text of sixteen bytes has the right form, and its digits are those of the bytes. -/
theorem displayBytes_form {bs : List UInt8} (h : bs.length = 16) :
    (displayBytes bs).length = 36 ∧ checkText 0 (displayBytes bs) = .ok () ∧
      (displayBytes bs).filter (· ≠ dash) = bs.flatMap hexPair := by
  have hhigh : ∀ b : UInt8, hexValue (hexDigit (b >>> 4)) ≠ none := fun b => by
    rw [(hexValue_hexPair b).1]
    exact some_ne_none _
  have hlow : ∀ b : UInt8, hexValue (hexDigit (b &&& 15)) ≠ none := fun b => by
    rw [(hexValue_hexPair b).2.1]
    exact some_ne_none _
  have hdash1 : ∀ b : UInt8, hexDigit (b >>> 4) ≠ dash := fun b =>
    (hexDigit_of_hexValue (hexValue_hexPair b).1).2.2
  have hdash2 : ∀ b : UInt8, hexDigit (b &&& 15) ≠ dash := fun b =>
    (hexDigit_of_hexValue (hexValue_hexPair b).2.1).2.2
  obtain ⟨b0, b1, b2, b3, b4, b5, b6, b7, b8, b9, c0, c1, c2, c3, c4, c5, rfl⟩ := exists_bytes h
  refine ⟨by simp [displayBytes, hexPair], ?_, ?_⟩
  · simp [displayBytes, hexPair, checkText_cons, hhigh, hlow]
  · simp [displayBytes, hexPair, hdash1, hdash2]

theorem put_all (bs : Buf 16) : (Buf.zero 16).put 0 bs.1 = bs := by
  refine Buf.ext_byteAt fun i hi => ?_
  rw [Buf.byteAt_put _ _ _ hi, if_pos (by omega)]
  rfl

/-- The text of an identifier is read as the identifier. -/
theorem parse_display (id : ProtocolId) : parse id.display = .ok id := by
  obtain ⟨hl, hcheck, hdigits⟩ := displayBytes_form id.bytes.2
  have hread := parseDigits_flatMap id.bytes.1 (.zero 16)
    (show 0 + id.bytes.1.length ≤ 16 by rw [id.bytes.2])
  rw [put_all] at hread
  rw [parse, display, rejectIf_of_not (not_not.2 hl), hcheck, hdigits, hread]
  exact fromBytes_eq_ok.2 rfl

/-- An accepted text is the text of the identifier it is read as. -/
theorem display_of_parse {id : ProtocolId} (h : parse text = .ok id) : id.display = text := by
  simp only [parse, run_eq_ok, not_not] at h
  obtain ⟨hl, _, hcheck, bytes, hbytes, hid⟩ := h
  have hcount := length_digits hcheck
  rw [hl] at hcount
  obtain ⟨bs, hbs, hflat⟩ := exists_flatMap (m := 16) hcount (digits_of_checkText hcheck)
  have hread := parseDigits_flatMap bs (.zero 16) (show 0 + bs.length ≤ 16 by omega)
  rw [hflat, hbytes, put_all ⟨bs, hbs⟩] at hread
  obtain ⟨hl', hcheck', hdigits⟩ := displayBytes_form hbs
  rw [display, fromBytes_eq_ok.1 hid, Except.ok.inj hread]
  exact eq_of_checkText (hl'.trans hl.symm) hcheck' hcheck (hdigits.trans hflat)

theorem noTrap_checkText (index : ℕ) (text : List UInt8) : NoTrap (checkText index text) := by
  induction text generalizing index with
  | nil => exact noTrap_ok
  | cons a text ih =>
    refine .bind ?_ fun _ _ => ih _
    exact .ite (fun _ => noTrap_rejectIf) fun _ => noTrap_rejectIf

/-- Reading a text never traps: an accepted text has 32 digits, which make up sixteen bytes. -/
theorem noTrap_parse (text : List UInt8) : NoTrap (parse text) := by
  refine .rejectIf_bind fun hl => (noTrap_checkText 0 text).bind fun _ hcheck => ?_
  have hcount := length_digits hcheck
  rw [not_not.1 hl] at hcount
  obtain ⟨bs, hbs, hflat⟩ := exists_flatMap (m := 16) hcount (digits_of_checkText hcheck)
  rw [← hflat, parseDigits_flatMap bs _ (by omega)]
  exact noTrap_fromBytes _

end ProtocolId

end NSWP

namespace NSWP

open Bytes Rust

/-- A codec whose two halves are inverse to each other on what they accept, and whose reader does not
trap. -/
structure Canonical {ε ε' α β : Type} (encode : α → Outcome ε β) (decode : β → Outcome ε' α) :
    Prop where
  decode_encode : ∀ {x : α} {b : β}, encode x = .ok b → decode b = .ok x
  encode_decode : ∀ {b : β} {x : α}, decode b = .ok x → encode x = .ok b
  noTrap : ∀ b : β, NoTrap (decode b)

/-- A codec is canonical when it writes and reads the images of valid values. -/
theorem Canonical.intro {ε ε' α β : Type} {encode : α → Outcome ε β} {decode : β → Outcome ε' α}
    {valid : α → Prop} {image : α → β} (hencode : ∀ {x b}, encode x = .ok b ↔ valid x ∧ image x = b)
    (hdecode : ∀ {b x}, decode b = .ok x ↔ valid x ∧ b = image x) (hnoTrap : ∀ b, NoTrap (decode b)) :
    Canonical encode decode where
  decode_encode h := by
    obtain ⟨hvalid, himage⟩ := hencode.1 h
    exact hdecode.2 ⟨hvalid, himage.symm⟩
  encode_decode h := by
    obtain ⟨hvalid, himage⟩ := hdecode.1 h
    exact hencode.2 ⟨hvalid, himage.symm⟩
  noTrap := hnoTrap

/-! ### Codes -/

inductive PacketKind where
  | negotiateRequest | negotiateResponse | request | response | oneWay | event | cancel
  | protocolError
  deriving DecidableEq

namespace PacketKind

def code : PacketKind → UInt8
  | .negotiateRequest => 1
  | .negotiateResponse => 2
  | .request => 3
  | .response => 4
  | .oneWay => 5
  | .event => 6
  | .cancel => 7
  | .protocolError => 8

def tryFrom (value : UInt8) : Outcome DecodeError PacketKind :=
  match value with
  | 1 => .ok .negotiateRequest
  | 2 => .ok .negotiateResponse
  | 3 => .ok .request
  | 4 => .ok .response
  | 5 => .ok .oneWay
  | 6 => .ok .event
  | 7 => .ok .cancel
  | 8 => .ok .protocolError
  | _ => fail .unknownPacketKind

theorem tryFrom_eq_ok {value : UInt8} {kind : PacketKind} : tryFrom value = .ok kind ↔ kind.code = value := by
  constructor
  · intro h
    unfold tryFrom at h
    split at h <;> cases h <;> rfl
  · rintro rfl
    cases kind <;> rfl

theorem noTrap_tryFrom (value : UInt8) : NoTrap (tryFrom value) := by
  unfold tryFrom
  split <;> simp

end PacketKind

/-- `HeaderFlags`: the only known bit says that the packet is traced. -/
inductive HeaderFlags where
  | none | traceSampled
  deriving DecidableEq

namespace HeaderFlags

def bits : HeaderFlags → UInt8
  | .none => 0
  | .traceSampled => 1

def knownBits : UInt8 := traceSampled.bits

def fromBits (value : UInt8) : Outcome DecodeError HeaderFlags :=
  if value &&& ~~~ knownBits ≠ 0 then fail .unknownFlags
  else if value = 0 then .ok .none
  else .ok .traceSampled

def contains (flags flag : HeaderFlags) : Bool := flags.bits &&& flag.bits = flag.bits

theorem fromBits_eq_ok {value : UInt8} {flags : HeaderFlags} :
    fromBits value = .ok flags ↔ flags.bits = value := by
  have hall : ∀ value : UInt8, ∀ flags : HeaderFlags, fromBits value = .ok flags ↔ flags.bits = value := by
    apply ProtocolId.forall_uint8
    intro n flags
    cases flags <;> revert n <;> decide +kernel
  exact hall value flags

theorem noTrap_fromBits (value : UInt8) : NoTrap (fromBits value) := by
  unfold fromBits
  split
  · simp
  · split <;> simp

end HeaderFlags

inductive TransportStatus where
  | ok | canceled | timedOut | overloaded | resourceExhausted | unavailable | accessDenied
  | badState | notSupported | internal
  deriving DecidableEq

variable (value : UInt32)

namespace TransportStatus

def code : TransportStatus → UInt32
  | .ok => 0
  | .canceled => 1
  | .timedOut => 2
  | .overloaded => 3
  | .resourceExhausted => 4
  | .unavailable => 5
  | .accessDenied => 6
  | .badState => 7
  | .notSupported => 8
  | .internal => 9

def tryFrom : Outcome DecodeError TransportStatus :=
  match value with
  | 0 => .ok .ok
  | 1 => .ok .canceled
  | 2 => .ok .timedOut
  | 3 => .ok .overloaded
  | 4 => .ok .resourceExhausted
  | 5 => .ok .unavailable
  | 6 => .ok .accessDenied
  | 7 => .ok .badState
  | 8 => .ok .notSupported
  | 9 => .ok .internal
  | _ => fail .unknownTransportStatus

theorem tryFrom_eq_ok {value : UInt32} {status : TransportStatus} :
    tryFrom value = .ok status ↔ status.code = value := by
  constructor
  · intro h
    unfold tryFrom at h
    split at h <;> cases h <;> rfl
  · rintro rfl
    cases status <;> rfl

theorem noTrap_tryFrom : NoTrap (tryFrom value) := by
  unfold tryFrom
  split <;> simp

end TransportStatus

inductive ProtocolErrorCode where
  | invalidHeader | unsupportedWireVersion | wrongProtocol | wrongProtocolVersion
  | unexpectedPacketKind | unknownOrdinal | invalidBody | noncanonicalBody | handleCountMismatch
  | wrongHandleType | insufficientHandleRights | excessHandleRights | duplicateTransaction
  | invalidTransaction | limitExceeded | reservedValueUsed | fieldUnavailable | internalRuntimeError
  deriving DecidableEq

namespace ProtocolErrorCode

def code : ProtocolErrorCode → UInt32
  | .invalidHeader => 1
  | .unsupportedWireVersion => 2
  | .wrongProtocol => 3
  | .wrongProtocolVersion => 4
  | .unexpectedPacketKind => 5
  | .unknownOrdinal => 6
  | .invalidBody => 7
  | .noncanonicalBody => 8
  | .handleCountMismatch => 9
  | .wrongHandleType => 10
  | .insufficientHandleRights => 11
  | .excessHandleRights => 12
  | .duplicateTransaction => 13
  | .invalidTransaction => 14
  | .limitExceeded => 15
  | .reservedValueUsed => 16
  | .fieldUnavailable => 17
  | .internalRuntimeError => 18

def tryFrom : Outcome DecodeError ProtocolErrorCode :=
  match value with
  | 1 => .ok .invalidHeader
  | 2 => .ok .unsupportedWireVersion
  | 3 => .ok .wrongProtocol
  | 4 => .ok .wrongProtocolVersion
  | 5 => .ok .unexpectedPacketKind
  | 6 => .ok .unknownOrdinal
  | 7 => .ok .invalidBody
  | 8 => .ok .noncanonicalBody
  | 9 => .ok .handleCountMismatch
  | 10 => .ok .wrongHandleType
  | 11 => .ok .insufficientHandleRights
  | 12 => .ok .excessHandleRights
  | 13 => .ok .duplicateTransaction
  | 14 => .ok .invalidTransaction
  | 15 => .ok .limitExceeded
  | 16 => .ok .reservedValueUsed
  | 17 => .ok .fieldUnavailable
  | 18 => .ok .internalRuntimeError
  | _ => fail .invalidProtocolError

theorem tryFrom_eq_ok {value : UInt32} {error : ProtocolErrorCode} :
    tryFrom value = .ok error ↔ error.code = value := by
  constructor
  · intro h
    unfold tryFrom at h
    split at h <;> cases h <;> rfl
  · rintro rfl
    cases error <;> rfl

theorem noTrap_tryFrom : NoTrap (tryFrom value) := by
  unfold tryFrom
  split <;> simp

end ProtocolErrorCode

/-! ### The header -/

def headerBytes : ℕ := 64
def protocolErrorBodyBytes : ℕ := 24

/-- "NSWP". -/
def magic : List UInt8 := [0x4e, 0x53, 0x57, 0x50]

def wireMajor : UInt8 := 1
def wireMinor : UInt8 := 0

@[ext] structure Header where
  kind : PacketKind
  flags : HeaderFlags
  (protocolMajor protocolMinor : UInt16)
  (ordinal bodyBytes : UInt32)
  handleCount : UInt16
  transportStatus : TransportStatus
  (transactionId deadlineNs : UInt64)
  traceId : Buf 16

namespace Header

/-- The deadline of a packet that has none. -/
def infinite : UInt64 := 0xffffffffffffffff

variable (h : Header)

/-- The fields belong together for the kind of packet. -/
def validRelationship : Bool :=
  match h.kind with
  | .negotiateRequest | .negotiateResponse =>
    h.protocolMajor = 0 && h.protocolMinor = 0 && h.ordinal = 0 && h.handleCount = 0 &&
      h.transportStatus = .ok && h.transactionId = 0 && h.deadlineNs = infinite
  | .request =>
    h.protocolMajor ≠ 0 && h.ordinal ≠ 0 && h.transportStatus = .ok && h.transactionId ≠ 0
  | .response =>
    h.protocolMajor ≠ 0 && h.ordinal ≠ 0 && h.transactionId ≠ 0 &&
      (h.transportStatus = .ok || (h.bodyBytes = 0 && h.handleCount = 0))
  | .oneWay =>
    h.protocolMajor ≠ 0 && h.ordinal ≠ 0 && h.transportStatus = .ok && h.transactionId = 0
  | .event =>
    h.protocolMajor ≠ 0 && h.ordinal ≠ 0 && h.transportStatus = .ok && h.transactionId = 0 &&
      h.deadlineNs = infinite
  | .cancel =>
    h.protocolMajor ≠ 0 && h.ordinal ≠ 0 && h.bodyBytes = 0 && h.handleCount = 0 &&
      h.transportStatus = .ok && h.transactionId ≠ 0
  | .protocolError =>
    h.bodyBytes.toNat = protocolErrorBodyBytes && h.handleCount = 0 && h.transportStatus = .ok

def validateIntrinsic : Outcome DecodeError Unit := do
  rejectIf (h.bodyBytes.toNat % 8 ≠ 0) .bodyNotAligned
  rejectIf (h.flags.contains .traceSampled = true ∧ h.traceId = Buf.zero 16)
    .invalidPacketRelationship
  rejectIf (h.validRelationship = false) .invalidPacketRelationship

/-- The fields of a header, in the order in which they are written. -/
def fields : List Field :=
  [(0, magic), u16Field 4 64, (6, [wireMajor]), (7, [wireMinor]), (8, [h.kind.code]),
    (9, [h.flags.bits]), u16Field 12 h.protocolMajor, u16Field 14 h.protocolMinor,
    u32Field 16 h.ordinal, u32Field 20 h.bodyBytes, u16Field 24 h.handleCount,
    u32Field 28 h.transportStatus.code, u64Field 32 h.transactionId, u64Field 40 h.deadlineNs,
    (48, h.traceId.1)]

/-- `encode`: the buffer is zeroed and the fields are written. -/
def encode : Outcome EncodeError (Buf headerBytes) := do
  mapErr EncodeError.invalidHeader h.validateIntrinsic
  return render headerBytes h.fields

def decode (input : Buf headerBytes) : Outcome DecodeError Header := do
  let found ← subslice input.1 0 4
  rejectIf (found ≠ magic) .invalidMagic
  let size ← getU16 input.1 4
  rejectIf (size ≠ 64) .invalidHeaderSize
  let major ← index input.1 6
  let minor ← index input.1 7
  rejectIf (major ≠ wireMajor ∨ minor ≠ wireMinor) .unsupportedWireVersion
  let reserved₀ ← getU16 input.1 10
  let reserved₁ ← getU16 input.1 26
  rejectIf (reserved₀ ≠ 0 ∨ reserved₁ ≠ 0) .reservedValueUsed
  let traceId ← subarray input.1 48 16
  let kind ← PacketKind.tryFrom (← index input.1 8)
  let flags ← HeaderFlags.fromBits (← index input.1 9)
  let protocolMajor ← getU16 input.1 12
  let protocolMinor ← getU16 input.1 14
  let ordinal ← getU32 input.1 16
  let bodyBytes ← getU32 input.1 20
  let handleCount ← getU16 input.1 24
  let transportStatus ← TransportStatus.tryFrom (← getU32 input.1 28)
  let transactionId ← getU64 input.1 32
  let deadlineNs ← getU64 input.1 40
  let header : Header :=
    { kind, flags, protocolMajor, protocolMinor, ordinal, bodyBytes, handleCount, transportStatus,
      transactionId, deadlineNs, traceId }
  header.validateIntrinsic
  return header

def decodePrefix (input : List UInt8) : Outcome DecodeError Header :=
  if h : headerBytes ≤ input.length then decode ⟨input.take headerBytes, by simpa using h⟩
  else fail .packetTooShort

def tiles : List Tile :=
  [.field 0 4, .field 4 2, .field 6 1, .field 7 1, .field 8 1, .field 9 1, .gap 10 2, .field 12 2,
    .field 14 2, .field 16 4, .field 20 4, .field 24 2, .gap 26 2, .field 28 4, .field 32 8,
    .field 40 8, .field 48 16]

theorem tiled : Tiled headerBytes 0 tiles := by decide

theorem follows_fields : Follows tiles h.fields := by
  simp [Follows, tiles, fields, u16Field, u32Field, u64Field, magic, Tile.field, Tile.gap, h.traceId.2]

variable {b : Buf headerBytes} {h} {input : List UInt8}

theorem decode_eq_ok : decode b = .ok h ↔ h.validateIntrinsic = .ok () ∧ b = render headerBytes h.fields := by
  rw [eq_render_iff tiled h.follows_fields]
  obtain ⟨kind, flags, protocolMajor, protocolMinor, ordinal, bodyBytes, handleCount, status, id,
    deadline, traceId⟩ := h
  unfold decode
  simp (disch := decide) only [reads_buf, ok_bind, fields, tiles, holds_fields, zero_tiles, and_true,
    holds_bytes traceId.2, ← u16At_eq_zero]
  simp only [run_eq_ok, not_or, not_not, PacketKind.tryFrom_eq_ok, HeaderFlags.fromBits_eq_ok,
    TransportStatus.tryFrom_eq_ok]
  constructor
  · rintro ⟨hmagic, hsize, ⟨hmajor, hminor⟩, ⟨h0, h1⟩, _, hkind, _, hflags, _, hstatus, _, hvalid, heq⟩
    cases heq
    exact ⟨hvalid, ⟨hmagic, hsize, hmajor, hminor, hkind.symm, hflags.symm, rfl, rfl, rfl, rfl, rfl,
      hstatus.symm, rfl, rfl, rfl⟩, h0, h1⟩
  · rintro ⟨hvalid, ⟨hmagic, hsize, hmajor, hminor, hkind, hflags, rfl, rfl, rfl, rfl, rfl, hstatus, rfl,
      rfl, htrace⟩, h0, h1⟩
    obtain rfl : arrayAt b 48 16 (by decide) = traceId := Subtype.ext htrace
    exact ⟨hmagic, hsize, ⟨hmajor, hminor⟩, ⟨h0, h1⟩, kind, hkind.symm, flags, hflags.symm, status,
      hstatus.symm, (), hvalid, rfl⟩

theorem encode_eq_ok : h.encode = .ok b ↔ h.validateIntrinsic = .ok () ∧ render headerBytes h.fields = b := by
  simp only [encode, run_eq_ok]
  constructor
  · rintro ⟨_, hvalid, hb⟩
    exact ⟨hvalid, hb⟩
  · rintro ⟨hvalid, hb⟩
    exact ⟨(), hvalid, hb⟩

theorem noTrap_validateIntrinsic (h : Header) : NoTrap h.validateIntrinsic := by
  simp [validateIntrinsic, noTrap_bind]

theorem noTrap_decode (b : Buf headerBytes) : NoTrap (decode b) := by
  unfold decode
  simp (disch := decide) only [reads_buf]
  simp [noTrap_bind, noTrap_validateIntrinsic, PacketKind.noTrap_tryFrom,
    HeaderFlags.noTrap_fromBits, TransportStatus.noTrap_tryFrom]

theorem canonical : Canonical encode decode := .intro encode_eq_ok decode_eq_ok noTrap_decode

theorem decodePrefix_of_le (h : headerBytes ≤ input.length) :
    decodePrefix input = decode ⟨input.take headerBytes, by simpa using h⟩ := dif_pos h

/-- A header read from the start of a packet is written as the first bytes of it. -/
theorem encode_of_decodePrefix (hd : decodePrefix input = .ok h) :
    ∃ b : Buf headerBytes, h.encode = .ok b ∧ b.1 <+: input := by
  by_cases hle : headerBytes ≤ input.length
  · rw [decodePrefix_of_le hle] at hd
    exact ⟨_, canonical.encode_decode hd, List.take_prefix _ _⟩
  · rw [decodePrefix, dif_neg hle] at hd
    exact absurd hd (fail_ne_ok _ _)

/-- A packet that starts with an encoded header is read as that header. -/
theorem decodePrefix_of_encode (he : h.encode = .ok b) (rest : List UInt8) :
    decodePrefix (b.1 ++ rest) = .ok h := by
  have hb : b.1.length = headerBytes := b.2
  rw [decodePrefix_of_le (by simp [hb])]
  have htake : (b.1 ++ rest).take headerBytes = b.1 := List.take_left' hb
  simp only [htake]
  exact canonical.decode_encode he

theorem noTrap_decodePrefix (input : List UInt8) : NoTrap (decodePrefix input) := by
  unfold decodePrefix
  split
  · exact noTrap_decode _
  · exact noTrap_fail

end Header

/-! ### The protocol error record -/

structure ProtocolErrorRecord where
  code : ProtocolErrorCode
  detail : UInt32
  relatedTransactionId : UInt64
  relatedOrdinal : UInt32
  deriving DecidableEq

namespace ProtocolErrorRecord

variable (record : ProtocolErrorRecord) (header : Header)

/-- `validate_protocol_error_header`. -/
def validateHeader : Outcome DecodeError Unit :=
  rejectIf (¬ (header.kind = .protocolError ∧ header.bodyBytes.toNat = protocolErrorBodyBytes ∧
    header.transactionId = record.relatedTransactionId ∧ header.ordinal = record.relatedOrdinal))
    .invalidProtocolError

/-- The fields of a record, in the order in which they are written. -/
def fields : List Field :=
  [u32Field 0 record.code.code, u32Field 4 record.detail, u64Field 8 record.relatedTransactionId,
    u32Field 16 record.relatedOrdinal]

def encode (record : ProtocolErrorRecord) : Outcome EncodeError (Buf protocolErrorBodyBytes) := do
  mapErr EncodeError.invalidHeader (record.validateHeader header)
  return render protocolErrorBodyBytes record.fields

def decode (input : Buf protocolErrorBodyBytes) : Outcome DecodeError ProtocolErrorRecord := do
  let reserved ← subslice input.1 20 4
  rejectIf (reserved ≠ List.replicate 4 0) .reservedValueUsed
  let code ← ProtocolErrorCode.tryFrom (← getU32 input.1 0)
  let detail ← getU32 input.1 4
  let relatedTransactionId ← getU64 input.1 8
  let relatedOrdinal ← getU32 input.1 16
  let record : ProtocolErrorRecord := { code, detail, relatedTransactionId, relatedOrdinal }
  record.validateHeader header
  return record

def tiles : List Tile :=
  [.field 0 4, .field 4 4, .field 8 8, .field 16 4, .gap 20 4]

theorem tiled : Tiled protocolErrorBodyBytes 0 tiles := by decide

theorem follows_fields : Follows tiles record.fields := rfl

variable {b : Buf protocolErrorBodyBytes} {header} {r : ProtocolErrorRecord}

/-- When a buffer is read as a record. -/
theorem decode_eq_ok : decode header b = .ok r ↔
      r.validateHeader header = .ok () ∧ b = render protocolErrorBodyBytes r.fields := by
  rw [eq_render_iff tiled r.follows_fields]
  obtain ⟨code, detail, id, ordinal⟩ := r
  unfold decode
  simp (disch := decide) only [reads_buf, ok_bind, fields, tiles, holds_fields, zero_tiles, and_true]
  simp (disch := decide) only [run_eq_ok, not_not, ProtocolErrorCode.tryFrom_eq_ok,
    allZero_iff_replicate, b.length_slice]
  constructor
  · rintro ⟨hzero, _, hcode, _, hvalid, heq⟩
    cases heq
    exact ⟨hvalid, ⟨hcode.symm, rfl, rfl, rfl⟩, hzero⟩
  · rintro ⟨hvalid, ⟨hcode, rfl, rfl, rfl⟩, hzero⟩
    exact ⟨hzero, code, hcode.symm, (), hvalid, rfl⟩

theorem encode_eq_ok : encode header r = .ok b ↔
      r.validateHeader header = .ok () ∧ render protocolErrorBodyBytes r.fields = b := by
  simp only [encode, run_eq_ok]
  constructor
  · rintro ⟨_, hvalid, hb⟩
    exact ⟨hvalid, hb⟩
  · rintro ⟨hvalid, hb⟩
    exact ⟨(), hvalid, hb⟩

theorem noTrap_decode (header : Header) (b : Buf protocolErrorBodyBytes) : NoTrap (decode header b) := by
  unfold decode
  simp (disch := decide) only [reads_buf]
  simp [noTrap_bind, validateHeader, ProtocolErrorCode.noTrap_tryFrom]

/-- The codec of the error record is canonical, whatever header it comes with. -/
theorem canonical (header : Header) : Canonical (encode header) (decode header) :=
  .intro encode_eq_ok decode_eq_ok (noTrap_decode header)

end ProtocolErrorRecord

end NSWP
