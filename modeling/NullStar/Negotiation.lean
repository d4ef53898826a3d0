/-
**Negotiation: the messages on the wire, and the selection of versions and features.**

The roots of the negotiation request and of the response are laid out by hand; each is checked on its own
when it is written and when it is read, and refers to the list of features behind it.

A server walks down its minors in the requested range, skips those whose minimum does not fit the limits,
and takes the first at which all required features are available and fit together; then it goes through
the optional features in the order of their identifiers and keeps each one that is available and still
fits with what was kept before.  The client checks the answer again on its own.

* `NegotiationRequest`, `NegotiationResponse` and their `encode` and `decode`;
* `ServerProfile`, `validateProfile` — what a server offers, and its checks;
* `DecodedNegotiationResponse.validateAgainst` — the client's check;
* `NegotiationRequest.decode_eq_ok`, `NegotiationResponse.decode_eq_ok` — what is read;
* `codecs_canonical` — **every fixed codec of the protocol is canonical, and no reader traps**.
-/

import NullStar.FeatureList
import NullStar.Keyed

set_option autoImplicit false

namespace NSWP

open Bytes Rust List ProtocolId NoTrap

variable (input : List UInt8)

def copy16 (o : ℕ) : Outcome NegotiationError (Buf 16) :=
  if h : o + 16 ≤ input.length then .ok ⟨slice input o 16, length_slice_of_le h⟩
  else fail .truncatedRoot

variable {n : ℕ}

theorem copy16_root (b : Buf n) (rest : List UInt8) {o : ℕ} (h : o + 16 ≤ n) :
    copy16 (b.1 ++ rest) o = .ok (arrayAt b o 16 h) := by
  rw [copy16, dif_pos (by rw [length_append]; omega)]
  simp only [slice_root b rest h, arrayAt]

/-- A message is its root and what follows. -/
theorem exists_root {input : List UInt8} (h : n ≤ input.length) :
    ∃ (b : Buf n) (rest : List UInt8), input = b.1 ++ rest :=
  ⟨⟨input.take n, by simpa using h⟩, input.drop n, (take_append_drop n input).symm⟩

/-! ### Messages with features -/

/-- A message with a list of features behind its root is written and read canonically: what is written is
read back, what is read is written again as the same bytes, and no input makes the reader trap. -/
structure CanonicalMessage {ρ δ : Type}
    (encode : ρ → List FeatureRecord → List UInt8 → Outcome EncodeError (ℕ × List UInt8))
    (decode : List UInt8 → Outcome DecodeError δ) (root : δ → ρ) (features : δ → FeatureList) :
    Prop where
  decode_encode : ∀ {r : ρ} {fs : List FeatureRecord} {output out : List UInt8} {k : ℕ},
    encode r fs output = .ok (k, out) →
      ∃ d, decode (out.take k) = .ok d ∧ root d = r ∧ (features d).records = fs
  encode_decode : ∀ {input output : List UInt8} {d : δ}, decode input = .ok d →
    input.length ≤ output.length → encode (root d) (features d).records output =
        .ok (input.length, input ++ output.drop input.length)
  noTrap : ∀ input : List UInt8, NoTrap (decode input)

section

variable {n o : ℕ} {ρ δ : Type} {encoding : FeatureEncoding} {valid : ρ → Bool → Prop} {image : ρ → ℕ → Buf n}

/-- A root and what follows it are the message with the given root and features. -/
structure IsMessage (encoding : FeatureEncoding) (valid : ρ → Bool → Prop) (image : ρ → ℕ → Buf n)
    (r : ρ) (fs : List FeatureRecord) (b : Buf n) (rest : List UInt8) : Prop where
  root : valid r fs.isEmpty
  features : validateFeatureRecords fs encoding = .ok ()
  small : 8 * fs.length < 2 ^ 32
  image : b = image r fs.length
  rest : rest = encodeFeatures fs encoding

variable {b : Buf n} {fs : List FeatureRecord} {r : ρ} {rest : List UInt8}

theorem IsMessage.length (h : IsMessage encoding valid image r fs b rest) :
    (b.1 ++ rest).length = n + 8 * fs.length := by
  rw [length_append, b.2, h.rest, length_encodeFeatures]

theorem IsMessage.records (h : IsMessage encoding valid image r fs b rest) :
    FeatureList.records ⟨rest, encoding⟩ = fs := by
  rw [h.rest]
  exact records_encodeFeatures (fun f hf => ((validateFeatureRecords_eq_ok.1 h.features).1 f hf).2) h.small

/-- The body of both encoders. -/
theorem encodeMessage_eq_ok {v : Outcome NegotiationError Unit} {output : List UInt8}
    {gs hs : List Field} (hfits : Fits n (gs ++ (refFields o n fs.length ++ hs))) (ho : o ≤ n)
    (hn : n < 2 ^ 32) {x : ℕ × List UInt8} : (do
      mapErr EncodeError.invalidNegotiation v
      mapErr EncodeError.invalidNegotiation (validateFeatureRecords fs encoding)
      let featureBytes ← okOr (checkedMul 64 fs.length featureRecordBytes) .arithmeticOverflow
      let encodedBytes ← okOr (checkedAdd 64 n featureBytes) .arithmeticOverflow
      rejectIf (output.length < encodedBytes) .outputTooSmall
      let ref ← encodeFeatureRef o n fs.length
      return (encodedBytes, (render n (gs ++ (ref ++ hs))).1 ++ encodeFeatures fs encoding ++
        output.drop encodedBytes)) = .ok x ↔
      v = .ok () ∧ validateFeatureRecords fs encoding = .ok () ∧ 8 * fs.length < 2 ^ 32 ∧
        n + 8 * fs.length ≤ output.length ∧
          x = (n + 8 * fs.length, (render n (gs ++ (refFields o n fs.length ++ hs))).1 ++
            encodeFeatures fs encoding ++ output.drop (n + 8 * fs.length)) := by
  simp only [run_eq_ok, checkedMul_eq_some, checkedAdd_eq_some, encodeFeatureRef_eq_ok ho hn]
  constructor
  · rintro ⟨_, hroot, _, hfs, _, ⟨-, rfl⟩, _, ⟨-, rfl⟩, hout, _, ⟨hsmall, rfl⟩, rfl⟩
    rw [featureRecordBytes] at hout
    refine ⟨hroot, hfs, hsmall, by omega, ?_⟩
    rw [render_ref hfits, featureRecordBytes, fs.length.mul_comm 8]
  · rintro ⟨hroot, hfs, hsmall, hout, rfl⟩
    refine ⟨(), hroot, (), hfs, _, ⟨by rw [featureRecordBytes]; omega, rfl⟩, _,
      ⟨by rw [featureRecordBytes]; omega, rfl⟩, by rw [featureRecordBytes]; omega, _, ⟨hsmall, rfl⟩, ?_⟩
    rw [render_ref hfits, featureRecordBytes, fs.length.mul_comm 8]

/-- A codec that writes and reads the messages with valid roots is canonical. -/
theorem CanonicalMessage.intro
    {encode : ρ → List FeatureRecord → List UInt8 → Outcome EncodeError (ℕ × List UInt8)}
    {decode : List UInt8 → Outcome DecodeError δ} {root : δ → ρ} {features : δ → FeatureList}
    (hsurj : ∀ r list, ∃ d, root d = r ∧ features d = list)
    (hencode : ∀ {r fs output x}, encode r fs output = .ok x ↔
      valid r fs.isEmpty ∧ validateFeatureRecords fs encoding = .ok () ∧ 8 * fs.length < 2 ^ 32 ∧
        n + 8 * fs.length ≤ output.length ∧ x = (n + 8 * fs.length,
          (image r fs.length).1 ++ encodeFeatures fs encoding ++ output.drop (n + 8 * fs.length)))
    (hlength : ∀ {input d}, decode input = .ok d → n ≤ input.length)
    (hdecode : ∀ {b : Buf n} {rest d}, decode (b.1 ++ rest) = .ok d ↔
      ∃ fs, IsMessage encoding valid image (root d) fs b rest ∧ features d = ⟨rest, encoding⟩)
    (hnoTrap : ∀ input, NoTrap (decode input)) : CanonicalMessage encode decode root features where
  decode_encode {r fs output out k} h := by
    obtain ⟨hroot, hfs, hsmall, -, heq⟩ := hencode.1 h
    have hm : IsMessage encoding valid image r fs _ _ := ⟨hroot, hfs, hsmall, rfl, rfl⟩
    cases heq
    obtain ⟨d, rfl, hlist⟩ := hsurj r ⟨encodeFeatures fs encoding, encoding⟩
    rw [take_left' hm.length]
    exact ⟨d, hdecode.2 ⟨fs, hm, hlist⟩, rfl, by rw [hlist, hm.records]⟩
  encode_decode {input output d} h hout := by
    obtain ⟨b, rest, rfl⟩ := exists_root (hlength h)
    obtain ⟨fs, hm, hlist⟩ := hdecode.1 h
    rw [hm.length] at hout ⊢
    rw [hlist, hm.records]
    exact hencode.2 ⟨hm.root, hm.features, hm.small, hout, by rw [hm.image, ← hm.rest]⟩
  noTrap := hnoTrap

end

/-! ### The request -/

@[ext] structure NegotiationRequest where
  protocolId : ProtocolId
  (protocolMajor minMinor maxMinor : UInt16)
  maxBodyBytes : UInt32
  (maxHandles maxOutstanding : UInt16)
  deriving DecidableEq

structure DecodedNegotiationRequest where
  root : NegotiationRequest
  features : FeatureList
  deriving DecidableEq

variable (request : NegotiationRequest)

def validateRequestRoot : Outcome NegotiationError Unit := do
  rejectIf (request.protocolMajor = 0) .invalidProtocolMajor
  rejectIf (request.maxMinor < request.minMinor) .invalidMinorRange
  rejectIf (request.maxBodyBytes = 0 ∨ request.maxOutstanding = 0) .invalidLimits

namespace NegotiationRequest

/-- The fields of the root before the reference to the features. -/
def rootFields : List Field :=
  [(0, request.protocolId.bytes.1), u16Field 0x10 request.protocolMajor,
    u16Field 0x12 request.minMinor, u16Field 0x14 request.maxMinor,
    u32Field 0x18 request.maxBodyBytes, u16Field 0x1c request.maxHandles,
    u16Field 0x1e request.maxOutstanding]

/-- `encode`: the number of bytes written, and the output with them. -/
def encode (features : List FeatureRecord) (output : List UInt8) : Outcome EncodeError (ℕ × List UInt8) := do
  mapErr EncodeError.invalidNegotiation (validateRequestRoot request)
  mapErr EncodeError.invalidNegotiation (validateFeatureRecords features .request)
  let featureBytes ← okOr (checkedMul 64 features.length featureRecordBytes) .arithmeticOverflow
  let encodedBytes ← okOr (checkedAdd 64 negotiateRequestRootBytes featureBytes) .arithmeticOverflow
  rejectIf (output.length < encodedBytes) .outputTooSmall
  let ref ← encodeFeatureRef requestFeaturesOffset negotiateRequestRootBytes features.length
  return (encodedBytes, (render negotiateRequestRootBytes (request.rootFields ++ (ref ++ []))).1 ++
    encodeFeatures features .request ++ output.drop encodedBytes)

def decode : Outcome DecodeError DecodedNegotiationRequest := do
  rejectIf (input.length < negotiateRequestRootBytes) (.invalidNegotiation .truncatedRoot)
  let bytes ← mapErr DecodeError.invalidNegotiation (copy16 input 0)
  let protocolId ← mapErr DecodeError.invalidProtocolId (ProtocolId.fromBytes bytes)
  let protocolMajor ← getU16 input 0x10
  let minMinor ← getU16 input 0x12
  let maxMinor ← getU16 input 0x14
  let maxBodyBytes ← getU32 input 0x18
  let maxHandles ← getU16 input 0x1c
  let maxOutstanding ← getU16 input 0x1e
  let root : NegotiationRequest :=
    { protocolId, protocolMajor, minMinor, maxMinor, maxBodyBytes, maxHandles, maxOutstanding }
  let flags ← getU16 input 0x16
  rejectIf (flags ≠ 0) (.invalidNegotiation .invalidFlags)
  mapErr DecodeError.invalidNegotiation (validateRequestRoot root)
  let features ← mapErr DecodeError.invalidNegotiation
    (decodeFeatureRef input requestFeaturesOffset negotiateRequestRootBytes .request)
  return { root, features }

/-- The fields of a root that refers to `count` features. -/
def fields (count : ℕ) : List Field :=
  request.rootFields ++ (refFields requestFeaturesOffset negotiateRequestRootBytes count ++ [])

/-- The layout of the root. -/
def tiles : List Tile :=
  [.field 0 16, .field 0x10 2, .field 0x12 2, .field 0x14 2, .gap 0x16 2, .field 0x18 4,
    .field 0x1c 2, .field 0x1e 2, .field 0x20 4, .field 0x24 4, .field 0x28 4, .gap 0x2c 4]

theorem tiled : Tiled negotiateRequestRootBytes 0 tiles := by decide

theorem follows_fields (count : ℕ) : Follows tiles (request.fields count) := by
  simp [Follows, tiles, fields, rootFields, refFields, u16Field, u32Field, Tile.field, Tile.gap,
    request.protocolId.bytes.2, requestFeaturesOffset]

variable {request} {b : Buf negotiateRequestRootBytes}

theorem encode_eq_ok {fs : List FeatureRecord} {output : List UInt8} {r : ℕ × List UInt8} :
    request.encode fs output = .ok r ↔ validateRequestRoot request = .ok () ∧
      validateFeatureRecords fs .request = .ok () ∧ 8 * fs.length < 2 ^ 32 ∧
        negotiateRequestRootBytes + 8 * fs.length ≤ output.length ∧
          r = (negotiateRequestRootBytes + 8 * fs.length,
            (render negotiateRequestRootBytes (request.fields fs.length)).1 ++
              encodeFeatures fs .request ++ output.drop (negotiateRequestRootBytes + 8 * fs.length)) :=
  encodeMessage_eq_ok ((request.follows_fields fs.length).fits tiled) (by decide) (by decide)

/-- When a buffer is the root of a request. -/
theorem eq_render_fields {count : ℕ} (hcount : 8 * count < 2 ^ 32) :
    b = render negotiateRequestRootBytes (request.fields count) ↔
      request.protocolId.bytes = arrayAt b 0 16 (by decide) ∧
      request = ⟨request.protocolId, u16At b.1 0x10, u16At b.1 0x12, u16At b.1 0x14, u32At b.1 0x18,
        u16At b.1 0x1c, u16At b.1 0x1e⟩ ∧ u16At b.1 0x16 = 0 ∧ RefersTo b requestFeaturesOffset count := by
  rw [eq_render_iff tiled (request.follows_fields count), refersTo_iff (by decide) (by decide) hcount,
    NegotiationRequest.ext_iff, Subtype.ext_iff]
  simp (disch := decide) only [fields, rootFields, forall_mem_append, holds_fields, zero_tiles,
    holds_bytes request.protocolId.bytes.2, tiles, u16At_eq_zero, u32At_eq_zero]
  tauto

theorem decode_eq_ok {rest : List UInt8} {decoded : DecodedNegotiationRequest} :
    decode (b.1 ++ rest) = .ok decoded ↔ ∃ fs, IsMessage .request
      (fun request _ => validateRequestRoot request = .ok ())
      (fun request count => render negotiateRequestRootBytes (request.fields count)) decoded.root fs b
      rest ∧ decoded.features = ⟨rest, .request⟩ := by
  have hlen : ¬ (b.1 ++ rest).length < negotiateRequestRootBytes := by
    rw [length_append]
    omega
  obtain ⟨root, features⟩ := decoded
  unfold decode
  simp (disch := decide) only [rejectIf_of_not hlen, copy16_root, mapErr_ok, getU16_root, getU32_root,
    ok_bind]
  simp only [run_eq_ok, fromBytes_eq_ok, not_not,
    decodeFeatureRef_eq_ok .request b rest (show requestFeaturesOffset + 16
    ≤ negotiateRequestRootBytes by decide) (by decide)]
  constructor
  · rintro ⟨id, hid, hflags, _, hvalid, _, ⟨fs, href, hsmall, hfs, hrest, rfl⟩, heq⟩
    cases heq
    exact ⟨fs, ⟨hvalid, hfs, hsmall, (eq_render_fields hsmall).2 ⟨hid, rfl, hflags, href⟩, hrest⟩, rfl⟩
  · rintro ⟨fs, ⟨hvalid, hfs, hsmall, himage, hrest⟩, rfl⟩
    obtain ⟨hid, hroot, hflags, href⟩ := (eq_render_fields hsmall).1 himage
    rw [hroot] at hvalid
    exact ⟨_, hid, hflags, (), hvalid, _, ⟨fs, href, hsmall, hfs, hrest, rfl⟩, by rw [← hroot]⟩

theorem noTrap_decode : NoTrap (decode input) := by
  refine rejectIf_bind fun hlen => ?_
  obtain ⟨b, rest, rfl⟩ := exists_root (not_lt.1 hlen)
  simp (disch := decide) only [copy16_root, getU16_root, getU32_root]
  refine (noTrap_fromBytes _).mapErr.bind fun _ _ => .rejectIf_bind fun _ => .bind ?_ fun _ _ => ?_
  · exact mapErr (by simp [validateRequestRoot, noTrap_bind])
  · exact (noTrap_decodeFeatureRef _ _ _ (by decide)).mapErr.bind fun _ _ => noTrap_ok

/-- What is written is read back, and what is read is written again as the same bytes. -/
theorem canonical : CanonicalMessage encode decode DecodedNegotiationRequest.root
    DecodedNegotiationRequest.features := by
  refine .intro (fun r list => ⟨⟨r, list⟩, rfl, rfl⟩) encode_eq_ok (fun h => ?_) decode_eq_ok noTrap_decode
  simp only [decode, run_eq_ok, not_lt] at h
  exact h.1

end NegotiationRequest

/-! ### The response -/

inductive NegotiationStatus where
  | ok | unsupportedProtocol | unsupportedMajor | noCommonMinor | requiredFeatureUnavailable
  | transportBoundsTooSmall | policyDenied | busy | internal
  deriving DecidableEq

namespace NegotiationStatus

def code : NegotiationStatus → UInt32
  | .ok => 0
  | .unsupportedProtocol => 1
  | .unsupportedMajor => 2
  | .noCommonMinor => 3
  | .requiredFeatureUnavailable => 4
  | .transportBoundsTooSmall => 5
  | .policyDenied => 6
  | .busy => 7
  | .internal => 8

def tryFrom (value : UInt32) : Outcome NegotiationError NegotiationStatus :=
  match value with
  | 0 => .ok .ok
  | 1 => .ok .unsupportedProtocol
  | 2 => .ok .unsupportedMajor
  | 3 => .ok .noCommonMinor
  | 4 => .ok .requiredFeatureUnavailable
  | 5 => .ok .transportBoundsTooSmall
  | 6 => .ok .policyDenied
  | 7 => .ok .busy
  | 8 => .ok .internal
  | _ => fail .unknownStatus

theorem tryFrom_eq_ok {value : UInt32} {status : NegotiationStatus} :
    tryFrom value = .ok status ↔ status.code = value := by
  constructor
  · intro h
    unfold tryFrom at h
    split at h <;> cases h <;> rfl
  · rintro rfl
    cases status <;> rfl

theorem noTrap_tryFrom (value : UInt32) : NoTrap (tryFrom value) := by
  unfold tryFrom
  split <;> simp

end NegotiationStatus

@[ext] structure NegotiationResponse where
  protocolId : ProtocolId
  status : NegotiationStatus
  (protocolMajor selectedMinor serverMinMinor serverMaxMinor : UInt16)
  maxBodyBytes : UInt32
  (maxHandles maxOutstanding : UInt16)
  serviceGeneration : UInt64
  deriving DecidableEq

structure DecodedNegotiationResponse where
  root : NegotiationResponse
  features : FeatureList

variable (response : NegotiationResponse)

/-- A successful response selects a minor of the server and offers something. -/
def validSuccess : Bool :=
  ¬ (response.selectedMinor < response.serverMinMinor ∨
    response.serverMaxMinor < response.selectedMinor ∨ response.maxBodyBytes = 0 ∨
      response.maxOutstanding = 0 ∨ response.serviceGeneration = 0)

variable (featuresEmpty : Bool)

/-- A failed response offers nothing, and gives no range for a protocol it does not have. -/
def validFailure : Bool :=
  ¬ (response.selectedMinor ≠ 0 ∨
    ((response.status = .unsupportedProtocol ∨ response.status = .unsupportedMajor) ∧
      (response.serverMinMinor ≠ 0 ∨ response.serverMaxMinor ≠ 0)) ∨
    response.maxBodyBytes ≠ 0 ∨ response.maxHandles ≠ 0 ∨ response.maxOutstanding ≠ 0 ∨
      featuresEmpty = false ∨ response.serviceGeneration ≠ 0)

def validateResponseRoot : Outcome NegotiationError Unit := do
  rejectIf (response.protocolMajor = 0) .invalidProtocolMajor
  rejectIf (response.serverMaxMinor < response.serverMinMinor) .invalidMinorRange
  if response.status = .ok then
    rejectIf (validSuccess response = false) .invalidSuccess
  else
    rejectIf (validFailure response featuresEmpty = false) .invalidFailure

theorem noTrap_validateResponseRoot : NoTrap (validateResponseRoot response featuresEmpty) := by
  refine rejectIf_bind fun _ => rejectIf_bind fun _ => ?_
  split <;> simp

namespace NegotiationResponse

/-- The fields of the root before the reference to the features. -/
def rootFields : List Field :=
  [(0, response.protocolId.bytes.1), u32Field 0x10 response.status.code,
    u16Field 0x14 response.protocolMajor, u16Field 0x16 response.selectedMinor,
    u16Field 0x18 response.serverMinMinor, u16Field 0x1a response.serverMaxMinor,
    u32Field 0x1c response.maxBodyBytes, u16Field 0x20 response.maxHandles,
    u16Field 0x22 response.maxOutstanding]

/-- `encode`: the number of bytes written, and the output with them. -/
def encode (features : List FeatureRecord) (output : List UInt8) : Outcome EncodeError (ℕ × List UInt8) := do
  mapErr EncodeError.invalidNegotiation (validateResponseRoot response features.isEmpty)
  mapErr EncodeError.invalidNegotiation (validateFeatureRecords features .response)
  let featureBytes ← okOr (checkedMul 64 features.length featureRecordBytes) .arithmeticOverflow
  let encodedBytes ← okOr (checkedAdd 64 negotiateResponseRootBytes featureBytes) .arithmeticOverflow
  rejectIf (output.length < encodedBytes) .outputTooSmall
  let ref ← encodeFeatureRef responseFeaturesOffset negotiateResponseRootBytes features.length
  return (encodedBytes, (render negotiateResponseRootBytes
      (response.rootFields ++ (ref ++ [u64Field 0x38 response.serviceGeneration]))).1 ++
    encodeFeatures features .response ++ output.drop encodedBytes)

def decode : Outcome DecodeError DecodedNegotiationResponse := do
  rejectIf (input.length < negotiateResponseRootBytes) (.invalidNegotiation .truncatedRoot)
  let bytes ← mapErr DecodeError.invalidNegotiation (copy16 input 0)
  let protocolId ← mapErr DecodeError.invalidProtocolId (ProtocolId.fromBytes bytes)
  let status ← mapErr DecodeError.invalidNegotiation (NegotiationStatus.tryFrom (← getU32 input 0x10))
  let protocolMajor ← getU16 input 0x14
  let selectedMinor ← getU16 input 0x16
  let serverMinMinor ← getU16 input 0x18
  let serverMaxMinor ← getU16 input 0x1a
  let maxBodyBytes ← getU32 input 0x1c
  let maxHandles ← getU16 input 0x20
  let maxOutstanding ← getU16 input 0x22
  let serviceGeneration ← getU64 input 0x38
  let root : NegotiationResponse :=
    { protocolId, status, protocolMajor, selectedMinor, serverMinMinor, serverMaxMinor, maxBodyBytes,
      maxHandles, maxOutstanding, serviceGeneration }
  let reserved ← getU32 input 0x24
  rejectIf (reserved ≠ 0) (.invalidNegotiation .invalidFlags)
  let features ← mapErr DecodeError.invalidNegotiation
    (decodeFeatureRef input responseFeaturesOffset negotiateResponseRootBytes .response)
  mapErr DecodeError.invalidNegotiation (validateResponseRoot root features.isEmpty)
  return { root, features }

/-- The fields of a root that refers to `count` features. -/
def fields (count : ℕ) : List Field :=
  response.rootFields ++ (refFields responseFeaturesOffset negotiateResponseRootBytes count ++
    [u64Field 0x38 response.serviceGeneration])

/-- The layout of the root. -/
def tiles : List Tile :=
  [.field 0 16, .field 0x10 4, .field 0x14 2, .field 0x16 2, .field 0x18 2, .field 0x1a 2,
    .field 0x1c 4, .field 0x20 2, .field 0x22 2, .gap 0x24 4, .field 0x28 4, .field 0x2c 4,
    .field 0x30 4, .gap 0x34 4, .field 0x38 8]

theorem tiled : Tiled negotiateResponseRootBytes 0 tiles := by decide

theorem follows_fields (count : ℕ) : Follows tiles (response.fields count) := by
  simp [Follows, tiles, fields, rootFields, refFields, u16Field, u32Field, u64Field, Tile.field,
    Tile.gap, response.protocolId.bytes.2, responseFeaturesOffset]

variable {response} {b : Buf negotiateResponseRootBytes}

theorem encode_eq_ok {fs : List FeatureRecord} {output : List UInt8} {r : ℕ × List UInt8} :
    response.encode fs output = .ok r ↔ validateResponseRoot response fs.isEmpty = .ok () ∧
      validateFeatureRecords fs .response = .ok () ∧ 8 * fs.length < 2 ^ 32 ∧
        negotiateResponseRootBytes + 8 * fs.length ≤ output.length ∧
          r = (negotiateResponseRootBytes + 8 * fs.length,
            (render negotiateResponseRootBytes (response.fields fs.length)).1 ++
              encodeFeatures fs .response ++ output.drop (negotiateResponseRootBytes + 8 * fs.length)) :=
  encodeMessage_eq_ok ((response.follows_fields fs.length).fits tiled) (by decide) (by decide)

/-- When a buffer is the root of a response. -/
theorem eq_render_fields {count : ℕ} (hcount : 8 * count < 2 ^ 32) :
    b = render negotiateResponseRootBytes (response.fields count) ↔
      response.protocolId.bytes = arrayAt b 0 16 (by decide) ∧ response.status.code = u32At b.1 0x10 ∧
      response = ⟨response.protocolId, response.status, u16At b.1 0x14, u16At b.1 0x16, u16At b.1 0x18,
        u16At b.1 0x1a, u32At b.1 0x1c, u16At b.1 0x20, u16At b.1 0x22, u64At b.1 0x38⟩ ∧
      u32At b.1 0x24 = 0 ∧ RefersTo b responseFeaturesOffset count := by
  rw [eq_render_iff tiled (response.follows_fields count), refersTo_iff (by decide) (by decide) hcount,
    NegotiationResponse.ext_iff, Subtype.ext_iff]
  simp (disch := decide) only [fields, rootFields, forall_mem_append, holds_fields, zero_tiles,
    holds_bytes response.protocolId.bytes.2, tiles, u32At_eq_zero]
  tauto

theorem isEmpty_encodeFeatures (fs : List FeatureRecord) (encoding : FeatureEncoding) :
    FeatureList.isEmpty ⟨encodeFeatures fs encoding, encoding⟩ = fs.isEmpty := by
  cases fs with
  | nil => rfl
  | cons => simp [FeatureList.isEmpty, encodeFeatures, encodeRecord, toLe]

theorem decode_eq_ok {rest : List UInt8} {decoded : DecodedNegotiationResponse} :
    decode (b.1 ++ rest) = .ok decoded ↔ ∃ fs, IsMessage .response
      (fun response none => validateResponseRoot response none = .ok ())
      (fun response count => render negotiateResponseRootBytes (response.fields count)) decoded.root fs b
      rest ∧ decoded.features = ⟨rest, .response⟩ := by
  have hlen : ¬ (b.1 ++ rest).length < negotiateResponseRootBytes := by
    rw [length_append]
    omega
  obtain ⟨root, features⟩ := decoded
  unfold decode
  simp (disch := decide) only [rejectIf_of_not hlen, copy16_root, mapErr_ok, getU16_root, getU32_root,
    getU64_root, ok_bind]
  simp only [run_eq_ok, fromBytes_eq_ok, NegotiationStatus.tryFrom_eq_ok, not_not,
    decodeFeatureRef_eq_ok .response b rest (show responseFeaturesOffset + 16
    ≤ negotiateResponseRootBytes by decide) (by decide)]
  constructor
  · rintro ⟨id, hid, status, hstatus, hreserved, _, ⟨fs, href, hsmall, hfs, rfl, rfl⟩, _, hvalid, heq⟩
    cases heq
    rw [isEmpty_encodeFeatures] at hvalid
    exact ⟨fs, ⟨hvalid, hfs, hsmall, (eq_render_fields hsmall).2 ⟨hid, hstatus, rfl, hreserved, href⟩,
      rfl⟩, rfl⟩
  · rintro ⟨fs, ⟨hvalid, hfs, hsmall, himage, rfl⟩, rfl⟩
    obtain ⟨hid, hstatus, hroot, hreserved, href⟩ := (eq_render_fields hsmall).1 himage
    rw [hroot, ← isEmpty_encodeFeatures fs .response] at hvalid
    exact ⟨_, hid, _, hstatus, hreserved, _, ⟨fs, href, hsmall, hfs, rfl, rfl⟩, (), hvalid, by rw [← hroot]⟩

theorem noTrap_decode : NoTrap (decode input) := by
  refine rejectIf_bind fun hlen => ?_
  obtain ⟨b, rest, rfl⟩ := exists_root (not_lt.1 hlen)
  simp (disch := decide) only [copy16_root, getU16_root, getU32_root, getU64_root]
  refine (noTrap_fromBytes _).mapErr.bind fun _ _ => (NegotiationStatus.noTrap_tryFrom _).mapErr.bind
    fun _ _ => .rejectIf_bind fun _ => (noTrap_decodeFeatureRef _ _ _ (by decide)).mapErr.bind fun _ _ => ?_
  exact (noTrap_validateResponseRoot _ _).mapErr.bind fun _ _ => noTrap_ok

/-- What is written is read back, and what is read is written again as the same bytes. -/
theorem canonical : CanonicalMessage encode decode DecodedNegotiationResponse.root
    DecodedNegotiationResponse.features := by
  refine .intro (fun r list => ⟨⟨r, list⟩, rfl, rfl⟩) encode_eq_ok (fun h => ?_) decode_eq_ok noTrap_decode
  simp only [decode, run_eq_ok, not_lt] at h
  exact h.1

end NegotiationResponse

/-! ### All fixed codecs -/

/-- **The fixed codecs of the protocol are canonical.**  Writing and reading are inverse to each other for
headers, also at the start of a longer packet, for error records in the context of any header, for the
negotiation messages with their lists of features, and for the text of protocol identifiers; and no reader
traps on any input. -/
theorem codecs_canonical : Canonical Header.encode Header.decode ∧
      (∀ {h : Header} {b : Buf headerBytes} (rest : List UInt8), h.encode = .ok b →
        Header.decodePrefix (b.1 ++ rest) = .ok h) ∧
      (∀ {input : List UInt8} {h : Header}, Header.decodePrefix input = .ok h →
        ∃ b : Buf headerBytes, h.encode = .ok b ∧ b.1 <+: input) ∧
      (∀ input : List UInt8, NoTrap (Header.decodePrefix input)) ∧
      (∀ h : Header, Canonical (ProtocolErrorRecord.encode h) (ProtocolErrorRecord.decode h)) ∧
      CanonicalMessage NegotiationRequest.encode NegotiationRequest.decode
        DecodedNegotiationRequest.root DecodedNegotiationRequest.features ∧
      CanonicalMessage NegotiationResponse.encode NegotiationResponse.decode
        DecodedNegotiationResponse.root DecodedNegotiationResponse.features ∧
      (∀ id : ProtocolId, ProtocolId.parse id.display = .ok id) ∧
      (∀ {text : List UInt8} {id : ProtocolId}, ProtocolId.parse text = .ok id → id.display = text) ∧
      (∀ text : List UInt8, NoTrap (ProtocolId.parse text)) :=
  ⟨Header.canonical, fun rest h => Header.decodePrefix_of_encode h rest, Header.encode_of_decodePrefix,
    Header.noTrap_decodePrefix, ProtocolErrorRecord.canonical, NegotiationRequest.canonical,
    NegotiationResponse.canonical, parse_display, display_of_parse, noTrap_parse⟩

/-- An identifier. -/
def sampleId : ProtocolId where
  bytes := ⟨[1, 2, 3, 4, 5, 6, 0x47, 8, 0x89, 10, 11, 12, 13, 14, 15, 16], rfl⟩
  valid := by decide

/-- A request for the minors 1 to 3 of a protocol. -/
def sampleRequest : NegotiationRequest where
  protocolId := sampleId
  protocolMajor := 1
  minMinor := 1
  maxMinor := 3
  maxBodyBytes := 4096
  maxHandles := 4
  maxOutstanding := 8

theorem codecs_canonical_request :
    ∃ out, sampleRequest.encode [⟨1, .required⟩, ⟨3, .optional⟩] (List.replicate 80 7) = .ok (64, out) ∧
      ∃ d, NegotiationRequest.decode (out.take 64) = .ok d ∧ d.root = sampleRequest ∧
        d.features.records = [⟨1, .required⟩, ⟨3, .optional⟩] := by
  have hencode : sampleRequest.encode [⟨1, .required⟩, ⟨3, .optional⟩] (replicate 80 7) = .ok _ :=
    NegotiationRequest.encode_eq_ok.2 ⟨by decide, by decide, by decide, by decide, rfl⟩
  exact ⟨_, hencode, codecs_canonical.2.2.2.2.2.1.decode_encode hencode⟩

end NSWP

namespace NSWP

open Bytes Rust

/-! ### Profiles -/

structure ConnectionLimits where
  maxBodyBytes : UInt32
  (maxHandles maxOutstanding : UInt16)
  deriving DecidableEq

def ConnectionLimits.componentMin (a b : ConnectionLimits) : ConnectionLimits where
  maxBodyBytes := if a.maxBodyBytes < b.maxBodyBytes then a.maxBodyBytes else b.maxBodyBytes
  maxHandles := if a.maxHandles < b.maxHandles then a.maxHandles else b.maxHandles
  maxOutstanding := if a.maxOutstanding < b.maxOutstanding then a.maxOutstanding else b.maxOutstanding

/-- `FeatureSetValidator`: the set of features is given by its membership test. -/
abbrev FeatureSetValidator := UInt16 → (UInt32 → Bool) → ConnectionLimits → Bool

structure MinorVersionProfile where
  minor : UInt16
  minimumBodyBytes : UInt32
  minimumHandles : UInt16
  deriving DecidableEq

structure AvailableFeature where
  id : UInt32
  sinceMinor : UInt16
  deriving DecidableEq

structure ServerProfile where
  protocolId : ProtocolId
  protocolMajor : UInt16
  (serverLimits transportLimits protocolLimits : ConnectionLimits)
  serviceGeneration : UInt64
  versions : List MinorVersionProfile
  availableFeatures : List AvailableFeature
  featureSetFits : FeatureSetValidator

structure NegotiationOutcome where
  response : NegotiationResponse
  featureCount : ℕ
  deriving DecidableEq

/-- The loop of `validate_profile` over the versions. -/
def validateVersionsFrom : Option UInt16 → List MinorVersionProfile → Outcome NegotiationError Unit
  | _, [] => .ok ()
  | previous, version :: rest => do
    rejectIf (version.minimumBodyBytes = 0 ∨
      previous.any (fun previous => checkedAdd 16 previous.toNat 1 ≠ some version.minor.toNat) = true)
      .invalidMinorRange
    validateVersionsFrom (some version.minor) rest

/-- The loop of `validate_available_features`. -/
def validateAvailableFrom : Option UInt32 → List AvailableFeature → Outcome NegotiationError Unit
  | _, [] => .ok ()
  | previous, feature :: rest => do
    rejectIf (feature.id = 0 ∨ previous.any (fun previous => feature.id ≤ previous) = true)
      .invalidFeatureId
    validateAvailableFrom (some feature.id) rest

variable (features : List AvailableFeature)

def validateAvailableFeatures : Outcome NegotiationError Unit :=
  validateAvailableFrom none features

variable (versions : List MinorVersionProfile)

/-- `versions[0].minor`. -/
def firstMinor : Outcome NegotiationError UInt16 :=
  match versions.head? with
  | some version => .ok version.minor
  | none => trapped

/-- `versions[versions.len() - 1].minor`. -/
def lastMinor : Outcome NegotiationError UInt16 :=
  match versions.getLast? with
  | some version => .ok version.minor
  | none => trapped

variable (profile : ServerProfile)

def validateProfile : Outcome NegotiationError Unit := do
  rejectIf (profile.protocolMajor = 0) .invalidProtocolMajor
  rejectIf (profile.serverLimits.maxBodyBytes = 0 ∨ profile.serverLimits.maxOutstanding = 0 ∨
    profile.transportLimits.maxBodyBytes = 0 ∨ profile.transportLimits.maxOutstanding = 0 ∨
    profile.protocolLimits.maxBodyBytes = 0 ∨ profile.protocolLimits.maxOutstanding = 0 ∨
    profile.serviceGeneration = 0 ∨ profile.versions.isEmpty = true) .invalidLimits
  validateVersionsFrom none profile.versions
  validateAvailableFeatures profile.availableFeatures
  let serverMaxMinor ← lastMinor profile.versions
  rejectIf (profile.availableFeatures.any (fun feature => serverMaxMinor < feature.sinceMinor) = true)
    .invalidFeatureId

def featureProfile (id : UInt32) : Option AvailableFeature :=
  (binarySearchByKey features (·.id.toNat) id.toNat).bind fun index => features[index]?

def featureProfileAtMinor (id : UInt32) (selectedMinor : UInt16) : Option AvailableFeature :=
  (featureProfile profile.availableFeatures id).filter fun feature =>
    feature.sinceMinor ≤ selectedMinor

/-! ### Selection -/

variable (records : List FeatureRecord)

/-- `contains` of a slice of records. -/
def recordsContain (id : UInt32) : Bool := records.any (·.id = id)

/-- `contains` of a slice of records with one more feature. -/
def recordsContainWith (extra id : UInt32) : Bool :=
  id = extra || recordsContain records id

variable (selected : List FeatureRecord) (count : ℕ)

/-- `*selected.get_mut(count).ok_or(OutputTooSmall)? = enabled(id)`. -/
def putFeature (id : UInt32) : Outcome NegotiationError (List FeatureRecord) :=
  if count < selected.length then .ok (selected.set count (FeatureRecord.enabled id))
  else fail .outputTooSmall

/-- The loop over the required features: the slice, how many were put there, and whether all are
available. -/
def collectRequired (profile : ServerProfile) (minor : UInt16) :
    List FeatureRecord → List FeatureRecord → ℕ → Bool →
      Outcome NegotiationError (List FeatureRecord × ℕ × Bool)
  | [], selected, count, available => .ok (selected, count, available)
  | requested :: rest, selected, count, available =>
    if (featureProfileAtMinor profile requested.id minor).isNone then
      collectRequired profile minor rest selected count false
    else do
      let selected ← putFeature selected count requested.id
      collectRequired profile minor rest selected (count + 1) available

/-- The loop over the optional features. -/
def admitOptional (profile : ServerProfile) (minor : UInt16) (limits : ConnectionLimits) :
    List FeatureRecord → List FeatureRecord → ℕ → Outcome NegotiationError (List FeatureRecord × ℕ)
  | [], selected, count => .ok (selected, count)
  | requested :: rest, selected, count =>
    if (featureProfileAtMinor profile requested.id minor).isNone then
      admitOptional profile minor limits rest selected count
    else if profile.featureSetFits minor (recordsContainWith (selected.take count) requested.id)
        limits = false then
      admitOptional profile minor limits rest selected count
    else do
      let selected ← putFeature selected count requested.id
      admitOptional profile minor limits rest selected (count + 1)

/-- The variables of the search for a minor. -/
structure MinorSearch where
  selectedFeatures : List FeatureRecord
  (hasCommonMinor requiredFeaturesAvailable : Bool)
  selectedMinor : Option (UInt16 × ℕ)

/-- The loop over the versions. -/
def searchMinor (request : DecodedNegotiationRequest) (profile : ServerProfile)
    (limits : ConnectionLimits) : List MinorVersionProfile → MinorSearch →
      Outcome NegotiationError MinorSearch
  | [], search => .ok search
  | version :: rest, search =>
    let search := { search with hasCommonMinor := true }
    if limits.maxBodyBytes < version.minimumBodyBytes ∨ limits.maxHandles < version.minimumHandles then
      searchMinor request profile limits rest search
    else do
      let (selected, requiredCount, requiredAvailable) ← collectRequired profile version.minor
        (request.features.records.filter (·.isRequired)) search.selectedFeatures 0 true
      let search := { search with selectedFeatures := selected }
      if requiredAvailable = false then
        searchMinor request profile limits rest search
      else
        let search := { search with requiredFeaturesAvailable := true }
        if profile.featureSetFits version.minor (recordsContain (selected.take requiredCount))
            limits = false then
          searchMinor request profile limits rest search
        else do
          let (selected, featureCount) ← admitOptional profile version.minor limits
            (request.features.records.filter (!·.isRequired)) selected requiredCount
          return { search with
            selectedFeatures := selected
            selectedMinor := some (version.minor, featureCount) }

variable (request : DecodedNegotiationRequest)

/-- The versions of the server in the requested range, the highest first. -/
def commonVersions (profile : ServerProfile) : List MinorVersionProfile :=
  profile.versions.reverse.filter fun version =>
    request.root.minMinor ≤ version.minor ∧ version.minor ≤ request.root.maxMinor

/-- The limits of the connection: the least of the four. -/
def negotiatedLimits (request : NegotiationRequest) (profile : ServerProfile) : ConnectionLimits :=
  (((⟨request.maxBodyBytes, request.maxHandles, request.maxOutstanding⟩ :
    ConnectionLimits).componentMin profile.serverLimits).componentMin
      profile.transportLimits).componentMin profile.protocolLimits

def failureOutcome (request : NegotiationRequest) (serverMinMinor serverMaxMinor : UInt16)
    (status : NegotiationStatus) : NegotiationOutcome where
  response :=
    { protocolId := request.protocolId
      status := status
      protocolMajor := request.protocolMajor
      selectedMinor := 0
      serverMinMinor :=
        if status = .unsupportedProtocol ∨ status = .unsupportedMajor then 0 else serverMinMinor
      serverMaxMinor :=
        if status = .unsupportedProtocol ∨ status = .unsupportedMajor then 0 else serverMaxMinor
      maxBodyBytes := 0
      maxHandles := 0
      maxOutstanding := 0
      serviceGeneration := 0 }
  featureCount := 0

/-- Why no minor was selected. -/
def failureStatus (search : MinorSearch) : NegotiationStatus :=
  if search.hasCommonMinor = false then .noCommonMinor
  else if search.requiredFeaturesAvailable then .transportBoundsTooSmall
  else if request.features.records.any (·.isRequired) then .requiredFeatureUnavailable
  else .transportBoundsTooSmall

/-- `selected[..count].sort_unstable_by_key(|feature| feature.id)`. -/
def sortFeatures : List FeatureRecord :=
  (selected.take count).insertionSort (fun a b => a.id.toNat ≤ b.id.toNat) ++ selected.drop count

def successOutcome (request : NegotiationRequest) (profile : ServerProfile)
    (serverMinMinor serverMaxMinor selectedMinor : UInt16) (featureCount : ℕ) : NegotiationOutcome where
  response :=
    { protocolId := request.protocolId
      status := .ok
      protocolMajor := request.protocolMajor
      selectedMinor := selectedMinor
      serverMinMinor := serverMinMinor
      serverMaxMinor := serverMaxMinor
      maxBodyBytes := (negotiatedLimits request profile).maxBodyBytes
      maxHandles := (negotiatedLimits request profile).maxHandles
      maxOutstanding := (negotiatedLimits request profile).maxOutstanding
      serviceGeneration := profile.serviceGeneration }
  featureCount := featureCount

/-- `negotiate`: the outcome, and the slice with the selected features. -/
def negotiate (profile : ServerProfile) (selectedFeatures : List FeatureRecord) :
    Outcome NegotiationError (NegotiationOutcome × List FeatureRecord) := do
  validateProfile profile
  rejectIf (profile.transportLimits.maxHandles < request.root.maxHandles) .invalidLimits
  let serverMinMinor ← firstMinor profile.versions
  let serverMaxMinor ← lastMinor profile.versions
  let failure := failureOutcome request.root serverMinMinor serverMaxMinor
  if request.root.protocolId ≠ profile.protocolId then
    return (failure .unsupportedProtocol, selectedFeatures)
  else if request.root.protocolMajor ≠ profile.protocolMajor then
    return (failure .unsupportedMajor, selectedFeatures)
  else
    let search ← searchMinor request profile (negotiatedLimits request.root profile)
      (commonVersions request profile)
      { selectedFeatures := selectedFeatures
        hasCommonMinor := false
        requiredFeaturesAvailable := false
        selectedMinor := none }
    match search.selectedMinor with
    | none => return (failure (failureStatus request search), search.selectedFeatures)
    | some (selectedMinor, featureCount) =>
      return (successOutcome request.root profile serverMinMinor serverMaxMinor selectedMinor
        featureCount, sortFeatures search.selectedFeatures featureCount)

/-! ### The client's check -/

def checkSelected (featureProfiles : List AvailableFeature) (selectedMinor : UInt16)
    (selected : FeatureRecord) : Outcome NegotiationError Unit := do
  rejectIf (request.features.contains selected.id = false) .unexpectedFeature
  let profile ← okOr (featureProfile featureProfiles selected.id) .missingFeatureProfile
  rejectIf (selectedMinor < profile.sinceMinor) .featureUnavailableAtVersion

def DecodedNegotiationResponse.validateAgainst (response : DecodedNegotiationResponse)
    (request : DecodedNegotiationRequest) (featureProfiles : List AvailableFeature)
    (featureSetFits : FeatureSetValidator) : Outcome NegotiationError Unit := do
  validateResponseRoot response.root response.features.isEmpty
  validateAvailableFeatures featureProfiles
  rejectIf (response.root.protocolId ≠ request.root.protocolId ∨
    response.root.protocolMajor ≠ request.root.protocolMajor) .echoMismatch
  if response.root.status ≠ .ok then return ()
  else
    rejectIf (response.root.selectedMinor < request.root.minMinor ∨
      request.root.maxMinor < response.root.selectedMinor ∨
      response.root.selectedMinor < response.root.serverMinMinor ∨
      response.root.serverMaxMinor < response.root.selectedMinor) .selectionOutsideRange
    rejectIf (request.root.maxBodyBytes < response.root.maxBodyBytes ∨
      request.root.maxHandles < response.root.maxHandles ∨
      request.root.maxOutstanding < response.root.maxOutstanding) .limitIncrease
    each (fun requested => rejectIf ((featureProfile featureProfiles requested.id).isNone = true)
      .missingFeatureProfile) request.features.records
    each (checkSelected request featureProfiles response.root.selectedMinor) response.features.records
    rejectIf (featureSetFits response.root.selectedMinor response.features.contains
      ⟨response.root.maxBodyBytes, response.root.maxHandles, response.root.maxOutstanding⟩ = false)
      .featureBoundsExceeded
    each (fun requested => rejectIf (response.features.contains requested.id = false)
      .missingRequiredFeature) (request.features.records.filter (·.isRequired))

end NSWP
