/-
**NSWP message bodies: type descriptors, the validator, and what a body means.**

A message body is a tree of values laid out in one byte string.  A type descriptor says how many
bytes a value takes inline and which further regions it owns; strings, vectors, tables and the
payloads of optionals and unions are stored out of line, behind the inline part of their owner, in
the order in which they are met.  The validator walks a body along its descriptor with one moving
cursor and accepts it only if every region lies exactly where the cursor stands and every region is
used up to its end.

Nesting is bounded by a limit of the connection.  The source counts the depth of a value upwards from
one; the model counts downwards, `levels` being the number of levels that are still allowed, so that
`check_depth` fails exactly at zero levels and the recursion is structural.

* `validateDescriptorGraph` — which descriptors are intrinsically valid;
* `validateValue`, `validateAllocation`, `validateBody` — the validator.
-/

import NullStar.Outcome

set_option autoImplicit false

namespace NSWP

open Bytes Rust

/-! ### Descriptors -/

def sliceRefBytes : ℕ := 16
def tableRefBytes : ℕ := 16
def envelopeBytes : ℕ := 24
def bodyAlignment : ℕ := 8

/-- The errors of the validator. -/
inductive BodyError where
  | truncated | arithmeticOverflow | misaligned | outOfBounds | invalidReference | unexpectedTarget
  | regionLengthMismatch | trailingBytes | reservedValueUsed | nonZeroPadding | invalidBool
  | nonCanonicalFloat | invalidUtf8 | limitExceeded | invalidOrdinal | envelopeOrder
  | duplicateOrdinal | missingPayload | unexpectedPayload | invalidElementLayout | invalidDescriptor
  | protocolMismatch | unknownEnumValue | unknownUnionOrdinal | invalidOptionalOrdinal
  | reservedOrdinal | missingRequiredField | fieldUnavailable | materializationMismatch
  deriving DecidableEq

/-- The inline footprint of a value. -/
structure InlineLayout where
  (bytes alignment : ℕ)
  deriving DecidableEq

def InlineLayout.unit : InlineLayout := ⟨0, 1⟩
def InlineLayout.slice : InlineLayout := ⟨sliceRefBytes, 4⟩
def InlineLayout.table : InlineLayout := ⟨tableRefBytes, 4⟩
def InlineLayout.envelope : InlineLayout := ⟨envelopeBytes, 4⟩

inductive PrimitiveKind where
  | bool | u8 | i8 | u16 | i16 | u32 | i32 | u64 | i64 | f32 | f64 | id128
  deriving DecidableEq

def PrimitiveKind.layout : PrimitiveKind → InlineLayout
  | .bool | .u8 | .i8 => ⟨1, 1⟩
  | .u16 | .i16 => ⟨2, 2⟩
  | .u32 | .i32 | .f32 => ⟨4, 4⟩
  | .u64 | .i64 | .f64 => ⟨8, 8⟩
  | .id128 => ⟨16, 8⟩

inductive IntegerRepr where
  | u8 | i8 | u16 | i16 | u32 | i32 | u64 | i64
  deriving DecidableEq

def IntegerRepr.layout : IntegerRepr → InlineLayout
  | .u8 | .i8 => ⟨1, 1⟩
  | .u16 | .i16 => ⟨2, 2⟩
  | .u32 | .i32 => ⟨4, 4⟩
  | .u64 | .i64 => ⟨8, 8⟩

/-- `repr_max`. -/
def IntegerRepr.max (repr : IntegerRepr) : ℕ := 256 ^ repr.layout.bytes - 1

structure Availability where
  sinceMinor : ℕ
  requiredFeatures : List ℕ

/-- A range of ordinals, both ends included. -/
structure OrdinalRange where
  (first last : ℕ)

def OrdinalRange.contains (range : OrdinalRange) (ordinal : ℕ) : Bool :=
  range.first ≤ ordinal && ordinal ≤ range.last

structure StructureFieldDescriptor (T : Type) where
  offset : ℕ
  ty : T

structure TableFieldDescriptor (T : Type) where
  ordinal : ℕ
  ty : T
  required : Bool
  availability : Availability

structure TableDescriptor (T : Type) where
  maximumPresentFields : ℕ
  fields : List (TableFieldDescriptor T)
  reservedOrdinals : List OrdinalRange

structure ClosedEnumDescriptor where
  repr : IntegerRepr
  values : List ℕ

structure UnionAlternativeDescriptor (T : Type) where
  ordinal : ℕ
  payload : Option T

/-- The kinds of types, over the types of their parts. -/
inductive TypeKind (T : Type) where
  | unit
  | primitive (kind : PrimitiveKind)
  | bytes (maximum : ℕ)
  | string (maximumBytes : ℕ)
  | struct (fields : List (StructureFieldDescriptor T))
  | vector (maximumElements : ℕ) (element : T)
  | optional (value : T)
  | table (table : TableDescriptor T)
  | closedEnum (enumeration : ClosedEnumDescriptor)
  | closedUnion (alternatives : List (UnionAlternativeDescriptor T))

/-- A type descriptor.  The source links descriptors by references and rejects cycles; what is left
is a tree. -/
inductive TypeDescriptor where
  | mk (layout : InlineLayout) (kind : TypeKind TypeDescriptor)

def TypeDescriptor.layout : TypeDescriptor → InlineLayout
  | .mk layout _ => layout

def TypeDescriptor.kind : TypeDescriptor → TypeKind TypeDescriptor
  | .mk _ kind => kind

variable (d : TypeDescriptor)

def TypeDescriptor.isUnit : Bool :=
  match d.kind with
  | .unit => true
  | _ => false

structure ProtocolBodyDescriptor where
  protocolId : Buf 16
  protocolMajor : ℕ
  root : TypeDescriptor

/-- The part of a bound protocol that the validator looks at. -/
structure BoundProtocol where
  protocolId : Buf 16
  (major minor maxBodyBytes : ℕ)
  features : List ℕ

structure BodyLimits where
  (maxDepth maxTableFields : ℕ)

def Availability.isActive (a : Availability) (bound : BoundProtocol) : Bool :=
  a.sinceMinor ≤ bound.minor && a.requiredFeatures.all (· ∈ bound.features)

/-! ### Small checks -/

def requireLayout (actual expected : InlineLayout) : Outcome BodyError Unit :=
  rejectIf (actual ≠ expected) .invalidDescriptor

def validateLayout (layout : InlineLayout) : Outcome BodyError Unit :=
  rejectIf (¬ (layout.alignment ∈ [1, 2, 4, 8]) ∨ layout.bytes % layout.alignment ≠ 0)
    .invalidDescriptor

def descriptorInlineBytes : Outcome BodyError ℕ := do
  validateLayout d.layout
  rejectIf (d.layout.bytes = 0 ∧ d.isUnit = false) .invalidDescriptor
  return d.layout.bytes

def add (a b : ℕ) : Outcome BodyError ℕ := okOr (checkedAdd 64 a b) .arithmeticOverflow

def mul (a b : ℕ) : Outcome BodyError ℕ := okOr (checkedMul 64 a b) .arithmeticOverflow

/-- `align_up`, for an alignment that is a power of two: the low bits are masked off. -/
def alignUp (value alignment : ℕ) : Outcome BodyError ℕ := do
  rejectIf (¬ (alignment.isPowerOfTwo)) .invalidDescriptor
  let sum ← add value (alignment - 1)
  return sum / alignment * alignment

def elementStride : Outcome BodyError ℕ := do
  let bytes ← descriptorInlineBytes d
  rejectIf (bytes = 0) .invalidElementLayout
  alignUp bytes d.layout.alignment

variable (body : List UInt8) (start : ℕ)

def sliceAt (bytes : ℕ) : Outcome BodyError (List UInt8) := do
  let stop ← add start bytes
  rejectIf (body.length < stop) .truncated
  return slice body start bytes

/-- The little-endian number in `w` bytes of a string that is long enough. -/
def word (bytes : List UInt8) (o w : ℕ) : ℕ := ofLe (slice bytes o w)

/-- `get_u16`, `get_u32` and `get_u64`: the number in the `w` bytes from `o` on.  The source indexes the
range, so the read traps where the string is too short. -/
def getWord (bytes : List UInt8) (o w : ℕ) : Outcome BodyError ℕ := do
  let range ← subslice bytes o w
  return ofLe range

def requireTarget (actual expected : ℕ) : Outcome BodyError Unit := do
  rejectIf (actual % bodyAlignment ≠ 0) .misaligned
  rejectIf (actual ≠ expected) .unexpectedTarget

def requireZero (stop : ℕ) : Outcome BodyError Unit := do
  rejectIf (stop < start ∨ body.length < stop) .truncated
  rejectIf ((slice body start (stop - start)).any (· ≠ 0) = true) .nonZeroPadding

/-- `reserved_ordinal`.  The source searches the ranges by bisection; in a valid descriptor they are
sorted. -/
def isReservedOrdinal (ranges : List OrdinalRange) (ordinal : ℕ) : Bool :=
  ranges.any (·.contains ordinal)

/-! ### Validity of descriptors -/

/-- The numbers are positive and strictly increasing; `previous` is the number before the first. -/
def checkIncreasing (previous : ℕ) : List ℕ → Outcome BodyError Unit
  | [] => .ok ()
  | n :: rest => do
    rejectIf (n ≤ previous) .invalidDescriptor
    checkIncreasing n rest

def validateFeatureIds (features : List ℕ) : Outcome BodyError Unit := checkIncreasing 0 features

/-- The loop of `validate_table_descriptor` over the fields. -/
def checkTableFields (table : TableDescriptor TypeDescriptor) (previous : ℕ) :
    List (TableFieldDescriptor TypeDescriptor) → Outcome BodyError Unit
  | [] => .ok ()
  | field :: rest => do
    rejectIf (field.ordinal ≤ previous) .invalidDescriptor
    rejectIf (isReservedOrdinal table.reservedOrdinals field.ordinal = true) .invalidDescriptor
    validateFeatureIds field.availability.requiredFeatures
    validateLayout field.ty.layout
    checkTableFields table field.ordinal rest

/-- The loop over the reserved ranges. -/
def checkRanges (previousEnd : ℕ) : List OrdinalRange → Outcome BodyError Unit
  | [] => .ok ()
  | range :: rest => do
    rejectIf (range.first = 0 ∨ range.last < range.first ∨ range.first ≤ previousEnd)
      .invalidDescriptor
    checkRanges range.last rest

def validateTableDescriptor (table : TableDescriptor TypeDescriptor) : Outcome BodyError Unit := do
  rejectIf (table.maximumPresentFields = 0 ∨ table.maximumPresentFields < table.fields.length)
    .invalidDescriptor
  checkTableFields table 0 table.fields
  checkRanges 0 table.reservedOrdinals

/-- The loop of `validate_enum_descriptor`; the first value may be zero. -/
def checkEnumValues (maximum : ℕ) (previous : Option ℕ) : List ℕ → Outcome BodyError Unit
  | [] => .ok ()
  | value :: rest => do
    rejectIf (maximum < value ∨ previous.any (value ≤ ·) = true) .invalidDescriptor
    checkEnumValues maximum (some value) rest

def validateEnumDescriptor (enumeration : ClosedEnumDescriptor) : Outcome BodyError Unit := do
  rejectIf (enumeration.values = []) .invalidDescriptor
  checkEnumValues enumeration.repr.max none enumeration.values

/-- The loop of `validate_union_descriptor`. -/
def checkAlternatives (previous : ℕ) :
    List (UnionAlternativeDescriptor TypeDescriptor) → Outcome BodyError Unit
  | [] => .ok ()
  | alternative :: rest => do
    rejectIf (alternative.ordinal ≤ previous) .invalidDescriptor
    match alternative.payload with
    | some payload => do
      rejectIf (payload.isUnit = true ∨ payload.layout.bytes = 0) .invalidDescriptor
      validateLayout payload.layout
      checkAlternatives alternative.ordinal rest
    | none => checkAlternatives alternative.ordinal rest

variable (alternatives : List (UnionAlternativeDescriptor TypeDescriptor))

def validateUnionDescriptor : Outcome BodyError Unit := do
  rejectIf (alternatives.length = 0) .invalidDescriptor
  checkAlternatives 0 alternatives

/-- Visiting descriptors one after the other; the number of visits that remain is passed on. -/
def visitAll (visit : TypeDescriptor → ℕ → Outcome BodyError ℕ) :
    List TypeDescriptor → ℕ → Outcome BodyError ℕ
  | [], visits => .ok visits
  | d :: rest, visits => do
    let visits ← visit d visits
    visitAll visit rest visits

/-- The loop over the fields of a structure; the result is the greatest alignment and the number of
visits that remain. -/
def checkStructureFields (visit : TypeDescriptor → ℕ → Outcome BodyError ℕ) (bytes : ℕ) :
    List (StructureFieldDescriptor TypeDescriptor) → ℕ → ℕ → ℕ → Outcome BodyError (ℕ × ℕ)
  | [], _, greatest, visits => .ok (greatest, visits)
  | field :: rest, previousEnd, greatest, visits => do
    let greatest := max greatest field.ty.layout.alignment
    let fieldBytes ← descriptorInlineBytes field.ty
    rejectIf (field.offset < previousEnd ∨ field.offset % field.ty.layout.alignment ≠ 0)
      .invalidDescriptor
    let previousEnd ← add field.offset fieldBytes
    rejectIf (bytes < previousEnd) .invalidDescriptor
    let visits ← visit field.ty visits
    checkStructureFields visit bytes rest previousEnd greatest visits

/-- `validate_type_descriptor`; `nesting` is the number of levels the path may still grow by. -/
def validateTypeDescriptor : ℕ → TypeDescriptor → ℕ → Outcome BodyError ℕ
  | 0, _, _ => fail .invalidDescriptor
  | nesting + 1, d, visits => do
    rejectIf (visits = 0) .invalidDescriptor
    let visits := visits - 1
    validateLayout d.layout
    match d.kind with
    | .unit => do
      requireLayout d.layout .unit
      return visits
    | .primitive kind => do
      requireLayout d.layout kind.layout
      return visits
    | .bytes _ | .string _ => do
      requireLayout d.layout .slice
      return visits
    | .struct fields => do
      rejectIf (d.layout.bytes = 0 ∨ fields.length = 0) .invalidDescriptor
      let (greatest, visits) ← checkStructureFields (validateTypeDescriptor nesting)
        d.layout.bytes fields 0 1 visits
      rejectIf (d.layout.alignment ≠ greatest) .invalidDescriptor
      return visits
    | .vector maximumElements element => do
      requireLayout d.layout .slice
      rejectIf (maximumElements = 0) .invalidDescriptor
      let _ ← elementStride element
      validateTypeDescriptor nesting element visits
    | .optional value => do
      requireLayout d.layout .envelope
      validateTypeDescriptor nesting value visits
    | .table table => do
      requireLayout d.layout .table
      validateTableDescriptor table
      visitAll (validateTypeDescriptor nesting) (table.fields.map (·.ty)) visits
    | .closedEnum enumeration => do
      requireLayout d.layout enumeration.repr.layout
      validateEnumDescriptor enumeration
      return visits
    | .closedUnion alternatives => do
      requireLayout d.layout .envelope
      validateUnionDescriptor alternatives
      visitAll (validateTypeDescriptor nesting) (alternatives.filterMap (·.payload)) visits

def maxDescriptorNesting : ℕ := 64
def maxDescriptorVisits : ℕ := 65536

def validateDescriptorGraph (root : TypeDescriptor) : Outcome BodyError Unit := do
  let _ ← validateTypeDescriptor maxDescriptorNesting root maxDescriptorVisits
  return ()

/-! ### Reading scalars -/

/-- The number in the `w` bytes at `start`; a single byte is read without computing an end. -/
def readScalar (w : ℕ) : Outcome BodyError ℕ :=
  if w = 1 then do
    let byte ← okOr body[start]? .truncated
    return byte.toNat
  else do
    let bytes ← sliceAt body start w
    getWord bytes 0 w

def readPrimitiveRaw (kind : PrimitiveKind) : Outcome BodyError ℕ :=
  match kind with
  | .id128 => fail .materializationMismatch
  | kind => readScalar body start kind.layout.bytes

def readRepr (repr : IntegerRepr) : Outcome BodyError ℕ :=
  readScalar body start repr.layout.bytes

/-- The bits of a single-precision number stand for "not a number". -/
def isNanF32 (raw : ℕ) : Bool := 0x7f800000 < raw % 2 ^ 31

/-- The bits of a double-precision number stand for "not a number". -/
def isNanF64 (raw : ℕ) : Bool := 0x7ff0000000000000 < raw % 2 ^ 63

def validatePrimitive (kind : PrimitiveKind) : Outcome BodyError Unit :=
  match kind with
  | .id128 => do
    let _ ← sliceAt body start 16
    return ()
  | kind => do
    let raw ← readPrimitiveRaw body start kind
    match kind with
    | .bool => rejectIf (1 < raw) .invalidBool
    | .f32 => rejectIf (isNanF32 raw = true ∧ raw ≠ 0x7fc00000) .nonCanonicalFloat
    | .f64 => rejectIf (isNanF64 raw = true ∧ raw ≠ 0x7ff8000000000000) .nonCanonicalFloat
    | _ => return ()

/-! ### Envelopes -/

/-- A range of the body that a payload occupies. -/
structure PayloadRange where
  (start stop : ℕ)

structure Envelope where
  ordinal : ℕ
  payload : Option PayloadRange

def parseEnvelope : Outcome BodyError Envelope := do
  let bytes ← sliceAt body start envelopeBytes
  let r₁ ← getWord bytes 4 2
  let r₂ ← getWord bytes 6 2
  let r₃ ← getWord bytes 16 2
  let r₄ ← getWord bytes 18 2
  let r₅ ← getWord bytes 20 4
  rejectIf (r₁ ≠ 0 ∨ r₂ ≠ 0 ∨ r₃ ≠ 0 ∨ r₄ ≠ 0 ∨ r₅ ≠ 0) .reservedValueUsed
  let ordinal ← getWord bytes 0 4
  let relativeOffset ← getWord bytes 8 4
  let payloadBytes ← getWord bytes 12 4
  if relativeOffset = 0 ∧ payloadBytes = 0 then return { ordinal, payload := none }
  else do
    rejectIf (relativeOffset = 0 ∨ payloadBytes = 0 ∨ payloadBytes % bodyAlignment ≠ 0)
      .invalidReference
    let offsetField ← add start 8
    let payloadStart ← add offsetField relativeOffset
    rejectIf (payloadStart % bodyAlignment ≠ 0) .misaligned
    let payloadEnd ← add payloadStart payloadBytes
    rejectIf (body.length < payloadEnd) .outOfBounds
    return { ordinal, payload := some ⟨payloadStart, payloadEnd⟩ }

/-! ### The validator -/

/-- What the validator knows besides the value it looks at. -/
structure SchemaContext where
  body : List UInt8
  bound : BoundProtocol
  limits : BodyLimits

/-- The next free byte of the region that is being filled, and the end of the region. -/
structure Cursor where
  (next stop : ℕ)

/-- The reference of a string, a byte string or a vector. -/
structure SliceRef where
  (relativeOffset count regionBytes reserved : ℕ)

/-- The reference at `start`. -/
def sliceRef : Outcome BodyError SliceRef := do
  let reference ← sliceAt body start sliceRefBytes
  let relativeOffset ← getWord reference 0 4
  let count ← getWord reference 4 4
  let regionBytes ← getWord reference 8 4
  let reserved ← getWord reference 12 4
  return { relativeOffset, count, regionBytes, reserved }

/-- Text must be well formed; other bytes are not looked at. -/
def requireUtf8 (utf8 : Bool) (start count : ℕ) : Outcome BodyError Unit :=
  if utf8 then do
    let text ← sliceAt body start count
    rejectIf (isUtf8 text = false) .invalidUtf8
  else .ok ()

variable (ctx : SchemaContext) (referenceStart : ℕ)

def validateBytesLike (maximum : ℕ) (utf8 : Bool) (cursor : Cursor) : Outcome BodyError Cursor := do
  let reference ← sliceRef ctx.body referenceStart
  rejectIf (reference.reserved ≠ 0) .reservedValueUsed
  rejectIf (maximum < reference.count) .limitExceeded
  if reference.count = 0 then do
    rejectIf (reference.relativeOffset ≠ 0 ∨ reference.regionBytes ≠ 0) .invalidReference
    return cursor
  else do
    let expectedRegion ← alignUp reference.count bodyAlignment
    rejectIf (reference.relativeOffset = 0 ∨ reference.regionBytes ≠ expectedRegion)
      .regionLengthMismatch
    let target ← add referenceStart reference.relativeOffset
    requireTarget target cursor.next
    let dataEnd ← add target reference.count
    let regionEnd ← add target reference.regionBytes
    rejectIf (cursor.stop < regionEnd) .outOfBounds
    requireZero ctx.body dataEnd regionEnd
    requireUtf8 ctx.body utf8 target reference.count
    return { cursor with next := regionEnd }

/-- The validation of a value one level deeper. -/
abbrev Check := TypeDescriptor → ℕ → Cursor → Outcome BodyError Cursor

variable (check : Check)

/-- `validate_allocation`.  The depth has been checked by the caller. -/
def validateAllocation (d : TypeDescriptor) (start stop : ℕ) : Outcome BodyError Unit := do
  rejectIf (start % bodyAlignment ≠ 0 ∨ stop % bodyAlignment ≠ 0) .misaligned
  let inlineBytes ← descriptorInlineBytes d
  let inlineEnd ← add start inlineBytes
  rejectIf (stop < inlineEnd ∨ ctx.body.length < stop) .truncated
  let childrenStart ← alignUp inlineEnd bodyAlignment
  rejectIf (stop < childrenStart) .truncated
  requireZero ctx.body inlineEnd childrenStart
  let cursor ← check d start ⟨childrenStart, stop⟩
  rejectIf (cursor.next ≠ stop) .trailingBytes

variable (levels : ℕ)

/-- `validate_selected_payload`; `levels` are the levels left for the payload. -/
def validateSelectedPayload (check : Check) (d : TypeDescriptor) (payload : Option PayloadRange)
    (cursor : Cursor) : Outcome BodyError Cursor := do
  rejectIf (levels = 0) .limitExceeded
  if d.isUnit then do
    requireLayout d.layout .unit
    rejectIf (payload.isSome = true) .unexpectedPayload
    return cursor
  else do
    let payload ← okOr payload .missingPayload
    requireTarget payload.start cursor.next
    validateAllocation ctx check d payload.start payload.stop
    return { cursor with next := payload.stop }

/-- The loop of `validate_structure`; `previousEnd` is the end of the field before. -/
def checkFields (ctx : SchemaContext) (check : Check) (structureBytes start : ℕ) :
    List (StructureFieldDescriptor TypeDescriptor) → ℕ → Cursor → Outcome BodyError Cursor
  | [], previousEnd, cursor => do
    let lo ← add start previousEnd
    let hi ← add start structureBytes
    requireZero ctx.body lo hi
    return cursor
  | field :: rest, previousEnd, cursor => do
    let fieldBytes ← descriptorInlineBytes field.ty
    rejectIf (field.offset < previousEnd ∨ field.offset % field.ty.layout.alignment ≠ 0)
      .invalidDescriptor
    let fieldEnd ← add field.offset fieldBytes
    rejectIf (structureBytes < fieldEnd) .invalidDescriptor
    let lo ← add start previousEnd
    let hi ← add start field.offset
    requireZero ctx.body lo hi
    let cursor ← check field.ty hi cursor
    checkFields ctx check structureBytes start rest fieldEnd cursor

def validateStructure (layout : InlineLayout) (fields : List (StructureFieldDescriptor TypeDescriptor))
    (start : ℕ) (cursor : Cursor) : Outcome BodyError Cursor := do
  rejectIf (layout.bytes = 0) .invalidDescriptor
  checkFields ctx check layout.bytes start fields 0 cursor

/-- The start of an element of a vector. -/
def elementStart (target stride index : ℕ) : Outcome BodyError ℕ := do
  let offset ← mul index stride
  add target offset

/-- The loop of `validate_vector` over the padding behind the elements. -/
def checkElementPadding (target stride elementBytes index : ℕ) : Outcome BodyError Unit := do
  let start ← elementStart target stride index
  let lo ← add start elementBytes
  let hi ← add start stride
  requireZero ctx.body lo hi

/-- The loop of `validate_vector` over the elements. -/
def checkElements (check : Check) (element : TypeDescriptor) (target stride : ℕ) :
    List ℕ → Cursor → Outcome BodyError Cursor
  | [], cursor => .ok cursor
  | index :: rest, cursor => do
    let start ← elementStart target stride index
    let cursor ← check element start cursor
    checkElements check element target stride rest cursor

def validateVector (maximumElements : ℕ) (element : TypeDescriptor) (referenceStart : ℕ)
    (parent : Cursor) : Outcome BodyError Cursor := do
  let reference ← sliceRef ctx.body referenceStart
  rejectIf (reference.reserved ≠ 0) .reservedValueUsed
  rejectIf (maximumElements < reference.count) .limitExceeded
  let stride ← elementStride element
  if reference.count = 0 then do
    rejectIf (reference.relativeOffset ≠ 0 ∨ reference.regionBytes ≠ 0) .invalidReference
    return parent
  else do
    rejectIf (reference.relativeOffset = 0 ∨ reference.regionBytes = 0 ∨
      reference.regionBytes % bodyAlignment ≠ 0) .invalidReference
    let target ← add referenceStart reference.relativeOffset
    requireTarget target parent.next
    let regionEnd ← add target reference.regionBytes
    rejectIf (parent.stop < regionEnd) .outOfBounds
    let arrayBytes ← mul reference.count stride
    let arrayEnd ← add target arrayBytes
    let childrenStart ← alignUp arrayEnd bodyAlignment
    rejectIf (regionEnd < childrenStart) .truncated
    let elementBytes ← descriptorInlineBytes element
    each (checkElementPadding ctx target stride elementBytes) (List.range reference.count)
    requireZero ctx.body arrayEnd childrenStart
    let cursor ← checkElements check element target stride (List.range reference.count)
      ⟨childrenStart, regionEnd⟩
    rejectIf (cursor.next ≠ regionEnd) .regionLengthMismatch
    return { parent with next := regionEnd }

variable (ordinal : ℕ) (check : Check) (table : TableDescriptor TypeDescriptor)

def validateOptional (value : TypeDescriptor) (start : ℕ) (cursor : Cursor) : Outcome BodyError Cursor := do
  let bytes ← sliceAt ctx.body start envelopeBytes
  if bytes.all (· = 0) then return cursor
  else do
    let envelope ← parseEnvelope ctx.body start
    rejectIf (envelope.ordinal ≠ 1) .invalidOptionalOrdinal
    validateSelectedPayload ctx levels check value envelope.payload cursor

/-- The alternative with the given ordinal.  The source finds it by bisection; in a valid descriptor
the alternatives are sorted. -/
def findAlternative : Option (UnionAlternativeDescriptor TypeDescriptor) :=
  alternatives.find? (·.ordinal = ordinal)

def validateClosedUnion (alternatives : List (UnionAlternativeDescriptor TypeDescriptor)) (start : ℕ)
    (cursor : Cursor) : Outcome BodyError Cursor := do
  let envelope ← parseEnvelope ctx.body start
  rejectIf (envelope.ordinal = 0) .unknownUnionOrdinal
  let alternative ← okOr (findAlternative alternatives envelope.ordinal) .unknownUnionOrdinal
  match alternative.payload with
  | some payload => validateSelectedPayload ctx levels check payload envelope.payload cursor
  | none => do
    rejectIf (levels = 0) .limitExceeded
    rejectIf (envelope.payload.isSome = true) .unexpectedPayload
    return cursor

def validateClosedEnum (layout : InlineLayout) (enumeration : ClosedEnumDescriptor) (start : ℕ) :
    Outcome BodyError Unit := do
  requireLayout layout enumeration.repr.layout
  validateEnumDescriptor enumeration
  let value ← readRepr ctx.body start enumeration.repr
  rejectIf (value ∉ enumeration.values) .unknownEnumValue

/-! ### Tables -/

def requireFieldIfActive (bound : BoundProtocol) (field : TableFieldDescriptor TypeDescriptor) :
    Outcome BodyError Unit :=
  rejectIf (field.required = true ∧ field.availability.isActive bound = true) .missingRequiredField

def envelopeAt (tableStart index : ℕ) : Outcome BodyError Envelope := do
  let offset ← mul index envelopeBytes
  let start ← add tableStart offset
  parseEnvelope body start

/-- Where the payloads continue behind an envelope. -/
def Envelope.advance (envelope : Envelope) (payloadCursor : ℕ) : ℕ :=
  match envelope.payload with
  | some payload => payload.stop
  | none => payloadCursor

/-- The payload of an envelope starts where the one before ended and stays inside the region. -/
def requirePlacement (payload : Option PayloadRange) (payloadCursor stop : ℕ) : Outcome BodyError Unit :=
  match payload with
  | some payload => do
    requireTarget payload.start payloadCursor
    rejectIf (stop < payload.stop) .outOfBounds
  | none => .ok ()

/-- The loop of `prevalidate_table_envelopes`; the result is where the payloads end. -/
def prevalidateEnvelopes (ctx : SchemaContext) (levels : ℕ) (table : TableDescriptor TypeDescriptor)
    (tableStart stop : ℕ) : List ℕ → Option ℕ → ℕ → Outcome BodyError ℕ
  | [], _, payloadCursor => .ok payloadCursor
  | index :: rest, previous, payloadCursor => do
    let envelope ← envelopeAt ctx.body tableStart index
    rejectIf (envelope.ordinal = 0) .invalidOrdinal
    rejectIf (previous = some envelope.ordinal) .duplicateOrdinal
    rejectIf (previous.any (envelope.ordinal < ·) = true) .envelopeOrder
    rejectIf (isReservedOrdinal table.reservedOrdinals envelope.ordinal = true) .reservedOrdinal
    rejectIf (levels = 0) .limitExceeded
    requirePlacement envelope.payload payloadCursor stop
    prevalidateEnvelopes ctx levels table tableStart stop rest (some envelope.ordinal)
      (envelope.advance payloadCursor)

def prevalidateTableEnvelopes (tableStart fieldCount payloadStart stop : ℕ) : Outcome BodyError Unit := do
  let payloadCursor ← prevalidateEnvelopes ctx levels table tableStart stop (List.range fieldCount)
    none payloadStart
  rejectIf (payloadCursor ≠ stop) .regionLengthMismatch

/-- The inner loop of `validate_table`: descriptor fields before the ordinal of the envelope are
absent.  The result is the fields that remain. -/
def skipFields (bound : BoundProtocol) (ordinal : ℕ) : List (TableFieldDescriptor TypeDescriptor) →
      Outcome BodyError (List (TableFieldDescriptor TypeDescriptor))
  | [] => .ok []
  | field :: rest =>
    if field.ordinal < ordinal then do
      requireFieldIfActive bound field
      skipFields bound ordinal rest
    else .ok (field :: rest)

/-- One envelope of a table against the descriptor fields that remain. -/
def checkEnvelope (tableEnd : ℕ) (envelope : Envelope)
    (fields : List (TableFieldDescriptor TypeDescriptor)) (payloadCursor : ℕ) :
    Outcome BodyError (List (TableFieldDescriptor TypeDescriptor)) :=
  match fields with
  | [] => .ok []
  | field :: rest =>
    if field.ordinal = envelope.ordinal then do
      rejectIf (field.availability.isActive ctx.bound = false) .fieldUnavailable
      let _ ← validateSelectedPayload ctx levels check field.ty envelope.payload
        ⟨payloadCursor, tableEnd⟩
      return rest
    else .ok (field :: rest)

/-- The main loop of `validate_table`; the result is where the payloads end. -/
def checkTable (ctx : SchemaContext) (levels : ℕ) (check : Check) (tableStart tableEnd : ℕ) :
    List ℕ → List (TableFieldDescriptor TypeDescriptor) → ℕ → Outcome BodyError ℕ
  | [], fields, payloadCursor => do
    each (requireFieldIfActive ctx.bound) fields
    return payloadCursor
  | index :: rest, fields, payloadCursor => do
    let envelope ← envelopeAt ctx.body tableStart index
    let fields ← skipFields ctx.bound envelope.ordinal fields
    let fields ← checkEnvelope ctx levels check tableEnd envelope fields payloadCursor
    checkTable ctx levels check tableStart tableEnd rest fields (envelope.advance payloadCursor)

structure TableRef where
  (relativeOffset fieldCount reserved regionBytes reservedTail : ℕ)

def tableRef : Outcome BodyError TableRef := do
  let reference ← sliceAt body start tableRefBytes
  let relativeOffset ← getWord reference 0 4
  let fieldCount ← getWord reference 4 2
  let reserved ← getWord reference 6 2
  let regionBytes ← getWord reference 8 4
  let reservedTail ← getWord reference 12 4
  return { relativeOffset, fieldCount, reserved, regionBytes, reservedTail }

def validateTable (referenceStart : ℕ) (parent : Cursor) : Outcome BodyError Cursor := do
  let reference ← tableRef ctx.body referenceStart
  rejectIf (reference.reserved ≠ 0 ∨ reference.reservedTail ≠ 0) .reservedValueUsed
  rejectIf (table.maximumPresentFields < reference.fieldCount ∨
    ctx.limits.maxTableFields < reference.fieldCount) .limitExceeded
  if reference.fieldCount = 0 then do
    rejectIf (reference.relativeOffset ≠ 0 ∨ reference.regionBytes ≠ 0) .invalidReference
    each (requireFieldIfActive ctx.bound) table.fields
    return parent
  else do
    rejectIf (reference.relativeOffset = 0 ∨ reference.regionBytes = 0 ∨
      reference.regionBytes % bodyAlignment ≠ 0) .invalidReference
    let tableStart ← add referenceStart reference.relativeOffset
    requireTarget tableStart parent.next
    let tableEnd ← add tableStart reference.regionBytes
    rejectIf (parent.stop < tableEnd) .outOfBounds
    let envelopes ← mul reference.fieldCount envelopeBytes
    let payloadStart ← add tableStart envelopes
    rejectIf (tableEnd < payloadStart) .truncated
    prevalidateTableEnvelopes ctx levels table tableStart reference.fieldCount payloadStart tableEnd
    let payloadCursor ← checkTable ctx levels check tableStart tableEnd
      (List.range reference.fieldCount) table.fields payloadStart
    rejectIf (payloadCursor ≠ tableEnd) .regionLengthMismatch
    return { parent with next := tableEnd }

/-! ### Values and bodies -/

/-- The body of `validate_value`; `levels` are the levels left for the parts of the value, and `check`
validates the parts. -/
def validateNode : Check := fun d start cursor => do
  validateLayout d.layout
  let inlineBytes ← descriptorInlineBytes d
  let inlineEnd ← add start inlineBytes
  rejectIf (ctx.body.length < inlineEnd) .truncated
  match d.kind with
  | .unit => do
    requireLayout d.layout .unit
    return cursor
  | .primitive kind => do
    requireLayout d.layout kind.layout
    validatePrimitive ctx.body start kind
    return cursor
  | .bytes maximum => do
    requireLayout d.layout .slice
    validateBytesLike ctx start maximum false cursor
  | .string maximumBytes => do
    requireLayout d.layout .slice
    validateBytesLike ctx start maximumBytes true cursor
  | .struct fields => validateStructure ctx check d.layout fields start cursor
  | .vector maximumElements element => do
    requireLayout d.layout .slice
    validateVector ctx check maximumElements element start cursor
  | .optional value => do
    requireLayout d.layout .envelope
    validateOptional ctx levels check value start cursor
  | .table table => do
    requireLayout d.layout .table
    validateTable ctx levels check table start cursor
  | .closedEnum enumeration => do
    validateClosedEnum ctx d.layout enumeration start
    return cursor
  | .closedUnion alternatives => do
    requireLayout d.layout .envelope
    validateClosedUnion ctx levels check alternatives start cursor

/-- `validate_value`, with the levels that are left for the value. -/
def validateValue (ctx : SchemaContext) : ℕ → Check
  | 0 => fun _ _ _ => fail .limitExceeded
  | levels + 1 => validateNode ctx levels (validateValue ctx levels)

def validateBody (schema : ProtocolBodyDescriptor) (bound : BoundProtocol) (limits : BodyLimits)
    (body : List UInt8) : Outcome BodyError Unit := do
  rejectIf (schema.protocolId ≠ bound.protocolId ∨ schema.protocolMajor ≠ bound.major)
    .protocolMismatch
  rejectIf (bound.maxBodyBytes < body.length) .limitExceeded
  rejectIf (body.length % bodyAlignment ≠ 0) .misaligned
  rejectIf (limits.maxDepth = 0) .limitExceeded
  validateDescriptorGraph schema.root
  let ctx : SchemaContext := { body, bound, limits }
  validateAllocation ctx (validateValue ctx limits.maxDepth) schema.root 0 body.length

/-! ### The accessors of a validated value -/

def materializedSlice : Outcome BodyError (List UInt8) := do
  let reference ← sliceRef body referenceStart
  if reference.count = 0 then return []
  else do
    let target ← add referenceStart reference.relativeOffset
    sliceAt body target reference.count

structure ValidatedVector where
  (elementsStart count stride : ℕ)

/-- `ValidatedValue::vector`. -/
def vectorView (element : TypeDescriptor) (start : ℕ) : Outcome BodyError ValidatedVector := do
  let reference ← sliceRef body start
  if reference.count = 0 then return ⟨0, 0, 0⟩
  else do
    let target ← add start reference.relativeOffset
    let stride ← elementStride element
    return ⟨target, reference.count, stride⟩

/-- The loop of `ValidatedValue::table_field`: the payload of the envelope with the ordinal. -/
def findEnvelope (body : List UInt8) (tableStart ordinal : ℕ) :
    List ℕ → Outcome BodyError (Option (Option PayloadRange))
  | [] => .ok none
  | index :: rest => do
    let envelope ← envelopeAt body tableStart index
    if envelope.ordinal = ordinal then return some envelope.payload
    else if ordinal < envelope.ordinal then return none
    else findEnvelope body tableStart ordinal rest

/-- `ValidatedValue::table_field`, for a field of the descriptor. -/
def tableField : Outcome BodyError (Option (Option PayloadRange)) := do
  let reference ← tableRef body start
  if reference.fieldCount = 0 then return none
  else do
    let tableStart ← add start reference.relativeOffset
    findEnvelope body tableStart ordinal (List.range reference.fieldCount)

/-- `ValidatedValue::optional`: where the value starts, if there is one. -/
def optionalView : Outcome BodyError (Option ℕ) := do
  let envelope ← parseEnvelope body start
  if envelope.ordinal = 0 then return none
  else if envelope.ordinal = 1 then
    return some (match envelope.payload with
      | some payload => payload.start
      | none => 0)
  else fail .invalidOptionalOrdinal

/-- A view of a union: its ordinal, and the type and the start of its payload. -/
structure ValidatedUnion where
  ordinal : ℕ
  payload : Option (TypeDescriptor × ℕ)

/-- `materialized_union`. -/
def unionView (start : ℕ) : Outcome BodyError ValidatedUnion := do
  let envelope ← parseEnvelope body start
  let alternative ← okOr (findAlternative alternatives envelope.ordinal) .unknownUnionOrdinal
  match alternative.payload, envelope.payload with
  | some d, some payload => return ⟨envelope.ordinal, some (d, payload.start)⟩
  | none, none => return ⟨envelope.ordinal, none⟩
  | _, _ => fail .materializationMismatch

/-! ### The abstract value of a body -/

/-- What a body means: a tree without offsets, lengths or padding.  A table has one entry for each
field of its descriptor, and a field that is present may have no payload. -/
inductive Value where
  | unit
  | integer (raw : ℕ)
  | id (bytes : List UInt8)
  | bytes (bytes : List UInt8)
  | string (bytes : List UInt8)
  | struct (fields : List Value)
  | vector (elements : List Value)
  | optional (value : Option Value)
  | table (fields : List (Option (Option Value)))
  | enumeration (raw : ℕ)
  | union (ordinal : ℕ) (payload : Option Value)

section

variable (read : TypeDescriptor → ℕ → Outcome BodyError Value)

def readFields (start : ℕ) : List (StructureFieldDescriptor TypeDescriptor) → Outcome BodyError (List Value)
  | [] => .ok []
  | field :: rest => do
    let fieldStart ← add start field.offset
    let value ← read field.ty fieldStart
    let values ← readFields start rest
    return value :: values

def readElements (element : TypeDescriptor) (view : ValidatedVector) : List ℕ → Outcome BodyError (List Value)
  | [] => .ok []
  | index :: rest => do
    let start ← elementStart view.elementsStart view.stride index
    let value ← read element start
    let values ← readElements element view rest
    return value :: values

def readPayload (d : TypeDescriptor) (payload : Option PayloadRange) : Outcome BodyError (Option Value) :=
  match payload with
  | none => .ok none
  | some payload => do
    let value ← read d payload.start
    return some value

def readTableField (body : List UInt8) (start : ℕ) (field : TableFieldDescriptor TypeDescriptor) :
    Outcome BodyError (Option (Option Value)) := do
  match ← tableField body start field.ordinal with
  | none => return none
  | some payload => do
    let value ← readPayload read field.ty payload
    return some value

/-- The fields of a table, in the order of the descriptor. -/
def readTable (body : List UInt8) (start : ℕ) :
    List (TableFieldDescriptor TypeDescriptor) → Outcome BodyError (List (Option (Option Value)))
  | [] => .ok []
  | field :: rest => do
    let value ← readTableField read body start field
    let values ← readTable body start rest
    return value :: values

end

/-- The value of the type at `start`, read with the accessors. -/
def materialize (body : List UInt8) : ℕ → TypeDescriptor → ℕ → Outcome BodyError Value
  | 0, _, _ => fail .limitExceeded
  | levels + 1, d, start =>
    match d.kind with
    | .unit => .ok .unit
    | .primitive .id128 => do
      let bytes ← sliceAt body start 16
      return .id bytes
    | .primitive kind => do
      let raw ← readPrimitiveRaw body start kind
      return .integer raw
    | .bytes _ => do
      let bytes ← materializedSlice body start
      return .bytes bytes
    | .string _ => do
      let bytes ← materializedSlice body start
      rejectIf (isUtf8 bytes = false) .invalidUtf8
      return .string bytes
    | .struct fields => do
      let values ← readFields (materialize body levels) start fields
      return .struct values
    | .vector _ element => do
      let view ← vectorView body element start
      let values ← readElements (materialize body levels) element view (List.range view.count)
      return .vector values
    | .optional d => do
      match ← optionalView body start with
      | none => return .optional none
      | some start => do
        let value ← materialize body levels d start
        return .optional (some value)
    | .table table => do
      let values ← readTable (materialize body levels) body start table.fields
      return .table values
    | .closedEnum enumeration => do
      let raw ← readRepr body start enumeration.repr
      return .enumeration raw
    | .closedUnion alternatives => do
      let view ← unionView body alternatives start
      match view.payload with
      | none => return .union view.ordinal none
      | some (d, start) => do
        let value ← materialize body levels d start
        return .union view.ordinal (some value)

/-! ### Unknown ordinals -/

/-- The envelopes at the given indices of a table. -/
def envelopesAt (body : List UInt8) (tableStart : ℕ) : List ℕ → Outcome BodyError (List Envelope)
  | [] => .ok []
  | index :: rest => do
    let envelope ← envelopeAt body tableStart index
    let envelopes ← envelopesAt body tableStart rest
    return envelope :: envelopes

/-- The ordinals of the envelopes of the table at `start`. -/
def tableOrdinals : Outcome BodyError (List ℕ) := do
  let reference ← tableRef body start
  if reference.fieldCount = 0 then return []
  else do
    let tableStart ← add start reference.relativeOffset
    let envelopes ← envelopesAt body tableStart (List.range reference.fieldCount)
    return envelopes.map (·.ordinal)

/-- The predicate holds of what the computation returns, if it returns. -/
def holdsFor {α : Type} (x : Outcome BodyError α) (p : α → Bool) : Bool :=
  match x with
  | .ok a => p a
  | .error _ => true

/-- No table of the value at `start` has an ordinal that its descriptor does not know. -/
def knownOrdinals (body : List UInt8) : ℕ → TypeDescriptor → ℕ → Bool
  | 0, _, _ => true
  | levels + 1, d, start =>
    match d.kind with
    | .struct fields => fields.all fun field =>
      knownOrdinals body levels field.ty (start + field.offset)
    | .vector _ element => holdsFor (vectorView body element start) fun view =>
      (List.range view.count).all fun index =>
        knownOrdinals body levels element (view.elementsStart + index * view.stride)
    | .optional d => holdsFor (optionalView body start) fun view =>
      view.all (knownOrdinals body levels d)
    | .table table =>
      holdsFor (tableOrdinals body start)
        (·.all fun ordinal => table.fields.any (·.ordinal = ordinal)) &&
      table.fields.all fun field => holdsFor (tableField body start field.ordinal) fun view =>
        view.all fun payload => payload.all fun range =>
          knownOrdinals body levels field.ty range.start
    | .closedUnion alternatives => holdsFor (unionView body alternatives start) fun view =>
      view.payload.all fun payload => knownOrdinals body levels payload.1 payload.2
    | _ => true

end NSWP
