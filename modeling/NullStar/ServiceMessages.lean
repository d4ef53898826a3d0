/-
**The control messages of services and of the boot selection.**

Routes and generations of services are handed out in messages of fixed size, services are controlled
by requests and responses of 64 bytes, and the boot loader reads which generation to start from a record
of 64 bytes with a checksum.  Each of these formats has one encoding for each value: what a kind of
message has no use for is zero, and the decoder insists on it.

A control message is decoded in two steps, first its fields and then the message they make up.
`ServiceControl.ServiceControlMessage.view` is the way back from a message to its fields.

* `RouteMessage`, `ServiceGenerationHandoff` — routes and generations;
* `ServiceControl.ServiceControlMessage` — the messages that control services;
* `BootGeneration.Selection` — the record of the selected generation;
* `ServiceControl.decodeFields_eq_ok` — fields make up a message exactly when they are its fields;
* the theorems `decode_eq_ok` — what each decoder accepts;
* `ServiceControl.messages_canonical` — all four formats are canonical.
-/

import NullStar.Format
import NullStar.Routes

set_option autoImplicit false

namespace ServiceRoute

open Bytes Rust

theorem ServiceId.fromBytes_eq_ok {bytes : Buf 16} {s : ServiceId} :
    ServiceId.fromBytes bytes = .ok s ↔ bytes = s.bytes := by
  unfold ServiceId.fromBytes
  constructor
  · split
    · rintro ⟨⟩
      rfl
    · rintro ⟨⟩
  · rintro rfl
    split
    · rfl
    · next e h => cases s.valid.symm.trans h

/-- A constructor that refuses zero makes a value exactly from the number which that value holds. -/
theorem nonZero_eq_some {α β : Type} [DecidableEq α] {zero a : α} {b : β} {mk : ∀ a, a ≠ zero → β}
    (value : β → α) (hne : ∀ b, value b ≠ zero) (hvalue : ∀ a h, value (mk a h) = a)
    (hmk : ∀ b, mk (value b) (hne b) = b) :
    (if h : a = zero then none else some (mk a h)) = some b ↔ a = value b := by
  rw [Option.dite_none_left_eq_some]
  constructor
  · rintro ⟨h, ⟨⟩⟩
    exact (hvalue a h).symm
  · rintro rfl
    exact ⟨hne b, congrArg some (hmk b)⟩

theorem RoleId.new_eq_some {value : UInt32} {r : RoleId} : RoleId.new value = some r ↔ value = r.value :=
  nonZero_eq_some RoleId.value RoleId.ne_zero (fun _ _ => rfl) fun _ => rfl

/-- The number of a generation that can be missing. -/
def generationRaw : Option ProviderGeneration → UInt64
  | none => 0
  | some g => g.value

theorem ProviderGeneration.new_eq {value : UInt64} {o : Option ProviderGeneration} :
    ProviderGeneration.new value = o ↔ value = generationRaw o := by
  unfold ProviderGeneration.new
  cases o with
  | none => simp [generationRaw]
  | some g => exact nonZero_eq_some ProviderGeneration.value ne_zero (fun _ _ => rfl) fun _ => rfl

/-! ### Routes -/

inductive RouteFailure where
  | unauthorized | unavailable | issuerCapacity
  deriving DecidableEq

def RouteFailure.code : RouteFailure → UInt8
  | .unauthorized => 1
  | .unavailable => 2
  | .issuerCapacity => 3

def RouteFailure.fromWire : UInt8 → Option RouteFailure :=
  ofCode code [.unauthorized, .unavailable, .issuerCapacity]

theorem RouteFailure.fromWire_eq_some {v : UInt8} {f : RouteFailure} :
    fromWire v = some f ↔ v = f.code := ofCode_eq_some

inductive RouteMessage where
  | request (key : RouteKey)
  | accepted (key : RouteKey) (generation : ProviderGeneration)
  | failure (key : RouteKey) (failure : RouteFailure)

inductive DecodeError where
  | invalidLength | invalidMagic | unsupportedVersion | unknownKind | unknownStatus
  | nonzeroReserved
  | invalidServiceId (e : ServiceIdError)
  | zeroRole | statusNotAllowed | statusRequired | generationNotAllowed | generationRequired

variable (input : List UInt8) (m : RouteMessage)

namespace RouteMessage

def key : RouteMessage → RouteKey
  | request key | accepted key _ | failure key _ => key

/-- The kind, the status and the generation of a message. -/
def wire : RouteMessage → UInt8 × UInt8 × UInt64
  | request _ => (1, 0, 0)
  | accepted _ generation => (2, 0, generation.value)
  | failure _ f => (3, f.code, 0)

/-- The magic number of a route message, "NSRT". -/
def serviceRouteMagic : List UInt8 := [0x4e, 0x53, 0x52, 0x54]

def fields : List Field :=
  [(0, serviceRouteMagic), u16Field 4 1, (6, [m.wire.1]), (7, [m.wire.2.1]),
    (8, m.key.service.bytes.1), u32Field 24 m.key.role.value, u64Field 32 m.wire.2.2]

def tiles : List Tile :=
  [.field 0 4, .field 4 2, .field 6 1, .field 7 1, .field 8 16, .field 24 4, .gap 28 4, .field 32 8]

def encode {ε : Type} (m : RouteMessage) : Outcome ε (List UInt8) := .ok (render 40 m.fields).1

/-- The end of `decode`; another kind is unreachable there. -/
def ofWire (kind status : UInt8) (generation : UInt64) (key : RouteKey) : Outcome DecodeError RouteMessage :=
  if kind = 1 then do
    rejectIf (status ≠ 0) .statusNotAllowed
    rejectIf (generation ≠ 0) .generationNotAllowed
    return request key
  else if kind = 2 then do
    rejectIf (status ≠ 0) .statusNotAllowed
    let generation ← okOr (ProviderGeneration.new generation) .generationRequired
    return accepted key generation
  else if kind = 3 then do
    let f ← okOr (RouteFailure.fromWire status) .statusRequired
    rejectIf (generation ≠ 0) .generationNotAllowed
    return failure key f
  else trapped

def decode : Outcome DecodeError RouteMessage := do
  rejectIf (input.length ≠ 40) .invalidLength
  rejectIf ((← subslice input 0 4) ≠ serviceRouteMagic) .invalidMagic
  rejectIf ((← getU16 input 4) ≠ 1) .unsupportedVersion
  let kind ← index input 6
  rejectIf (kind ≠ 1 ∧ kind ≠ 2 ∧ kind ≠ 3) .unknownKind
  let status ← index input 7
  rejectIf (status ≠ 0 ∧ RouteFailure.fromWire status = none) .unknownStatus
  rejectIf (allZero (← subslice input 28 4) = false) .nonzeroReserved
  let service ← ofExcept .invalidServiceId (ServiceId.fromBytes (← subarray input 8 16))
  let role ← okOr (RoleId.new (← getU32 input 24)) .zeroRole
  ofWire kind status (← getU64 input 32) ⟨service, role⟩

theorem ofWire_eq_ok {kind status : UInt8} {generation : UInt64} {key : RouteKey} {m : RouteMessage} :
    ofWire kind status generation key = .ok m ↔ (kind, status, generation) = m.wire ∧ key = m.key := by
  unfold ofWire
  split_ifs with h1 h2 h3
  · cases m <;> simp [bind_eq_ok, wire, RouteMessage.key, h1, and_assoc]
  · cases m <;> simp [bind_eq_ok, wire, RouteMessage.key, h2, ProviderGeneration.new_eq, generationRaw,
      and_assoc]
  · cases m <;> simp [bind_eq_ok, wire, RouteMessage.key, h3, RouteFailure.fromWire_eq_some, and_assoc]
  · cases m <;> simp [wire, h1, h2, h3]

theorem wire_known : ¬ (m.wire.1 ≠ 1 ∧ m.wire.1 ≠ 2 ∧ m.wire.1 ≠ 3) ∧
    ¬ (m.wire.2.1 ≠ 0 ∧ RouteFailure.fromWire m.wire.2.1 = none) := by
  cases m with
  | request | accepted => simp [wire]
  | failure =>
    refine ⟨by simp [wire], fun h => ?_⟩
    cases (RouteFailure.fromWire_eq_some.2 rfl).symm.trans h.2

theorem decode_eq_ok {input : List UInt8} {m : RouteMessage} :
    decode input = .ok m ↔ True ∧ input = (render 40 m.fields).1 := by
  have hfollows : Follows tiles m.fields := by
    simp [Follows, tiles, fields, u16Field, u32Field, u64Field, serviceRouteMagic, Tile.field, Tile.gap,
      m.key.service.bytes.2]
  apply sized_eq_ok input (render 40 _).2
  intro b
  rw [true_and, ← Subtype.ext_iff, eq_render_iff (by decide) hfollows]
  simp (disch := decide) only [reads_buf, ok_bind, fields, tiles, holds_fields, zero_tiles,
    holds_bytes m.key.service.bytes.2, and_true]
  simp only [run_eq_ok, ofExcept_eq_ok, not_not, Bool.not_eq_false, ServiceId.fromBytes_eq_ok,
    RoleId.new_eq_some, ofWire_eq_ok]
  constructor
  · rintro ⟨hmagic, hversion, -, -, hgap, service, hservice, role, hrole, hwire, hkey⟩
    rw [← hwire, ← hkey]
    exact ⟨⟨hmagic, hversion, rfl, rfl, congrArg Subtype.val hservice, hrole, rfl⟩, hgap⟩
  · rintro ⟨⟨hmagic, hversion, hkind, hstatus, hservice, hrole, hgeneration⟩, hgap⟩
    rw [← Buf.byteAt] at hkind hstatus
    rw [hkind, hstatus, hgeneration]
    exact ⟨hmagic, hversion, m.wire_known.1, m.wire_known.2, hgap, m.key.service,
      Subtype.ext hservice, m.key.role, hrole, rfl, rfl⟩

theorem noTrap_decode : NoTrap (decode input) := by
  apply noTrap_sized input
  intro b
  simp (disch := decide) only [reads_buf]
  refine .rejectIf_bind fun _ => .rejectIf_bind fun _ => .rejectIf_bind fun hkind =>
    .rejectIf_bind fun _ => .rejectIf_bind fun _ => (noTrap_ofExcept _ _).bind fun _ _ =>
    noTrap_okOr.bind fun _ _ => ?_
  -- the kind is one of the three
  unfold ofWire
  split_ifs with h1 h2 h3
  case neg => exact absurd ⟨h1, h2, h3⟩ hkind
  all_goals simp [noTrap_bind]

end RouteMessage

/-! ### Generations -/

structure ServiceGenerationHandoff where
  generation : ProviderGeneration

inductive ServiceGenerationDecodeError where
  | invalidLength | invalidMagic | unsupportedVersion | nonzeroReserved | zeroGeneration

namespace ServiceGenerationHandoff

/-- The magic number of a handoff, "NSGN". -/
def serviceGenerationMagic : List UInt8 := [0x4e, 0x53, 0x47, 0x4e]

def fields (h : ServiceGenerationHandoff) : List Field :=
  [(0, serviceGenerationMagic), u16Field 4 1, u64Field 8 h.generation.value]

def encode {ε : Type} (h : ServiceGenerationHandoff) : Outcome ε (List UInt8) :=
  .ok (render 16 h.fields).1

def decode : Outcome ServiceGenerationDecodeError ServiceGenerationHandoff := do
  rejectIf (input.length ≠ 16) .invalidLength
  rejectIf ((← subslice input 0 4) ≠ serviceGenerationMagic) .invalidMagic
  rejectIf ((← getU16 input 4) ≠ 1) .unsupportedVersion
  rejectIf (allZero (← subslice input 6 2) = false) .nonzeroReserved
  let generation ← okOr (ProviderGeneration.new (← getU64 input 8)) .zeroGeneration
  return ⟨generation⟩

theorem decode_eq_ok {input : List UInt8} {h : ServiceGenerationHandoff} :
    decode input = .ok h ↔ True ∧ input = (render 16 h.fields).1 := by
  have hfollows : Follows [.field 0 4, .field 4 2, .gap 6 2, .field 8 8] h.fields := rfl
  apply sized_eq_ok input (render 16 _).2
  intro b
  rw [true_and, ← Subtype.ext_iff, eq_render_iff (by decide) hfollows]
  simp (disch := decide) only [reads_buf, ok_bind, fields, holds_fields, zero_tiles, and_true]
  simp only [run_eq_ok, not_not, Bool.not_eq_false, ProviderGeneration.new_eq]
  constructor
  · rintro ⟨hmagic, hversion, hgap, _, hgeneration, rfl⟩
    exact ⟨⟨hmagic, hversion, hgeneration⟩, hgap⟩
  · rintro ⟨⟨hmagic, hversion, hgeneration⟩, hgap⟩
    exact ⟨hmagic, hversion, hgap, _, hgeneration, rfl⟩

theorem noTrap_decode : NoTrap (decode input) := by
  apply noTrap_sized input
  simp (disch := decide) only [reads_buf]
  simp [noTrap_bind]

end ServiceGenerationHandoff

end ServiceRoute

namespace ServiceControl

open Bytes Rust ServiceRoute

/-! ### Control messages -/

/-- Request ids, and the ids and sequence numbers of generations, are numbers other than zero. -/
structure NonZeroU64 where
  value : UInt64
  ne_zero : value ≠ 0

instance : DecidableEq NonZeroU64 := fun a b =>
  decidable_of_iff (a.value = b.value) (by cases a; cases b; simp)

def NonZeroU64.new (value : UInt64) : Option NonZeroU64 :=
  if h : value = 0 then none else some ⟨value, h⟩

theorem NonZeroU64.new_eq_some {value : UInt64} {n : NonZeroU64} :
    NonZeroU64.new value = some n ↔ value = n.value :=
  ServiceRoute.nonZero_eq_some NonZeroU64.value NonZeroU64.ne_zero (fun _ _ => rfl) fun _ => rfl

inductive Operation where
  | list | status | start | stop | restart
  deriving DecidableEq

def Operation.code : Operation → UInt8
  | .list => 1
  | .status => 2
  | .start => 3
  | .stop => 4
  | .restart => 5

def Operation.fromWire : UInt8 → Option Operation := ofCode code [.list, .status, .start, .stop, .restart]

variable {v : UInt8}

theorem Operation.fromWire_eq_some {x : Operation} : fromWire v = some x ↔ v = x.code := ofCode_eq_some

inductive ObservedState where
  | defined | activating | starting | ready | degraded | stopping | terminating | stopped | failed
  | quarantined
  deriving DecidableEq

def ObservedState.code : ObservedState → UInt8
  | .defined => 1
  | .activating => 2
  | .starting => 3
  | .ready => 4
  | .degraded => 5
  | .stopping => 6
  | .terminating => 7
  | .stopped => 8
  | .failed => 9
  | .quarantined => 10

def ObservedState.fromWire : UInt8 → Option ObservedState :=
  ofCode code [.defined, .activating, .starting, .ready, .degraded, .stopping, .terminating, .stopped,
    .failed, .quarantined]

theorem ObservedState.fromWire_eq_some {x : ObservedState} : fromWire v = some x ↔ v = x.code :=
  ofCode_eq_some

inductive DesiredState where
  | stopped | running
  deriving DecidableEq

def DesiredState.code : DesiredState → UInt8
  | .stopped => 1
  | .running => 2

def DesiredState.fromWire : UInt8 → Option DesiredState := ofCode code [.stopped, .running]

theorem DesiredState.fromWire_eq_some {x : DesiredState} : fromWire v = some x ↔ v = x.code := ofCode_eq_some

inductive ServiceControlFailure where
  | notFound | accessDenied | invalidState | busy | exhausted | unsupported
  deriving DecidableEq

def ServiceControlFailure.code : ServiceControlFailure → UInt8
  | .notFound => 1
  | .accessDenied => 2
  | .invalidState => 3
  | .busy => 4
  | .exhausted => 5
  | .unsupported => 6

def ServiceControlFailure.fromWire : UInt8 → Option ServiceControlFailure :=
  ofCode code [.notFound, .accessDenied, .invalidState, .busy, .exhausted, .unsupported]

theorem ServiceControlFailure.fromWire_eq_some {x : ServiceControlFailure} :
    fromWire v = some x ↔ v = x.code := ofCode_eq_some

inductive ServiceRecordError where
  | generationRequired (s : ObservedState)
  | generationNotAllowed (s : ObservedState)

/-- What `ServiceRecord::new` refuses. -/
def checkGeneration : ObservedState → Option ProviderGeneration → Except ServiceRecordError Unit
  | .defined, some _ => .error (.generationNotAllowed .defined)
  | .defined, none | .stopped, _ | .quarantined, _ | _, some _ => .ok ()
  | s, none => .error (.generationRequired s)

structure ServiceRecord where
  service : ServiceId
  generation : Option ProviderGeneration
  observedState : ObservedState
  desiredState : DesiredState
  valid : checkGeneration observedState generation = .ok ()

def ServiceRecord.new (service : ServiceId) (generation : Option ProviderGeneration)
    (observedState : ObservedState) (desiredState : DesiredState) : Except ServiceRecordError ServiceRecord :=
  checked (checkGeneration observedState generation)
    (⟨service, generation, observedState, desiredState, ·⟩)

variable (cursor : UInt32)

/-- The cursor behind a record is past it, or zero when there is no more. -/
abbrev Advancing (nextCursor : UInt32) : Prop := ¬ (nextCursor ≠ 0 ∧ nextCursor ≤ cursor)

inductive ListResponse where
  | done (cursor : UInt32)
  | record (cursor : UInt32) (record : ServiceRecord) (nextCursor : UInt32)
      (valid : Advancing cursor nextCursor)
  | failure (cursor : UInt32) (failure : ServiceControlFailure)

inductive TargetResponse where
  | success (record : ServiceRecord)
  | failure (service : ServiceId) (failure : ServiceControlFailure)

/-- A record in the response has the state that was asked for. -/
def TargetResponse.desires (expected : DesiredState) : TargetResponse → Prop
  | .success r => r.desiredState = expected
  | .failure _ _ => True

inductive ServiceControlRequest where
  | list (cursor : UInt32)
  | status (service : ServiceId)
  | start (service : ServiceId)
  | stop (service : ServiceId)
  | restart (service : ServiceId)

inductive ServiceControlResponse where
  | list (response : ListResponse)
  | status (response : TargetResponse)
  | start (response : TargetResponse) (valid : response.desires .running)
  | stop (response : TargetResponse) (valid : response.desires .stopped)
  | restart (response : TargetResponse) (valid : response.desires .running)

inductive ServiceControlMessage where
  | request (requestId : NonZeroU64) (request : ServiceControlRequest)
  | response (requestId : NonZeroU64) (response : ServiceControlResponse)

inductive DecodeError where
  | invalidLength | invalidMagic | unsupportedVersion
  | unknownKind (kind : UInt8)
  | unknownOperation (operation : UInt8)
  | zeroRequestId
  | invalidServiceId (e : ServiceIdError)
  | unknownObservedState (state : UInt8)
  | unknownDesiredState (state : UInt8)
  | unknownStatus (status : UInt8)
  | nonzeroFlags | nonzeroReserved | serviceNotAllowed | serviceRequired | statusNotAllowed
  | generationNotAllowed | observedStateNotAllowed | observedStateRequired | desiredStateNotAllowed
  | desiredStateRequired | cursorNotAllowed | nextCursorNotAllowed | nextCursorNotAdvancing
  | invalidServiceRecord (e : ServiceRecordError)
  | mutationDesiredStateMismatch (operation : Operation) (expected actual : DesiredState)

structure DecodedFields where
  requestId : NonZeroU64
  operation : Operation
  service : Option ServiceId := none
  generation : Option ProviderGeneration := none
  cursor : UInt32 := 0
  nextCursor : UInt32 := 0
  observedState : Option ObservedState := none
  desiredState : Option DesiredState := none
  failure : Option ServiceControlFailure := none

/-! ### The fields of a message -/

variable (record : ServiceRecord)

section

variable (id : NonZeroU64)

def DecodedFields.writeRecord (f : DecodedFields) : DecodedFields :=
  { f with
    service := some record.service, generation := record.generation
    observedState := some record.observedState, desiredState := some record.desiredState }

def ServiceControlRequest.view : ServiceControlRequest → DecodedFields
  | .list cursor => { requestId := id, operation := .list, cursor }
  | .status service => { requestId := id, operation := .status, service }
  | .start service => { requestId := id, operation := .start, service }
  | .stop service => { requestId := id, operation := .stop, service }
  | .restart service => { requestId := id, operation := .restart, service }

def ListResponse.view : ListResponse → DecodedFields
  | .done cursor => { requestId := id, operation := .list, cursor }
  | .record cursor r nextCursor _ =>
    { requestId := id, operation := .list, cursor, nextCursor : DecodedFields }.writeRecord r
  | .failure cursor e => { requestId := id, operation := .list, cursor, failure := some e }

def TargetResponse.view (operation : Operation) : TargetResponse → DecodedFields
  | .success r => { requestId := id, operation : DecodedFields }.writeRecord r
  | .failure service e => { requestId := id, operation, service, failure := some e }

def ServiceControlResponse.view : ServiceControlResponse → DecodedFields
  | .list response => response.view id
  | .status response => response.view id .status
  | .start response _ => response.view id .start
  | .stop response _ => response.view id .stop
  | .restart response _ => response.view id .restart

end

namespace ServiceControlMessage

def kind : ServiceControlMessage → UInt8
  | request _ _ => 1
  | response _ _ => 2

/-- The fields of a message; those that it has no use for are missing. -/
def view : ServiceControlMessage → DecodedFields
  | request id r => r.view id
  | response id r => r.view id

end ServiceControlMessage

/-! ### From fields to a message -/

variable (f : DecodedFields)

def rejectRecordPayload : Outcome DecodeError Unit := do
  rejectIf (f.generation ≠ none) .generationNotAllowed
  rejectIf (f.observedState ≠ none) .observedStateNotAllowed
  rejectIf (f.desiredState ≠ none) .desiredStateNotAllowed

def decodeRecord (service : ServiceId) : Outcome DecodeError ServiceRecord := do
  let observedState ← okOr f.observedState .observedStateRequired
  let desiredState ← okOr f.desiredState .desiredStateRequired
  ofExcept .invalidServiceRecord (ServiceRecord.new service f.generation observedState desiredState)

/-- `ListResponse::record`. -/
def ListResponse.new (nextCursor : UInt32) : Outcome DecodeError ListResponse :=
  if h : Advancing cursor nextCursor then .ok (.record cursor record nextCursor h)
  else fail .nextCursorNotAdvancing

def decodeListResponse : Outcome DecodeError ListResponse :=
  match f.failure, f.service with
  | some failure, service => do
    rejectIf (service ≠ none) .serviceNotAllowed
    rejectRecordPayload f
    rejectIf (f.nextCursor ≠ 0) .nextCursorNotAllowed
    return .failure f.cursor failure
  | none, none => do
    rejectRecordPayload f
    rejectIf (f.nextCursor ≠ 0) .nextCursorNotAllowed
    return .done f.cursor
  | none, some service => do
    let record ← decodeRecord f service
    rejectIf (f.nextCursor ≠ 0 ∧ f.nextCursor ≤ f.cursor) .nextCursorNotAdvancing
    ListResponse.new f.cursor record f.nextCursor

def decodeTargetResponse : Outcome DecodeError TargetResponse := do
  rejectIf (f.cursor ≠ 0) .cursorNotAllowed
  rejectIf (f.nextCursor ≠ 0) .nextCursorNotAllowed
  let service ← okOr f.service .serviceRequired
  match f.failure with
  | some failure => do
    rejectRecordPayload f
    return .failure service failure
  | none => return .success (← decodeRecord f service)

/-- `ServiceControlResponse::mutation`, for an operation that makes a response of the target's. -/
def mutation (operation : Operation) (expected : DesiredState)
    (make : ∀ t : TargetResponse, t.desires expected → ServiceControlResponse) :
    TargetResponse → Outcome DecodeError ServiceControlResponse
  | .success record =>
    if h : record.desiredState = expected then .ok (make (.success record) h)
    else fail (.mutationDesiredStateMismatch operation expected record.desiredState)
  | .failure service failure => .ok (make (.failure service failure) trivial)

def decodeTarget : Outcome DecodeError ServiceId := do
  rejectIf (f.cursor ≠ 0) .cursorNotAllowed
  okOr f.service .serviceRequired

def decodeRequest : Outcome DecodeError ServiceControlRequest := do
  rejectIf (f.failure ≠ none) .statusNotAllowed
  rejectRecordPayload f
  rejectIf (f.nextCursor ≠ 0) .nextCursorNotAllowed
  match f.operation with
  | .list => do
    rejectIf (f.service ≠ none) .serviceNotAllowed
    return .list f.cursor
  | .status => return .status (← decodeTarget f)
  | .start => return .start (← decodeTarget f)
  | .stop => return .stop (← decodeTarget f)
  | .restart => return .restart (← decodeTarget f)

def decodeResponse : Outcome DecodeError ServiceControlResponse :=
  match f.operation with
  | .list => do return .list (← decodeListResponse f)
  | .status => do return .status (← decodeTargetResponse f)
  | .start => do mutation .start .running .start (← decodeTargetResponse f)
  | .stop => do mutation .stop .stopped .stop (← decodeTargetResponse f)
  | .restart => do mutation .restart .running .restart (← decodeTargetResponse f)

def decodeFields (kind : UInt8) (f : DecodedFields) : Outcome DecodeError ServiceControlMessage :=
  if kind = 1 then do return .request f.requestId (← decodeRequest f)
  else do return .response f.requestId (← decodeResponse f)

theorem ServiceRecord.new_eq_ok {service : ServiceId} {generation : Option ProviderGeneration}
    {observed : ObservedState} {desired : DesiredState} {r : ServiceRecord} :
    ServiceRecord.new service generation observed desired = .ok r ↔ service = r.service ∧
      generation = r.generation ∧ observed = r.observedState ∧ desired = r.desiredState := by
  rw [ServiceRecord.new, checked_eq_ok]
  constructor
  · rintro ⟨_, rfl⟩
    exact ⟨rfl, rfl, rfl, rfl⟩
  · rintro ⟨rfl, rfl, rfl, rfl⟩
    exact ⟨r.valid, rfl⟩

variable {f}

theorem decodeRecord_eq_ok {service : ServiceId} {r : ServiceRecord} :
    decodeRecord f service = .ok r ↔ service = r.service ∧ f.generation = r.generation ∧
      f.observedState = some r.observedState ∧ f.desiredState = some r.desiredState := by
  simp only [decodeRecord, run_eq_ok, ofExcept_eq_ok, ServiceRecord.new_eq_ok]
  constructor
  · rintro ⟨_, ho, _, hd, rfl, hg, rfl, rfl⟩
    exact ⟨rfl, hg, ho, hd⟩
  · rintro ⟨rfl, hg, ho, hd⟩
    exact ⟨_, ho, _, hd, rfl, hg, rfl, rfl⟩

theorem mutation_eq_ok {operation : Operation} {expected : DesiredState}
    {make : ∀ t : TargetResponse, t.desires expected → ServiceControlResponse} {t : TargetResponse}
    {r : ServiceControlResponse} : mutation operation expected make t = .ok r ↔ ∃ h, r = make t h := by
  cases t with
  | success => exact dite_eq_ok
  | failure => simp [mutation, TargetResponse.desires, eq_comm]

theorem decodeListResponse_eq_ok (hf : f.operation = .list) {r : ListResponse} :
    decodeListResponse f = .ok r ↔ f = r.view f.requestId := by
  obtain ⟨id, operation, service, generation, cursor, next, observed, desired, failure⟩ := f
  cases failure <;> cases service <;> cases r <;>
    simp [decodeListResponse, ListResponse.view, DecodedFields.writeRecord, bind_eq_ok,
      rejectRecordPayload, decodeRecord_eq_ok, ListResponse.new] <;> grind

theorem decodeTargetResponse_eq_ok {t : TargetResponse} :
    decodeTargetResponse f = .ok t ↔ f = t.view f.requestId f.operation := by
  obtain ⟨id, operation, service, generation, cursor, next, observed, desired, failure⟩ := f
  cases failure <;> cases service <;> cases t <;>
    simp [decodeTargetResponse, TargetResponse.view, DecodedFields.writeRecord, bind_eq_ok,
      rejectRecordPayload, decodeRecord_eq_ok] <;> grind

theorem decodeRequest_eq_ok {r : ServiceControlRequest} :
    decodeRequest f = .ok r ↔ f = r.view f.requestId := by
  obtain ⟨id, operation, service, generation, cursor, next, observed, desired, failure⟩ := f
  cases operation <;> cases r <;>
    simp [decodeRequest, decodeTarget, ServiceControlRequest.view, bind_eq_ok, rejectRecordPayload] <;>
    grind

/-- A response names the operation it answers. -/
theorem ServiceControlResponse.view_operation (id : NonZeroU64) (r : ServiceControlResponse) :
    (r.view id).operation = match r with
      | .list _ => .list
      | .status _ => .status
      | .start _ _ => .start
      | .stop _ _ => .stop
      | .restart _ _ => .restart := by
  rcases r with ⟨⟨⟩⟩ | ⟨⟨⟩⟩ | ⟨⟨⟩, _⟩ | ⟨⟨⟩, _⟩ | ⟨⟨⟩, _⟩ <;> rfl

theorem decodeResponse_eq_ok {r : ServiceControlResponse} :
    decodeResponse f = .ok r ↔ f = r.view f.requestId := by
  have hview : f = r.view f.requestId → _ := fun h =>
    (congrArg DecodedFields.operation h).trans (r.view_operation _)
  rcases hop : f.operation with _ | _ | _ | _ | _
  case list =>
    cases r <;> simp [decodeResponse, hop, bind_eq_ok, decodeListResponse_eq_ok hop,
      ServiceControlResponse.view] at hview ⊢ <;> exact hview
  all_goals
    cases r <;> simp [decodeResponse, hop, bind_eq_ok, decodeTargetResponse_eq_ok, mutation_eq_ok,
      ServiceControlResponse.view] at hview ⊢ <;> first | exact hview | grind

variable (m : ServiceControlMessage)

theorem ServiceControlMessage.view_requestId : m.view.requestId = match m with
      | .request id _ => id
      | .response id _ => id := by
  rcases m with ⟨id, ⟨⟩⟩ | ⟨id, ⟨⟨⟩⟩ | ⟨⟨⟩⟩ | ⟨⟨⟩, _⟩ | ⟨⟨⟩, _⟩ | ⟨⟨⟩, _⟩⟩ <;> rfl

/-- **Fields make up a message exactly when they are its fields.** -/
theorem decodeFields_eq_ok {kind : UInt8} {m : ServiceControlMessage} :
    (kind = 1 ∨ kind = 2) ∧ decodeFields kind f = .ok m ↔ kind = m.kind ∧ f = m.view := by
  constructor
  · rintro ⟨rfl | rfl, h⟩
    · obtain ⟨r, hr, rfl⟩ : ∃ r, decodeRequest f = .ok r ∧ .request f.requestId r = m := by
        simpa [decodeFields, bind_eq_ok] using h
      exact ⟨rfl, decodeRequest_eq_ok.1 hr⟩
    · obtain ⟨r, hr, rfl⟩ : ∃ r, decodeResponse f = .ok r ∧ .response f.requestId r = m := by
        simpa [decodeFields, bind_eq_ok] using h
      exact ⟨rfl, decodeResponse_eq_ok.1 hr⟩
  · rintro ⟨rfl, rfl⟩
    have hid := m.view_requestId
    cases m with
    | request id r =>
      have hr : decodeRequest (r.view id) = .ok r := decodeRequest_eq_ok.2 (congrArg r.view hid.symm)
      have hm : decodeFields 1 (r.view id) = .ok (.request (r.view id).requestId r) := by
        rw [decodeFields, hr]
        rfl
      rw [show (r.view id).requestId = id from hid] at hm
      exact ⟨.inl rfl, hm⟩
    | response id r =>
      have hr : decodeResponse (r.view id) = .ok r := decodeResponse_eq_ok.2 (congrArg r.view hid.symm)
      have hm : decodeFields 2 (r.view id) = .ok (.response (r.view id).requestId r) := by
        rw [decodeFields, hr]
        rfl
      rw [show (r.view id).requestId = id from hid] at hm
      exact ⟨.inr rfl, hm⟩

/-! ### The bytes of a message -/

/-- The bytes of a service that can be missing. -/
def serviceRaw : Option ServiceId → Buf 16
  | none => .zero 16
  | some s => s.bytes

def decodeService (bytes : Buf 16) : Outcome DecodeError (Option ServiceId) :=
  if allZero bytes.1 then .ok none
  else do return some (← ofExcept .invalidServiceId (ServiceId.fromBytes bytes))

theorem decodeService_eq_ok {bytes : Buf 16} {o : Option ServiceId} :
    decodeService bytes = .ok o ↔ bytes = serviceRaw o := by
  have hzero : allZero bytes.1 = true ↔ bytes = .zero 16 := by
    rw [allZero_iff_replicate, bytes.2, Subtype.ext_iff]
    rfl
  have hne (s : ServiceId) : s.bytes ≠ .zero 16 := by
    intro h
    have hvalid := s.valid
    rw [checkServiceId, if_pos h] at hvalid
    cases hvalid
  rw [decodeService]
  split_ifs with h
  · rw [hzero.1 h]
    cases o with
    | none => exact ⟨fun _ => rfl, fun _ => rfl⟩
    | some s => exact ⟨by rintro ⟨⟩, fun hs => absurd hs.symm (hne s)⟩
  · rw [hzero] at h
    cases o with
    | none => simp [bind_eq_ok, serviceRaw, h]
    | some => simp [bind_eq_ok, ofExcept_eq_ok, ServiceId.fromBytes_eq_ok, serviceRaw]

/-! None of the checks traps. -/

@[simp] theorem noTrap_decodeService (bytes : Buf 16) : NoTrap (decodeService bytes) := by
  unfold decodeService
  split_ifs <;> simp [noTrap_bind, noTrap_ofExcept]

@[simp] theorem noTrap_decodeRecord (f : DecodedFields) (s : ServiceId) : NoTrap (decodeRecord f s) := by
  simp [decodeRecord, noTrap_bind, noTrap_ofExcept]

@[simp] theorem noTrap_mutation {operation : Operation} {expected : DesiredState}
    {make : ∀ t : TargetResponse, t.desires expected → ServiceControlResponse} (t : TargetResponse) :
    NoTrap (mutation operation expected make t) := by
  unfold mutation
  split
  · split_ifs <;> simp
  · simp

@[simp] theorem noTrap_new (nextCursor : UInt32) : NoTrap (ListResponse.new cursor record nextCursor) := by
  unfold ListResponse.new
  split <;> simp

theorem noTrap_decodeFields (kind : UInt8) (f : DecodedFields) : NoTrap (decodeFields kind f) := by
  have hlist : NoTrap (decodeListResponse f) := by
    unfold decodeListResponse
    split <;> simp [rejectRecordPayload, noTrap_bind]
  have htarget : NoTrap (decodeTargetResponse f) := by
    unfold decodeTargetResponse
    cases f.failure <;> simp [rejectRecordPayload, noTrap_bind]
  unfold decodeFields decodeRequest decodeResponse
  cases f.operation <;> split_ifs <;>
    simp [rejectRecordPayload, decodeTarget, noTrap_bind, hlist, htarget]

namespace ServiceControlMessage

/-- The magic number of a control message, "NSVC". -/
def serviceControlMagic : List UInt8 := [0x4e, 0x53, 0x56, 0x43]

def fields : List Field :=
  [(0, serviceControlMagic), u16Field 4 1, (6, [m.kind]), (7, [m.view.operation.code]),
    u64Field 8 m.view.requestId.value, (16, (serviceRaw m.view.service).1),
    u64Field 32 (generationRaw m.view.generation), u32Field 40 m.view.cursor,
    u32Field 44 m.view.nextCursor, (48, [optionalRaw ObservedState.code m.view.observedState]),
    (49, [optionalRaw DesiredState.code m.view.desiredState]),
    (50, [optionalRaw ServiceControlFailure.code m.view.failure]), (51, [0])]

def tiles : List Tile :=
  [.field 0 4, .field 4 2, .field 6 1, .field 7 1, .field 8 8, .field 16 16, .field 32 8, .field 40 4,
    .field 44 4, .field 48 1, .field 49 1, .field 50 1, .field 51 1, .gap 52 12]

def encode {ε : Type} (m : ServiceControlMessage) : Outcome ε (List UInt8) := .ok (render 64 m.fields).1

def decode (input : List UInt8) : Outcome DecodeError ServiceControlMessage := do
  rejectIf (input.length ≠ 64) .invalidLength
  rejectIf ((← subslice input 0 4) ≠ serviceControlMagic) .invalidMagic
  rejectIf ((← getU16 input 4) ≠ 1) .unsupportedVersion
  let kind ← index input 6
  rejectIf (¬ (kind = 1 ∨ kind = 2)) (.unknownKind kind)
  let code ← index input 7
  let operation ← okOr (Operation.fromWire code) (.unknownOperation code)
  let requestId ← okOr (NonZeroU64.new (← getU64 input 8)) .zeroRequestId
  rejectIf ((← index input 51) ≠ 0) .nonzeroFlags
  rejectIf (allZero (← subslice input 52 12) = false) .nonzeroReserved
  let service ← decodeService (← subarray input 16 16)
  let generation ← getU64 input 32
  let cursor ← getU32 input 40
  let nextCursor ← getU32 input 44
  let observed ← index input 48
  let observedState ← okOr (optionalFromRaw ObservedState.fromWire observed)
    (.unknownObservedState observed)
  let desired ← index input 49
  let desiredState ← okOr (optionalFromRaw DesiredState.fromWire desired) (.unknownDesiredState desired)
  let status ← index input 50
  let failure ← okOr (optionalFromRaw ServiceControlFailure.fromWire status) (.unknownStatus status)
  decodeFields kind
    { requestId, operation, service, generation := ProviderGeneration.new generation, cursor, nextCursor
      observedState, desiredState, failure }

theorem decode_eq_ok {input : List UInt8} {m : ServiceControlMessage} :
    decode input = .ok m ↔ True ∧ input = (render 64 m.fields).1 := by
  have hfollows : Follows tiles m.fields := by
    simp [Follows, tiles, fields, u16Field, u32Field, u64Field, serviceControlMagic, Tile.field,
      Tile.gap, (serviceRaw _).2]
  apply sized_eq_ok input (render 64 _).2
  intro b
  rw [true_and, ← Subtype.ext_iff, eq_render_iff (by decide) hfollows]
  simp (disch := decide) only [reads_buf, ok_bind, fields, tiles, holds_fields, zero_tiles, and_true,
    holds_bytes (serviceRaw m.view.service).2]
  simp only [run_eq_ok, not_not, Bool.not_eq_false, decodeService_eq_ok, NonZeroU64.new_eq_some,
    Operation.fromWire_eq_some, optionalFromRaw_eq_some ObservedState.fromWire_eq_some,
    optionalFromRaw_eq_some DesiredState.fromWire_eq_some,
    optionalFromRaw_eq_some ServiceControlFailure.fromWire_eq_some]
  constructor
  · rintro ⟨hmagic, hversion, hkind, _, hoperation, _, hid, hflags, hgap, _, hservice, _, hobs, _, hdes, _,
      hfail, hm⟩
    obtain ⟨hk, hview⟩ := decodeFields_eq_ok.1 ⟨hkind, hm⟩
    rw [← hview]
    exact ⟨⟨hmagic, hversion, hk, hoperation, hid, congrArg Subtype.val hservice,
      ProviderGeneration.new_eq.1 rfl, rfl, rfl, hobs, hdes, hfail, hflags⟩, hgap⟩
  · rintro ⟨⟨hmagic, hversion, hkind, hoperation, hid, hservice, hgeneration, hcursor, hnext, hobs, hdes,
      hfail, hflags⟩, hgap⟩
    have hm := decodeFields_eq_ok.2 ⟨hkind, rfl⟩
    refine ⟨hmagic, hversion, hm.1, _, hoperation, _, hid, hflags, hgap, _, Subtype.ext hservice, _, hobs,
      _, hdes, _, hfail, ?_⟩
    rw [hcursor, hnext, ProviderGeneration.new_eq.2 hgeneration]
    exact hm.2

theorem noTrap_decode (input : List UInt8) : NoTrap (decode input) := by
  apply noTrap_sized input
  simp (disch := decide) only [reads_buf]
  simp [noTrap_bind, noTrap_decodeFields]

end ServiceControlMessage

end ServiceControl

namespace BootGeneration

open Bytes Rust NullFS ServiceControl

/-! ### The selected generation -/

inductive Slot where
  | zero | one
  deriving DecidableEq

def Slot.code : Slot → UInt8
  | .zero => 0
  | .one => 1

def Slot.fromWire : UInt8 → Option Slot := ofCode code [.zero, .one]

inductive Health where
  | pending | healthy | failed
  deriving DecidableEq

def Health.code : Health → UInt8
  | .pending => 1
  | .healthy => 2
  | .failed => 3

def Health.fromWire : UInt8 → Option Health := ofCode code [.pending, .healthy, .failed]

structure RetainedGeneration where
  id : NonZeroU64
  slot : Slot
  health : Health
  artifactCrc32c : UInt32

inductive SelectionError where
  | duplicateGeneration | duplicateSlot

/-- What `Selection::new` refuses. -/
def checkSelection (selected : RetainedGeneration) : Option RetainedGeneration → Except SelectionError Unit
  | none => .ok ()
  | some previous =>
    if selected.id = previous.id then .error .duplicateGeneration
    else if selected.slot = previous.slot then .error .duplicateSlot
    else .ok ()

structure Selection where
  sequence : NonZeroU64
  selected : RetainedGeneration
  previous : Option RetainedGeneration
  valid : checkSelection selected previous = .ok ()

def Selection.new (sequence : NonZeroU64) (selected : RetainedGeneration)
    (previous : Option RetainedGeneration) : Except SelectionError Selection :=
  checked (checkSelection selected previous) (⟨sequence, selected, previous, ·⟩)

inductive DecodeError where
  | invalidLength | invalidMagic
  | unsupportedMajorVersion (version : UInt16)
  | unsupportedMinorVersion (version : UInt16)
  | invalidHeaderSize (size : UInt16)
  | nonzeroFlags
  | checksumMismatch (stored calculated : UInt32)
  | zeroSequence | zeroSelectedGeneration
  | unknownSelectedSlot (slot : UInt8)
  | unknownSelectedHealth (health : UInt8)
  | previousGenerationRequired | unexpectedPreviousGenerationData
  | unknownPreviousSlot (slot : UInt8)
  | unknownPreviousHealth (health : UInt8)
  | nonzeroReserved
  | invalidSelection (e : SelectionError)

/-- What is stored of a predecessor that can be missing: its number, checksum, slot and health. -/
def previousRaw : Option RetainedGeneration → UInt64 × UInt32 × UInt8 × UInt8
  | none => (0, 0, 0, 0)
  | some p => (p.id.value, p.artifactCrc32c, p.slot.code, p.health.code)

def decodePrevious (id : UInt64) (crc : UInt32) (slot health : UInt8) :
    Outcome DecodeError (Option RetainedGeneration) :=
  if id = 0 then do
    rejectIf (crc ≠ 0 ∨ slot ≠ 0 ∨ health ≠ 0) .unexpectedPreviousGenerationData
    return none
  else do
    rejectIf (health = 0) .previousGenerationRequired
    let id ← okOr (NonZeroU64.new id) .previousGenerationRequired
    let slot ← okOr (Slot.fromWire slot) (.unknownPreviousSlot slot)
    let health ← okOr (Health.fromWire health) (.unknownPreviousHealth health)
    return some ⟨id, slot, health, crc⟩

namespace Selection

/-- The magic number of a selection, "NSBSEL" and two zeros. -/
def selectionMagic : List UInt8 := [0x4e, 0x53, 0x42, 0x53, 0x45, 0x4c, 0, 0]

def fields (s : Selection) : List Field :=
  [(0, selectionMagic), u16Field 8 1, u16Field 10 0, u16Field 12 64, u16Field 14 0,
    u64Field 16 s.sequence.value, u64Field 24 s.selected.id.value, u64Field 32 (previousRaw s.previous).1,
    u32Field 40 s.selected.artifactCrc32c, u32Field 44 (previousRaw s.previous).2.1,
    (48, [s.selected.slot.code]), (49, [(previousRaw s.previous).2.2.1]),
    (50, [s.selected.health.code]), (51, [(previousRaw s.previous).2.2.2])]

def layout : StampedLayout 64 60 where
  tiles :=
    [.field 0 8, .field 8 2, .field 10 2, .field 12 2, .field 14 2, .field 16 8, .field 24 8,
      .field 32 8, .field 40 4, .field 44 4, .field 48 1, .field 49 1, .field 50 1, .field 51 1,
      .gap 52 8, .gap 60 4]
  tiled := by decide
  stamp_mem := by decide

def encode {ε : Type} (s : Selection) : Outcome ε (List UInt8) :=
  .ok ((render 64 s.fields).stamp crc32c 60).1

def decode (input : List UInt8) : Outcome DecodeError Selection := do
  rejectIf (input.length ≠ 64) .invalidLength
  rejectIf ((← subslice input 0 8) ≠ selectionMagic) .invalidMagic
  let major ← getU16 input 8
  rejectIf (major ≠ 1) (.unsupportedMajorVersion major)
  let minor ← getU16 input 10
  rejectIf (minor ≠ 0) (.unsupportedMinorVersion minor)
  let headerSize ← getU16 input 12
  rejectIf (headerSize ≠ 64) (.invalidHeaderSize headerSize)
  rejectIf ((← getU16 input 14) ≠ 0) .nonzeroFlags
  let stored ← getU32 input 60
  let calculated := recordChecksum 60 (← subarray input 0 64)
  rejectIf (stored ≠ calculated) (.checksumMismatch stored calculated)
  let sequence ← okOr (NonZeroU64.new (← getU64 input 16)) .zeroSequence
  let id ← okOr (NonZeroU64.new (← getU64 input 24)) .zeroSelectedGeneration
  let slotByte ← index input 48
  let slot ← okOr (Slot.fromWire slotByte) (.unknownSelectedSlot slotByte)
  let healthByte ← index input 50
  let health ← okOr (Health.fromWire healthByte) (.unknownSelectedHealth healthByte)
  let crc ← getU32 input 40
  let previous ← decodePrevious (← getU64 input 32) (← getU32 input 44) (← index input 49)
    (← index input 51)
  rejectIf (allZero (← subslice input 52 8) = false) .nonzeroReserved
  ofExcept .invalidSelection (Selection.new sequence ⟨id, slot, health, crc⟩ previous)

end Selection

theorem Slot.fromWire_eq_some {v : UInt8} {s : Slot} : fromWire v = some s ↔ v = s.code := ofCode_eq_some

theorem Health.fromWire_eq_some {v : UInt8} {h : Health} : fromWire v = some h ↔ v = h.code := ofCode_eq_some

theorem decodePrevious_eq_ok {id : UInt64} {crc : UInt32} {slot health : UInt8}
    {o : Option RetainedGeneration} :
    decodePrevious id crc slot health = .ok o ↔ (id, crc, slot, health) = previousRaw o := by
  have hhealth (h : Health) : h.code ≠ 0 := by cases h <;> decide
  unfold decodePrevious
  cases o with
  | none => split_ifs with h <;> simp [bind_eq_ok, previousRaw, h]
  | some p =>
    split_ifs with h
    · simp [bind_eq_ok, previousRaw, h, p.id.ne_zero.symm]
    · simp only [run_eq_ok, NonZeroU64.new_eq_some, Slot.fromWire_eq_some, Health.fromWire_eq_some,
        previousRaw, Prod.mk.injEq, Option.some.injEq]
      constructor
      · rintro ⟨-, _, rfl, _, rfl, _, rfl, rfl⟩
        exact ⟨rfl, rfl, rfl, rfl⟩
      · rintro ⟨rfl, rfl, rfl, rfl⟩
        exact ⟨hhealth p.health, p.id, rfl, p.slot, rfl, p.health, rfl, rfl⟩

theorem noTrap_decodePrevious (id : UInt64) (crc : UInt32) (slot health : UInt8) :
    NoTrap (decodePrevious id crc slot health) := by
  unfold decodePrevious
  split_ifs <;> simp [noTrap_bind]

namespace Selection

theorem decode_eq_ok {input : List UInt8} {s : Selection} :
    decode input = .ok s ↔ True ∧ input = ((render 64 s.fields).stamp crc32c 60).1 := by
  have hfollows : Follows layout.tiles s.fields := rfl
  apply sized_eq_ok input ((render 64 _).stamp crc32c 60).2
  intro b
  rw [← Subtype.ext_iff, eq_stamp_iff layout hfollows]
  simp (disch := decide) only [reads_buf, arrayAt_all, ok_bind, fields, layout,
    List.forall_mem_cons, List.not_mem_nil, holds_fields, Tile.field, Tile.gap, IsEmpty.forall_iff,
    implies_true, and_true, Bool.false_eq_true, forall_const, true_and, ne_eq, Tile.mk.injEq,
    Nat.reduceEqDiff, false_and, not_false_eq_true, not_true_eq_false]
  simp only [run_eq_ok, ofExcept_eq_ok, not_not, Bool.not_eq_false, NonZeroU64.new_eq_some,
    Slot.fromWire_eq_some, Health.fromWire_eq_some, decodePrevious_eq_ok, Selection.new, checked_eq_ok]
  constructor
  · rintro ⟨hmagic, hmajor, hminor, hheader, hflags, hsum, _, hsequence, _, hid, _, hslot, _, hhealth, _,
      hprevious, hgap, _, rfl⟩
    rw [← hprevious]
    exact ⟨⟨hmagic, hmajor, hminor, hheader, hflags, hsequence, hid, rfl, rfl, rfl, hslot, rfl, hhealth,
      rfl⟩, hgap, hsum⟩
  · rintro ⟨⟨hmagic, hmajor, hminor, hheader, hflags, hsequence, hid, hpid, hcrc, hpcrc, hslot, hpslot,
      hhealth, hphealth⟩, hgap, hsum⟩
    refine ⟨hmagic, hmajor, hminor, hheader, hflags, hsum, _, hsequence, _, hid, _, hslot, _, hhealth,
      s.previous, ?_, hgap, ?_⟩
    · exact Prod.ext hpid (Prod.ext hpcrc (Prod.ext hpslot hphealth))
    · rw [hcrc]
      exact ⟨s.valid, rfl⟩

theorem noTrap_decode (input : List UInt8) : NoTrap (decode input) := by
  apply noTrap_sized input
  simp (disch := decide) only [reads_buf]
  simp [noTrap_bind, noTrap_ofExcept, noTrap_decodePrevious]

end Selection

end BootGeneration

namespace ServiceControl

open Rust ServiceRoute BootGeneration

/-- **Control messages are canonical.**  Each value that can be made is read back from its encoding,
nothing else is accepted in its place, and no string of bytes makes a decoder trap. -/
theorem messages_canonical : Canonical RouteMessage.encode RouteMessage.decode (fun _ => True) ∧
    Canonical ServiceGenerationHandoff.encode ServiceGenerationHandoff.decode (fun _ => True) ∧
    Canonical ServiceControlMessage.encode ServiceControlMessage.decode (fun _ => True) ∧
    Canonical Selection.encode Selection.decode (fun _ => True) :=
  ⟨.of_decode RouteMessage.decode_eq_ok RouteMessage.noTrap_decode,
    .of_decode ServiceGenerationHandoff.decode_eq_ok ServiceGenerationHandoff.noTrap_decode,
    .of_decode ServiceControlMessage.decode_eq_ok ServiceControlMessage.noTrap_decode,
    .of_decode Selection.decode_eq_ok Selection.noTrap_decode⟩

end ServiceControl
