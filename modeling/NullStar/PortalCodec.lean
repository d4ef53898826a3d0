/-
**The messages of the portal, and the canonical form of what is stored and sent.**

Requests, tickets and responses of the portal are records of a fixed size, with a magic number, a
version and reserved bytes that have to be zero.  Together with the grants and the checkpoints of the
permission store they are written in one way only: a decoder accepts exactly what the encoder writes.

* `ApplicationPortalRequest.decode`, `TrustedUserGestureTicket.decode`,
  `ApplicationPortalResponse.decode` — the decoders, with the encoders beside them;
* `ApplicationPortalResponse.selectedWithResourceEndpoint`,
  `ApplicationPortalResponse.terminal` — the two ways to make a response;
* the theorems `decode_eq_ok` — what each decoder accepts;
* `Answer.canonical` — no response that is made fails the assertion of its encoder;
* `records_canonical` — all five formats are canonical.
-/

import NullStar.PermissionRecovery
import NullStar.Portal

set_option autoImplicit false

namespace Portal

open Bytes Rust Machine Permission ApplicationPermissionStore ApplicationGrantScope ApplicationGrantRecord

def portalProtocolVersion : UInt16 := 1

/-! ### Requests -/

def ApplicationPortalOperation.raw : ApplicationPortalOperation → UInt8
  | .openFile => 1
  | .saveFile => 2
  | .selectDirectory => 3

def ApplicationPortalOperation.fromRaw (value : UInt8) : Option ApplicationPortalOperation :=
  if value = 1 then some .openFile
  else if value = 2 then some .saveFile
  else if value = 3 then some .selectDirectory
  else none

theorem ApplicationPortalOperation.fromRaw_eq_some {value : UInt8} {o : ApplicationPortalOperation} :
    fromRaw value = some o ↔ value = o.raw := by
  constructor
  · unfold fromRaw
    split_ifs <;> rintro ⟨⟩ <;> assumption
  · rintro rfl
    cases o <;> rfl

inductive PortalRequestDecodeError where
  | length | magic | version | operation | scope | rights | reserved | canonical
  deriving DecidableEq

variable (bytes : List UInt8)

namespace ApplicationPortalRequest

def new (requestId ticketId parentSurface : UInt64) (operation : ApplicationPortalOperation)
    (rights : ApplicationGrantRights) (scope : ApplicationGrantScope) : Option ApplicationPortalRequest :=
  if h : requestId = 0 ∨ ticketId = 0 ∨ parentSurface = 0 ∨ operation.acceptsRights rights = false then none
  else some ⟨requestId, ticketId, parentSurface, operation, rights, scope, h⟩

theorem new_eq_some {requestId ticketId parentSurface : UInt64}
    {operation : ApplicationPortalOperation} {rights : ApplicationGrantRights}
    {scope : ApplicationGrantScope} {r : ApplicationPortalRequest} :
    new requestId ticketId parentSurface operation rights scope = some r ↔
      requestId = r.requestId ∧ ticketId = r.ticketId ∧ parentSurface = r.parentSurface ∧
        operation = r.operation ∧ rights = r.rights ∧ scope = r.scope := by
  constructor
  · unfold new
    split_ifs
    · rintro ⟨⟩
    · rintro ⟨⟩
      exact ⟨rfl, rfl, rfl, rfl, rfl, rfl⟩
  · rintro ⟨rfl, rfl, rfl, rfl, rfl, rfl⟩
    exact dif_neg r.valid

/-- The magic number of a request, "NSPR". -/
def requestMagic : List UInt8 := [0x4e, 0x53, 0x50, 0x52]

def fields (r : ApplicationPortalRequest) : List Field :=
  [(0, requestMagic), u16Field 4 portalProtocolVersion, (6, [r.operation.raw]), (7, [r.scope.raw]),
    u64Field 8 r.requestId, u64Field 16 r.ticketId, u64Field 24 r.parentSurface, u16Field 32 r.rights.bits]

def tiles : List Tile :=
  [.field 0 4, .field 4 2, .field 6 1, .field 7 1, .field 8 8, .field 16 8, .field 24 8, .field 32 2,
    .gap 34 30]

def encode {ε : Type} (r : ApplicationPortalRequest) : Outcome ε (List UInt8) :=
  .ok (render 64 r.fields).1

def decode : Outcome PortalRequestDecodeError ApplicationPortalRequest := do
  rejectIf (bytes.length ≠ 64) .length
  rejectIf ((← subslice bytes 0 4) ≠ requestMagic) .magic
  rejectIf ((← getU16 bytes 4) ≠ portalProtocolVersion) .version
  rejectIf (allZero (← subslice bytes 34 30) = false) .reserved
  let operation ← okOr (ApplicationPortalOperation.fromRaw (← index bytes 6)) .operation
  let scope ← okOr (ApplicationGrantScope.fromRaw (← index bytes 7)) .scope
  let rights ← okOr (ApplicationGrantRights.fromBits (← getU16 bytes 32)) .rights
  okOr (new (← getU64 bytes 8) (← getU64 bytes 16) (← getU64 bytes 24) operation rights scope)
    .canonical

theorem decode_eq_ok {bytes : List UInt8} {r : ApplicationPortalRequest} :
    decode bytes = .ok r ↔ True ∧ bytes = (render 64 r.fields).1 := by
  have hfollows : Follows tiles r.fields := rfl
  apply sized_eq_ok bytes (render 64 _).2
  intro b
  rw [true_and, ← Subtype.ext_iff, eq_render_iff (by decide) hfollows]
  simp (disch := decide) only [reads_buf, ok_bind, fields, tiles, holds_fields, zero_tiles, and_true]
  simp only [run_eq_ok, not_not, Bool.not_eq_false, ApplicationPortalOperation.fromRaw_eq_some,
    fromRaw_eq_some, ApplicationGrantRights.fromBits_eq_some, new_eq_some]
  constructor
  · rintro ⟨hmagic, hversion, hgap, _, hoperation, _, hscope, _, hrights, hid, hticket, hsurface, rfl,
      rfl, rfl⟩
    exact ⟨⟨hmagic, hversion, hoperation, hscope, hid, hticket, hsurface, hrights⟩, hgap⟩
  · rintro ⟨⟨hmagic, hversion, hoperation, hscope, hid, hticket, hsurface, hrights⟩, hgap⟩
    exact ⟨hmagic, hversion, hgap, _, hoperation, _, hscope, _, hrights, hid, hticket, hsurface, rfl,
      rfl, rfl⟩

theorem noTrap_decode : NoTrap (decode bytes) := by
  apply noTrap_sized bytes
  simp (disch := decide) only [reads_buf]
  simp [noTrap_bind]

theorem canonical : Canonical encode decode fun _ => True := .of_decode decode_eq_ok noTrap_decode

end ApplicationPortalRequest

/-! ### Tickets -/

inductive PortalGestureDecodeError where
  | length | magic | version | reserved | canonical
  deriving DecidableEq

namespace TrustedUserGestureTicket

def new (id targetProcessId user session application installation surface seat eventSequence
    issuedAtNs expiresAtNs : UInt64) : Option TrustedUserGestureTicket :=
  if h : ticketRefused id targetProcessId user session application installation surface seat
      eventSequence issuedAtNs expiresAtNs = false then
    some ⟨id, targetProcessId, user, session, application, installation, surface, seat, eventSequence,
      issuedAtNs, expiresAtNs, h⟩
  else none

/-- The magic number of a ticket, "NSGT". -/
def gestureMagic : List UInt8 := [0x4e, 0x53, 0x47, 0x54]

def fields (t : TrustedUserGestureTicket) : List Field :=
  [(0, gestureMagic), u16Field 4 portalProtocolVersion, u64Field 8 t.id,
    u64Field 16 t.targetProcessId, u64Field 24 t.user, u64Field 32 t.session,
    u64Field 40 t.application, u64Field 48 t.installation, u64Field 56 t.surface, u64Field 64 t.seat,
    u64Field 72 t.eventSequence, u64Field 80 t.issuedAtNs, u64Field 88 t.expiresAtNs]

def tiles : List Tile :=
  [.field 0 4, .field 4 2, .gap 6 2, .field 8 8, .field 16 8, .field 24 8, .field 32 8, .field 40 8,
    .field 48 8, .field 56 8, .field 64 8, .field 72 8, .field 80 8, .field 88 8]

def encode {ε : Type} (t : TrustedUserGestureTicket) : Outcome ε (List UInt8) :=
  .ok (render 96 t.fields).1

def decode : Outcome PortalGestureDecodeError TrustedUserGestureTicket := do
  rejectIf (bytes.length ≠ 96) .length
  rejectIf ((← subslice bytes 0 4) ≠ gestureMagic) .magic
  rejectIf ((← getU16 bytes 4) ≠ portalProtocolVersion) .version
  rejectIf (allZero (← subslice bytes 6 2) = false) .reserved
  okOr (new (← getU64 bytes 8) (← getU64 bytes 16) (← getU64 bytes 24) (← getU64 bytes 32)
    (← getU64 bytes 40) (← getU64 bytes 48) (← getU64 bytes 56) (← getU64 bytes 64)
    (← getU64 bytes 72) (← getU64 bytes 80) (← getU64 bytes 88)) .canonical

theorem decode_eq_ok {bytes : List UInt8} {t : TrustedUserGestureTicket} :
    decode bytes = .ok t ↔ True ∧ bytes = (render 96 t.fields).1 := by
  have hfollows : Follows tiles t.fields := rfl
  apply sized_eq_ok bytes (render 96 _).2
  intro b
  rw [true_and, ← Subtype.ext_iff, eq_render_iff (by decide) hfollows]
  simp (disch := decide) only [reads_buf, ok_bind, fields, tiles, holds_fields, zero_tiles, and_true]
  simp only [run_eq_ok, not_not, Bool.not_eq_false]
  constructor
  · rintro ⟨hmagic, hversion, hgap, hnew⟩
    unfold new at hnew
    split_ifs at hnew
    cases hnew
    exact ⟨⟨hmagic, hversion, rfl, rfl, rfl, rfl, rfl, rfl, rfl, rfl, rfl, rfl, rfl⟩, hgap⟩
  · rintro ⟨⟨hmagic, hversion, hid, htarget, huser, hsession, happlication, hinstallation, hsurface,
      hseat, hsequence, hissued, hexpires⟩, hgap⟩
    refine ⟨hmagic, hversion, hgap, ?_⟩
    rw [hid, htarget, huser, hsession, happlication, hinstallation, hsurface, hseat, hsequence,
      hissued, hexpires]
    exact dif_pos t.valid

theorem noTrap_decode : NoTrap (decode bytes) := by
  apply noTrap_sized bytes
  simp (disch := decide) only [reads_buf]
  simp [noTrap_bind]

theorem canonical : Canonical encode decode fun _ => True := .of_decode decode_eq_ok noTrap_decode

end TrustedUserGestureTicket

/-! ### Responses -/

inductive ApplicationPortalStatus where
  | selected | cancelled | denied | invalidRequest | unavailable
  deriving DecidableEq

def ApplicationPortalStatus.raw : ApplicationPortalStatus → UInt8
  | .selected => 1
  | .cancelled => 2
  | .denied => 3
  | .invalidRequest => 4
  | .unavailable => 5

def ApplicationPortalStatus.fromRaw (value : UInt8) : Option ApplicationPortalStatus :=
  if value = 1 then some .selected
  else if value = 2 then some .cancelled
  else if value = 3 then some .denied
  else if value = 4 then some .invalidRequest
  else if value = 5 then some .unavailable
  else none

theorem ApplicationPortalStatus.fromRaw_eq_some {value : UInt8} {s : ApplicationPortalStatus} :
    fromRaw value = some s ↔ value = s.raw := by
  constructor
  · unfold fromRaw
    split_ifs <;> rintro ⟨⟩ <;> assumption
  · rintro rfl
    cases s <;> rfl

inductive PortalSelectionError where
  | subjectMismatch | resourceKindMismatch | rightsMismatch | scopeMismatch
  | resourceEndpointMismatch
  deriving DecidableEq

inductive PortalResponseDecodeError where
  | length | magic | version | status | resourceKind | rights | scope | reserved | canonical
  deriving DecidableEq

structure ApplicationPortalResponse where
  status : ApplicationPortalStatus
  (requestId transactionId grantId grantRevision : UInt64)
  resourceKind : Option ApplicationResourceKind
  rights : ApplicationGrantRights
  scope : Option ApplicationGrantScope

variable (r : ApplicationPortalResponse) (admission : AdmittedPortalRequest)

namespace ApplicationPortalResponse

def selected (grant : ApplicationGrantAuthorization) :
    Outcome PortalSelectionError ApplicationPortalResponse := do
  let request := admission.request
  rejectIf (grant.subject ≠ admission.subject) .subjectMismatch
  rejectIf (grant.resource.kind ≠ request.operation.resourceKind) .resourceKindMismatch
  rejectIf (grant.rights ≠ request.rights) .rightsMismatch
  rejectIf (grant.scope ≠ request.scope) .scopeMismatch
  return ⟨.selected, request.requestId, admission.transactionId, grant.grantId, grant.grantRevision,
    some grant.resource.kind, grant.rights, some grant.scope⟩

/-- The endpoint counts by the grant that it was minted for. -/
def selectedWithResourceEndpoint (grant minted : ApplicationGrantAuthorization) :
    Outcome PortalSelectionError ApplicationPortalResponse := do
  rejectIf (¬ (minted.grantId = grant.grantId ∧ minted.grantRevision = grant.grantRevision ∧
    minted.subject = grant.subject ∧ minted.resource = grant.resource ∧
    minted.rights = grant.rights ∧ minted.scope = grant.scope)) .resourceEndpointMismatch
  selected admission grant

def terminal (requestId : UInt64) (status : ApplicationPortalStatus) : Option ApplicationPortalResponse :=
  if requestId = 0 ∨ status = .selected then none
  else some ⟨status, requestId, 0, 0, 0, none, ⟨0, by decide⟩, none⟩

def canonical : Bool :=
  if r.requestId = 0 then false
  else if r.status = .selected then
    match r.resourceKind with
    | none => false
    | some kind => r.transactionId ≠ 0 && r.grantId ≠ 0 && r.grantRevision ≠ 0 &&
        r.rights.validFor kind && r.scope.isSome
  else r.transactionId = 0 && r.grantId = 0 && r.grantRevision = 0 && r.resourceKind.isNone &&
    r.rights.bits = 0 && r.scope.isNone

/-- The magic number of a response, "NSPS". -/
def responseMagic : List UInt8 := [0x4e, 0x53, 0x50, 0x53]

def fields : List Field :=
  [(0, responseMagic), u16Field 4 portalProtocolVersion, (6, [r.status.raw]),
    (7, [optionalRaw ApplicationResourceKind.raw r.resourceKind]), u64Field 8 r.requestId,
    u64Field 16 r.transactionId, u64Field 24 r.grantId, u64Field 32 r.grantRevision,
    u16Field 40 r.rights.bits, (42, [optionalRaw ApplicationGrantScope.raw r.scope]),
    (43, [boolRaw (r.status = .selected)])]

def tiles : List Tile :=
  [.field 0 4, .field 4 2, .field 6 1, .field 7 1, .field 8 8, .field 16 8, .field 24 8, .field 32 8,
    .field 40 2, .field 42 1, .field 43 1, .gap 44 20]

/-- The assertion that the response is canonical traps. -/
def encode {ε : Type} (r : ApplicationPortalResponse) : Outcome ε (List UInt8) :=
  if r.canonical then .ok (render 64 r.fields).1 else trapped

def decode : Outcome PortalResponseDecodeError ApplicationPortalResponse := do
  rejectIf (bytes.length ≠ 64) .length
  rejectIf ((← subslice bytes 0 4) ≠ responseMagic) .magic
  rejectIf ((← getU16 bytes 4) ≠ portalProtocolVersion) .version
  rejectIf (allZero (← subslice bytes 44 20) = false) .reserved
  let status ← okOr (ApplicationPortalStatus.fromRaw (← index bytes 6)) .status
  let resourceKind ← okOr (optionalFromRaw ApplicationResourceKind.fromRaw (← index bytes 7))
    .resourceKind
  let rights ← okOr (ApplicationGrantRights.fromBits (← getU16 bytes 40)) .rights
  let scope ← okOr (optionalFromRaw ApplicationGrantScope.fromRaw (← index bytes 42)) .scope
  let response : ApplicationPortalResponse :=
    ⟨status, ← getU64 bytes 8, ← getU64 bytes 16, ← getU64 bytes 24, ← getU64 bytes 32, resourceKind,
      rights, scope⟩
  rejectIf ((← index bytes 43) ≠ boolRaw (status = .selected) ∨ response.canonical = false) .canonical
  return response

theorem decode_eq_ok {bytes : List UInt8} {r : ApplicationPortalResponse} :
    decode bytes = .ok r ↔ r.canonical = true ∧ bytes = (render 64 r.fields).1 := by
  have hfollows : Follows tiles r.fields := rfl
  apply sized_eq_ok bytes (render 64 _).2
  intro b
  rw [← Subtype.ext_iff, eq_render_iff (by decide) hfollows]
  simp (disch := decide) only [reads_buf, ok_bind, fields, tiles, holds_fields, zero_tiles, and_true]
  simp only [run_eq_ok, not_or, not_not, Bool.not_eq_false, ApplicationPortalStatus.fromRaw_eq_some,
    optionalFromRaw_eq_some ApplicationResourceKind.fromRaw_eq_some,
    optionalFromRaw_eq_some fromRaw_eq_some, ApplicationGrantRights.fromBits_eq_some]
  constructor
  · rintro ⟨hmagic, hversion, hgap, status, hstatus, kind, hkind, rights, hrights, scope, hscope,
      ⟨hcount, hcanonical⟩, rfl⟩
    exact ⟨hcanonical, ⟨hmagic, hversion, hstatus, hkind, rfl, rfl, rfl, rfl, hrights, hscope, hcount⟩, hgap⟩
  · rintro ⟨hcanonical, ⟨hmagic, hversion, hstatus, hkind, hrequest, htransaction, hgrant, hrevision,
      hrights, hscope, hcount⟩, hgap⟩
    rw [hrequest, htransaction, hgrant, hrevision]
    exact ⟨hmagic, hversion, hgap, _, hstatus, _, hkind, _, hrights, _, hscope, ⟨hcount, hcanonical⟩, rfl⟩

theorem noTrap_decode : NoTrap (decode bytes) := by
  apply noTrap_sized bytes
  simp (disch := decide) only [reads_buf]
  simp [noTrap_bind]

end ApplicationPortalResponse

/-! ### What is stored and sent -/

variable (s : ApplicationPermissionStore)

/-- The stores of all runs, from the empty store or from one that was read from a checkpoint. -/
def Stored : Prop :=
  ∃ start, (start = ApplicationPermissionStore.new ∨
    ∃ bytes generation, decodeApplicationPermissionCheckpoint bytes = .ok (generation, start)) ∧
    RunsTo start s

theorem Stored.kept {s : ApplicationPermissionStore} (h : Stored s) : Sound s ∧ Packed s.grants := by
  obtain ⟨start, hstart, hrun⟩ := h
  obtain ⟨hsound, hpacked⟩ : Sound start ∧ Packed start.grants := by
    rcases hstart with rfl | ⟨bytes, generation, hdecode⟩
    · exact ⟨sound_new, packed_slots (Nat.zero_le _)⟩
    · obtain ⟨-, hsound, hpacked, -⟩ := decodeCheckpoint_ok hdecode
      exact ⟨hsound, hpacked⟩
  exact ⟨(RunsTo.kept hsound hrun).sound, (RunsTo.kept hsound hrun).packed hpacked⟩

/-- The authorizations that the store prepares. -/
def Granted (grant : ApplicationGrantAuthorization) : Prop :=
  ∃ prepared : PreparedApplicationGrant, prepared.authorization = grant ∧ ((∃ authorization resource rights,
      s.prepareAuthorization authorization resource rights = .ok prepared) ∨
    ∃ authorization resource rights scope,
      s.prepareIssueAuthorization authorization resource rights scope = .ok prepared)

/-- The responses of a portal: a request that was admitted is answered with a grant of the store, or
a request is answered without one. -/
def Answer : Prop :=
  (∃ issuer w client now authorization request admission a s grant minted,
    World.Leads (World.Fresh issuer) w ∧
    admitRequest client now authorization request w.admission = .ok admission a ∧ Stored s ∧ Granted s grant ∧
    ApplicationPortalResponse.selectedWithResourceEndpoint admission grant minted = .ok r) ∨
  ∃ requestId status, ApplicationPortalResponse.terminal requestId status = some r

theorem Granted.nonzero {s : ApplicationPermissionStore} {grant : ApplicationGrantAuthorization}
    (hs : Sound s) (h : Granted s grant) : grant.grantId ≠ 0 ∧ grant.grantRevision ≠ 0 := by
  obtain ⟨prepared, rfl, ⟨_, _, _, hok⟩ | ⟨_, _, _, _, hok⟩⟩ := h
  · obtain ⟨_, r, hprepared⟩ := prepareAuthorization_ok hok
    have hcanonical := canonical_eq_true.1
      (hs.canonical r (mem_records_of_getD hprepared.slot))
    rw [hprepared.allows.grantId, hprepared.revision]
    exact ⟨hcanonical.1, hcanonical.2.1⟩
  · obtain ⟨_, r, _, _, hpreflight, hauthorization, -⟩ := prepareIssueAuthorization_ok hok
    have hcanonical := canonical_eq_true.1
      (hpreflight.canonical hs le_rfl r.state)
    have hrevision : r.revision = s.nextRevision := by rw [hpreflight.record]
    rw [hauthorization, hrevision]
    exact ⟨hcanonical.1, hcanonical.2.1⟩

/-- Transactions are counted from one. -/
theorem World.Leads.nextTransactionId_pos {issuer : UInt64} {w : World}
    (h : World.Leads (World.Fresh issuer) w) : 0 < w.admission.nextTransactionId.toNat := by
  refine Reachable.keeps (I := fun w : World => 0 < w.admission.nextTransactionId.toNat) ?_ ?_ h
  · rintro w ⟨hnew, -⟩
    rw [ApplicationPortalAdmission.new] at hnew
    split at hnew
    · simp at hnew
    · rw [← Option.some.inj hnew]
      exact Nat.one_pos
  · intro w event hw _
    cases event with
    | register sender now ticket =>
      rcases registerTicket_commits w.admission sender now ticket with
        ⟨_, _, hrun, -, -, rfl⟩ | ⟨e, hrun⟩
      · simpa only [World.step, hrun, ApplicationPortalAdmission.insert_nextTransactionId] using hw
      · simpa only [World.step, hrun] using hw
    | submit call =>
      rcases admitRequest_cases call.client call.now call.authorization call.request w.admission with
        ⟨e, hrun⟩ | ⟨r, -, -, -, hrun⟩ | ⟨r, p, next, -, -, -, -, -, hnext, hrun⟩
      · simpa only [World.step, hrun] using hw
      · simpa only [World.step, hrun, ApplicationPortalAdmission.mark] using hw
      · simp only [World.step, hrun]
        omega

/-- **No response that is made fails the assertion of its encoder.** -/
theorem Answer.canonical {r : ApplicationPortalResponse} (h : Answer r) : r.canonical = true := by
  rcases h with ⟨issuer, w, client, now, authorization, request, admission, a, s, grant, minted, hw,
    hadmit, hs, hgrant, hselected⟩ | ⟨requestId, status, hterminal⟩
  · have hpos := hw.nextTransactionId_pos
    have htransaction : admission.transactionId ≠ 0 := by
      rcases admitRequest_cases client now authorization request w.admission with
        ⟨e, hrun⟩ | ⟨r, -, -, -, hrun⟩ | ⟨r, p, next, -, -, -, -, htransaction, -, hrun⟩
      · rw [hrun] at hadmit
        cases hadmit
      · rw [hrun] at hadmit
        cases hadmit
      · rw [hrun] at hadmit
        cases hadmit
        rw [htransaction]
        intro h0
        rw [h0] at hpos
        simp at hpos
    obtain ⟨hid, hrevision⟩ := hgrant.nonzero hs.kept.1
    simp only [ApplicationPortalResponse.selectedWithResourceEndpoint,
      ApplicationPortalResponse.selected, run_eq_ok, not_not] at hselected
    obtain ⟨-, -, hkind, hrights, -, rfl⟩ := hselected
    have hvalid := admission.request.valid
    rw [not_or, not_or, not_or] at hvalid
    obtain ⟨hrequest, -, -, haccepts⟩ := hvalid
    have hvalidFor : grant.rights.validFor grant.resource.kind = true := by
      rw [hkind, hrights]
      by_contra hinvalid
      simp [ApplicationPortalOperation.acceptsRights, hinvalid] at haccepts
    simp [ApplicationPortalResponse.canonical, hrequest, htransaction, hid, hrevision, hvalidFor]
  · rw [ApplicationPortalResponse.terminal] at hterminal
    split_ifs at hterminal with hrefused
    rw [not_or] at hrefused
    cases hterminal
    simp [ApplicationPortalResponse.canonical, hrefused.1, hrefused.2]

/-- The checkpoint of a generation, with its arguments in the order of the decoder's result. -/
def encodeCheckpoint (x : UInt64 × ApplicationPermissionStore) :
    Outcome ApplicationPermissionCheckpointError (List UInt8) :=
  encodeApplicationPermissionCheckpoint x.2 x.1

/-- **What is stored and sent is canonical.**  The grants of every store, every store with a generation,
every request, every ticket and every response is encoded without failing an assertion and decoded to
itself; every string of bytes that a decoder accepts is the encoding of what it is decoded to; and no
decoder traps, whatever it is given.  The stores are those of all runs, from the empty store or from one
read from a checkpoint. -/
theorem records_canonical : Canonical ApplicationGrantRecord.encode ApplicationGrantRecord.decode
      (fun r => ∃ s, Stored s ∧ r ∈ s.records) ∧
    Canonical encodeCheckpoint decodeApplicationPermissionCheckpoint (fun x => x.1 ≠ 0 ∧ Stored x.2) ∧
    Canonical ApplicationPortalRequest.encode ApplicationPortalRequest.decode (fun _ => True) ∧
    Canonical TrustedUserGestureTicket.encode TrustedUserGestureTicket.decode (fun _ => True) ∧
    Canonical ApplicationPortalResponse.encode ApplicationPortalResponse.decode Answer := by
  refine ⟨⟨?_, ?_, noTrap_decode⟩, ⟨?_, ?_, noTrap_decodeCheckpoint⟩,
    ApplicationPortalRequest.canonical, TrustedUserGestureTicket.canonical,
    ⟨?_, ?_, ApplicationPortalResponse.noTrap_decode⟩⟩
  · rintro r ⟨s, hs, hr⟩
    have hcanonical := hs.kept.1.canonical r hr
    exact ⟨r.image, if_pos hcanonical, decode_eq_ok.2 ⟨hcanonical, rfl⟩⟩
  · intro bytes r h
    obtain ⟨hcanonical, hbytes⟩ := decode_eq_ok.1 h
    rw [hbytes]
    exact if_pos hcanonical
  · rintro ⟨generation, s⟩ ⟨hgeneration, hs⟩
    obtain ⟨hsound, hpacked⟩ := hs.kept
    have hdecode := hsound.decode hgeneration
    rw [compact_of_packed hpacked] at hdecode
    exact ⟨_, hsound.encode hgeneration, hdecode⟩
  · rintro bytes ⟨generation, s⟩ h
    obtain ⟨hgeneration, hsound, -, rfl⟩ := decodeCheckpoint_ok h
    exact hsound.encode hgeneration
  · intro r hr
    exact ⟨_, if_pos hr.canonical, ApplicationPortalResponse.decode_eq_ok.2 ⟨hr.canonical, rfl⟩⟩
  · intro bytes r h
    obtain ⟨hcanonical, hbytes⟩ := ApplicationPortalResponse.decode_eq_ok.1 h
    rw [hbytes]
    exact if_pos hcanonical

end Portal
