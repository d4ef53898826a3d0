/-
**The calls of a client.**

A client of a connection has a table of outstanding transactions and a table of transactions it has
canceled and whose response may still come.  A `Cancel` packet that the transport did not take is
retained, and every call first offers the retained packets again.

A call that fails leaves the connection as it was, up to the retained packets that were sent on the
way, the closing of the connection that its error reports excepted.  There is one way to fail
otherwise: `try_cancel` looks for a free slot among the canceled transactions before it looks for the
transaction, and closes the connection when there is none, whatever it was asked to cancel.

* `Client` — a client with its transport;
* `failed_call_undisturbed_iff` — when a failed call disturbs nothing;
* `cancel_unknown_closes` — canceling a transaction that does not exist closes the connection.
-/

import NullStar.Machine
import NullStar.Negotiation
import NullStar.Schema

set_option autoImplicit false

namespace NSWP

open Bytes Rust Machine Hoare Triple List Option

/-! ### The transport -/

inductive TrySendError where
  | full | peerClosed
  deriving DecidableEq

/-- A transport.  What it answers to a packet may depend in any way on the packets it was offered. -/
structure Transport where
  answer : List (List UInt8) → Option TrySendError
  (offered sent : List (List UInt8))
  closed : Bool

/-- `try_send`: no error when the packet was taken. -/
def Transport.trySend (t : Transport) (packet : List UInt8) : Option TrySendError × Transport :=
  let offered := t.offered ++ [packet]
  match t.answer offered with
  | none => (none, { t with offered, sent := t.sent ++ [packet] })
  | some e => (some e, { t with offered })

theorem Transport.trySend_sent (t : Transport) (packet : List UInt8) :
    (t.trySend packet).2.sent = if (t.trySend packet).1 = none then t.sent ++ [packet] else t.sent := by
  unfold trySend
  cases ht : t.answer (t.offered ++ [packet]) with
  | none => simp [ht]
  | some => simp [ht]

/-! ### The state of a client -/

inductive ConnectionPhase where
  | new | negotiating | bound | closed
  deriving DecidableEq

inductive CloseReason where
  | localClosed | peerClosed | protocolError
  | negotiationRejected (status : NegotiationStatus)
  | serviceGenerationReplaced | transactionIdExhausted | recentlyCanceledExhausted
  deriving DecidableEq

inductive RuntimeError where
  | wouldBlock | peerClosed
  | closed (reason : CloseReason)
  | invalidState | outstandingLimit | recentlyCanceledExhausted | unknownMethod | wrongMethodKind
  | invalidDeadline | unknownTransaction
  | encode (e : EncodeError)
  | decode (e : DecodeError)
  | body (e : BodyError)
  deriving DecidableEq

inductive DeadlinePolicy where
  | required (maxDurationNs : Option UInt64)
  | optional (maxDurationNs : Option UInt64)
  | forbidden

inductive MethodKind where
  | requestResponse | oneWay
  deriving DecidableEq

structure BoundState where
  protocolId : ProtocolId
  (major minor : UInt16)
  limits : ConnectionLimits
  serviceGeneration : UInt64
  features : List UInt32

/-- `view`: the checks of `BoundProtocol::new`. -/
def BoundState.view (b : BoundState) : Outcome DecodeError BoundState := do
  rejectIf (b.limits.maxBodyBytes = 0 ∨ b.limits.maxOutstanding = 0) .invalidPacketRelationship
  rejectIf (b.major = 0 ∨ b.serviceGeneration = 0 ∨ ¬ (0 :: b.features).Pairwise (· < ·))
    .invalidPacketRelationship
  return b

structure MethodDescriptor where
  ordinal : UInt32
  kind : MethodKind
  deadline : DeadlinePolicy
  validateRequest : List UInt8 → BoundState → Outcome BodyError Unit

structure OutstandingTransaction where
  transactionId : UInt64
  ordinal : UInt32
  deadlineNs : UInt64
  traceId : Buf 16

structure RecentCanceled where
  transaction : OutstandingTransaction
  pendingCancel : Option (List UInt8)

structure Client where
  transport : Transport
  methods : List MethodDescriptor
  phase : ConnectionPhase
  bound : Option BoundState
  closeReason : Option CloseReason
  outstanding : List (Option OutstandingTransaction)
  recent : List (Option RecentCanceled)
  nextTransactionId : UInt64

/-- A new client whose negotiation has succeeded. -/
def Client.negotiated (transport : Transport) (methods : List MethodDescriptor) (bound : BoundState) :
    Client where
  transport
  methods
  phase := .bound
  bound := some bound
  closeReason := none
  outstanding := .replicate 8 none
  recent := .replicate 8 none
  nextTransactionId := 1

abbrev ClientOp (α : Type) := Op RuntimeError Client α

/-! ### Packets and deadlines -/

/-- `encode_packet`: the body is copied to an array of 192 bytes. -/
def encodePacket (header : Header) (body : List UInt8) : Outcome RuntimeError (List UInt8) := do
  rejectIf (body.length ≠ header.bodyBytes.toNat) .invalidState
  let encoded ← mapErr .encode header.encode
  if body.length ≤ 192 then return encoded.1 ++ body else trapped

/-- The header of the packets a client sends when it is bound. -/
def BoundState.header (bound : BoundState) (kind : PacketKind) (bodyBytes : UInt32)
    (transaction : OutstandingTransaction) : Header where
  kind
  flags := if transaction.traceId = Buf.zero 16 then .none else .traceSampled
  protocolMajor := bound.major
  protocolMinor := bound.minor
  ordinal := transaction.ordinal
  bodyBytes
  handleCount := 0
  transportStatus := .ok
  transactionId := transaction.transactionId
  deadlineNs := transaction.deadlineNs
  traceId := transaction.traceId

def validateDeadline (policy : DeadlinePolicy) (nowNs deadlineNs : UInt64) : Outcome RuntimeError Unit :=
  let tooLate (maximum : Option UInt64) :=
    maximum.any fun m => min (nowNs.toNat + m.toNat) (2 ^ 64 - 1) < deadlineNs.toNat
  match policy with
  | .forbidden => rejectIf (deadlineNs ≠ Header.infinite) .invalidDeadline
  | .required maximum =>
    rejectIf (deadlineNs = Header.infinite ∨ tooLate maximum = true) .invalidDeadline
  | .optional maximum =>
    rejectIf (deadlineNs ≠ Header.infinite ∧ tooLate maximum = true) .invalidDeadline

/-! ### The calls -/

def requirePhase (expected : ConnectionPhase) : ClientOp Unit := read fun c =>
  if c.phase = expected then .ok ()
  else if c.phase = .closed then fail (.closed (c.closeReason.getD .localClosed))
  else fail .invalidState

def close (reason : CloseReason) : ClientOp Unit := modify fun c =>
  if c.phase = .closed then c
  else { c with
    phase := .closed
    closeReason := some reason
    transport := { c.transport with closed := true } }

def trySend (packet : List UInt8) : ClientOp (Option TrySendError) := do
  let c ← get
  let (answer, transport) := c.transport.trySend packet
  set { c with transport }
  return answer

/-- The loop of `flush_pending_cancel` over the canceled transactions. -/
def flushSlots : List (Option RecentCanceled) → Transport →
    List (Option RecentCanceled) × Option TrySendError × Transport
  | [], t => ([], none, t)
  | slot :: rest, t =>
    match slot.bind (·.pendingCancel) with
    | none => (flushSlots rest t).map (slot :: ·) id
    | some packet =>
      match t.trySend packet with
      | (none, t) =>
        (flushSlots rest t).map (slot.map ({ · with pendingCancel := none }) :: ·) id
      | (some e, t) => (slot :: rest, some e, t)

/-- `flush_pending_cancel`: whether no packet is retained any more. -/
def flushPendingCancel : ClientOp Bool := do
  let c ← get
  let (recent, answer, transport) := flushSlots c.recent c.transport
  set { c with recent, transport }
  match answer with
  | none => return true
  | some .full => return false
  | some .peerClosed =>
    close .peerClosed
    check (fail .peerClosed)

section

variable (kind : MethodKind) (ordinal : UInt32) (body : List UInt8) (nowNs deadlineNs : UInt64)
  (traceId : Buf 16)

/-- What `try_call` and `try_send_one_way` check first. -/
def prepare : ClientOp BoundState := do
  requirePhase .bound
  let flushed ← flushPendingCancel
  check (rejectIf (flushed = false) .wouldBlock)
  read fun c => do
    let bound ← okOr c.bound .invalidState
    let method ← okOr (c.methods.find? (·.ordinal = ordinal)) .unknownMethod
    rejectIf (method.kind ≠ kind) .wrongMethodKind
    validateDeadline method.deadline nowNs deadlineNs
    let view ← mapErr .decode bound.view
    mapErr .body (method.validateRequest body view)
    return bound

/-- What is done with the answer to the packet of a call. -/
def settle (answer : Option TrySendError) (accepted : ClientOp Unit) : ClientOp Unit :=
  match answer with
  | none => accepted
  | some .full => check (fail .wouldBlock)
  | some .peerClosed => do
    close .peerClosed
    check (fail .peerClosed)

def tryCall : ClientOp UInt64 := do
  let bound ← prepare .requestResponse ordinal body nowNs deadlineNs
  let c ← get
  check (rejectIf (bound.limits.maxOutstanding.toNat ≤ c.outstanding.countP Option.isSome ∨
    c.outstanding.all Option.isSome = true) .outstandingLimit)
  if c.nextTransactionId = 0 then
    close .transactionIdExhausted
    check (fail (.closed .transactionIdExhausted))
  else
    let transaction : OutstandingTransaction :=
      { transactionId := c.nextTransactionId, ordinal, deadlineNs, traceId }
    let packet ← check
      (encodePacket (bound.header .request (.ofNat body.length) transaction) body)
    settle (← trySend packet) do
      let c ← get
      let slot ← check (okOr (c.outstanding.findIdx? Option.isNone) .outstandingLimit)
      set { c with
        outstanding := c.outstanding.set slot (some transaction)
        nextTransactionId := c.nextTransactionId + 1 }
    return transaction.transactionId

def trySendOneWay : ClientOp Unit := do
  let bound ← prepare .oneWay ordinal body nowNs deadlineNs
  let packet ← check (encodePacket
    (bound.header .oneWay (.ofNat body.length) { transactionId := 0, ordinal, deadlineNs, traceId }) body)
  settle (← trySend packet) (return ())

end

inductive CancelDisposition where
  | queued | pendingBackpressure

def tryCancel (transactionId : UInt64) : ClientOp CancelDisposition := do
  requirePhase .bound
  let canSend ← flushPendingCancel
  let c ← get
  match c.recent.findIdx? Option.isNone with
  | none =>
    close .recentlyCanceledExhausted
    check (fail .recentlyCanceledExhausted)
  | some recentSlot =>
    let outstandingSlot ← check (okOr
      (c.outstanding.findIdx? (·.any (·.transactionId = transactionId))) .unknownTransaction)
    let transaction ← check (okOr c.outstanding[outstandingSlot]?.join .invalidState)
    let bound ← check (okOr c.bound .invalidState)
    let packet ← check (encodePacket (bound.header .cancel 0 transaction) [])
    let answer ← (if canSend = true then trySend packet else pure (some .full))
    if answer = some .peerClosed then
      close .peerClosed
      check (fail .peerClosed)
    else
      modify fun c => { c with
        outstanding := c.outstanding.set outstandingSlot none
        recent := c.recent.set recentSlot (some
          { transaction, pendingCancel := if answer = none then none else some packet }) }
      return if answer = none then .queued else .pendingBackpressure

/-- A call of the client's interface. -/
inductive Call where
  | call (ordinal : UInt32) (body : List UInt8) (nowNs deadlineNs : UInt64) (traceId : Buf 16)
  | oneWay (ordinal : UInt32) (body : List UInt8) (nowNs deadlineNs : UInt64) (traceId : Buf 16)
  | cancel (transactionId : UInt64)

def Call.run : Call → ClientOp Unit
  | .call ordinal body nowNs deadlineNs traceId =>
    discard (tryCall ordinal body nowNs deadlineNs traceId)
  | .oneWay ordinal body nowNs deadlineNs traceId =>
    trySendOneWay ordinal body nowNs deadlineNs traceId
  | .cancel transactionId => discard (tryCancel transactionId)

/-! ### What a failure leaves -/

variable (c : Client)

def Client.retained : List (List UInt8) :=
  c.recent.filterMap fun slot => slot.bind (·.pendingCancel)

/-- The connection is as before, up to retained packets that were sent. -/
structure Undisturbed (c c' : Client) : Prop where
  phase : c'.phase = c.phase
  outstanding : c'.outstanding = c.outstanding
  recent : c'.recent.map (Option.map (·.transaction)) = c.recent.map (Option.map (·.transaction))
  nextTransactionId : c'.nextTransactionId = c.nextTransactionId
  sent : ∃ cancels ⊆ c.retained, c'.transport.sent = c.transport.sent ++ cancels

/-- The flush of the retained packets finds the peer closed. -/
def Client.FlushClosed : Prop := (flushSlots c.recent c.transport).2.1 = some .peerClosed

def Client.IsOutstanding (transactionId : UInt64) : Prop :=
  ∃ t, some t ∈ c.outstanding ∧ t.transactionId = transactionId

/-- The errors that report the closing of the connection. -/
def Call.Closes (call : Call) (e : RuntimeError) : Prop :=
  e = .peerClosed ∨ e = .closed .transactionIdExhausted ∨
    e = .recentlyCanceledExhausted ∧ ∃ id, call = .cancel id ∧ c.IsOutstanding id

/-- What holds after a failure. -/
def Kept (call : Call) : Fault RuntimeError → Client → Prop
  | .err e, s => call.Closes c e ∨ Undisturbed c s
  | .trap, _ => True

theorem Undisturbed.refl : Undisturbed c c := ⟨rfl, rfl, rfl, rfl, [], by simp⟩

section

variable {c} {call : Call} {α β : Type} {P : Client → Prop} {Q : α → Client → Prop}
  {R : β → Client → Prop} {f : α → ClientOp β} (kind : MethodKind) (ordinal : UInt32)
  (body : List UInt8) (nowNs deadlineNs : UInt64) (traceId : Buf 16)

/-- A check that fails in an undisturbed state. -/
theorem kept_check (hP : ∀ s, P s → Undisturbed c s) {x : Outcome RuntimeError α}
    (hx : ∀ a, x = .ok a → ∀ s, P s → Q a s) : Triple P (check x) Q (Kept c call) := by
  intro s hs
  cases x with
  | ok a => exact hx a rfl s hs
  | error e =>
    cases e with
    | err => exact .inr (hP s hs)
    | trap => trivial

theorem kept_check_bind (hP : ∀ s, P s → Undisturbed c s) {x : Outcome RuntimeError α}
    (hf : ∀ a, x = .ok a → Triple P (f a) R (Kept c call)) : Triple P (check x >>= f) R (Kept c call) := by
  intro s hs
  exact bind (kept_check (Q := fun a s => x = .ok a ∧ P s) hP fun a ha s hs => ⟨ha, hs⟩)
    (fun a s h => hf a h.1 s h.2) s hs

/-- The error of a connection that is closed. -/
theorem kept_close (reason : CloseReason) {e : RuntimeError} (he : call.Closes c e) :
    Triple P (close reason >>= fun _ => check (fail e)) Q (Kept c call) :=
  fun _ _ => .inl he

theorem kept_requirePhase : Triple (· = c) (requirePhase .bound) (fun _ => (· = c)) (Kept c call) := by
  rintro s rfl
  exact kept_check (fun t ht => ht ▸ .refl s) (fun _ _ _ ht => ht) s rfl

/-- The canceled transactions stay, and only retained packets are sent. -/
theorem flushSlots_spec (slots : List (Option RecentCanceled)) (t : Transport) :
    (flushSlots slots t).1.map (Option.map (·.transaction)) = slots.map (Option.map (·.transaction)) ∧
      ∃ cancels ⊆ slots.filterMap fun slot => slot.bind (·.pendingCancel),
        (flushSlots slots t).2.2.sent = t.sent ++ cancels := by
  fun_induction flushSlots slots t with
  | case1 => simp
  | case2 slot rest t hslot ih => simpa [hslot] using ih
  | case3 slot rest t packet hslot u hsend ih =>
    obtain ⟨hmap, cancels, hsub, hsent⟩ := ih
    have hu : u.sent = t.sent ++ [packet] := by simpa [hsend] using t.trySend_sent packet
    refine ⟨by simp [hmap, Function.comp_def], packet :: cancels, ?_, by simp [hsent, hu]⟩
    simpa [hslot] using subset_cons_of_subset _ hsub
  | case4 slot rest t packet hslot e u hsend =>
    have hu : u.sent = t.sent := by simpa [hsend] using t.trySend_sent packet
    exact ⟨rfl, [], by simp, by simp [hu]⟩

/-- The flush fails when the peer is found closed, and leaves everything but retained packets alone
otherwise. -/
theorem flushPendingCancel_cases (c : Client) :
    c.FlushClosed ∧ (∃ c', flushPendingCancel c = .error (.err .peerClosed) c') ∨
      ¬ c.FlushClosed ∧ ∃ flushed c', flushPendingCancel c = .ok flushed c' ∧ Undisturbed c c' := by
  obtain ⟨hrecent, hsent⟩ := flushSlots_spec c.recent c.transport
  have hkept : Undisturbed c { c with
      recent := (flushSlots c.recent c.transport).1
      transport := (flushSlots c.recent c.transport).2.2 } :=
    ⟨rfl, rfl, hrecent, rfl, hsent⟩
  unfold flushPendingCancel Client.FlushClosed
  cases hanswer : (flushSlots c.recent c.transport).2.1 with
  | none => exact .inr ⟨by simp, true, _, by simp [hanswer, bind_ok], hkept⟩
  | some e =>
    cases e with
    | full => exact .inr ⟨by simp, false, _, by simp [hanswer, bind_ok], hkept⟩
    | peerClosed => exact .inl ⟨rfl, _, by simp [hanswer, close, fail, bind_error]; rfl⟩

theorem kept_flushPendingCancel : Triple (· = c) flushPendingCancel
    (fun _ s => Undisturbed c s ∧ ¬ c.FlushClosed) (Kept c call) := by
  rintro s rfl
  rcases flushPendingCancel_cases s with ⟨-, c', hflush⟩ | ⟨hclosed, flushed, c', hflush, hkept⟩
  · rw [hflush]
    exact .inl (.inl rfl)
  · rw [hflush]
    exact ⟨hkept, hclosed⟩

theorem kept_prepare : Triple (· = c) (prepare kind ordinal body nowNs deadlineNs)
    (fun _ => Undisturbed c) (Kept c call) := by
  refine kept_requirePhase.bind fun _ => kept_flushPendingCancel.bind fun _ => ?_
  refine kept_check_bind (fun _ h => h.1) fun _ _ s hs => ?_
  exact kept_check (fun t ht => ht ▸ hs.1) (fun _ _ t ht => ht ▸ hs.1) s rfl

/-- The tables are as before, and so is the rest when the packet was not taken. -/
def Answered (c s : Client) (answer : Option TrySendError) (s' : Client) : Prop :=
  s'.outstanding = s.outstanding ∧ (answer = none ∨ Undisturbed c s')

theorem kept_trySend {s : Client} (hs : Undisturbed c s) (packet : List UInt8) :
    Triple (· = s) (trySend packet) (Answered c s) (Kept c call) := by
  refine get_bind ?_
  rintro s rfl
  refine bind (Q := fun _ => Answered c s (s.transport.trySend packet).1) (put ⟨rfl, ?_⟩)
    fun _ => .pure fun _ h => h
  rw [or_iff_not_imp_left]
  intro hanswer
  have hsent := s.transport.trySend_sent packet
  rw [if_neg hanswer] at hsent
  exact ⟨hs.phase, hs.outstanding, hs.recent, hs.nextTransactionId,
    hs.sent.imp fun _ h => ⟨h.1, hsent.trans h.2⟩⟩

theorem kept_settle {s : Client} {accepted : ClientOp Unit}
    (haccepted : Triple (·.outstanding = s.outstanding) accepted (fun _ _ => True) fun _ _ => False)
    (answer : Option TrySendError) :
    Triple (Answered c s answer) (settle answer accepted) (fun _ _ => True) (Kept c call) := by
  match answer with
  | none => exact haccepted.mono (fun _ h => h.1) (fun _ _ h => h) fun _ _ h => h.elim
  | some .full =>
    have hkept (s' : Client) (h : Answered c s (some .full) s') : Undisturbed c s' := h.2.resolve_left nofun
    exact kept_check (x := fail .wouldBlock) hkept nofun
  | some .peerClosed => exact kept_close _ (.inl rfl)

theorem kept_tryCall : Triple (· = c) (tryCall ordinal body nowNs deadlineNs traceId)
    (fun _ _ => True) (Kept c call) := by
  refine (kept_prepare _ _ _ _ _).bind fun bound => get_bind fun s hs => ?_
  have hP : ∀ t, t = s → Undisturbed c t := fun t ht => ht ▸ hs
  refine kept_check_bind hP fun _ hroom => ?_
  split
  · exact kept_close _ (.inr (.inl rfl))
  refine kept_check_bind hP fun packet _ => (kept_trySend hs packet).bind fun answer => ?_
  refine (kept_settle ?_ answer).bind fun _ => .pure fun _ _ => trivial
  -- a slot is free, as was checked before
  obtain ⟨slot, hslot⟩ : ∃ slot, s.outstanding.findIdx? Option.isNone = some slot := by
    have hall : ∃ entry ∈ s.outstanding, entry.isNone = true := by
      simp at hroom
      grind
    simpa [← isSome_iff_exists] using hall
  refine get_bind fun t ht => ?_
  rw [ht, hslot]
  exact put trivial

theorem kept_trySendOneWay : Triple (· = c) (trySendOneWay ordinal body nowNs deadlineNs traceId)
    (fun _ _ => True) (Kept c call) := by
  refine (kept_prepare _ _ _ _ _).bind fun bound => kept_check_bind (fun _ h => h) fun packet _ => ?_
  intro s hs
  exact (kept_trySend hs packet).bind (kept_settle (.pure fun _ _ => trivial)) s rfl

/-- The call does not cancel, or it cancels what is outstanding, or there is room among the canceled, or the
call comes to its end before that matters, since the flush finds the peer closed. -/
def Call.Suits (c : Client) (call : Call) : Prop :=
  ∀ id, call = .cancel id → c.IsOutstanding id ∨ none ∈ c.recent ∨ c.FlushClosed

theorem Undisturbed.none_mem_recent {c' : Client} (h : Undisturbed c c') : none ∈ c'.recent ↔ none ∈ c.recent := by
  have hmem (slots : List (Option RecentCanceled)) :
      none ∈ slots ↔ none ∈ slots.map (.map (·.transaction)) := by simp
  rw [hmem, h.recent, ← hmem]

theorem kept_tryCancel {id : UInt64} (hcall : (Call.cancel id).Suits c) : Triple (· = c) (tryCancel id)
    (fun _ _ => True) (Kept c (.cancel id)) := by
  refine kept_requirePhase.bind fun _ => kept_flushPendingCancel.bind fun canSend => ?_
  refine get_bind fun s ⟨hs, hclosed⟩ => ?_
  have hP : ∀ t, t = s → Undisturbed c t := fun t ht => ht ▸ hs
  split
  case h_1 hfull =>
    have hnone : none ∉ c.recent := fun h => by
      simpa using findIdx?_eq_none_iff.1 hfull none (hs.none_mem_recent.2 h)
    refine kept_close _ (.inr (.inr ⟨rfl, id, rfl, ?_⟩))
    exact (hcall id rfl).resolve_right fun h => h.elim hnone hclosed
  refine kept_check_bind hP fun _ _ => kept_check_bind hP fun transaction _ => ?_
  refine kept_check_bind hP fun bound _ => kept_check_bind hP fun packet _ => ?_
  refine bind (Q := fun _ _ => True) ?_ fun answer => ?_
  · split
    · exact (kept_trySend hs packet).imp_ok fun _ _ _ => trivial
    · exact .pure fun _ _ => trivial
  · split
    · exact kept_close _ (.inl rfl)
    · exact bind (Q := fun _ _ => True) (update fun _ _ => trivial)
        fun _ => .pure fun _ _ => trivial

/-- A cancellation that finds no room among the canceled closes the connection. -/
theorem tryCancel_full (hbound : c.phase = .bound) (hfull : none ∉ c.recent) (hclosed : ¬ c.FlushClosed)
    (id : UInt64) :
    ∃ c', tryCancel id c = .error (.err .recentlyCanceledExhausted) c' ∧ c'.phase = .closed := by
  rcases flushPendingCancel_cases c with ⟨h, -⟩ | ⟨-, flushed, s, hflush, hs⟩
  · exact absurd h hclosed
  have hphase : requirePhase .bound c = .ok () c := by simp [requirePhase, hbound]
  have hnone : s.recent.findIdx? Option.isNone = none :=
    findIdx?_eq_none_iff.2 fun slot hslot => by
      cases slot with
      | none => exact absurd (hs.none_mem_recent.1 hslot) hfull
      | some => rfl
  refine ⟨endState (close .recentlyCanceledExhausted) s, ?_, ?_⟩
  · refine bind_error.2 (.inr ⟨(), c, hphase, bind_error.2 (.inr ⟨flushed, s, hflush, ?_⟩)⟩)
    refine bind_error.2 (.inr ⟨s, s, rfl, ?_⟩)
    rw [hnone]
    rfl
  · rw [close, endState_of_ok (modify_ok (u := ⟨⟩).2 rfl), if_neg (by simp [hs.phase, hbound])]

end

/-- **A failed call disturbs nothing** if and only if it is no cancellation of what
is not outstanding while the table of the canceled is full.  It leaves the phase, both tables and the next
transaction id as they were, and sends only packets that were retained.  Excepted are the errors that report
the closing of the connection. -/
theorem failed_call_undisturbed_iff {c : Client} (hbound : c.phase = .bound) (call : Call) :
    (∀ e c', call.run c = .error (.err e) c' → ¬ call.Closes c e → Undisturbed c c') ↔ call.Suits c := by
  constructor
  · rintro h id rfl
    by_contra hsuits
    obtain ⟨hid, hfull, hclosed⟩ : ¬ c.IsOutstanding id ∧ none ∉ c.recent ∧ ¬ c.FlushClosed := by
      simpa only [not_or] using hsuits
    obtain ⟨c', hrun, hphase⟩ := tryCancel_full hbound hfull hclosed id
    have hkept := h _ c' (bind_error.2 (.inl hrun)) (by simp [Call.Closes, hid])
    simpa [hphase, hbound] using hkept.phase
  · intro hcall e c' h he
    have hrun : Triple (· = c) call.run (fun _ _ => True) (Kept c call) := by
      cases call with
      | call => exact (kept_tryCall _ _ _ _ _).bind fun _ => .pure fun _ _ => trivial
      | oneWay => exact kept_trySendOneWay _ _ _ _ _
      | cancel id => exact (kept_tryCancel hcall).bind fun _ => .pure fun _ _ => trivial
    have hpost := hrun c rfl
    rw [h] at hpost
    exact hpost.resolve_left he

/-- A client of a service with one method, on a transport that takes every packet. -/
def echoClient : Client :=
  .negotiated { answer := fun _ => none, offered := [], sent := [], closed := false }
    [{ ordinal := 1
       kind := .requestResponse
       deadline := .forbidden
       validateRequest := fun _ _ => .ok () }]
    { protocolId := sampleId
      major := 1
      minor := 0
      limits := { maxBodyBytes := 192, maxHandles := 0, maxOutstanding := 8 }
      serviceGeneration := 1
      features := [] }

def echoCall : Call := .call 1 [] 0 Header.infinite (Buf.zero 16)

def Client.after (calls : List Call) : Client :=
  calls.foldl (fun c call => endState call.run c) c

/-- Eight calls that are made and then canceled. -/
def echoCanceled : Client :=
  echoClient.after (.replicate 8 echoCall ++ [1, 2, 3, 4, 5, 6, 7, 8].map .cancel)

/-- Three calls are made and the first is canceled, when the transport is full and its packet is retained. -/
def echoBusy : Client :=
  { echoClient with transport := { echoClient.transport with
      answer := fun offered => if offered.length = 4 then some .full else none } }.after
    [echoCall, echoCall, echoCall, .cancel 1]

/-- Canceling what was never begun sends the retained packet, and leaves the others outstanding. -/
theorem failed_call_undisturbed_iff_busy : echoBusy.IsOutstanding 2 ∧ echoBusy.IsOutstanding 3 ∧
    echoBusy.retained.length = 1 ∧ ∃ c', (Call.cancel 9).run echoBusy = .error (.err .unknownTransaction) c' ∧
      c'.transport.sent = echoBusy.transport.sent ++ echoBusy.retained ∧ Undisturbed echoBusy c' := by
  have hrun : (Call.cancel 9).run echoBusy = .error (.err .unknownTransaction) _ := rfl
  have hsuits : (Call.cancel 9).Suits echoBusy := fun _ _ => .inr (.inl (mem_of_getElem? (i := 1) rfl))
  exact ⟨⟨_, mem_of_getElem? (i := 1) rfl, rfl⟩, ⟨_, mem_of_getElem? (i := 2) rfl, rfl⟩, rfl, _, hrun, rfl,
    (failed_call_undisturbed_iff rfl _).2 hsuits _ _ hrun (by simp [Call.Closes])⟩

/-- **Canceling a transaction that was never begun closes the connection**, while the responses to eight
canceled ones may still come. -/
theorem cancel_unknown_closes : echoCanceled.phase = .bound ∧ ¬ echoCanceled.IsOutstanding 9 ∧
      Post (fun _ _ => False) (fun e c => e = .err .recentlyCanceledExhausted ∧ c.phase = .closed)
        ((Call.cancel 9).run echoCanceled) := by
  refine ⟨by decide +kernel, ?_, by decide +kernel⟩
  rintro ⟨t, ht, -⟩
  have hnone : echoCanceled.outstanding.all Option.isNone = true := by decide +kernel
  simpa using all_eq_true.1 hnone _ ht

end NSWP
