/-
**The admission of portal requests.**

An application asks the portal for a file on behalf of its user.  The desktop proves that the user
acted by registering a ticket with the portal, and a request is admitted when it uses up a ticket that
was issued for it.  Registered tickets are never forgotten, so that none can be used again.

* `ApplicationPortalRequest`, `TrustedUserGestureTicket` — requests and tickets, with
  what their constructors check;
* `registerTicket`, `admitRequest` — its operations;
* `registerTicket_commits`, `admitRequest_cases` — what the operations do;
* `one_gesture_one_request` — an admitted request has used up a ticket of its own.
-/

import NullStar.Keyed
import NullStar.Permission

set_option autoImplicit false

namespace Portal

open Rust Machine Permission List

def maxPortalGestures : ℕ := 64

def maxTrustedGestureLifetimeNs : ℕ := 5000000000

/-! ### Requests and tickets -/

inductive ApplicationPortalOperation where
  | openFile | saveFile | selectDirectory
  deriving DecidableEq

namespace ApplicationPortalOperation

def resourceKind : ApplicationPortalOperation → ApplicationResourceKind
  | openFile | saveFile => .file
  | selectDirectory => .directory

def acceptsRights (operation : ApplicationPortalOperation) (rights : ApplicationGrantRights) : Bool :=
  if !rights.validFor operation.resourceKind then false
  else match operation with
    | openFile => rights.contains ⟨1, by decide⟩
    | saveFile => rights.contains ⟨2, by decide⟩
    | selectDirectory => true

end ApplicationPortalOperation

structure ApplicationPortalRequest where
  (requestId ticketId parentSurface : UInt64)
  operation : ApplicationPortalOperation
  rights : ApplicationGrantRights
  scope : ApplicationGrantScope
  valid : ¬ (requestId = 0 ∨ ticketId = 0 ∨ parentSurface = 0 ∨ operation.acceptsRights rights = false)

/-- What `TrustedUserGestureTicket::new` refuses. -/
def ticketRefused (id targetProcessId user session application installation surface seat
    eventSequence issuedAtNs expiresAtNs : UInt64) : Bool :=
  match checkedSub expiresAtNs.toNat issuedAtNs.toNat with
  | none => true
  | some lifetime =>
    id = 0 || targetProcessId = 0 || user = 0 || session = 0 || application = 0 ||
      installation = 0 || surface = 0 || seat = 0 || eventSequence = 0 || lifetime = 0 ||
      maxTrustedGestureLifetimeNs < lifetime

/-- A ticket of the desktop for one gesture of the user. -/
structure TrustedUserGestureTicket where
  (id targetProcessId user session application installation surface seat eventSequence : UInt64)
  (issuedAtNs expiresAtNs : UInt64)
  valid : ticketRefused id targetProcessId user session application installation surface seat
    eventSequence issuedAtNs expiresAtNs = false

/-- What identifies a gesture. -/
def TrustedUserGestureTicket.gesture (t : TrustedUserGestureTicket) : UInt64 × UInt64 :=
  (t.seat, t.eventSequence)

inductive TrustedGestureState where
  | available
  | consumed (transactionId : UInt64)
  | expired
  deriving DecidableEq

structure TrustedGestureRecord where
  ticket : TrustedUserGestureTicket
  state : TrustedGestureState

variable (r : TrustedGestureRecord)

def TrustedGestureRecord.id : UInt64 := r.ticket.id

def TrustedGestureRecord.gesture : UInt64 × UInt64 := r.ticket.gesture

def TrustedGestureRecord.withState (state : TrustedGestureState) (r : TrustedGestureRecord) :
    TrustedGestureRecord := { r with state := state }

inductive PortalTicketRegistrationError where
  | unauthorizedIssuer | notYetValid | expired | duplicateTicket | duplicateGesture | full

inductive PortalAdmissionError where
  | invalidClient | invalidAuthorization | transientPersistence | unknownTicket | ticketReplayed
  | ticketNotYetValid | ticketExpired | processMismatch | applicationMismatch | sessionMismatch
  | surfaceMismatch | transactionIdExhausted

structure AdmittedPortalRequest where
  (transactionId clientProcessId : UInt64)
  authorization : AuthorizedApplication
  subject : ApplicationGrantSubject
  request : ApplicationPortalRequest

/-! ### The registry -/

/-- The records in use, in their order.  A record is never given up, so the free slots all follow
them. -/
structure ApplicationPortalAdmission where
  trustedIssuerProcessId : UInt64
  records : List TrustedGestureRecord
  nextTransactionId : UInt64
  fits : records.length ≤ maxPortalGestures
  ids : (records.map TrustedGestureRecord.id).Nodup
  gestures : (records.map TrustedGestureRecord.gesture).Nodup

variable (ticket : TrustedUserGestureTicket) (a : ApplicationPortalAdmission) (ticketId : UInt64)

namespace ApplicationPortalAdmission

def new (trustedIssuerProcessId : UInt64) : Option ApplicationPortalAdmission :=
  if trustedIssuerProcessId = 0 then none
  else some ⟨trustedIssuerProcessId, [], 1, Nat.zero_le _, List.nodup_nil, List.nodup_nil⟩

/-- The record of a ticket. -/
def find (a : ApplicationPortalAdmission) : Option TrustedGestureRecord :=
  Keyed.lookup TrustedGestureRecord.id ticketId a.records

/-- There is room for the ticket, and it is not there yet. -/
def Admits : Prop :=
  ticket.id ∉ a.records.map TrustedGestureRecord.id ∧
    ticket.gesture ∉ a.records.map TrustedGestureRecord.gesture ∧ a.records.length < maxPortalGestures

instance (ticket : TrustedUserGestureTicket) (a : ApplicationPortalAdmission) : Decidable (a.Admits ticket) :=
  inferInstanceAs (Decidable (_ ∧ _ ∧ _))

/-- The registry with another ticket, if it admits it. -/
def insert : ApplicationPortalAdmission :=
  if h : a.Admits ticket then
    { a with
      records := a.records ++ [⟨ticket, .available⟩]
      fits := by
        rw [List.length_append]
        exact h.2.2
      ids := Keyed.nodup_map_concat a.ids (by exact h.1)
      gestures := Keyed.nodup_map_concat a.gestures (by exact h.2.1) }
  else a

/-- The registry with another state of a ticket. -/
def mark (state : TrustedGestureState) (a : ApplicationPortalAdmission) : ApplicationPortalAdmission :=
  { a with
    records := Keyed.adjust TrustedGestureRecord.id ticketId (.withState state) a.records
    fits := by
      rw [Keyed.adjust, List.length_modify]
      exact a.fits
    ids := by
      have hids : ∀ r : TrustedGestureRecord, (r.withState state).id = r.id := fun _ => rfl
      rw [Keyed.map_adjust hids]
      exact a.ids
    gestures := by
      have hgestures : ∀ r : TrustedGestureRecord, (r.withState state).gesture = r.gesture := fun _ => rfl
      rw [Keyed.map_adjust hgestures]
      exact a.gestures }

variable {a} {ticketId} {r} {r' : TrustedGestureRecord}

theorem insert_records {ticket : TrustedUserGestureTicket} (h : a.Admits ticket) :
    (a.insert ticket).records = a.records ++ [⟨ticket, .available⟩] := by
  rw [insert, dif_pos h]

@[simp] theorem insert_trustedIssuerProcessId :
    (a.insert ticket).trustedIssuerProcessId = a.trustedIssuerProcessId := by
  unfold insert
  split <;> rfl

@[simp] theorem insert_nextTransactionId : (a.insert ticket).nextTransactionId = a.nextTransactionId := by
  unfold insert
  split <;> rfl

theorem find_eq_some : a.find ticketId = some r ↔ r ∈ a.records ∧ r.id = ticketId :=
  Keyed.lookup_eq_some_iff a.ids

theorem eq_of_id (hr : r ∈ a.records) (hr' : r' ∈ a.records) (h : r.id = r'.id) : r = r' :=
  inj_on_of_nodup_map a.ids hr hr' h

theorem eq_of_gesture (hr : r ∈ a.records) (hr' : r' ∈ a.records) (h : r.gesture = r'.gesture) :
    r = r' := inj_on_of_nodup_map a.gestures hr hr' h

theorem mem_mark {state : TrustedGestureState} (h : a.find ticketId = some r) :
    r' ∈ (a.mark ticketId state).records ↔ r' = ⟨r.ticket, state⟩ ∨ r'.id ≠ ticketId ∧ r' ∈ a.records :=
  Keyed.mem_adjust_iff a.ids h

end ApplicationPortalAdmission

/-! ### Registering a ticket -/

def registerTicket (authenticatedSenderProcessId nowNs : UInt64) (ticket : TrustedUserGestureTicket) :
    Op PortalTicketRegistrationError ApplicationPortalAdmission Unit := do
  read fun a => rejectIf (authenticatedSenderProcessId ≠ a.trustedIssuerProcessId)
    .unauthorizedIssuer
  check (rejectIf (nowNs < ticket.issuedAtNs) .notYetValid)
  check (rejectIf (ticket.expiresAtNs < nowNs) .expired)
  read fun a => rejectIf (ticket.id ∈ a.records.map TrustedGestureRecord.id) .duplicateTicket
  read fun a => rejectIf (ticket.gesture ∈ a.records.map TrustedGestureRecord.gesture)
    .duplicateGesture
  read fun a => rejectIf (maxPortalGestures ≤ a.records.length) .full
  modify (·.insert ticket)

theorem registerTicket_commits (sender now : UInt64) (ticket : TrustedUserGestureTicket) :
    Commits a (registerTicket sender now ticket) fun _ a' =>
      sender = a.trustedIssuerProcessId ∧ a.Admits ticket ∧ a' = a.insert ticket := by
  refine .read_bind noTrap_rejectIf fun _ hsender => ?_
  refine .check_bind noTrap_rejectIf fun _ _ => ?_
  refine .check_bind noTrap_rejectIf fun _ _ => ?_
  refine .read_bind noTrap_rejectIf fun _ hid => ?_
  refine .read_bind noTrap_rejectIf fun _ hgesture => ?_
  refine .read_bind noTrap_rejectIf fun _ hfull => ?_
  rw [rejectIf_eq_ok] at hsender hid hgesture hfull
  exact .inl (.of_modify ⟨not_not.1 hsender, ⟨hid, hgesture, not_le.1 hfull⟩, rfl⟩)

/-! ### Admitting a request -/

variable (authenticatedClientProcessId nowNs : UInt64)
  (authorization : AuthorizedApplication) (request : ApplicationPortalRequest)

/-- The part of `admit_request` before the ticket can expire. -/
def usableTicket (a : ApplicationPortalAdmission) :
    Outcome PortalAdmissionError (ApplicationGrantSubject × TrustedGestureRecord) := do
  rejectIf (authenticatedClientProcessId = 0) .invalidClient
  let subject ← okOr (ApplicationGrantSubject.fromAuthorization authorization) .invalidAuthorization
  rejectIf (authorization.profile ≠ .desktop) .invalidAuthorization
  rejectIf (request.scope = .persistent ∧ subject.isTransient = true) .transientPersistence
  let record ← okOr (a.find request.ticketId) .unknownTicket
  rejectIf (record.state ≠ .available) .ticketReplayed
  rejectIf (nowNs < record.ticket.issuedAtNs) .ticketNotYetValid
  return (subject, record)

/-- The part of `admit_request` behind that: the ticket is the client's.  The result is the next
transaction id. -/
def matchTicket (ticket : TrustedUserGestureTicket) (a : ApplicationPortalAdmission) :
    Outcome PortalAdmissionError UInt64 := do
  rejectIf (ticket.targetProcessId ≠ authenticatedClientProcessId) .processMismatch
  rejectIf (ticket.application ≠ authorization.principal.application ∨
    ticket.installation ≠ authorization.installation) .applicationMismatch
  rejectIf (ticket.user ≠ authorization.user ∨ ticket.session ≠ authorization.session)
    .sessionMismatch
  rejectIf (ticket.surface ≠ request.parentSurface) .surfaceMismatch
  okOr (checkedAddU64 a.nextTransactionId 1) .transactionIdExhausted

def admitRequest : Op PortalAdmissionError ApplicationPortalAdmission AdmittedPortalRequest := do
  let (subject, record) ←
    read (usableTicket authenticatedClientProcessId nowNs authorization request)
  if record.ticket.expiresAtNs < nowNs then
    modify (·.mark request.ticketId .expired)
    check (fail .ticketExpired)
  else
    let nextTransactionId ←
      read (matchTicket authenticatedClientProcessId authorization request record.ticket)
    let transactionId := (← get).nextTransactionId
    modify fun a =>
      { a.mark request.ticketId (.consumed transactionId) with nextTransactionId := nextTransactionId }
    return ⟨transactionId, authenticatedClientProcessId, authorization, subject, request⟩

/-- What a client asks for, and when: the arguments of `admit_request`. -/
structure Submission where
  (client now : UInt64)
  authorization : AuthorizedApplication
  request : ApplicationPortalRequest

/-- The ticket was issued for the call, and is neither too old nor too new. -/
structure Covers (ticket : TrustedUserGestureTicket) (call : Submission) : Prop where
  id : ticket.id = call.request.ticketId
  process : ticket.targetProcessId = call.client
  application : ticket.application = call.authorization.principal.application
  installation : ticket.installation = call.authorization.installation
  user : ticket.user = call.authorization.user
  session : ticket.session = call.authorization.session
  surface : ticket.surface = call.request.parentSurface
  issued : ticket.issuedAtNs ≤ call.now
  unexpired : call.now ≤ ticket.expiresAtNs
  profile : call.authorization.profile = .desktop

/-- The request that is handed on is the one of the call, with its client and their authorization. -/
structure AdmittedPortalRequest.Of (p : AdmittedPortalRequest) (call : Submission) : Prop where
  client : p.clientProcessId = call.client
  authorization : p.authorization = call.authorization
  subject : ApplicationGrantSubject.fromAuthorization call.authorization = some p.subject
  request : p.request = call.request

/-- Everything that `admit_request` can do. -/
inductive Admission (a : ApplicationPortalAdmission) (client now : UInt64)
    (authorization : AuthorizedApplication) (request : ApplicationPortalRequest) : Prop where
  | refused (e : PortalAdmissionError)
      (hrun : admitRequest client now authorization request a = .error (.err e) a)
  | expired (r : TrustedGestureRecord) (hfind : a.find request.ticketId = some r)
      (hstate : r.state = .available) (hlate : r.ticket.expiresAtNs < now)
      (hrun : admitRequest client now authorization request a =
        .error (.err .ticketExpired) (a.mark request.ticketId .expired))
  | admitted (r : TrustedGestureRecord) (p : AdmittedPortalRequest) (next : UInt64)
      (hfind : a.find request.ticketId = some r) (hstate : r.state = .available)
      (hcovers : Covers r.ticket ⟨client, now, authorization, request⟩)
      (hof : p.Of ⟨client, now, authorization, request⟩)
      (htransaction : p.transactionId = a.nextTransactionId)
      (hnext : next.toNat = a.nextTransactionId.toNat + 1)
      (hrun : admitRequest client now authorization request a = .ok p
        { a.mark request.ticketId (.consumed p.transactionId) with nextTransactionId := next })

variable {client now : UInt64} {authorization : AuthorizedApplication} {request : ApplicationPortalRequest}

theorem noTrap_usableTicket : NoTrap (usableTicket client now authorization request a) := by
  simp [usableTicket, noTrap_bind]

theorem noTrap_matchTicket : NoTrap (matchTicket client authorization request ticket a) := by
  simp [matchTicket, noTrap_bind]

variable (client now authorization request) in
theorem admitRequest_cases (a : ApplicationPortalAdmission) :
    Admission a client now authorization request := by
  rcases husable : usableTicket client now authorization request a with (e | _) | ⟨subject, r⟩
  · refine .refused e (bind_error.2 (.inl ?_))
    exact read_error.2 ⟨husable, rfl⟩
  · exact absurd husable (noTrap_usableTicket a)
  · have hread := read_ok.2 ⟨husable, rfl⟩
    simp only [usableTicket, bind_eq_ok, rejectIf_eq_ok, okOr_eq_ok, not_not, UInt64.not_lt] at husable
    obtain ⟨_, -, subject, hsubject, _, hprofile, _, -, r, hfind, _, hstate, _, hissued, rfl, rfl⟩ := husable
    by_cases hlate : r.ticket.expiresAtNs < now
    · refine .expired r hfind hstate hlate (bind_error.2 (.inr ⟨_, _, hread, ?_⟩))
      dsimp only
      rw [if_pos hlate]
      rfl
    · rcases hmatch : matchTicket client authorization request r.ticket a with (e | _) | next
      · refine .refused e (bind_error.2 (.inr ⟨_, _, hread, ?_⟩))
        dsimp only
        rw [if_neg hlate]
        exact bind_error.2 (.inl (read_error.2 ⟨hmatch, rfl⟩))
      · exact absurd hmatch (noTrap_matchTicket r.ticket a)
      · have hread' := read_ok.2 ⟨hmatch, rfl⟩
        simp only [matchTicket, bind_eq_ok, rejectIf_eq_ok, okOr_eq_ok, not_or, not_not,
          checkedAddU64_eq_some, exists_const] at hmatch
        obtain ⟨hprocess, ⟨happlication, hinstallation⟩, ⟨huser, hsession⟩, hsurface, hnext⟩ := hmatch
        have hid := (ApplicationPortalAdmission.find_eq_some.1 hfind).2
        refine .admitted r ⟨a.nextTransactionId, client, authorization, subject, request⟩ next hfind
          hstate ⟨hid, hprocess, happlication, hinstallation, huser, hsession, hsurface, hissued,
            UInt64.not_lt.1 hlate, hprofile⟩ ⟨rfl, rfl, hsubject, rfl⟩ rfl hnext (bind_ok.2 ⟨_, _, hread, ?_⟩)
        dsimp only
        rw [if_neg hlate]
        exact bind_ok.2 ⟨_, _, hread', rfl⟩

/-! ### Histories -/

/-- A registration and an admission, each with what was submitted. -/
inductive Entry where
  | registered (sender : UInt64) (ticket : TrustedUserGestureTicket)
  | admitted (call : Submission) (p : AdmittedPortalRequest)

/-- A registry with what it did, the latest first. -/
structure World where
  admission : ApplicationPortalAdmission
  log : List Entry

inductive Event where
  | register (sender now : UInt64) (ticket : TrustedUserGestureTicket)
  | submit (call : Submission)

def World.step (w : World) : Event → World
  | .register sender now ticket =>
    match registerTicket sender now ticket w.admission with
    | .ok _ a => ⟨a, .registered sender ticket :: w.log⟩
    | .error _ a => ⟨a, w.log⟩
  | .submit call =>
    match admitRequest call.client call.now call.authorization call.request w.admission with
    | .ok p a => ⟨a, .admitted call p :: w.log⟩
    | .error _ a => ⟨a, w.log⟩

/-- A new registry for an issuer. -/
def World.Fresh (issuer : UInt64) (w : World) : Prop :=
  ApplicationPortalAdmission.new issuer = some w.admission ∧ w.log = []

/-- The worlds that follow one world, over any calls. -/
def World.Leads (start : World → Prop) : World → Prop := Reachable start (fun _ _ => True) World.step

/-- The call has used up a ticket that the issuer registered before and that covers it, and no other call has
used up this ticket or one for the same gesture. -/
def Proper (issuer : UInt64) (call : Submission) (p : AdmittedPortalRequest) (log : List Entry) : Prop :=
  p.Of call ∧ ∃ ticket, .registered issuer ticket ∈ log ∧ Covers ticket call ∧
    ∀ call' p', .admitted call' p' ∈ log →
      call'.request.ticketId ≠ call.request.ticketId ∧ p'.transactionId < p.transactionId ∧
      ∀ sender ticket', .registered sender ticket' ∈ log → ticket'.id = call'.request.ticketId →
        ticket'.gesture ≠ ticket.gesture

structure World.Consistent (issuer : UInt64) (w : World) : Prop where
  configured : w.admission.trustedIssuerProcessId = issuer
  registered : ∀ sender ticket, .registered sender ticket ∈ w.log →
    ∃ r ∈ w.admission.records, r.ticket = ticket
  tickets : ∀ r ∈ w.admission.records, .registered issuer r.ticket ∈ w.log
  consumed : ∀ call p, .admitted call p ∈ w.log →
    (∃ r ∈ w.admission.records, r.id = call.request.ticketId ∧ r.state = .consumed p.transactionId) ∧
      p.transactionId < w.admission.nextTransactionId
  proper : ∀ call p log, (.admitted call p :: log) <:+ w.log → Proper issuer call p log

theorem World.Consistent.of_fresh {issuer : UInt64} {w : World} (h : w.Fresh issuer) :
    w.Consistent issuer := by
  obtain ⟨hnew, hlog⟩ := h
  rw [ApplicationPortalAdmission.new] at hnew
  split at hnew
  · simp at hnew
  · obtain ⟨rfl, hrecords⟩ : w.admission.trustedIssuerProcessId = issuer ∧ w.admission.records = [] := by
      rw [← Option.some.inj hnew]
      exact ⟨rfl, rfl⟩
    constructor <;> simp [hlog, hrecords]

variable {issuer : UInt64} {w : World}

theorem World.Consistent.register (h : w.Consistent issuer) (sender now : UInt64)
    (ticket : TrustedUserGestureTicket) : (w.step (.register sender now ticket)).Consistent issuer := by
  rw [World.step]
  rcases registerTicket_commits w.admission sender now ticket with
    ⟨_, _, hrun, hsender, hadmits, rfl⟩ | ⟨e, hrun⟩
  · rw [hrun]
    have hrecords := ApplicationPortalAdmission.insert_records hadmits
    constructor
    case configured => simpa using h.configured
    case registered =>
      intro sender' ticket' hmem
      rw [hrecords]
      rcases mem_cons.1 hmem with heq | hmem
      · refine ⟨⟨ticket, .available⟩, by simp, ?_⟩
        rw [Entry.registered.injEq] at heq
        exact heq.2.symm
      · obtain ⟨r, hr, hticket⟩ := h.registered sender' ticket' hmem
        exact ⟨r, mem_append_left _ hr, hticket⟩
    case tickets =>
      intro r hr
      rw [hrecords, mem_append, mem_singleton] at hr
      rcases hr with hr | rfl
      · exact mem_cons_of_mem _ (h.tickets r hr)
      · rw [hsender, h.configured]
        exact mem_cons_self
    case consumed =>
      intro call p hmem
      rw [hrecords, ApplicationPortalAdmission.insert_nextTransactionId]
      rcases mem_cons.1 hmem with heq | hmem
      · simp at heq
      · obtain ⟨⟨r, hr, hr'⟩, hlt⟩ := h.consumed call p hmem
        exact ⟨⟨r, mem_append_left _ hr, hr'⟩, hlt⟩
    case proper =>
      intro call p log hsuffix
      rcases suffix_cons_iff.1 hsuffix with heq | hsuffix
      · simp at heq
      · exact h.proper call p log hsuffix
  · rw [hrun]
    exact h

variable {r}

/-- The ticket of a request that is admitted was not used up before. -/
theorem World.Consistent.proper_admitted (h : w.Consistent issuer) {call : Submission}
    {p : AdmittedPortalRequest} (hfind : w.admission.find call.request.ticketId = some r)
    (hstate : r.state = .available) (hcovers : Covers r.ticket call) (hof : p.Of call)
    (htransaction : p.transactionId = w.admission.nextTransactionId) : Proper issuer call p w.log := by
  obtain ⟨hr, hid⟩ := ApplicationPortalAdmission.find_eq_some.1 hfind
  refine ⟨hof, r.ticket, h.tickets r hr, hcovers, fun call' p' hmem => ?_⟩
  obtain ⟨⟨r', hr', hid', hstate'⟩, hlt⟩ := h.consumed call' p' hmem
  have hne : r' ≠ r := by
    rintro rfl
    rw [hstate] at hstate'
    cases hstate'
  refine ⟨fun heq => hne ?_, htransaction ▸ hlt, fun sender ticket' hregistered hticket hgesture => ?_⟩
  · exact ApplicationPortalAdmission.eq_of_id hr' hr (by rw [hid', heq, hid])
  · -- the registered ticket is the one of the record that was consumed
    obtain ⟨r'', hr'', rfl⟩ := h.registered sender ticket' hregistered
    have heq : r'' = r' := ApplicationPortalAdmission.eq_of_id hr'' hr' (hticket.trans hid'.symm)
    exact hne (heq ▸ ApplicationPortalAdmission.eq_of_gesture hr'' hr hgesture)

/-- Changing the state of a ticket that is available changes nothing else. -/
theorem World.Consistent.mark (h : w.Consistent issuer) {ticketId next : UInt64}
    (state : TrustedGestureState) (hfind : w.admission.find ticketId = some r)
    (hstate : r.state = .available) (hnext : w.admission.nextTransactionId ≤ next) : World.Consistent issuer
      ⟨{ w.admission.mark ticketId state with nextTransactionId := next }, w.log⟩ := by
  have hmem : ∀ r', r' ∈ (w.admission.mark ticketId state).records ↔
      r' = ⟨r.ticket, state⟩ ∨ r'.id ≠ ticketId ∧ r' ∈ w.admission.records := fun r' =>
    ApplicationPortalAdmission.mem_mark hfind
  obtain ⟨hr, hid⟩ := ApplicationPortalAdmission.find_eq_some.1 hfind
  constructor
  case configured => exact h.configured
  case registered =>
    intro sender ticket hregistered
    obtain ⟨r', hr', rfl⟩ := h.registered sender ticket hregistered
    by_cases hid' : r'.id = ticketId
    · obtain rfl := ApplicationPortalAdmission.eq_of_id hr' hr (hid'.trans hid.symm)
      exact ⟨_, (hmem _).2 (.inl rfl), rfl⟩
    · exact ⟨r', (hmem _).2 (.inr ⟨hid', hr'⟩), rfl⟩
  case tickets =>
    intro r' hr'
    rcases (hmem r').1 hr' with rfl | ⟨-, hr'⟩
    · exact h.tickets r hr
    · exact h.tickets r' hr'
  case consumed =>
    intro call p hadmitted
    obtain ⟨⟨r', hr', hid', hstate'⟩, hlt⟩ := h.consumed call p hadmitted
    refine ⟨⟨r', (hmem r').2 (.inr ⟨fun heq => ?_, hr'⟩), hid', hstate'⟩, UInt64.lt_of_lt_of_le hlt hnext⟩
    obtain rfl := ApplicationPortalAdmission.eq_of_id hr' hr (heq.trans hid.symm)
    rw [hstate] at hstate'
    cases hstate'
  case proper => exact h.proper

theorem World.Consistent.submit (h : w.Consistent issuer) (call : Submission) :
    (w.step (.submit call)).Consistent issuer := by
  rw [World.step]
  rcases admitRequest_cases call.client call.now call.authorization call.request w.admission with
    ⟨e, hrun⟩ | ⟨r, hfind, hstate, hlate, hrun⟩ |
    ⟨r, p, next, hfind, hstate, hcovers, hof, htransaction, hnext, hrun⟩
  · rw [hrun]
    exact h
  · rw [hrun]
    exact h.mark _ hfind hstate (UInt64.le_refl _)
  · rw [hrun]
    have hproper := h.proper_admitted hfind hstate hcovers hof htransaction
    have hlt : w.admission.nextTransactionId < next := by
      rw [UInt64.lt_iff_toNat_lt, hnext]
      exact Nat.lt_succ_self _
    have hmark := h.mark (.consumed p.transactionId) hfind hstate (UInt64.le_of_lt hlt)
    constructor
    case configured => exact hmark.configured
    case registered =>
      intro sender ticket hmem
      rcases mem_cons.1 hmem with heq | hmem
      · simp at heq
      · exact hmark.registered sender ticket hmem
    case tickets =>
      intro r' hr'
      exact mem_cons_of_mem _ (hmark.tickets r' hr')
    case consumed =>
      intro call' p' hmem
      rcases mem_cons.1 hmem with heq | hmem
      · obtain ⟨rfl, rfl⟩ := Entry.admitted.inj heq
        refine ⟨⟨⟨r.ticket, .consumed p'.transactionId⟩, ?_, hcovers.id, rfl⟩, htransaction ▸ hlt⟩
        exact (ApplicationPortalAdmission.mem_mark hfind).2 (.inl rfl)
      · exact hmark.consumed call' p' hmem
    case proper =>
      intro call' p' log hsuffix
      rcases suffix_cons_iff.1 hsuffix with heq | hsuffix
      · obtain ⟨hentry, rfl⟩ := cons.inj heq
        cases hentry
        exact hproper
      · exact hmark.proper call' p' log hsuffix

theorem World.Leads.consistent (h : World.Leads (World.Fresh issuer) w) : w.Consistent issuer := by
  refine Reachable.keeps (I := World.Consistent issuer)
    (fun _ hfresh => World.Consistent.of_fresh hfresh) ?_ h
  rintro w (⟨sender, now, ticket⟩ | call) hw -
  · exact hw.register sender now ticket
  · exact hw.submit call

/-! ### Tickets that are used up or expired -/

/-- A record that is no longer available stays as it is. -/
theorem World.step_keeps (hr : r ∈ w.admission.records) (hstate : r.state ≠ .available)
    (event : Event) : r ∈ (w.step event).admission.records := by
  have hkeep : ∀ (ticketId : UInt64) (r' : TrustedGestureRecord) (state : TrustedGestureState),
      w.admission.find ticketId = some r' → r'.state = .available →
        r ∈ (w.admission.mark ticketId state).records := by
    intro ticketId r' state hfind havailable
    refine (ApplicationPortalAdmission.mem_mark hfind).2 (.inr ⟨fun heq => ?_, hr⟩)
    obtain ⟨hr', hid⟩ := ApplicationPortalAdmission.find_eq_some.1 hfind
    obtain rfl := ApplicationPortalAdmission.eq_of_id hr hr' (heq.trans hid.symm)
    exact hstate havailable
  cases event with
  | register sender now ticket =>
    rw [World.step]
    rcases registerTicket_commits w.admission sender now ticket with
      ⟨_, _, hrun, -, hadmits, rfl⟩ | ⟨e, hrun⟩
    · rw [hrun]
      rw [ApplicationPortalAdmission.insert_records hadmits]
      exact mem_append_left _ hr
    · rw [hrun]
      exact hr
  | submit call =>
    rw [World.step]
    rcases admitRequest_cases call.client call.now call.authorization call.request w.admission with
      ⟨e, hrun⟩ | ⟨r', hfind, havailable, -, hrun⟩ | ⟨r', p, next, hfind, havailable, -, -, -, -, hrun⟩
    · rw [hrun]
      exact hr
    · rw [hrun]
      exact hkeep _ r' _ hfind havailable
    · rw [hrun]
      exact hkeep _ r' _ hfind havailable

theorem World.Leads.keeps {w' : World} (h : World.Leads (· = w) w') (hr : r ∈ w.admission.records)
    (hstate : r.state ≠ .available) : r ∈ w'.admission.records := by
  refine Reachable.keeps (I := fun w' => r ∈ w'.admission.records) ?_ ?_ h
  · rintro _ rfl
    exact hr
  · intro _ event hr _
    exact World.step_keeps hr hstate event

/-- A ticket that is no longer available admits nothing. -/
theorem not_admitted {a a' : ApplicationPortalAdmission} (hr : r ∈ a.records)
    (hstate : r.state ≠ .available) {client now : UInt64} {authorization : AuthorizedApplication}
    {request : ApplicationPortalRequest} (hid : r.id = request.ticketId) (p : AdmittedPortalRequest)
    : admitRequest client now authorization request a ≠ .ok p a' := by
  intro hadmitted
  have hfound := ApplicationPortalAdmission.find_eq_some.2 ⟨hr, hid⟩
  rcases admitRequest_cases client now authorization request a with ⟨e, hrun⟩ |
    ⟨r', hfind, havailable, -, hrun⟩ | ⟨r', p', next, hfind, havailable, -, -, -, -, hrun⟩
  · rw [hrun] at hadmitted
    cases hadmitted
  · rw [hrun] at hadmitted
    cases hadmitted
  · rw [hfound] at hfind
    cases hfind
    exact hstate havailable

/-- **One gesture admits at most one request.** -/
theorem one_gesture_one_request (h : World.Leads (World.Fresh issuer) w) :
    (∀ call p log, (.admitted call p :: log) <:+ w.log → Proper issuer call p log) ∧
    (∀ call p, .admitted call p ∈ w.log → ∃ r ∈ w.admission.records,
      r.id = call.request.ticketId ∧ r.state = .consumed p.transactionId) ∧
    (∀ w', World.Leads (· = w) w' → ∀ r ∈ w.admission.records, r.state ≠ .available →
      r ∈ w'.admission.records ∧ ∀ client now authorization request p a, r.id = request.ticketId →
          admitRequest client now authorization request w'.admission ≠ .ok p a) ∧
    ∀ client now authorization request e a,
      admitRequest client now authorization request w.admission = .error e a →
        a = w.admission ∨ e = .err .ticketExpired ∧ ∃ r,
          w.admission.find request.ticketId = some r ∧ r.state = .available ∧
            r.ticket.expiresAtNs < now ∧ a = w.admission.mark request.ticketId .expired := by
  refine ⟨h.consistent.proper, fun call p hmem => (h.consistent.consumed call p hmem).1,
    fun w' hlater r hr hstate => ?_, ?_⟩
  · have hr' := hlater.keeps hr hstate
    exact ⟨hr', fun client now authorization request p a hid => not_admitted hr' hstate hid p⟩
  · intro client now authorization request e a herror
    rcases admitRequest_cases client now authorization request w.admission with ⟨e, hrun⟩ |
      ⟨r, hfind, havailable, hlate, hrun⟩ | ⟨r, p, next, -, -, -, -, -, -, hrun⟩
    · rw [hrun] at herror
      cases herror
      exact .inl rfl
    · rw [hrun] at herror
      cases herror
      exact .inr ⟨rfl, r, hfind, havailable, hlate, rfl⟩
    · rw [hrun] at herror
      cases herror

/-- A desktop application of a user in their seventh session. -/
def editor : AuthorizedApplication :=
  ⟨1, 7, ⟨1, 1, 1, .repository, false⟩, 1, .user, .desktop, by decide⟩

def editorTicket : TrustedUserGestureTicket := ⟨5, 3, 1, 7, 1, 1, 9, 1, 1, 10, 20, by decide⟩

def editorRequest : ApplicationPortalRequest :=
  ⟨1, 5, 9, .openFile, ⟨1, by decide⟩, .session, by decide⟩

/-- The registry after a ticket was registered and used up. -/
def usedOnce : World :=
  World.step (World.step
    ⟨⟨2, [], 1, Nat.zero_le _, List.nodup_nil, List.nodup_nil⟩, []⟩ (.register 2 12 editorTicket))
    (.submit ⟨3, 15, editor, editorRequest⟩)

theorem one_gesture_one_request_usedOnce : World.Leads (World.Fresh 2) usedOnce ∧
    (∃ p log, usedOnce.log = .admitted ⟨3, 15, editor, editorRequest⟩ p :: log ∧
      Proper 2 ⟨3, 15, editor, editorRequest⟩ p log ∧ ∃ r ∈ usedOnce.admission.records,
        r.id = 5 ∧ r.state = .consumed p.transactionId) ∧
    ∀ p a, admitRequest 3 15 editor editorRequest usedOnce.admission ≠ .ok p a := by
  have hreached : World.Leads (World.Fresh 2) usedOnce := .step (.step (.start ⟨rfl, rfl⟩) trivial) trivial
  obtain ⟨hproper, hconsumed, hnever, -⟩ := one_gesture_one_request hreached
  obtain ⟨p, log, hlog⟩ : ∃ p log, usedOnce.log = .admitted ⟨3, 15, editor, editorRequest⟩ p :: log :=
    ⟨_, _, rfl⟩
  obtain ⟨-, hused⟩ := hnever usedOnce (.start rfl) ⟨editorTicket, .consumed 1⟩
    (mem_singleton.2 rfl) (by simp)
  exact ⟨hreached, ⟨p, log, hlog, hproper _ p log ⟨[], hlog.symm⟩,
    hconsumed _ p (hlog ▸ mem_cons_self)⟩, fun p a => hused 3 15 editor editorRequest p a rfl⟩

end Portal
