/-
**The application permission store.**

A grant gives one application the right to use one filesystem object.  The store keeps every grant it
ever issued: a revoked or used-up one stays as a tombstone, so that it cannot come back.  A change
that has to wait for the outcome of something else is prepared first, and committed or dropped later.

* `ApplicationResourceIdentity`, `ApplicationGrantSubject`,
  `ApplicationGrantRights` — what a grant is about; their constructors are checked, so the
  types carry what the checks establish;
* `ApplicationGrantRecord` — a grant;
* `ApplicationPermissionStore` and its operations;
* `ApplicationGrantRecord.canonical_eq_true` — what makes a record canonical, behind the checks
  that its types already carry.
-/

import NullStar.Machine

set_option autoImplicit false

namespace Permission

open Bytes Rust Machine

def maxApplicationGrants : ℕ := 64

/-! ### Applications -/

inductive ApplicationProfile where
  | desktop | desktopChild | worker
  deriving DecidableEq

inductive ApplicationTrustClass where
  | system | repository | localDeveloper | transient
  deriving DecidableEq

inductive ApplicationInstallScope where
  | systemGeneration | machine | user | transient
  deriving DecidableEq

structure StableApplicationPrincipal where
  (application publisher signingLineage : UInt64)
  trustClass : ApplicationTrustClass
  systemApplication : Bool
  deriving DecidableEq

/-- The proof that a launch was authorized.  Launches without a session are refused, and components
take over the session of their application. -/
structure AuthorizedApplication where
  (user session : UInt64)
  principal : StableApplicationPrincipal
  installation : UInt64
  installScope : ApplicationInstallScope
  profile : ApplicationProfile
  session_ne : session ≠ 0

/-! ### Resources and rights -/

inductive ApplicationResourceKind where
  | file | directory
  deriving DecidableEq

/-- The stable identity of a filesystem object. -/
structure ApplicationResourceIdentity where
  filesystemUuid : Buf 16
  (objectId objectGeneration : UInt64)
  kind : ApplicationResourceKind
  valid : ¬ (filesystemUuid = Buf.zero 16 ∨ objectId = 0 ∨ objectGeneration = 0)
  deriving DecidableEq

def ApplicationResourceIdentity.new (filesystemUuid : Buf 16) (objectId objectGeneration : UInt64)
    (kind : ApplicationResourceKind) : Option ApplicationResourceIdentity :=
  if h : filesystemUuid = Buf.zero 16 ∨ objectId = 0 ∨ objectGeneration = 0 then none
  else some ⟨filesystemUuid, objectId, objectGeneration, kind, h⟩

@[simp] theorem ApplicationResourceIdentity.new_self (r : ApplicationResourceIdentity) :
    new r.filesystemUuid r.objectId r.objectGeneration r.kind = some r := dif_neg r.valid

/-- The bits of the rights that exist: read, write, create, remove and enumerate. -/
def directoryRights : UInt16 := 31

/-- The bits of the rights to a file: read and write. -/
def fileRights : UInt16 := 3

structure ApplicationGrantRights where
  bits : UInt16
  valid : bits &&& ~~~ directoryRights = 0
  deriving DecidableEq

namespace ApplicationGrantRights

def fromBits (bits : UInt16) : Option ApplicationGrantRights :=
  if h : bits &&& ~~~ directoryRights = 0 then some ⟨bits, h⟩ else none

variable (r : ApplicationGrantRights)

@[simp] theorem fromBits_bits : fromBits r.bits = some r :=
  dif_pos r.valid

def contains (requested : ApplicationGrantRights) : Bool :=
  r.bits &&& requested.bits = requested.bits

def validFor (kind : ApplicationResourceKind) : Bool :=
  if r.bits = 0 then false
  else
    let maximum := match kind with
      | .file => fileRights
      | .directory => directoryRights
    maximum &&& r.bits = r.bits

theorem contains_self : r.contains r = true := by
  simp [contains]

end ApplicationGrantRights

inductive ApplicationGrantScope where
  | once | session | persistent
  deriving DecidableEq

inductive ApplicationGrantRevocation where
  | consumed | user | sessionEnded | resourceRemoved | applicationRemoved | policy | reset
  deriving DecidableEq

inductive ApplicationGrantState where
  | active
  | revoked (reason : ApplicationGrantRevocation)
  deriving DecidableEq

/-! ### Subjects -/

/-- What `new` refuses. -/
def inadmissible (user : UInt64) (principal : StableApplicationPrincipal) (installation : UInt64)
    (installScope : ApplicationInstallScope) : Bool :=
  user = 0 || principal.application = 0 || principal.publisher = 0 ||
    principal.signingLineage = 0 || installation = 0 ||
    principal.systemApplication != decide (principal.trustClass = .system) ||
    principal.systemApplication != decide (installScope = .systemGeneration)

/-- The application a grant belongs to, across updates and launches. -/
structure ApplicationGrantSubject where
  user : UInt64
  principal : StableApplicationPrincipal
  installation : UInt64
  installScope : ApplicationInstallScope
  valid : inadmissible user principal installation installScope = false
  deriving DecidableEq

variable (authorization : AuthorizedApplication)

namespace ApplicationGrantSubject

def new (user : UInt64) (principal : StableApplicationPrincipal) (installation : UInt64)
    (installScope : ApplicationInstallScope) : Option ApplicationGrantSubject :=
  if h : inadmissible user principal installation installScope = false then
    some ⟨user, principal, installation, installScope, h⟩
  else none

variable (s : ApplicationGrantSubject)

@[simp] theorem new_self : new s.user s.principal s.installation s.installScope = some s := dif_pos s.valid

def fromAuthorization : Option ApplicationGrantSubject :=
  if authorization.profile ≠ .desktop then none
  else new authorization.user authorization.principal authorization.installation
    authorization.installScope

def isTransient : Bool :=
  s.principal.trustClass = .transient || s.installScope = .transient

end ApplicationGrantSubject

/-! ### Records -/

structure ApplicationGrantRecord where
  (id revision : UInt64)
  subject : ApplicationGrantSubject
  resource : ApplicationResourceIdentity
  rights : ApplicationGrantRights
  scope : ApplicationGrantScope
  session : UInt64
  state : ApplicationGrantState
  deriving DecidableEq

namespace ApplicationGrantRecord

variable (r : ApplicationGrantRecord)

def active : Bool := r.state = .active

/-- The scope of a record agrees with its session and its subject. -/
def scopeCanonical : Bool :=
  match r.scope with
  | .once | .session => r.session ≠ 0
  | .persistent => r.session = 0 && !r.subject.isTransient

def canonical : Bool :=
  if r.id = 0 || r.revision = 0 || !r.rights.validFor r.resource.kind ||
      (ApplicationGrantSubject.new r.subject.user r.subject.principal r.subject.installation
        r.subject.installScope).isNone ||
      (ApplicationResourceIdentity.new r.resource.filesystemUuid r.resource.objectId
        r.resource.objectGeneration r.resource.kind).isNone then false
  else r.scopeCanonical

/-- The subject and the resource of a record are valid by their types. -/
theorem canonical_eq_true {r : ApplicationGrantRecord} : r.canonical = true ↔
    r.id ≠ 0 ∧ r.revision ≠ 0 ∧ r.rights.validFor r.resource.kind = true ∧ r.scopeCanonical = true := by
  simp [canonical, and_assoc]

/-- The grant is for the subject and the resource, and in force. -/
def covers (subject : ApplicationGrantSubject) (resource : ApplicationResourceIdentity)
    (r : ApplicationGrantRecord) : Bool :=
  r.active && r.subject = subject && r.resource = resource

theorem covers_iff {subject : ApplicationGrantSubject} {resource : ApplicationResourceIdentity}
    {r : ApplicationGrantRecord} : r.covers subject resource = true ↔
      r.active = true ∧ r.subject = subject ∧ r.resource = resource := by
  simp [covers, and_assoc]

end ApplicationGrantRecord

inductive ApplicationPermissionStoreError where
  | invalidAuthorization | invalidRights | transientPersistence | duplicateGrant | full
  | grantIdExhausted | revisionExhausted | unknownGrant | alreadyRevoked | invalidRevocation
  deriving DecidableEq

inductive ApplicationGrantAuthorizationError where
  | invalidAuthorization | invalidRights | notGranted | rightsDenied | scopeExpired
  | revisionExhausted
  deriving DecidableEq

inductive ApplicationPermissionLoadError where
  | capacity | invalidCounter | invalidRecord | duplicateGrantId | duplicateRevision
  | duplicateActiveGrant
  deriving DecidableEq

/-- What a successful authorization says. -/
structure ApplicationGrantAuthorization where
  (grantId grantRevision applicationSession : UInt64)
  subject : ApplicationGrantSubject
  resource : ApplicationResourceIdentity
  rights : ApplicationGrantRights
  scope : ApplicationGrantScope

/-! ### The store -/

structure ApplicationPermissionStore where
  grants : List (Option ApplicationGrantRecord)
  (nextGrantId nextRevision : UInt64)
  size : grants.length = maxApplicationGrants

inductive PreparedGrantCommit where
  | existing (index : ℕ) (consumedRevision : Option UInt64) (nextRevision : UInt64)
  | issued (slot : ℕ) (storedRecord : ApplicationGrantRecord) (nextGrantId nextRevision : UInt64)

/-- A prepared change.  It borrows the store, so nothing happens to the store before it is committed or
dropped. -/
structure PreparedApplicationGrant where
  authorization : ApplicationGrantAuthorization
  commit : PreparedGrantCommit

/-- An operation on the store that can fail with the given errors. -/
abbrev Op (ε α : Type) := Machine.Op ε ApplicationPermissionStore α

namespace ApplicationPermissionStore

/-- The slots that hold the given records, in their order. -/
def slots (records : List ApplicationGrantRecord) : List (Option ApplicationGrantRecord) :=
  (records.map some ++ List.replicate maxApplicationGrants none).take maxApplicationGrants

theorem length_slots (records : List ApplicationGrantRecord) :
    (slots records).length = maxApplicationGrants := by
  simp [slots]

def new : ApplicationPermissionStore := ⟨slots [], 1, 1, length_slots []⟩

variable (s : ApplicationPermissionStore)

def records : List ApplicationGrantRecord := s.grants.reduceOption

def setSlot (index : ℕ) (record : ApplicationGrantRecord) (s : ApplicationPermissionStore) :
    ApplicationPermissionStore :=
  { s with
    grants := s.grants.set index (some record)
    size := by rw [List.length_set, s.size] }

/-! ### Restoring a checkpoint -/

/-- The checks on a record of a checkpoint, behind the records that are already there. -/
def checkRestored (nextGrantId nextRevision : UInt64) (done : List ApplicationGrantRecord)
    (record : ApplicationGrantRecord) : Outcome ApplicationPermissionLoadError Unit := do
  rejectIf (record.canonical = false ∨ nextGrantId ≤ record.id ∨ nextRevision ≤ record.revision)
    .invalidRecord
  rejectIf (∃ existing ∈ done, existing.id = record.id) .duplicateGrantId
  rejectIf (∃ existing ∈ done, existing.revision = record.revision) .duplicateRevision
  rejectIf (record.active = true ∧
    ∃ existing ∈ done, existing.covers record.subject record.resource = true) .duplicateActiveGrant

def restoreEach (nextGrantId nextRevision : UInt64) (done : List ApplicationGrantRecord) :
    List (Option ApplicationGrantRecord) →
      Outcome ApplicationPermissionLoadError (List ApplicationGrantRecord)
  | [] => .ok done
  | none :: _ => trapped
  | some record :: rest => do
    checkRestored nextGrantId nextRevision done record
    restoreEach nextGrantId nextRevision (done ++ [record]) rest

def restoreCheckpointSlots (records : List (Option ApplicationGrantRecord)) (recordCount : ℕ)
    (nextGrantId nextRevision : UInt64) :
    Outcome ApplicationPermissionLoadError ApplicationPermissionStore := do
  rejectIf (maxApplicationGrants < recordCount ∨ none ∈ records.take recordCount ∨
    ∃ record ∈ records.drop recordCount, record ≠ none) .capacity
  rejectIf (nextGrantId = 0 ∨ nextRevision = 0) .invalidCounter
  let restored ← restoreEach nextGrantId nextRevision [] (records.take recordCount)
  return ⟨slots restored, nextGrantId, nextRevision, length_slots restored⟩

def restoreCheckpoint (records : List ApplicationGrantRecord) (nextGrantId nextRevision : UInt64) :
    Outcome ApplicationPermissionLoadError ApplicationPermissionStore := do
  rejectIf (maxApplicationGrants < records.length) .capacity
  restoreCheckpointSlots (slots records) records.length nextGrantId nextRevision

/-! ### Issuing -/

/-- What `issue` and `prepare_issue_authorization` have in common: the slot of a new grant, its record
and the counters behind it. -/
def preflightIssue (authorization : AuthorizedApplication) (resource : ApplicationResourceIdentity)
    (rights : ApplicationGrantRights) (scope : ApplicationGrantScope) :
    Outcome ApplicationPermissionStoreError (ℕ × ApplicationGrantRecord × UInt64 × UInt64) := do
  let subject ← okOr (ApplicationGrantSubject.fromAuthorization authorization) .invalidAuthorization
  rejectIf (rights.validFor resource.kind = false) .invalidRights
  rejectIf (scope = .persistent ∧ subject.isTransient = true) .transientPersistence
  rejectIf (∃ record ∈ s.records, record.covers subject resource = true) .duplicateGrant
  let slot ← okOr (s.grants.findIdx? Option.isNone) .full
  let nextGrantId ← okOr (checkedAddU64 s.nextGrantId 1) .grantIdExhausted
  let nextRevision ← okOr (checkedAddU64 s.nextRevision 1) .revisionExhausted
  let record : ApplicationGrantRecord :=
    ⟨s.nextGrantId, s.nextRevision, subject, resource, rights, scope,
      if scope = .persistent then 0 else authorization.session, .active⟩
  return (slot, record, nextGrantId, nextRevision)

variable (resource : ApplicationResourceIdentity)

def issue (rights : ApplicationGrantRights) (scope : ApplicationGrantScope) :
    Op ApplicationPermissionStoreError ApplicationGrantRecord := do
  let (slot, record, nextGrantId, nextRevision) ←
    read (·.preflightIssue authorization resource rights scope)
  modify fun s => { s.setSlot slot record with nextGrantId, nextRevision }
  return record

/-! ### Prepared changes -/

section

variable (authorization : AuthorizedApplication) (resource : ApplicationResourceIdentity)

def prepareAuthorization (requestedRights : ApplicationGrantRights) :
    Outcome ApplicationGrantAuthorizationError PreparedApplicationGrant := do
  let subject ← okOr (ApplicationGrantSubject.fromAuthorization authorization) .invalidAuthorization
  rejectIf (requestedRights.validFor resource.kind = false) .invalidRights
  let index ← okOr (s.grants.findIdx? fun record => record.any (·.covers subject resource))
    .notGranted
  -- the expectation that the slot just found is not empty
  let some record := s.grants.getD index none | trapped
  rejectIf (record.rights.contains requestedRights = false) .rightsDenied
  rejectIf (record.scope ≠ .persistent ∧ record.session ≠ authorization.session) .scopeExpired
  let (consumedRevision, nextRevision) ←
    if record.scope = .once then do
      let nextRevision ← okOr (checkedAddU64 s.nextRevision 1) .revisionExhausted
      pure (some s.nextRevision, nextRevision)
    else pure (none, s.nextRevision)
  return ⟨⟨record.id, record.revision, authorization.session, record.subject, resource,
    requestedRights, record.scope⟩, .existing index consumedRevision nextRevision⟩

/-- A grant that is used once is stored as used up. -/
def prepareIssueAuthorization (rights : ApplicationGrantRights) (scope : ApplicationGrantScope) :
    Outcome ApplicationPermissionStoreError PreparedApplicationGrant := do
  let (slot, record, nextGrantId, afterIssueRevision) ←
    s.preflightIssue authorization resource rights scope
  let (storedRecord, nextRevision) ←
    if scope = .once then do
      let nextRevision ← okOr (checkedAddU64 afterIssueRevision 1) .revisionExhausted
      pure ({ record with revision := afterIssueRevision, state := .revoked .consumed }, nextRevision)
    else pure (record, afterIssueRevision)
  return ⟨⟨record.id, record.revision, authorization.session, record.subject, resource, rights,
    scope⟩, .issued slot storedRecord nextGrantId nextRevision⟩

end

/-- Makes the prepared change. -/
def commitWithStore {ε : Type} (prepared : PreparedApplicationGrant) :
    Op ε ApplicationGrantAuthorization := do
  match prepared.commit with
  | .existing index (some revision) nextRevision =>
    let record ← read fun s =>
      match s.grants.getD index none with
      | some record => .ok record
      | none => trapped
    modify (setSlot index { record with revision, state := .revoked .consumed })
    modify ({ · with nextRevision })
  | .existing _ none _ => pure ()
  | .issued slot storedRecord nextGrantId nextRevision =>
    modify fun s => { s.setSlot slot storedRecord with nextGrantId, nextRevision }
  return prepared.authorization

def authorize (requestedRights : ApplicationGrantRights) :
    Op ApplicationGrantAuthorizationError ApplicationGrantAuthorization := do
  let prepared ← read (·.prepareAuthorization authorization resource requestedRights)
  commitWithStore prepared

/-! ### Revoking -/

def revoke (grantId : UInt64) (reason : ApplicationGrantRevocation) :
    Op ApplicationPermissionStoreError ApplicationGrantRecord := do
  check (rejectIf (reason = .consumed) .invalidRevocation)
  let index ← read fun s =>
    okOr (s.grants.findIdx? fun record => record.any (·.id = grantId)) .unknownGrant
  let record ← read fun s =>
    match s.grants.getD index none with
    | some record => .ok record
    | none => trapped
  check (rejectIf (record.active = false) .alreadyRevoked)
  let revision ← read fun s => .ok s.nextRevision
  let nextRevision ← check (okOr (checkedAddU64 revision 1) .revisionExhausted)
  modify ({ · with nextRevision })
  let revoked : ApplicationGrantRecord := { record with revision, state := .revoked reason }
  modify (setSlot index revoked)
  return revoked

/-- The loop over the slots; the revisions are given in their order. -/
def revokeEach (reason : ApplicationGrantRevocation) (predicate : ApplicationGrantRecord → Bool) :
    UInt64 → List (Option ApplicationGrantRecord) → List (Option ApplicationGrantRecord)
  | _, [] => []
  | revision, none :: rest => none :: revokeEach reason predicate revision rest
  | revision, some record :: rest =>
    if record.active && predicate record then
      some { record with revision, state := .revoked reason } ::
        revokeEach reason predicate (revision + 1) rest
    else some record :: revokeEach reason predicate revision rest

variable (reason : ApplicationGrantRevocation) (predicate : ApplicationGrantRecord → Bool)

theorem length_revokeEach (revision : UInt64) (grants : List (Option ApplicationGrantRecord)) :
    (revokeEach reason predicate revision grants).length = grants.length := by
  induction grants generalizing revision with
  | nil => rfl
  | cons slot rest ih =>
    cases slot with
    | none => simp [revokeEach, ih]
    | some =>
      rw [revokeEach]
      split <;> simp [ih]

def revokeMatching : Op ApplicationPermissionStoreError ℕ := do
  check (rejectIf (reason = .consumed) .invalidRevocation)
  let count ← read fun s =>
    .ok (s.records.filter fun record => record.active && predicate record).length
  let nextRevision ← read fun s =>
    okOr (checkedAddU64 s.nextRevision (UInt64.ofNat count)) .revisionExhausted
  modify fun s =>
    { s with
      grants := revokeEach reason predicate s.nextRevision s.grants
      size := by rw [length_revokeEach, s.size] }
  modify ({ · with nextRevision })
  return count

def resetApplication : Op ApplicationPermissionStoreError ℕ := do
  let subject ← check
    (okOr (ApplicationGrantSubject.fromAuthorization authorization) .invalidAuthorization)
  revokeMatching reason (·.subject = subject)

def revokeResource : Op ApplicationPermissionStoreError ℕ :=
  revokeMatching reason (·.resource = resource)

end ApplicationPermissionStore

end Permission
