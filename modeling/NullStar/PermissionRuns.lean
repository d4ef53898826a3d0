/-
**What a grant authorizes, over the whole life of the store.**

Whatever happens to the store in between, an authorization under the id of a grant is one that this
grant allows, and there is none after the grant has ended.  A round trip through a checkpoint is an
operation like the others, so this holds over any number of them.

* `Operation.commits` — every operation keeps the invariant and continues the grants, or
  changes nothing;
* `grants_authorize_exactly` — authorizations in every run;
* `regrant_iff_notGranted` — when a refused application can be given a grant.
-/

import NullStar.PermissionHistory

set_option autoImplicit false

namespace Permission

open Rust Machine ApplicationPermissionStore

/-! ### Operations -/

/-- The operations.  A prepared change is committed or dropped before anything else can happen to the
store, since it borrows the store. -/
inductive Operation where
  | issue (authorization : AuthorizedApplication) (resource : ApplicationResourceIdentity)
      (rights : ApplicationGrantRights) (scope : ApplicationGrantScope)
  | authorize (authorization : AuthorizedApplication) (resource : ApplicationResourceIdentity)
      (requestedRights : ApplicationGrantRights)
  | prepareAuthorization (authorization : AuthorizedApplication)
      (resource : ApplicationResourceIdentity) (requestedRights : ApplicationGrantRights) (commit : Bool)
  | prepareIssueAuthorization (authorization : AuthorizedApplication)
      (resource : ApplicationResourceIdentity) (rights : ApplicationGrantRights)
      (scope : ApplicationGrantScope) (commit : Bool)
  | revoke (grantId : UInt64) (reason : ApplicationGrantRevocation)
  | resetApplication (authorization : AuthorizedApplication) (reason : ApplicationGrantRevocation)
  | revokeResource (resource : ApplicationResourceIdentity) (reason : ApplicationGrantRevocation)
  | reload (generation : UInt64)
  | restore

inductive Failure where
  | store (e : ApplicationPermissionStoreError)
  | authorization (e : ApplicationGrantAuthorizationError)
  | checkpoint (e : ApplicationPermissionCheckpointError)
  | load (e : ApplicationPermissionLoadError)

/-- What the caller gets: the record of a grant, or a committed authorization. -/
structure Report where
  issued : Option ApplicationGrantRecord := none
  authorized : Option ApplicationGrantAuthorization := none

/-- A prepared change is committed or dropped. -/
def finish (prepared : PreparedApplicationGrant) (commit : Bool) : Op Failure Report :=
  if commit then do
    let a ← commitWithStore prepared
    return { authorized := some a }
  else return {}

/-- The store is written to a checkpoint and read back from it. -/
def reloaded (generation : UInt64) (s : ApplicationPermissionStore) :
    Outcome ApplicationPermissionCheckpointError ApplicationPermissionStore := do
  let bytes ← encodeApplicationPermissionCheckpoint s generation
  let (_, store) ← decodeApplicationPermissionCheckpoint bytes
  return store

namespace Operation

def run : Operation → Op Failure Report
  | .issue authorization resource rights scope => do
    let r ← mapFault .store (ApplicationPermissionStore.issue authorization resource rights scope)
    return { issued := some r }
  | .authorize authorization resource requestedRights => do
    let a ← mapFault .authorization
      (ApplicationPermissionStore.authorize authorization resource requestedRights)
    return { authorized := some a }
  | .prepareAuthorization authorization resource requestedRights commit => do
    let prepared ← read fun s => mapErr .authorization
      (s.prepareAuthorization authorization resource requestedRights)
    finish prepared commit
  | .prepareIssueAuthorization authorization resource rights scope commit => do
    let prepared ← read fun s => mapErr .store
      (s.prepareIssueAuthorization authorization resource rights scope)
    finish prepared commit
  | .revoke grantId reason => do
    let _ ← mapFault .store (ApplicationPermissionStore.revoke grantId reason)
    return {}
  | .resetApplication authorization reason => do
    let _ ← mapFault .store (ApplicationPermissionStore.resetApplication authorization reason)
    return {}
  | .revokeResource resource reason => do
    let _ ← mapFault .store (ApplicationPermissionStore.revokeResource resource reason)
    return {}
  | .reload generation => do
    let store ← read fun s => mapErr .checkpoint (reloaded generation s)
    set store
    return {}
  | .restore => do
    let store ← read fun s =>
      mapErr .load (restoreCheckpoint s.records s.nextGrantId s.nextRevision)
    set store
    return {}

/-- The operation asks for a grant like this. -/
def Issues : Operation → ApplicationGrantRecord → Prop
  | .issue authorization resource rights scope, r => IssuedFor authorization resource rights scope r
  | _, _ => False

/-- The authorization that the operation commits, with the stores before and after it. -/
def Authorizes : Operation → ApplicationPermissionStore → ApplicationPermissionStore →
    ApplicationGrantAuthorization → Prop
  | .authorize authorization resource requestedRights, s, s', a
  | .prepareAuthorization authorization resource requestedRights _, s, s', a =>
    AuthorizesExisting s s' authorization resource requestedRights a
  | .prepareIssueAuthorization authorization resource rights scope _, s, s', a =>
    AuthorizesIssued s s' authorization resource rights scope a
  | _, _, _, _ => False

def Revokes : Operation → ApplicationGrantRecord → Prop
  | .revoke grantId _, r => r.id = grantId
  | .resetApplication authorization _, r =>
    ApplicationGrantSubject.fromAuthorization authorization = some r.subject
  | .revokeResource resource _, r => r.resource = resource
  | _, _ => False

/-- The operation drops a prepared change. -/
def drops : Operation → Bool
  | .prepareAuthorization _ _ _ commit | .prepareIssueAuthorization _ _ _ _ commit => !commit
  | _ => false

end Operation

/-- What an operation has done when it returns. -/
structure Done (op : Operation) (s s' : ApplicationPermissionStore) (report : Report) : Prop where
  kept : Next s s'
  issued : ∀ r, report.issued = some r → r ∈ s'.records ∧ r.active = true ∧ r.id = s.nextGrantId ∧ op.Issues r
  authorized : ∀ a, report.authorized = some a → op.Authorizes s s' a
  revoked : ∀ r ∈ s'.records, op.Revokes r → r.active = false
  dropped : op.drops = true → s' = s

variable {s s' : ApplicationPermissionStore} {op : Operation} {a : ApplicationGrantAuthorization}

/-- Operations that report nothing. -/
theorem Done.quiet (hkept : Next s s') (hrevoked : ∀ r ∈ s'.records, op.Revokes r → r.active = false)
    (hdropped : op.drops = true → s' = s) : Done op s s' {} :=
  ⟨hkept, fun _ h => absurd h (by simp), fun _ h => absurd h (by simp), hrevoked, hdropped⟩

/-- Operations that report an authorization. -/
theorem Done.of_authorized (hkept : Next s s') (ha : op.Authorizes s s' a)
    (hrevokes : ∀ r, ¬ op.Revokes r) (hdrops : op.drops = false) : Done op s s' { authorized := some a } := by
  refine ⟨hkept, fun _ h => absurd h (by simp), fun b hb => ?_, fun r _ hr => absurd hr (hrevokes r),
    fun h => absurd h (by simp [hdrops])⟩
  cases hb
  exact ha

/-- The end of an operation with a prepared change. -/
theorem finish_returns (hs : Sound s) {prepared : PreparedApplicationGrant} {commit : Bool}
    (hdrops : op.drops = !commit) (hrevokes : ∀ r, ¬ op.Revokes r)
    (hcommit : Returns s (commitWithStore prepared : Op Failure ApplicationGrantAuthorization)
      fun a s' => Next s s' ∧ op.Authorizes s s' a) :
    Returns s (finish prepared commit) fun report s' => Done op s s' report := by
  cases commit with
  | true =>
    refine hcommit.bind fun a s' ⟨hkept, ha⟩ => .of_return ?_
    exact .of_authorized hkept ha hrevokes hdrops
  | false =>
    exact .of_return (.quiet (.refl hs) (fun r _ hr => absurd hr (hrevokes r)) fun _ => rfl)

theorem Sound.reloaded (hs : Sound s) (generation : UInt64) : NoTrap (reloaded generation s) ∧
      ∀ store, Permission.reloaded generation s = .ok store → store = s.compact := by
  by_cases hgeneration : generation = 0
  · have hfail : Permission.reloaded generation s = fail .header := by
      rw [Permission.reloaded, encodeApplicationPermissionCheckpoint, rejectIf, if_pos hgeneration]
      rfl
    rw [hfail]
    exact ⟨noTrap_fail, fun store h => by cases h⟩
  · have hok : Permission.reloaded generation s = .ok s.compact := by
      rw [Permission.reloaded, hs.encode hgeneration, ok_bind, hs.decode hgeneration]
      rfl
    rw [hok]
    exact ⟨noTrap_ok, fun store h => (Except.ok.inj h).symm⟩

theorem Operation.commits (hs : Sound s) (op : Operation) :
    Commits s op.run fun report s' => Done op s s' report := by
  cases op with
  | issue authorization resource rights scope =>
    refine (issue_commits hs).mapFault.bind ?_
    rintro r s' ⟨hkept, hr⟩
    refine .of_return ⟨hkept, fun r' h => ?_, fun _ h => absurd h (by simp), fun _ _ h => h.elim,
      fun h => absurd h (by simp [Operation.drops])⟩
    cases h
    exact hr
  | authorize authorization resource rights =>
    refine (authorize_commits hs).mapFault.bind ?_
    rintro a s' ⟨hkept, ha⟩
    exact .of_return (.of_authorized hkept ha (fun _ h => h) rfl)
  | prepareAuthorization =>
    refine .read_bind noTrap_prepareAuthorization.mapErr fun prepared hok => .inl ?_
    obtain ⟨index, r, h⟩ := prepareAuthorization_ok (mapErr_eq_ok.1 hok)
    exact finish_returns hs rfl (fun _ h => h) (h.commits hs)
  | prepareIssueAuthorization =>
    refine .read_bind noTrap_prepareIssueAuthorization.mapErr fun prepared hok => .inl ?_
    exact finish_returns hs rfl (fun _ h => h) (prepareIssue_commits hs (mapErr_eq_ok.1 hok))
  | revoke grantId reason =>
    refine (revoke_commits hs grantId reason).mapFault.bind ?_
    rintro _ s' ⟨hkept, hrevoked⟩
    exact .of_return (.quiet hkept hrevoked fun h => absurd h (by simp [Operation.drops]))
  | resetApplication authorization reason =>
    refine (resetApplication_commits hs authorization reason).mapFault.bind ?_
    rintro _ s' ⟨hkept, hrevoked⟩
    exact .of_return (.quiet hkept hrevoked fun h => absurd h (by simp [Operation.drops]))
  | revokeResource resource reason =>
    refine (revokeResource_commits hs resource reason).mapFault.bind ?_
    rintro _ s' ⟨hkept, hrevoked⟩
    exact .of_return (.quiet hkept hrevoked fun h => absurd h (by simp [Operation.drops]))
  | reload generation =>
    obtain ⟨hnoTrap, hstore⟩ := Sound.reloaded hs generation
    refine .read_bind hnoTrap.mapErr fun store hok => .inl (.set_bind (.of_return ?_))
    obtain rfl := hstore store (mapErr_eq_ok.1 hok)
    exact .quiet hs.compact (fun _ _ h => h.elim) fun h => absurd h (by simp [Operation.drops])
  | restore =>
    refine .read_bind (by rw [hs.restoreCheckpoint]; exact noTrap_ok) fun store hok =>
      .inl (.set_bind (.of_return ?_))
    rw [hs.restoreCheckpoint] at hok
    cases hok
    exact .quiet hs.compact (fun _ _ h => h.elim) fun h => absurd h (by simp [Operation.drops])

/-! ### Runs -/

/-- The stores that some operations lead to.  The end of an operation counts also when it fails. -/
def RunsTo (s : ApplicationPermissionStore) : ApplicationPermissionStore → Prop :=
  Reachable (· = s) (fun _ (_ : Operation) => True) fun s op => endState op.run s

/-- The stores of all runs from the empty store. -/
def Reached : ApplicationPermissionStore → Prop := RunsTo ApplicationPermissionStore.new

theorem sound_new : Sound ApplicationPermissionStore.new := by
  constructor
  all_goals first | rw [hnone] | decide

/-- The end of every operation continues the store. -/
theorem Operation.endState_kept (hs : Sound s) (op : Operation) : Next s (endState op.run s) := by
  cases hrun : op.run s with
  | ok =>
    rw [endState_of_ok hrun]
    exact ((op.commits hs).of_ok hrun).kept
  | error =>
    rw [endState_of_error hrun, ((op.commits hs).of_error hrun).1]
    exact .refl hs

theorem RunsTo.kept (hs : Sound s) (h : RunsTo s s') : Next s s' := by
  refine Reachable.keeps ?_ ?_ h
  · rintro t rfl
    exact .refl hs
  · intro t op ht _
    have hnext := op.endState_kept ht.sound
    exact ⟨hnext.sound, ht.later.trans hnext.later, hnext.packed ∘ ht.packed⟩

theorem Reached.sound (h : Reached s) : Sound s := (RunsTo.kept sound_new h).sound

/-- The grant under which an authorization is given: it is in the store or it is new. -/
theorem Operation.Authorizes.cases (h : op.Authorizes s s' a) :
    ((∃ r ∈ s.records, r.active = true ∧ Allows r a) ∨
      (a.grantId = s.nextGrantId ∧ ∀ r ∈ s.records, r.covers a.subject a.resource = false)) ∧
      ∃ r, Settles s' a r := by
  cases op with
  | authorize | prepareAuthorization => exact ⟨.inl h.grant, h.settles⟩
  | prepareIssueAuthorization =>
    obtain ⟨r, hr, -⟩ := h.settles
    exact ⟨.inr ⟨h.fresh, h.none_covers⟩, r, hr⟩
  | _ => exact h.elim

/-- An authorization under the id of a grant of an earlier store is one that the grant allows, and the
grant had not ended. -/
theorem allows_of_authorizes (hs : Sound s) (hrun : RunsTo s s') {r : ApplicationGrantRecord}
    (hr : r ∈ s.records) {report : Report} {s'' : ApplicationPermissionStore}
    (hop : op.run s' = .ok report s'') (ha : report.authorized = some a) (hid : a.grantId = r.id) :
    r.active = true ∧ Allows r a := by
  obtain ⟨hs', hlater, -⟩ := RunsTo.kept hs hrun
  obtain ⟨r', hr', hc⟩ := hlater.continues r hr
  have hdone := ((op.commits hs').of_ok hop).authorized a ha
  rcases hdone.cases.1 with ⟨q, hq, hqa, hallows⟩ | ⟨hfresh, -⟩
  · -- the grant found is what became of the grant
    obtain rfl : r' = q := hs'.eq_of_id hr' hq (hc.id.trans (hid.symm.trans hallows.grantId))
    refine ⟨?_, hallows.of_continues hc⟩
    by_contra hended
    rw [hc.ended (Bool.eq_false_iff.2 hended)] at hqa
    simp at hqa
  · -- a new id is none of an earlier grant
    have hlt := hs.idsBelow r hr
    have hle := hlater.nextGrantId
    rw [← hid, hfresh] at hlt
    omega

/-- **Grants authorize exactly what was granted.**  In every run: ids and revisions are unique and below
the counters, no transient application has a persistent grant, and there is one active grant at most
for an application and a resource.  An operation that fails, and one that drops a prepared change,
leaves the store as it is.  An authorization is given under the one active grant for what is asked, or
under a grant issued for it; over the rest of the run, every authorization under the id of a grant is
one that the grant as issued allows, and there is none after the grant was revoked or used up. -/
theorem grants_authorize_exactly (h : Reached s) :
    ((s.records.map (·.id)).Nodup ∧ (s.records.map (·.revision)).Nodup ∧
      (∀ r ∈ s.records, r.id < s.nextGrantId ∧ r.revision < s.nextRevision ∧
        (r.scope = .persistent → r.subject.isTransient = false)) ∧
      ∀ r ∈ s.records, ∀ r' ∈ s.records, r.active = true → r'.active = true →
        r.subject = r'.subject → r.resource = r'.resource → r = r') ∧
    (∀ (op : Operation) e s', op.run s = .error e s' → s' = s ∧ e ≠ .trap) ∧
    (∀ (op : Operation) report s', op.run s = .ok report s' → (op.drops = true → s' = s) ∧
      (∀ r, report.issued = some r → r ∈ s'.records ∧ r.active = true ∧ r.id = s.nextGrantId ∧ op.Issues r) ∧
      (∀ r ∈ s'.records, op.Revokes r → r.active = false) ∧
      ∀ a, report.authorized = some a → op.Authorizes s s' a ∧
        (∀ r ∈ s.records, r.covers a.subject a.resource = true → r.id = a.grantId) ∧
        -- a grant for one use is not used again
        (a.scope = .once → ∀ s₁, RunsTo s' s₁ → ∀ (op₁ : Operation) report₁ s₂ b,
          op₁.run s₁ = .ok report₁ s₂ → report₁.authorized = some b → b.grantId ≠ a.grantId)) ∧
    ∀ r ∈ s.records, ∀ s', RunsTo s s' → ∀ (op : Operation) report s'' a,
      op.run s' = .ok report s'' → report.authorized = some a → a.grantId = r.id →
        r.active = true ∧ Allows r a := by
  have hs := h.sound
  refine ⟨⟨hs.ids, hs.revisions, fun r hr => ⟨?_, ?_, ?_⟩, hs.single⟩,
    fun op e s' hrun => (op.commits hs).of_error hrun, fun op report s' hrun => ?_,
    fun r hr s' hrun op report s'' a hop ha hid => allows_of_authorizes hs hrun hr hop ha hid⟩
  · exact UInt64.lt_iff_toNat_lt.2 (hs.idsBelow r hr)
  · exact UInt64.lt_iff_toNat_lt.2 (hs.revisionsBelow r hr)
  · intro hscope
    have hcanonical := (ApplicationGrantRecord.canonical_eq_true.1 (hs.canonical r hr)).2.2.2
    rw [ApplicationGrantRecord.scopeCanonical, hscope] at hcanonical
    simp only [Bool.and_eq_true, Bool.not_eq_true'] at hcanonical
    exact hcanonical.2
  · have hdone := (op.commits hs).of_ok hrun
    refine ⟨hdone.dropped, hdone.issued, hdone.revoked, fun a ha => ?_⟩
    have hauthorizes := hdone.authorized a ha
    obtain ⟨hgrant, q, hq⟩ := hauthorizes.cases
    refine ⟨hauthorizes, fun r hr hcovers => ?_, fun honce s₁ hrun1 op₁ report₁ s₂ b hop1 hb hid => ?_⟩
    · rcases hgrant with ⟨r', hr', hactive, hallows⟩ | ⟨-, hnone⟩
      · obtain ⟨hra, hsubject, hresource⟩ := ApplicationGrantRecord.covers_iff.1 hcovers
        rw [hs.single r hr r' hr' hra hactive (hsubject.trans hallows.subject)
          (hresource.trans hallows.resource)]
        exact hallows.grantId.symm
      · rw [hnone r hr] at hcovers
        simp at hcovers
    · have hactive := (allows_of_authorizes hdone.kept.1 hrun1 hq.mem hop1 hb
        (hid.trans hq.allows.grantId)).1
      exact hq.active.1 hactive honce

theorem seven_ne_zero : (7 : UInt64) ≠ 0 := by decide

/-- A desktop application in its seventh session. -/
def viewer : AuthorizedApplication :=
  ⟨1, 7, ⟨1, 1, 1, .repository, false⟩, 1, .user, .desktop, seven_ne_zero⟩

def document : ApplicationResourceIdentity :=
  ⟨⟨List.replicate 16 1, rfl⟩, 1, 1, .file, by decide⟩

theorem one_within : (1 : UInt16) &&& ~~~directoryRights = 0 := by decide

/-- The right to read. -/
def reading : ApplicationGrantRights := ⟨1, one_within⟩

/-- The store with one grant, which is for one use. -/
def issuedOnce : ApplicationPermissionStore :=
  endState (Operation.issue viewer document reading .once).run ApplicationPermissionStore.new

theorem reached_issuedOnce : Reached issuedOnce := .step (.start rfl) trivial

theorem grants_authorize_exactly_issuedOnce : Reached issuedOnce ∧
    ∃ report s' a, (Operation.authorize viewer document reading).run issuedOnce = .ok report s' ∧
      report.authorized = some a ∧ a.grantId = 1 ∧ ∀ s₁, RunsTo s' s₁ → ∀ (op₁ : Operation) report₁ s₂ b,
        op₁.run s₁ = .ok report₁ s₂ → report₁.authorized = some b → b.grantId ≠ a.grantId := by
  obtain ⟨report, s', a, hrun, ha, hid, honce⟩ : ∃ report s' a,
      (Operation.authorize viewer document reading).run issuedOnce = .ok report s' ∧
        report.authorized = some a ∧ a.grantId = 1 ∧ a.scope = .once :=
    ⟨_, _, _, rfl, rfl, rfl, rfl⟩
  have hstep := (grants_authorize_exactly reached_issuedOnce).2.2.1 _ report s' hrun
  exact ⟨reached_issuedOnce, report, s', a, hrun, ha, hid, (hstep.2.2.2 a ha).2.2 honce⟩

/-! ### Granting again what has been refused -/

section

variable {authorization : AuthorizedApplication} {resource : ApplicationResourceIdentity}
  {asked rights : ApplicationGrantRights} {scope : ApplicationGrantScope}
  {subject : ApplicationGrantSubject} {e : ApplicationGrantAuthorizationError}

/-- A refusal for want of a grant, or because it has expired, tells whether there is an active one. -/
theorem prepareAuthorization_refused
    (h : s.prepareAuthorization authorization resource asked = .error (.err e))
    (he : e = .notGranted ∨ e = .scopeExpired) :
    ∃ subject, ApplicationGrantSubject.fromAuthorization authorization = some subject ∧
      (e = .scopeExpired ↔ ∃ r ∈ s.records, r.covers subject resource = true) := by
  simp only [prepareAuthorization, bind_eq_err, okOr_eq_ok, rejectIf_eq_ok, rejectIf_eq_err, okOr_eq_err] at h
  rcases h with ⟨-, rfl⟩ | ⟨subject, hsubject, ⟨-, rfl⟩ | ⟨-, -, ⟨hnone, rfl⟩ | ⟨index, hindex, h⟩⟩⟩
  · simp at he
  · simp at he
  · refine ⟨subject, hsubject, ?_⟩
    simp only [List.findIdx?_eq_none_iff] at hnone
    refine iff_of_false (by simp) ?_
    rintro ⟨r, hr, hcovers⟩
    have := hnone _ (List.reduceOption_mem_iff.1 hr)
    simp [hcovers] at this
  · obtain ⟨-, hany⟩ := findIdx_spec hindex
    obtain ⟨r, hr, hcovers⟩ := (Option.any_eq_true _ _).1 hany
    refine ⟨subject, hsubject, iff_of_true (he.resolve_left ?_) ⟨r, mem_records_of_getD hr, hcovers⟩⟩
    rintro rfl
    rw [hr] at h
    dsimp only at h
    split_ifs at h <;> simp [bind_eq_err] at h

/-- A new grant can be prepared when there is no active one. -/
theorem preflightIssue_fresh
    (hsubject : ApplicationGrantSubject.fromAuthorization authorization = some subject)
    (hrights : rights.validFor resource.kind = true)
    (hscope : ¬ (scope = .persistent ∧ subject.isTransient = true))
    (hnone : ¬ ∃ r ∈ s.records, r.covers subject resource = true) (hslot : none ∈ s.grants)
    (hid : s.nextGrantId.toNat + 1 < 2 ^ 64) (hrevision : s.nextRevision.toNat + 1 < 2 ^ 64) :
    ∃ slot r, s.preflightIssue authorization resource rights scope =
      .ok (slot, r, s.nextGrantId + 1, s.nextRevision + 1) := by
  obtain ⟨slot, hfind⟩ : ∃ slot, s.grants.findIdx? Option.isNone = some slot :=
    Option.isSome_iff_exists.1 (List.findIdx?_isSome.trans (List.any_eq_true.2 ⟨none, hslot, rfl⟩))
  unfold preflightIssue
  rw [hsubject, okOr_some, ok_bind, rejectIf_of_not (by simp [hrights]), rejectIf_of_not hscope,
    rejectIf_of_not hnone, hfind, checkedAddU64_one hid, checkedAddU64_one hrevision]
  exact ⟨slot, _, rfl⟩

variable (rights scope) in
/-- In every store with a free slot and counters that are not used up, an application whose
authorization was refused for want of a grant can be given one.  If it was refused because the grant
has expired, it cannot: the expired grant is still active. -/
theorem regrant_iff_notGranted (h : Reached s) (hslot : none ∈ s.grants)
    (hid : s.nextGrantId.toNat + 1 < 2 ^ 64) (hrevision : s.nextRevision.toNat + 2 < 2 ^ 64)
    (hrefused : authorize authorization resource asked s = .error (.err e) s')
    (he : e = .notGranted ∨ e = .scopeExpired) (hrights : rights.validFor resource.kind = true)
    (hscope : scope = .persistent → ∀ subject,
      ApplicationGrantSubject.fromAuthorization authorization = some subject →
        subject.isTransient = false) : if e = .notGranted then
      (∃ prepared, s.prepareIssueAuthorization authorization resource rights scope = .ok prepared) ∧
        ∃ r s', issue authorization resource rights scope s = .ok r s' else
      s.prepareIssueAuthorization authorization resource rights scope = fail .duplicateGrant ∧
        issue authorization resource rights scope s = .error (.err .duplicateGrant) s := by
  have hprepare : s.prepareAuthorization authorization resource asked = .error (.err e) := by
    rcases bind_error.1 hrefused with hread | ⟨prepared, s1, hread, hcommit⟩
    · exact (read_error.1 hread).1
    · obtain ⟨hok, rfl⟩ := read_ok.1 hread
      obtain ⟨index, r, hp⟩ := prepareAuthorization_ok hok
      obtain ⟨a, s2, hreturn, -⟩ := hp.commits (ε := ApplicationGrantAuthorizationError) h.sound
      rw [hreturn] at hcommit
      cases hcommit
  obtain ⟨subject, hsubject, hcovers⟩ := prepareAuthorization_refused hprepare he
  have hscope' : ¬ (scope = .persistent ∧ subject.isTransient = true) := by
    rintro ⟨hpersistent, htransient⟩
    simp [hscope hpersistent subject hsubject] at htransient
  split
  · next hnot =>
      have hnone := mt hcovers.2 (by simp [hnot])
      obtain ⟨slot, r, hfresh⟩ := preflightIssue_fresh hsubject hrights hscope' hnone hslot hid (by omega)
      have hnext : (s.nextRevision + 1).toNat + 1 < 2 ^ 64 := by
        rw [UInt64.toNat_add, UInt64.toNat_one]
        omega
      refine ⟨?_, r, _, bind_ok.2 ⟨_, s, read_ok.2 ⟨hfresh, rfl⟩, rfl⟩⟩
      unfold prepareIssueAuthorization
      rw [hfresh, ok_bind]
      dsimp only
      split
      · rw [checkedAddU64_one hnext]
        exact ⟨_, rfl⟩
      · exact ⟨_, rfl⟩
  · next hnot =>
      have hduplicate : s.preflightIssue authorization resource rights scope = fail .duplicateGrant := by
        unfold preflightIssue
        rw [hsubject, okOr_some, ok_bind, rejectIf_of_not (by simp [hrights]),
          rejectIf_of_not hscope', rejectIf, if_pos (hcovers.1 (he.resolve_left hnot))]
        rfl
      refine ⟨by rw [prepareIssueAuthorization, hduplicate]; rfl, ?_⟩
      exact bind_error.2 (.inl (read_error.2 ⟨hduplicate, rfl⟩))

end

/-- The application in its next session. -/
def viewerAgain : AuthorizedApplication := { viewer with session := 8, session_ne := by decide }

/-- The store with one grant, which is for the session. -/
def issuedSession : ApplicationPermissionStore :=
  endState (Operation.issue viewer document reading .session).run ApplicationPermissionStore.new

theorem reached_issuedSession : Reached issuedSession := .step (.start rfl) trivial

/-- Another file. -/
def letter : ApplicationResourceIdentity := ⟨⟨List.replicate 16 1, rfl⟩, 2, 1, .file, by decide⟩

/-- A grant of the document has been used up and another one was revoked; a third one, of another file, is
for the session. -/
def mixedGrants : ApplicationPermissionStore :=
  ([.issue viewer document reading .once, .authorize viewer document reading,
    .issue viewer document reading .session, .revoke 2 .user,
    .issue viewer letter reading .session] : List Operation).foldl (fun s op => endState op.run s) .new

/-- The application may be given a grant of the document again.  In its next session it may not be given
one of the other file. -/
theorem regrant_iff_notGranted_mixed :
    mixedGrants.records.map (fun r => (r.id, r.resource, r.state)) = [(1, document, .revoked .consumed),
      (2, document, .revoked .user), (3, letter, .active)] ∧
    Reached mixedGrants ∧
    (∃ r s', issue viewer document reading .once mixedGrants = .ok r s') ∧
    issue viewerAgain letter reading .session mixedGrants = .error (.err .duplicateGrant) mixedGrants := by
  have hnew : Reached .new := .start rfl
  have hreached : Reached mixedGrants := Reachable.foldl hnew _
  have hnotGranted : authorize viewer document reading mixedGrants = .error (.err .notGranted) _ := rfl
  have hexpired : authorize viewerAgain letter reading mixedGrants = .error (.err .scopeExpired) _ := rfl
  have hagain := regrant_iff_notGranted reading .once hreached (by decide) (by decide) (by decide)
    hnotGranted (.inl rfl) rfl (by simp)
  have hkept := regrant_iff_notGranted reading .session hreached (by decide) (by decide) (by decide)
    hexpired (.inr rfl) rfl (by simp)
  exact ⟨by decide, hreached, hagain.2, hkept.2⟩

/-- The grant of an earlier session authorizes nothing in the next one and keeps a new one out. -/
theorem expired_grant_keeps_out : Reached issuedSession ∧ none ∈ issuedSession.grants ∧
    authorize viewerAgain document reading issuedSession = .error (.err .scopeExpired) issuedSession ∧
    issuedSession.prepareIssueAuthorization viewerAgain document reading .session =
      fail .duplicateGrant ∧ issue viewerAgain document reading .session issuedSession =
      .error (.err .duplicateGrant) issuedSession :=
  ⟨reached_issuedSession, by decide, rfl, rfl, rfl⟩

end Permission
