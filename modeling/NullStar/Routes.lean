/-
**Routes to services.**

A provider publishes its authority under a key, with a generation that must be newer than every
generation the key had before; the table keeps the generation also when the authority has been
withdrawn.  A caller that is authorized gets a connection issued from the authority.

* `ServiceId`, `RoleId`, `ProviderGeneration`, `RouteKey` — identifiers, with what their constructors check;
* `RouteTable` with `publish` and `withdraw`;
* `connect` — the broker's connection, with a policy and an issuer that have a state of
  their own;
* `RouteTable.publish_cases`, `RouteTable.withdraw_cases`,
  `connect_authorized` — everything that the calls can do;
* `connect_unauthorized` — a rejected caller learns nothing;
* `routes_never_go_back` — what holds in every run.
-/

import Mathlib.Data.Multiset.Range
import NullStar.Keyed
import NullStar.Machine

set_option autoImplicit false

namespace ServiceRoute

open Bytes Rust Machine Keyed List

/-! ### Identifiers -/

inductive ServiceIdError where
  | nil | invalidVersion | invalidVariant
  deriving DecidableEq

def checkServiceId (bytes : Buf 16) : Except ServiceIdError Unit :=
  if bytes = Buf.zero 16 then .error .nil
  else if bytes.1.getD 6 0 >>> 4 ≠ 4 then .error .invalidVersion
  else if bytes.1.getD 8 0 &&& 0xc0 ≠ 0x80 then .error .invalidVariant
  else .ok ()

/-- A UUID of version 4. -/
structure ServiceId where
  bytes : Buf 16
  valid : checkServiceId bytes = .ok ()
  deriving DecidableEq

def ServiceId.fromBytes (bytes : Buf 16) : Except ServiceIdError ServiceId :=
  match h : checkServiceId bytes with
  | .ok () => .ok ⟨bytes, h⟩
  | .error e => .error e

structure RoleId where
  value : UInt32
  ne_zero : value ≠ 0
  deriving DecidableEq

def RoleId.new (value : UInt32) : Option RoleId :=
  if h : value = 0 then none else some ⟨value, h⟩

/-- The incarnation of a provider. -/
structure ProviderGeneration where
  value : UInt64
  ne_zero : value ≠ 0
  deriving DecidableEq

def ProviderGeneration.new (value : UInt64) : Option ProviderGeneration :=
  if h : value = 0 then none else some ⟨value, h⟩

structure RouteKey where
  service : ServiceId
  role : RoleId
  deriving DecidableEq

/-! ### The table -/

structure Slot (A : Type) where
  key : RouteKey
  generation : ProviderGeneration
  authority : Option A

/-- The slot with another generation and authority. -/
def Slot.renew {A : Type} (generation : ProviderGeneration) (authority : Option A) (slot : Slot A) : Slot A :=
  ⟨slot.key, generation, authority⟩

inductive PublishError (A : Type) where
  | capacity (authority : A)
  | generationNotNewer (authority : A) (currentGeneration : ProviderGeneration)

def PublishError.authority {A : Type} : PublishError A → A
  | .capacity authority | .generationNotNewer authority _ => authority

inductive WithdrawError where
  | unknownRoute
  | generationMismatch (currentGeneration : ProviderGeneration)
  | notPublished

/-- The slots in use, in their order.  A slot is never given up, so the free ones all follow them. -/
structure RouteTable (A : Type) (N : ℕ) where
  slots : List (Slot A)
  fits : slots.length ≤ N
  distinct : (slots.map Slot.key).Nodup

namespace RouteTable

variable {A : Type} {N : ℕ}

def new : RouteTable A N := ⟨[], Nat.zero_le N, List.nodup_nil⟩

variable (key : RouteKey) (t : RouteTable A N)

/-- The slot of a key. -/
def find : Option (Slot A) := Keyed.lookup Slot.key key t.slots

variable (generation : ProviderGeneration)

/-- The table with a change to the slot of a key. -/
def change (authority : Option A) (t : RouteTable A N) : RouteTable A N where
  slots := Keyed.adjust Slot.key key (Slot.renew generation authority) t.slots
  fits := by
    rw [Keyed.adjust, List.length_modify]
    exact t.fits
  distinct := by
    have hkeys : ∀ slot : Slot A, (slot.renew generation authority).key = slot.key := fun _ => rfl
    rw [Keyed.map_key_adjust hkeys]
    exact t.distinct

/-- The table with another slot in use, if one is free and the key has none. -/
def add (slot : Slot A) (t : RouteTable A N) : RouteTable A N :=
  if h : t.slots.length < N ∧ t.find slot.key = none then
    { slots := t.slots ++ [slot]
      fits := by
        rw [List.length_append]
        exact h.1
      distinct := Keyed.nodup_map_concat t.distinct (Keyed.lookup_eq_none.1 h.2) }
  else t

section

variable {t} {key} {key' : RouteKey} {generation} {authority : Option A} {slot : Slot A}

theorem find_key (h : t.find key = some slot) : slot.key = key := key_of_lookup h

theorem find_change (h : t.find key = some slot) : (t.change key generation authority).find key' =
      if key' = key then some ⟨key, generation, authority⟩ else t.find key' := by
  have hkeys : ∀ slot : Slot A, (slot.renew generation authority).key = slot.key := fun _ => rfl
  rw [find, change]
  split
  · next heq =>
      rw [heq, lookup_adjust_self hkeys, show lookup Slot.key key t.slots = _ from h,
        Option.map_some, Slot.renew, find_key h]
  · next hne =>
      rw [lookup_adjust_ne hkeys hne]
      rfl

/-- Writing back what is there. -/
theorem change_self (h : t.find key = some slot) : t.change key slot.generation slot.authority = t := by
  have hslots : (t.change key slot.generation slot.authority).slots = t.slots := adjust_of_fixed h rfl
  cases t
  simp only [change, mk.injEq] at ⊢
  exact hslots

theorem find_add (hlength : t.slots.length < N) (h : t.find slot.key = none) :
    (t.add slot).find key = if key = slot.key then some slot else t.find key := by
  rw [add, dif_pos ⟨hlength, h⟩]
  change lookup Slot.key key (t.slots ++ [slot]) = _
  rw [Keyed.lookup_append, Keyed.lookup_cons, Keyed.lookup_nil]
  by_cases hkey : key = slot.key
  · rw [hkey, show lookup Slot.key slot.key t.slots = none from h, if_pos rfl, if_pos rfl]
    rfl
  · rw [if_neg (Ne.symm hkey), if_neg hkey, Option.or_none]
    rfl

/-- What the slots hold. -/
def total {M : Type} [AddCommMonoid M] (f : A → M) (t : RouteTable A N) : M :=
  (t.slots.map fun slot => slot.authority.elim 0 f).sum

theorem total_change {M : Type} [AddCommMonoid M] {f : A → M} (h : t.find key = some slot) :
    (t.change key generation authority).total f + slot.authority.elim 0 f = t.total f + authority.elim 0 f :=
  sum_adjust h

theorem total_add {M : Type} [AddCommMonoid M] {f : A → M} (hlength : t.slots.length < N)
    (h : t.find slot.key = none) : (t.add slot).total f = t.total f + slot.authority.elim 0 f := by
  rw [add, dif_pos ⟨hlength, h⟩, total, total, map_append, sum_append, map_singleton, sum_singleton]

end

def publish (authority : A) : Op (PublishError A) (RouteTable A N) (Option A) := do
  match (← get).find key with
  | some slot =>
    check (rejectIf (generation.value ≤ slot.generation.value)
      (.generationNotNewer authority slot.generation))
    modify (change key generation (some authority))
    return slot.authority
  | none =>
    read fun t => rejectIf (N ≤ t.slots.length) (.capacity authority)
    modify (add ⟨key, generation, some authority⟩)
    return none

def withdraw : Op WithdrawError (RouteTable A N) A := do
  let slot ← read fun t => okOr (t.find key) .unknownRoute
  check (rejectIf (generation ≠ slot.generation) (.generationMismatch slot.generation))
  modify (change key slot.generation none)
  check (okOr slot.authority .notPublished)

inductive Published (t : RouteTable A N) (key : RouteKey) (generation : ProviderGeneration)
    (authority : A) : Prop where
  | notNewer (slot : Slot A) (hslot : t.find key = some slot)
      (hle : generation.value ≤ slot.generation.value) (hrun : publish key generation authority t =
        .error (.err (.generationNotNewer authority slot.generation)) t)
  | renewed (slot : Slot A) (hslot : t.find key = some slot)
      (hlt : slot.generation.value < generation.value) (hrun : publish key generation authority t =
        .ok slot.authority (t.change key generation (some authority)))
  | full (hslot : t.find key = none) (hlength : N ≤ t.slots.length)
      (hrun : publish key generation authority t = .error (.err (.capacity authority)) t)
  | added (hslot : t.find key = none) (hlength : t.slots.length < N)
      (hrun : publish key generation authority t = .ok none (t.add ⟨key, generation, some authority⟩))

variable (key : RouteKey) (generation : ProviderGeneration)

theorem publish_cases (authority : A) : Published t key generation authority := by
  cases hslot : t.find key with
  | some slot =>
    have hrun : publish key generation authority t =
        (check (rejectIf (generation.value ≤ slot.generation.value)
          (.generationNotNewer authority slot.generation)) >>= fun _ => do
          modify (change key generation (some authority))
          return slot.authority : Op (PublishError A) (RouteTable A N) (Option A)) t := by
      change (match t.find key with | some slot => _ | none => _ : Op _ _ _) t = _
      rw [hslot]
    by_cases hle : generation.value ≤ slot.generation.value
    · rw [rejectIf, if_pos hle] at hrun
      exact .notNewer slot hslot hle hrun
    · rw [rejectIf, if_neg hle] at hrun
      exact .renewed slot hslot (UInt64.not_le.1 hle) hrun
  | none =>
    have hrun : publish key generation authority t =
        (check (rejectIf (N ≤ t.slots.length) (.capacity authority)) >>= fun _ => do
          modify (add ⟨key, generation, some authority⟩)
          return none : Op (PublishError A) (RouteTable A N) (Option A)) t := by
      change (match t.find key with | some slot => _ | none => _ : Op _ _ _) t = _
      rw [hslot]
      rfl
    by_cases hle : N ≤ t.slots.length
    · rw [rejectIf, if_pos hle] at hrun
      exact .full hslot hle hrun
    · rw [rejectIf, if_neg hle] at hrun
      exact .added hslot (Nat.not_le.1 hle) hrun

/-- `withdraw` fails and changes nothing, or takes the authority out of the slot. -/
theorem withdraw_cases : (∃ e, withdraw key generation t = .error (.err e) t) ∨
    ∃ slot authority, t.find key = some slot ∧ slot.generation = generation ∧
      slot.authority = some authority ∧
      withdraw key generation t = .ok authority (t.change key generation none) := by
  cases hslot : t.find key with
  | none =>
    refine .inl ⟨.unknownRoute, ?_⟩
    change (check (okOr (t.find key) _) >>= _ : Op _ _ _) t = _
    rw [hslot]
    rfl
  | some slot =>
    have hrun : withdraw key generation t = (check (rejectIf (generation ≠ slot.generation)
        (.generationMismatch slot.generation)) >>= fun _ => do
        modify (change key slot.generation none)
        check (okOr slot.authority .notPublished) : Op WithdrawError (RouteTable A N) A) t := by
      change (check (okOr (t.find key) _) >>= _ : Op _ _ _) t = _
      rw [hslot]
      rfl
    by_cases hgeneration : generation = slot.generation
    · subst hgeneration
      rw [rejectIf_of_not (not_not.2 rfl)] at hrun
      cases hauthority : slot.authority with
      | none =>
        refine .inl ⟨.notPublished, ?_⟩
        rw [hauthority] at hrun
        -- taking nothing out of the slot leaves it as it is
        have hself := change_self hslot
        rw [hauthority] at hself
        rw [hrun]
        exact congrArg (EStateM.Result.error _) hself
      | some authority =>
        rw [hauthority] at hrun
        exact .inr ⟨slot, authority, rfl, rfl, hauthority, hrun⟩
    · refine .inl ⟨.generationMismatch slot.generation, ?_⟩
      rw [hrun, rejectIf, if_pos hgeneration]
      rfl

end RouteTable

/-! ### Connections -/

inductive IssueError (E : Type) where
  | capacity
  | provider (e : E)

structure IssuedRoute (C : Type) where
  generation : ProviderGeneration
  connection : C

inductive ConnectError (P E : Type) where
  | unauthorized (e : P)
  | unavailable | issuerCapacity
  | issuer (e : E)

section

variable {A Caller C P E π ι : Type} {N : ℕ}

/-- An authorizer with states in `π`. -/
def Authorizer (Caller P π : Type) := π → Caller → RouteKey → Except P Unit × π

/-- An issuer with states in `ι`.  It may also change the authority. -/
def RouteIssuer (A Caller C E ι : Type) :=
  ι → A → Caller → RouteKey → ProviderGeneration → Except (IssueError E) C × A × ι

/-- What a connection works on. -/
structure Broker (A : Type) (N : ℕ) (π ι : Type) where
  routes : RouteTable A N
  policy : π
  issuer : ι

variable (policy : Authorizer Caller P π)

/-- The answer of the policy. -/
def authorized (caller : Caller) (key : RouteKey) : Op (ConnectError P E) (Broker A N π ι) Unit := fun b =>
  match policy b.policy caller key with
  | (.ok (), state) => .ok () { b with policy := state }
  | (.error e, state) => .error (.err (.unauthorized e)) { b with policy := state }

variable (issuer : RouteIssuer A Caller C E ι) (caller : Caller) (key : RouteKey)

/-- The answer of the issuer. -/
def issued (generation : ProviderGeneration) (authority : A) : Op (ConnectError P E) (Broker A N π ι) C :=
  fun b =>
    let (answer, authority', state) := issuer b.issuer authority caller key generation
    let b' := { b with routes := b.routes.change key generation (some authority'), issuer := state }
    match answer with
    | .ok connection => .ok connection b'
    | .error .capacity => .error (.err .issuerCapacity) b'
    | .error (.provider e) => .error (.err (.issuer e)) b'

def connect : Op (ConnectError P E) (Broker A N π ι) (IssuedRoute C) := do
  authorized policy caller key
  let (generation, authority) ← read fun b => okOr
    ((b.routes.find key).bind fun slot => slot.authority.map (slot.generation, ·)) .unavailable
  let connection ← issued issuer caller key generation authority
  return ⟨generation, connection⟩

def RouteTable.published (t : RouteTable A N) : Option (ProviderGeneration × A) :=
  (t.find key).bind fun slot => slot.authority.map (slot.generation, ·)

theorem RouteTable.published_eq_some {t : RouteTable A N} {key : RouteKey}
    {generation : ProviderGeneration} {authority : A} (h : t.published key = some (generation, authority)) :
    t.find key = some ⟨key, generation, some authority⟩ := by
  obtain ⟨slot, hslot, hpair⟩ := Option.bind_eq_some_iff.1 h
  obtain ⟨a, ha, heq⟩ := Option.map_eq_some_iff.1 hpair
  cases heq
  rw [hslot, ← ha, ← RouteTable.find_key hslot]

variable {policy} {issuer} {caller : Caller} {key : RouteKey} {b : Broker A N π ι}

/-- A caller that is rejected gets an answer that does not depend on the routes, and the issuer is not
asked. -/
theorem connect_unauthorized {e : P} {state : π} (h : policy b.policy caller key = (.error e, state)) :
    connect policy issuer caller key b = .error (.err (.unauthorized e)) { b with policy := state } := by
  have hauthorized : (authorized policy caller key : Op (ConnectError P E) _ _) b =
      .error (.err (.unauthorized e)) { b with policy := state } := by
    rw [authorized, h]
  exact bind_error.2 (.inl hauthorized)

/-- The broker after the issuer was asked, whatever its answer. -/
def Broker.afterIssue (issuer : RouteIssuer A Caller C E ι) (caller : Caller) (key : RouteKey)
    (generation : ProviderGeneration) (authority : A) (b : Broker A N π ι) : Broker A N π ι :=
  let asked := issuer b.issuer authority caller key generation
  { b with
    routes := b.routes.change key generation (some asked.2.1)
    issuer := asked.2.2 }

/-- The answer of the issuer decides on the result only. -/
theorem issued_cases (issuer : RouteIssuer A Caller C E ι) (caller : Caller) (key : RouteKey)
    (generation : ProviderGeneration) (authority : A) (b : Broker A N π ι) :
    (∃ connection, (issuer b.issuer authority caller key generation).1 = .ok connection ∧
      (issued issuer caller key generation authority : Op (ConnectError P E) _ _) b =
        .ok connection (b.afterIssue issuer caller key generation authority)) ∨
    ∃ e e', (issuer b.issuer authority caller key generation).1 = .error e ∧
      (issued issuer caller key generation authority : Op (ConnectError P E) _ _) b =
        .error e' (b.afterIssue issuer caller key generation authority) := by
  rw [Broker.afterIssue, issued]
  match issuer b.issuer authority caller key generation with
  | (.ok connection, authority', state) => exact .inl ⟨connection, rfl, rfl⟩
  | (.error .capacity, authority', state) => exact .inr ⟨_, _, rfl, rfl⟩
  | (.error (.provider e), authority', state) => exact .inr ⟨_, _, rfl, rfl⟩

theorem connect_authorized {state : π} (h : policy b.policy caller key = (.ok (), state)) :
    (b.routes.published key = none ∧
      connect policy issuer caller key b = .error (.err .unavailable) { b with policy := state }) ∨
    ∃ generation authority, b.routes.published key = some (generation, authority) ∧
      ((∃ connection, (issuer b.issuer authority caller key generation).1 = .ok connection ∧
          connect policy issuer caller key b = .ok ⟨generation, connection⟩
            (Broker.afterIssue issuer caller key generation authority { b with policy := state })) ∨
        ∃ e e', (issuer b.issuer authority caller key generation).1 = .error e ∧
          connect policy issuer caller key b = .error e'
            (Broker.afterIssue issuer caller key generation authority { b with policy := state })) := by
  have hauthorized : (authorized policy caller key : Op (ConnectError P E) _ _) b =
      .ok () { b with policy := state } := by
    rw [authorized, h]
  have hrun : connect policy issuer caller key b =
      (check (okOr (b.routes.published key) .unavailable) >>= fun route => do
        let connection ← issued issuer caller key route.1 route.2
        return ⟨route.1, connection⟩ :
        Op (ConnectError P E) (Broker A N π ι) (IssuedRoute C)) { b with policy := state } := by
    change EStateM.bind _ _ b = _
    rw [EStateM.bind, hauthorized]
    rfl
  cases hpublished : b.routes.published key with
  | none =>
    rw [hpublished] at hrun
    exact .inl ⟨rfl, hrun⟩
  | some route =>
    rw [hpublished, okOr_some, check_ok_bind] at hrun
    refine .inr ⟨route.1, route.2, rfl, ?_⟩
    rcases issued_cases issuer caller key route.1 route.2 { b with policy := state } with
      ⟨connection, hok, hissued⟩ | ⟨e, e', hok, hissued⟩
    · exact .inl ⟨connection, hok, hrun.trans (bind_ok.2 ⟨connection, _, hissued, rfl⟩)⟩
    · exact .inr ⟨e, e', hok, hrun.trans (bind_error.2 (.inl hissued))⟩

end

/-! ### Runs -/

/-- A call of the issuer: what it gets, and what it leaves behind. -/
structure Issue (A : Type) where
  key : RouteKey
  generation : ProviderGeneration
  before : A
  after : A
  ok : Bool

/-- What has happened. -/
inductive Entry (A : Type) where
  | accepted (key : RouteKey) (generation : ProviderGeneration) (authority : A) (displaced : Option A)
  | refused (authority returned : A)
  | withdrawn (key : RouteKey) (returned : A)
  | connected (key : RouteKey) (issues : List (Issue A)) (returned : Option ProviderGeneration)

variable {A : Type}

/-- The route of a key according to what has happened, latest first: the authority is the one that was
submitted, or what the issuer has left of it. -/
def current (key : RouteKey) : List (Entry A) → Option (ProviderGeneration × A)
  | [] => none
  | .accepted k generation authority _ :: log =>
    if k = key then some (generation, authority) else current key log
  | .withdrawn k _ :: log => if k = key then none else current key log
  | .connected k (issue :: _) _ :: log =>
    if k = key then some (issue.generation, issue.after) else current key log
  | _ :: log => current key log

/-- The generations that were accepted for a key, latest first. -/
def generations (key : RouteKey) : List (Entry A) → List ProviderGeneration
  | [] => []
  | .accepted k generation _ _ :: log =>
    if k = key then generation :: generations key log else generations key log
  | _ :: log => generations key log

/-- The authorities that providers have submitted. -/
def submitted : List (Entry A) → Multiset A
  | [] => 0
  | .accepted _ _ authority _ :: log | .refused authority _ :: log => {authority} + submitted log
  | _ :: log => submitted log

/-- The authorities that providers have got back. -/
def handedBack : List (Entry A) → Multiset A
  | [] => 0
  | .accepted _ _ _ displaced :: log => displaced.elim 0 ({·}) + handedBack log
  | .refused _ returned :: log | .withdrawn _ returned :: log => {returned} + handedBack log
  | .connected _ _ _ :: log => handedBack log

/-- The calls of the issuers. -/
def issuesOf : List (Entry A) → List (Issue A)
  | [] => []
  | .connected _ issues _ :: log => issues ++ issuesOf log
  | _ :: log => issuesOf log

section

variable {Caller C P E π ι : Type} {N : ℕ}

/-- The issuer, with a record of its calls. -/
def recording (issuer : RouteIssuer A Caller C E ι) : RouteIssuer A Caller C E (ι × List (Issue A)) :=
  fun (state, issues) authority caller key generation =>
    let (answer, authority', state') := issuer state authority caller key generation
    (answer, authority', state', ⟨key, generation, authority, authority', answer.isOk⟩ :: issues)

/-- The broker, with what has happened. -/
structure World (A : Type) (N : ℕ) (π ι : Type) where
  routes : RouteTable A N
  policy : π
  issuer : ι
  log : List (Entry A)

inductive Event (A Caller C P E π ι : Type) where
  | publish (key : RouteKey) (generation : ProviderGeneration) (authority : A)
  | withdraw (key : RouteKey) (generation : ProviderGeneration)
  | connect (caller : Caller) (key : RouteKey) (policy : Authorizer Caller P π)
      (issuer : RouteIssuer A Caller C E ι)

variable (w : World A N π ι)

/-- The broker as a connection sees it. -/
def World.broker : Broker A N π (ι × List (Issue A)) := ⟨w.routes, w.policy, w.issuer, []⟩

/-- One call of the broker, with any policy and any issuer. -/
def World.step : Event A Caller C P E π ι → World A N π ι
  | .publish key generation authority =>
    match RouteTable.publish key generation authority w.routes with
    | .ok displaced t =>
      { w with routes := t, log := .accepted key generation authority displaced :: w.log }
    | .error (.err e) t => { w with routes := t, log := .refused authority e.authority :: w.log }
    | .error .trap _ => w
  | .withdraw key generation =>
    match RouteTable.withdraw key generation w.routes with
    | .ok authority t => { w with routes := t, log := .withdrawn key authority :: w.log }
    | .error _ t => { w with routes := t }
  | .connect caller key policy issuer =>
    match connect policy (recording issuer) caller key w.broker with
    | .ok route b =>
      { w with
        routes := b.routes
        policy := b.policy
        issuer := b.issuer.1
        log := .connected key b.issuer.2 (some route.generation) :: w.log }
    | .error _ b =>
      { w with
        routes := b.routes
        policy := b.policy
        issuer := b.issuer.1
        log := .connected key b.issuer.2 none :: w.log }

/-- A broker without routes. -/
def World.Empty : Prop := w.routes = .new ∧ w.log = []

/-- The issuer was asked once at most, for the latest route of the key, and the caller gets its
generation if the issuer agrees. -/
def Proper (key : RouteKey) (issues : List (Issue A)) (returned : Option ProviderGeneration)
    (log : List (Entry A)) : Prop :=
  (issues = [] ∧ returned = none) ∨ ∃ issue, issues = [issue] ∧ issue.key = key ∧
    current key log = some (issue.generation, issue.before) ∧
    returned = if issue.ok then some issue.generation else none

/-- The authorities in the slots and those that were handed back are the ones that were submitted, apart
from what issuers have put in the place of others. -/
def World.Balanced (w : World A N π ι) : Prop :=
  w.routes.total ({·}) + handedBack w.log + ((issuesOf w.log).map Issue.before : Multiset A) =
    submitted w.log + ((issuesOf w.log).map Issue.after : Multiset A)

structure World.Consistent (w : World A N π ι) : Prop where
  generation : ∀ key, (w.routes.find key).map Slot.generation = (generations key w.log).head?
  current : ∀ key, w.routes.published key = current key w.log
  increasing : ∀ key, (generations key w.log).Pairwise fun g g' => g'.value < g.value
  balanced : w.Balanced
  proper : ∀ key issues returned log, (.connected key issues returned :: log) <:+ w.log →
    Proper key issues returned log

variable {w}

theorem World.Consistent.of_empty (h : w.Empty) : w.Consistent := by
  obtain ⟨routes, policy, issuer, log⟩ := w
  obtain ⟨rfl, rfl⟩ := h
  refine ⟨fun _ => rfl, fun _ => rfl, fun _ => .nil, rfl, fun _ _ _ _ hsuffix => ?_⟩
  cases suffix_nil.1 hsuffix

/-- A slot that keeps its generation. -/
theorem generation_change {t : RouteTable A N} {key key' : RouteKey} {authority : Option A} {slot : Slot A}
    (h : t.find key = some slot) :
    ((t.change key slot.generation authority).find key').map Slot.generation =
      (t.find key').map Slot.generation := by
  rw [RouteTable.find_change h]
  split
  · next hkey =>
      rw [hkey, h]
      rfl
  · rfl

theorem published_change {t : RouteTable A N} {key key' : RouteKey} {generation : ProviderGeneration}
    {authority : Option A} {slot : Slot A} (h : t.find key = some slot) :
    (t.change key generation authority).published key' =
      if key' = key then authority.map (generation, ·) else t.published key' := by
  rw [RouteTable.published, RouteTable.find_change h]
  split <;> rfl

/-- What a connection does: the issuer is not asked, or asked once, and then the slot has what it left. -/
theorem World.step_connect (w : World A N π ι) (caller : Caller) (key : RouteKey)
    (policy : Authorizer Caller P π) (issuer : RouteIssuer A Caller C E ι) :
    ∃ routes policy' issuer' issues returned, w.step (.connect caller key policy issuer) =
        ⟨routes, policy', issuer', .connected key issues returned :: w.log⟩ ∧
      ((routes = w.routes ∧ issues = [] ∧ returned = none) ∨ ∃ issue, issues = [issue] ∧ issue.key = key ∧
          w.routes.published key = some (issue.generation, issue.before) ∧
          routes = w.routes.change key issue.generation (some issue.after) ∧
          returned = if issue.ok then some issue.generation else none) := by
  rw [World.step]
  match hpolicy : policy w.policy caller key with
  | (.error e, state) =>
    have hpolicy' : policy w.broker.policy caller key = (.error e, state) := hpolicy
    rw [connect_unauthorized hpolicy']
    exact ⟨_, _, _, _, _, rfl, .inl ⟨rfl, rfl, rfl⟩⟩
  | (.ok (), state) =>
    have hpolicy' : policy w.broker.policy caller key = (.ok (), state) := hpolicy
    rcases @connect_authorized _ _ _ _ _ _ _ _ policy (recording issuer) _ _ _ _ hpolicy' with
      ⟨-, hrun⟩ | ⟨generation, authority, hpublished, hrun⟩
    · rw [hrun]
      exact ⟨_, _, _, _, _, rfl, .inl ⟨rfl, rfl, rfl⟩⟩
    · -- the issuer is asked; its answer decides on the result only
      rcases hrun with ⟨connection, hok, hrun⟩ | ⟨e, e', hok, hrun⟩
      · rw [hrun]
        refine ⟨_, _, _, _, _, rfl, .inr ⟨_, rfl, rfl, hpublished, rfl, ?_⟩⟩
        change some generation = if (issuer _ _ _ _ _).1.isOk then _ else _
        rw [show (issuer _ _ _ _ _).1 = .ok connection from hok]
        rfl
      · rw [hrun]
        refine ⟨_, _, _, _, _, rfl, .inr ⟨_, rfl, rfl, hpublished, rfl, ?_⟩⟩
        change none = if (issuer _ _ _ _ _).1.isOk then _ else _
        rw [show (issuer _ _ _ _ _).1 = .error e from hok]
        rfl

section

variable (h : w.Consistent)

include h

/-- A new entry that is no connection. -/
theorem proper_cons {entry : Entry A}
    (hentry : ∀ key issues returned, entry ≠ .connected key issues returned) (key : RouteKey)
    (issues : List (Issue A)) (returned : Option ProviderGeneration) (log : List (Entry A))
    (hsuffix : (.connected key issues returned :: log) <:+ entry :: w.log) :
    Proper key issues returned log := by
  rcases suffix_cons_iff.1 hsuffix with heq | hsuffix
  · exact absurd (cons.inj heq).1.symm (hentry key issues returned)
  · exact h.proper key issues returned log hsuffix

/-- A generation newer than the one in the table is newer than every one accepted before. -/
theorem lt_of_mem_generations {key : RouteKey} {generation : ProviderGeneration}
    (hnewer : ∀ g ∈ (w.routes.find key).map Slot.generation, g.value < generation.value) :
    ∀ g ∈ generations key w.log, g.value < generation.value := by
  intro g hg
  -- the head is the greatest of the older ones
  have hhead := h.generation key
  have hincreasing := h.increasing key
  cases hold : generations key w.log with
  | nil =>
    rw [hold] at hg
    simp at hg
  | cons g0 =>
    rw [hold] at hg hhead hincreasing
    rw [hhead] at hnewer
    have hlt := hnewer g0 rfl
    rcases mem_cons.1 hg with rfl | hg
    · exact hlt
    · exact UInt64.lt_trans ((pairwise_cons.1 hincreasing).1 g hg) hlt

/-- A generation is accepted: both ways to do so, by what they do to the table. -/
theorem World.Consistent.accept {key : RouteKey} {generation : ProviderGeneration} {authority : A}
    {t : RouteTable A N} {displaced : Option A} (hfind : ∀ key', t.find key' = if key' = key then
      some ⟨key, generation, some authority⟩ else w.routes.find key')
    (hnewer : ∀ g ∈ (w.routes.find key).map Slot.generation, g.value < generation.value)
    (htotal : t.total ({·}) + displaced.elim 0 ({·}) = w.routes.total ({·}) + ({authority} : Multiset A)) :
    (⟨t, w.policy, w.issuer, .accepted key generation authority displaced :: w.log⟩ :
      World A N π ι).Consistent := by
  have hpublished : ∀ key', t.published key' =
      if key' = key then some (generation, authority) else w.routes.published key' := by
    intro key'
    rw [RouteTable.published, hfind key']
    split <;> rfl
  constructor
  case generation =>
    intro key'
    rw [hfind key', generations]
    by_cases hkey : key' = key
    · rw [if_pos hkey, if_pos hkey.symm]
      rfl
    · rw [if_neg hkey, if_neg (Ne.symm hkey)]
      exact h.generation key'
  case current =>
    intro key'
    rw [hpublished key', ServiceRoute.current]
    by_cases hkey : key' = key
    · rw [if_pos hkey, if_pos hkey.symm]
    · rw [if_neg hkey, if_neg (Ne.symm hkey)]
      exact h.current key'
  case increasing =>
    intro key'
    rw [generations]
    by_cases hkey : key = key'
    · subst hkey
      rw [if_pos rfl, pairwise_cons]
      exact ⟨lt_of_mem_generations h hnewer, h.increasing key⟩
    · rw [if_neg hkey]
      exact h.increasing key'
  case balanced =>
    have hold := h.balanced
    unfold World.Balanced at hold ⊢
    calc t.total ({·}) + (displaced.elim 0 ({·}) + handedBack w.log) + ((issuesOf w.log).map Issue.before : Multiset A)
        = {authority} + (w.routes.total ({·}) + handedBack w.log +
            ((issuesOf w.log).map Issue.before : Multiset A)) := by
          rw [← add_assoc, htotal]
          abel
      _ = {authority} + submitted w.log + ((issuesOf w.log).map Issue.after : Multiset A) := by
          rw [hold, add_assoc]
  case proper => exact proper_cons h fun _ _ _ => by simp

/-- A generation is refused: its authority is handed back. -/
theorem World.Consistent.refuse (authority : A) :
    (⟨w.routes, w.policy, w.issuer, .refused authority authority :: w.log⟩ : World A N π ι).Consistent := by
  refine ⟨h.generation, h.current, h.increasing, ?_, proper_cons h fun _ _ _ => by simp⟩
  have hold := h.balanced
  unfold World.Balanced at hold ⊢
  calc w.routes.total ({·}) + ({authority} + handedBack w.log) + ((issuesOf w.log).map Issue.before : Multiset A)
      = {authority} + (w.routes.total ({·}) + handedBack w.log +
          ((issuesOf w.log).map Issue.before : Multiset A)) := by abel
    _ = {authority} + submitted w.log + ((issuesOf w.log).map Issue.after : Multiset A) := by
        rw [hold, add_assoc]

theorem World.Consistent.publish (key : RouteKey) (generation : ProviderGeneration) (authority : A) :
    (w.step (.publish key generation authority : Event A Caller C P E π ι)).Consistent := by
  rw [World.step]
  cases w.routes.publish_cases key generation authority with
  | notNewer slot hslot hle hrun | full hslot hlength hrun =>
    rw [hrun]
    exact h.refuse authority
  | renewed slot hslot hlt hrun =>
    rw [hrun]
    refine h.accept (fun key' => RouteTable.find_change hslot) ?_ (RouteTable.total_change hslot)
    rw [hslot]
    rintro g ⟨⟩
    exact hlt
  | added hslot hlength hrun =>
    rw [hrun]
    refine h.accept (fun key' => RouteTable.find_add hlength hslot) ?_ ?_
    · rw [hslot]
      rintro g ⟨⟩
    · exact (add_zero _).trans (RouteTable.total_add hlength hslot)

theorem World.Consistent.withdraw (key : RouteKey) (generation : ProviderGeneration) :
    (w.step (.withdraw key generation : Event A Caller C P E π ι)).Consistent := by
  rw [World.step]
  rcases w.routes.withdraw_cases key generation with
    ⟨e, hrun⟩ | ⟨slot, authority, hslot, rfl, hauthority, hrun⟩
  · rw [hrun]
    exact ⟨h.generation, h.current, h.increasing, h.balanced, h.proper⟩
  · rw [hrun]
    constructor
    case generation => exact fun key' => (generation_change hslot).trans (h.generation key')
    case current =>
      intro key'
      rw [published_change hslot, ServiceRoute.current]
      by_cases hkey : key' = key
      · rw [if_pos hkey, if_pos hkey.symm]
        rfl
      · rw [if_neg hkey, if_neg (Ne.symm hkey)]
        exact h.current key'
    case increasing => exact h.increasing
    case balanced =>
      have htotal : (w.routes.change key slot.generation none).total ({·}) + ({authority} : Multiset A) =
          w.routes.total ({·}) := by
        have hchange : (w.routes.change key slot.generation none).total ({·}) +
            slot.authority.elim 0 ({·}) = w.routes.total ({·}) + (0 : Multiset A) :=
          RouteTable.total_change hslot
        rw [hauthority] at hchange
        exact hchange.trans (add_zero _)
      have hold := h.balanced
      unfold World.Balanced at hold ⊢
      change _ + ({authority} + handedBack w.log) + _ = _
      rw [← add_assoc, htotal]
      exact hold
    case proper => exact proper_cons h fun _ _ _ => by simp

theorem World.Consistent.connect (caller : Caller) (key : RouteKey) (policy : Authorizer Caller P π)
    (issuer : RouteIssuer A Caller C E ι) : (w.step (.connect caller key policy issuer)).Consistent := by
  obtain ⟨routes, policy', issuer', issues, returned, hstep, hcases⟩ :=
    w.step_connect caller key policy issuer
  rw [hstep]
  have hproper : Proper key issues returned w.log → ∀ key' issues' returned' log,
      (.connected key' issues' returned' :: log) <:+ .connected key issues returned :: w.log →
        Proper key' issues' returned' log := by
    intro hnew key' issues' returned' log hsuffix
    rcases suffix_cons_iff.1 hsuffix with heq | hsuffix
    · cases heq
      exact hnew
    · exact h.proper key' issues' returned' log hsuffix
  rcases hcases with ⟨rfl, rfl, rfl⟩ | ⟨issue, rfl, hkey, hpublished, rfl, hreturned⟩
  · exact ⟨h.generation, h.current, h.increasing, h.balanced, hproper (.inl ⟨rfl, rfl⟩)⟩
  · have hslot := RouteTable.published_eq_some hpublished
    constructor
    case generation => exact fun key' => (generation_change hslot).trans (h.generation key')
    case current =>
      intro key'
      rw [published_change hslot, ServiceRoute.current]
      by_cases hkey : key' = key
      · rw [if_pos hkey, if_pos hkey.symm]
        rfl
      · rw [if_neg hkey, if_neg (Ne.symm hkey)]
        exact h.current key'
    case increasing => exact h.increasing
    case balanced =>
      have htotal : (w.routes.change key issue.generation (some issue.after)).total ({·}) +
          ({issue.before} : Multiset A) = w.routes.total ({·}) + {issue.after} :=
        RouteTable.total_change hslot
      have hold := h.balanced
      unfold World.Balanced at hold ⊢
      change _ + handedBack w.log + (issue.before ::ₘ ((issuesOf w.log).map Issue.before : Multiset A)) =
        submitted w.log + (issue.after ::ₘ ((issuesOf w.log).map Issue.after : Multiset A))
      rw [← Multiset.singleton_add, ← Multiset.singleton_add]
      calc _ = (w.routes.change key issue.generation (some issue.after)).total ({·}) + {issue.before} +
            handedBack w.log + ((issuesOf w.log).map Issue.before : Multiset A) := by abel
        _ = {issue.after} + (w.routes.total ({·}) + handedBack w.log +
            ((issuesOf w.log).map Issue.before : Multiset A)) := by
          rw [htotal]
          abel
        _ = _ := by
          rw [hold]
          abel
    case proper =>
      exact hproper (.inr ⟨issue, rfl, hkey, (h.current key).symm.trans hpublished, hreturned⟩)

theorem World.Consistent.step (event : Event A Caller C P E π ι) : (w.step event).Consistent := by
  cases event with
  | publish key generation authority => exact h.publish key generation authority
  | withdraw key generation => exact h.withdraw key generation
  | connect caller key policy issuer => exact h.connect caller key policy issuer

end

/-- **Routes never go back.**  In every run, the generations accepted for a key increase.  The issuer is
asked for the route accepted last for the key, while it has not been withdrawn, and the caller gets its
generation.  Authorities are not lost and not doubled: where the issuers leave each as it was, every one
that was submitted is in one slot or was handed back once, and otherwise what they took out and put in
makes up the difference.  A publication or a withdrawal that fails changes nothing, and a connection
changes the authority of its own slot at most, to what the issuer left.  A caller that is rejected gets
an answer that does not depend on the routes, without the issuer being asked. -/
theorem routes_never_go_back {w : World A N π ι}
    (h : Reachable World.Empty (fun _ (_ : Event A Caller C P E π ι) => True) World.step w) :
    (∀ key, (generations key w.log).Pairwise fun g g' => g'.value < g.value) ∧
    (∀ key issues returned log, (.connected key issues returned :: log) <:+ w.log →
      Proper key issues returned log) ∧ w.Balanced ∧
    ((∀ issue ∈ issuesOf w.log, issue.after = issue.before) →
      w.routes.total ({·}) + handedBack w.log = submitted w.log) ∧ (∀ key generation authority,
      (∃ e t, RouteTable.publish key generation authority w.routes = .error e t) →
        (w.step (.publish key generation authority : Event A Caller C P E π ι)).routes = w.routes) ∧
    (∀ key generation, (∃ e t, RouteTable.withdraw key generation w.routes = .error e t) →
      (w.step (.withdraw key generation : Event A Caller C P E π ι)).routes = w.routes) ∧
    (∀ caller key (policy : Authorizer Caller P π) (issuer : RouteIssuer A Caller C E ι),
      ∃ issues returned, (w.step (.connect caller key policy issuer)).log =
          .connected key issues returned :: w.log ∧
        ((∀ issue ∈ issues, issue.after = issue.before) →
          (w.step (.connect caller key policy issuer)).routes = w.routes) ∧
        ∀ issue ∈ issues, (w.step (.connect caller key policy issuer)).routes =
          w.routes.change key issue.generation (some issue.after)) ∧
    ∀ caller key (policy : Authorizer Caller P π) (issuer : RouteIssuer A Caller C E ι) e state,
      policy w.policy caller key = (.error e, state) → ∀ routes : RouteTable A N,
        connect policy issuer caller key ⟨routes, w.policy, w.issuer⟩ =
          .error (.err (.unauthorized e)) ⟨routes, state, w.issuer⟩ := by
  have hw : w.Consistent := Reachable.keeps (fun _ => .of_empty) (fun _ event hw _ => hw.step event) h
  refine ⟨hw.increasing, hw.proper, hw.balanced, fun hkept => ?_, ?_, ?_, ?_, ?_⟩
  · have hbalanced := hw.balanced
    rw [World.Balanced, map_congr_left hkept] at hbalanced
    exact add_right_cancel hbalanced
  · rintro key generation authority ⟨e, t, hfail⟩
    cases w.routes.publish_cases key generation authority with
    | notNewer slot hslot hle hrun | full hslot hlength hrun => rw [World.step, hrun]
    | renewed slot hslot hlt hrun | added hslot hlength hrun =>
      rw [hfail] at hrun
      cases hrun
  · rintro key generation ⟨e, t, hfail⟩
    rcases w.routes.withdraw_cases key generation with
      ⟨e', hrun⟩ | ⟨slot, authority, -, -, -, hrun⟩
    · rw [World.step, hrun]
    · rw [hfail] at hrun
      cases hrun
  · intro caller key policy issuer
    obtain ⟨routes, policy', issuer', issues, returned, hstep, hcases⟩ :=
      w.step_connect caller key policy issuer
    rw [hstep]
    refine ⟨issues, returned, rfl, ?_⟩
    rcases hcases with ⟨rfl, rfl, -⟩ | ⟨issue, rfl, -, hpublished, rfl, -⟩
    · exact ⟨fun _ => rfl, by simp⟩
    · refine ⟨fun hkept => ?_, by simp⟩
      rw [hkept issue mem_cons_self]
      exact RouteTable.change_self (RouteTable.published_eq_some hpublished)
  · intro caller key policy issuer e state hpolicy routes
    exact connect_unauthorized hpolicy

end

/-! ### A provider that is replaced -/

def sampleKey : RouteKey :=
  ⟨⟨⟨[1, 0, 0, 0, 0, 0, 0x40, 0, 0x80, 0, 0, 0, 0, 0, 0, 0], rfl⟩, rfl⟩, ⟨1, by decide⟩⟩

/-- A policy that lets everybody in. -/
def allowAll : Authorizer Unit Unit Unit := fun _ _ _ => (.ok (), ())

/-- An issuer that counts its connections in the authority. -/
def counting : RouteIssuer ℕ Unit Unit Unit Unit := fun _ authority _ _ _ => (.ok (), authority + 1, ())

/-- An issuer that keeps the authority, leaves another one and fails. -/
def swapping : RouteIssuer ℕ Unit Unit Unit Unit := fun _ _ _ _ _ => (.error .capacity, 0, ())

abbrev SampleEvent := Event ℕ Unit Unit Unit Unit Unit Unit

def runEvents (events : List SampleEvent) : World ℕ 1 Unit Unit := events.foldl World.step ⟨.new, (), (), []⟩

theorem reachable_runEvents (events : List SampleEvent) :
    Reachable World.Empty (fun _ (_ : SampleEvent) => True) World.step (runEvents events) := by
  induction events using reverseRecOn with
  | nil => exact .start ⟨rfl, rfl⟩
  | append_singleton events event ih =>
    rw [runEvents, foldl_append]
    exact .step ih trivial

/-- The first provider gives a connection, is displaced by a second one and comes back too late; the
second one is withdrawn. -/
def replaced : List SampleEvent :=
  [.publish sampleKey ⟨1, by decide⟩ 10, .connect () sampleKey allowAll counting,
    .publish sampleKey ⟨2, by decide⟩ 20, .publish sampleKey ⟨1, by decide⟩ 30,
    .withdraw sampleKey ⟨2, by decide⟩]

theorem routes_never_go_back_replaced :
    generations sampleKey (runEvents replaced).log = [⟨2, by decide⟩, ⟨1, by decide⟩] ∧
    (generations sampleKey (runEvents replaced).log).Pairwise (fun g g' => g'.value < g.value) ∧
    handedBack (runEvents replaced).log = {20, 30, 11} ∧ submitted (runEvents replaced).log = {30, 20, 10} ∧
    (runEvents replaced).Balanced := by
  obtain ⟨hincreasing, -, hbalanced, -⟩ := routes_never_go_back (reachable_runEvents replaced)
  exact ⟨by rfl, hincreasing sampleKey, by rfl, by rfl, hbalanced⟩

def published : List SampleEvent := [.publish sampleKey ⟨1, by decide⟩ 10]

def swapped : World ℕ 1 Unit Unit := (runEvents published).step (.connect () sampleKey allowAll swapping)

/-- A connection that fails has changed the slot, and the authority that was submitted is nowhere. -/
theorem not_kept_swapped :
    swapped.log = .connected sampleKey [⟨sampleKey, ⟨1, by decide⟩, 10, 0, false⟩] none ::
      (runEvents published).log ∧
    (runEvents published).routes.published sampleKey = some (⟨1, by decide⟩, 10) ∧
    swapped.routes.published sampleKey = some (⟨1, by decide⟩, 0) ∧
    10 ∈ submitted swapped.log ∧
    10 ∉ swapped.routes.total (fun a => ({a} : Multiset ℕ)) + handedBack swapped.log :=
  ⟨by rfl, by rfl, by rfl, by decide, by decide⟩

end ServiceRoute
