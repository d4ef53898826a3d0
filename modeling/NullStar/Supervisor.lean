/-
**Stopping a service, and taking the stop back.**

A stop that finds a service starting or running is a transition with a number, and the request that
carries the number can take it back.  A stop that finds the service restarting, or told to stop
already, is accepted without a number of its own.  The number of an older request then still fits, and
that request takes back a stop that came after it.

* `ServiceRuntime` — the runtime of a service, with the calls that change it;
* `cancelStop_undoes_own_iff` — when a cancellation undoes its own stop and no other;
* `cancelStop_undoes_later` — a stop that an older request takes back;
* `recoveries_le` — how often a service that fails is restarted.
-/

import NullStar.ServiceMessages

set_option autoImplicit false

namespace Supervisor

open ServiceControl

inductive ServiceState where
  | stopped | starting | running | stopping | restarting | backoff | failed
  deriving DecidableEq

structure ServiceSpec where
  (name command readyMessage : List UInt8)
  (bootstrapSlot restartLimit restartBackoffYields : ℕ)
  fatalStartupExitStatus : Option ℕ
  deriving DecidableEq

inductive ServiceStatusDisposition where
  | waitForNextEvent | stopped | failed
  | restart (backoffYields : ℕ)
  deriving DecidableEq

inductive RestartRequestError where
  | alreadyPending | invalidState

inductive StartRequestError where
  | invalidState

inductive StopRequestError where
  | invalidState | transitionExhausted

inductive StopCancelError where
  | notRollbackCapable | wrongService | staleTransition

inductive ReadyDisposition where
  | accepted | stale

/-- What a stop returns; it has a number only when the service was not stopping before. -/
structure StopRequest where
  (processGroup rollbackEpoch : Option ℕ)
  service : ServiceSpec
  previousState : ServiceState
  previousDesiredState : DesiredState
  previousRestartPending : Bool
  valid : rollbackEpoch.isSome → previousState ≠ .stopping

structure ServiceRuntime where
  spec : ServiceSpec
  processId : Option ℕ
  restartCount : ℕ
  state : ServiceState
  desiredState : DesiredState
  controlledRestartPending : Bool
  stopTransitionEpoch : ℕ

namespace ServiceRuntime

def new (spec : ServiceSpec) : ServiceRuntime := ⟨spec, none, 0, .stopped, .running, false, 0⟩

variable (s : ServiceRuntime)

def noteSpawned (processId : ℕ) : ServiceRuntime :=
  { s with processId := some processId, state := .starting }

def noteReady : ReadyDisposition × ServiceRuntime :=
  if s.state = .starting ∧ s.desiredState = .running ∧ s.processId.isSome then
    (.accepted, { s with state := .running })
  else (.stale, s)

def requestStart : Except StartRequestError ServiceRuntime :=
  let started (state : ServiceState) (pending : Bool) : ServiceRuntime :=
    { s with desiredState := .running, state, restartCount := 0, controlledRestartPending := pending }
  if s.state = .failed ∧ s.processId = none then .ok (started .stopped false)
  else if s.desiredState = .running then .ok s
  else
    match s.state, s.processId with
    | .stopped, none | .backoff, none => .ok (started .stopped false)
    | .stopping, some _ => .ok (started .restarting true)
    | _, _ => .error .invalidState

def requestStop : Except StopRequestError (StopRequest × ServiceRuntime) :=
  let request : StopRequest :=
    ⟨none, none, s.spec, s.state, s.desiredState, s.controlledRestartPending, nofun⟩
  let told (state : ServiceState) : ServiceRuntime :=
    { s with desiredState := .stopped, state, controlledRestartPending := false }
  if s.desiredState = .stopped then .ok (request, s)
  else
    match h : s.state, s.processId with
    | .starting, some processGroup | .running, some processGroup =>
      let rollbackEpoch := s.stopTransitionEpoch + 1
      if 2 ^ 64 ≤ rollbackEpoch then .error .transitionExhausted
      else .ok ({ request with
          processGroup := some processGroup
          rollbackEpoch := some rollbackEpoch
          valid := fun _ => by simp [request, h] },
        { told .stopping with stopTransitionEpoch := rollbackEpoch })
    | .restarting, some _ => .ok (request, told .stopping)
    | .stopped, none | .backoff, none | .failed, none => .ok (request, told .stopped)
    | _, _ => .error .invalidState

def cancelStop (request : StopRequest) : Except StopCancelError ServiceRuntime :=
  if request.service ≠ s.spec then .error .wrongService
  else
    match request.rollbackEpoch with
    | none => .error .notRollbackCapable
    | some rollbackEpoch =>
      if s.stopTransitionEpoch ≠ rollbackEpoch ∨ s.state ≠ .stopping ∨ s.desiredState ≠ .stopped ∨
          s.processId ≠ request.processGroup then .error .staleTransition
      else .ok { s with
        state := request.previousState
        desiredState := request.previousDesiredState
        controlledRestartPending := request.previousRestartPending }

def requestRestart : Except RestartRequestError (ℕ × ServiceRuntime) :=
  if s.desiredState ≠ .running then .error .invalidState
  else if s.controlledRestartPending then .error .alreadyPending
  else
    match s.state, s.processId with
    | .running, some processId =>
      .ok (processId, { s with state := .restarting, controlledRestartPending := true })
    | _, _ => .error .invalidState

def cancelRestart : ServiceRuntime :=
  if s.state = .restarting then { s with state := .running, controlledRestartPending := false } else s

def completeRestart : ServiceRuntime :=
  if s.state = .running then { s with controlledRestartPending := false } else s

def observeStatus (status : ℕ) : ServiceStatusDisposition × ServiceRuntime :=
  -- the statuses of a process that is stopped or continued by a signal
  if 0x100 ≤ status ∧ status ≤ 0x200 then (.waitForNextEvent, s)
  else
    let ended (state : ServiceState) : ServiceRuntime := { s with processId := none, state }
    let settled (state : ServiceState) := { ended state with controlledRestartPending := false }
    if s.desiredState = .stopped ∨ s.state = .stopping then (.stopped, settled .stopped)
    else if s.state = .restarting then (.restart 0, ended .backoff)
    else if s.state = .starting ∧ s.spec.fatalStartupExitStatus = some status then
      (.failed, settled .failed)
    else if s.spec.restartLimit ≤ s.restartCount then (.failed, settled .failed)
    else (.restart s.spec.restartBackoffYields,
      { ended .backoff with restartCount := min (s.restartCount + 1) (2 ^ 32 - 1) })

/-! ### Runs -/

inductive Event where
  | noteReady | requestStart | requestStop | requestRestart | cancelRestart | completeRestart
  | noteSpawned (processId : ℕ)
  | cancelStop (request : StopRequest)
  | observeStatus (status : ℕ)

/-- The runtime after a call; one that fails leaves it as it was. -/
def step : Event → ServiceRuntime
  | .noteReady => s.noteReady.2
  | .requestStart => s.requestStart.toOption.getD s
  | .requestStop => s.requestStop.toOption.elim s Prod.snd
  | .requestRestart => s.requestRestart.toOption.elim s Prod.snd
  | .cancelRestart => s.cancelRestart
  | .completeRestart => s.completeRestart
  | .noteSpawned processId => s.noteSpawned processId
  | .cancelStop request => (s.cancelStop request).toOption.getD s
  | .observeStatus status => (s.observeStatus status).2

/-- The call starts, stops, restarts, spawns or ends the service. -/
def Accepted : Event → Prop
  | .noteSpawned _ => True
  | .requestStart => s.requestStart.isOk
  | .requestStop => s.requestStop.isOk
  | .requestRestart => s.requestRestart.isOk
  | .observeStatus status => (s.observeStatus status).1 ≠ .waitForNextEvent
  | _ => False

/-- A stop that is accepted finds the service starting or running, and not told to stop. -/
def Numbered (e : Event) : Prop :=
  e = .requestStop → s.requestStop.isOk →
    s.desiredState = .running ∧ (s.state = .starting ∨ s.state = .running)

/-- At every call of a run. -/
def Always (P : ServiceRuntime → Event → Prop) : ServiceRuntime → List Event → Prop
  | _, [] => True
  | s, e :: es => P s e ∧ Always P (s.step e) es

/-- What calls make of a service, where `quiet` says that none of them was accepted: there is a new
number, or the service does not stop now, or it stopped before; one that was told to is then left as it
was. -/
def Change (s t : ServiceRuntime) (quiet : Prop) : Prop :=
  s.stopTransitionEpoch < t.stopTransitionEpoch ∨ t.stopTransitionEpoch = s.stopTransitionEpoch ∧
    (t.state = .stopping → s.state = .stopping ∧ (s.desiredState = .stopped → t = s ∧ quiet))

variable {s} {e : Event} {t : ServiceRuntime} {r : StopRequest} {quiet : Prop}

/-- A call that does nothing. -/
theorem Change.refl (h : quiet) : Change s s quiet := .inr ⟨rfl, fun hs => ⟨hs, fun _ => ⟨rfl, h⟩⟩⟩

/-- A call after which the service does not stop. -/
theorem Change.of_state (hepoch : t.stopTransitionEpoch = s.stopTransitionEpoch)
    (hstate : t.state ≠ .stopping) : Change s t quiet := .inr ⟨hepoch, fun h => absurd h hstate⟩

/-- A service that is to run already is left as it is; any other is as new. -/
theorem requestStart_eq_ok (h : s.requestStart = .ok t) : t = s ∧ s.desiredState = .running ∨
    t.spec = s.spec ∧ t.restartCount = 0 ∧ t.stopTransitionEpoch = s.stopTransitionEpoch ∧
      t.state ≠ .stopping := by
  unfold requestStart at h
  split at h
  · cases h
    exact .inr ⟨rfl, rfl, rfl, by simp⟩
  split at h
  · next hrunning =>
      cases h
      exact .inl ⟨rfl, hrunning⟩
  split at h
  all_goals cases h
  all_goals exact .inr ⟨rfl, rfl, rfl, by simp⟩

/-- What a stop returns, and what holds when it has a number. -/
theorem requestStop_eq_ok (h : s.requestStop = .ok (r, t)) : r.previousState = s.state ∧
    r.previousDesiredState = s.desiredState ∧ r.previousRestartPending = s.controlledRestartPending ∧
    ∀ n, r.rollbackEpoch = some n →
      t.stopTransitionEpoch = n ∧ t.state = .stopping ∧ t.desiredState = .stopped := by
  unfold requestStop at h
  grind

/-- A stop of a service that starts or runs takes the next number. -/
theorem requestStop_numbered (h : s.requestStop = .ok (r, t)) (hdesired : s.desiredState = .running)
    (hstate : s.state = .starting ∨ s.state = .running) :
    s.stopTransitionEpoch < t.stopTransitionEpoch := by
  unfold requestStop at h
  grind

theorem requestStop_frame (h : s.requestStop = .ok (r, t)) :
    t.spec = s.spec ∧ t.restartCount = s.restartCount := by
  unfold requestStop at h
  grind

theorem requestRestart_eq_ok {id : ℕ} (h : s.requestRestart = .ok (id, t)) :
    t = { s with state := .restarting, controlledRestartPending := true } := by
  unfold requestRestart at h
  grind

theorem cancelStop_eq_ok (h : s.cancelStop r = .ok t) :
    r.rollbackEpoch = some s.stopTransitionEpoch ∧ s.state = .stopping ∧ t = { s with
      state := r.previousState
      desiredState := r.previousDesiredState
      controlledRestartPending := r.previousRestartPending } := by
  unfold cancelStop at h
  split at h
  · cases h
  split at h
  · cases h
  split at h
  · cases h
  · next epoch hepoch hfits =>
      cases h
      simp only [not_or, not_not] at hfits
      exact ⟨hfits.1 ▸ hepoch, hfits.2.1, rfl⟩

theorem observeStatus_cases (s : ServiceRuntime) (status : ℕ) :
    s.observeStatus status = (.waitForNextEvent, s) ∨
      (s.observeStatus status).1 ≠ .waitForNextEvent ∧ (s.observeStatus status).2.state ≠ .stopping ∧
      (s.observeStatus status).2.stopTransitionEpoch = s.stopTransitionEpoch := by
  unfold observeStatus
  grind

theorem Change.requestStop (hn : s.Numbered .requestStop) :
    Change s (s.step .requestStop) (¬ s.Accepted .requestStop) := by
  rw [step]
  cases hstop : s.requestStop with
  | error => exact .refl (by simp [Accepted, hstop, Except.isOk, Except.toBool])
  | ok p =>
    have hok : s.requestStop.isOk := by simp [hstop, Except.isOk, Except.toBool]
    obtain ⟨hdesired, hstate⟩ := hn rfl hok
    exact .inl (requestStop_numbered hstop hdesired hstate)

theorem Change.requestStart : Change s (s.step .requestStart) (¬ s.Accepted .requestStart) := by
  rw [step]
  cases hstart : s.requestStart with
  | error => exact .refl (by simp [Accepted, hstart, Except.isOk, Except.toBool])
  | ok t =>
    rcases requestStart_eq_ok hstart with ⟨rfl, hrunning⟩ | ⟨-, -, hepoch, hstate⟩
    · exact .inr ⟨rfl, fun h => ⟨h, fun hstopped => by simp [hrunning] at hstopped⟩⟩
    · exact .of_state hepoch hstate

theorem Change.requestRestart : Change s (s.step .requestRestart) (¬ s.Accepted .requestRestart) := by
  rw [step]
  cases hrestart : s.requestRestart with
  | error => exact .refl (by simp [Accepted, hrestart, Except.isOk, Except.toBool])
  | ok p =>
    change Change s p.2 _
    rw [requestRestart_eq_ok hrestart]
    exact .of_state rfl (by simp)

theorem Change.cancelStop (r : StopRequest) :
    Change s (s.step (.cancelStop r)) (¬ s.Accepted (.cancelStop r)) := by
  rw [step]
  cases hcancel : s.cancelStop r with
  | error => exact .refl id
  | ok t =>
    obtain ⟨hepoch, -, rfl⟩ := cancelStop_eq_ok hcancel
    exact .of_state rfl (r.valid (hepoch ▸ rfl))

/-- Every call changes the service so, if a stop that it accepts is numbered. -/
theorem step_change (hn : s.Numbered e) : Change s (s.step e) (¬ s.Accepted e) := by
  cases e with
  | requestStop => exact .requestStop hn
  | requestStart => exact .requestStart
  | requestRestart => exact .requestRestart
  | cancelStop r => exact .cancelStop r
  | noteSpawned => exact .of_state rfl (by simp [step, noteSpawned])
  | noteReady =>
    rw [step, noteReady]
    split
    · exact .of_state rfl (by simp)
    · exact .refl id
  | cancelRestart =>
    rw [step, cancelRestart]
    split
    · exact .of_state rfl (by simp)
    · exact .refl id
  | completeRestart =>
    rw [step, completeRestart]
    split
    · next hrunning => exact .of_state rfl (by simp [hrunning])
    · exact .refl id
  | observeStatus status =>
    rw [step]
    rcases observeStatus_cases s status with hwait | ⟨-, hstate, hepoch⟩
    · rw [hwait]
      exact .refl (by simp [Accepted, hwait])
    · exact .of_state hepoch hstate

theorem run_change {es : List Event} (hn : Always Numbered s es) :
    Change s (es.foldl step s) (Always (fun s e => ¬ s.Accepted e) s es) := by
  induction es generalizing s with
  | nil => exact .inr ⟨rfl, fun h => ⟨h, fun _ => ⟨rfl, trivial⟩⟩⟩
  | cons e es ih =>
    have hfirst := step_change hn.1
    have hrest := ih hn.2
    grind [Always, Change]

theorem Always.imp {P Q : ServiceRuntime → Event → Prop} (hPQ : ∀ s e, P s e → Q s e)
    {es : List Event} (h : Always P s es) : Always Q s es := by
  induction es generalizing s with
  | nil => trivial
  | cons e es ih => exact ⟨hPQ _ _ h.1, ih h.2⟩

end ServiceRuntime

open ServiceRuntime

/-- **When a cancellation undoes its own stop.**  A request that is cancelled comes from the last
accepted stop, no other transition was accepted since, and what was there before is there again, exactly
if every stop that was accepted since has a number. -/
theorem cancelStop_undoes_own_iff {s t u : ServiceRuntime} {r : StopRequest} {since : List Event}
    (hstop : s.requestStop = .ok (r, t)) (hcancel : (since.foldl step t).cancelStop r = .ok u) :
    (Always (fun s e => ¬ s.Accepted e) t since ∧ u.state = s.state ∧
      u.desiredState = s.desiredState ∧ u.controlledRestartPending = s.controlledRestartPending) ↔
    Always Numbered t since := by
  obtain ⟨hstate, hdesired, hpending, hheld⟩ := requestStop_eq_ok hstop
  obtain ⟨hepoch, hstopping, rfl⟩ := cancelStop_eq_ok hcancel
  obtain ⟨hsame, ht⟩ := hheld _ hepoch
  constructor
  · rintro ⟨hquiet, -⟩
    refine hquiet.imp fun s e hno he hok => absurd ?_ hno
    rwa [he]
  · intro hn
    obtain hlater | ⟨-, hback⟩ := run_change hn
    · omega
    · exact ⟨((hback hstopping).2 ht.2).2, hstate, hdesired, hpending⟩

/-- A service that runs. -/
def started : ServiceRuntime := ((new ⟨[], [], [], 0, 0, 0, none⟩).noteSpawned 1).noteReady.2

/-- Calls that a stopping service refuses, or that do nothing to it. -/
def neutral : List Event :=
  [.noteReady, .requestRestart, .cancelStop ⟨some 1, some 7, started.spec, .running, .running, false, nofun⟩,
    .cancelRestart, .completeRestart, .observeStatus 0x100]

theorem cancelStop_undoes_own_neutral : ∃ r t u, started.requestStop = .ok (r, t) ∧ t.state = .stopping ∧
    (neutral.foldl step t).cancelStop r = .ok u ∧ Always (fun s e => ¬ s.Accepted e) t neutral ∧
    u.state = .running ∧ u.desiredState = .running ∧ u.controlledRestartPending = false :=
  ⟨_, _, _, rfl, rfl, rfl,
    (@cancelStop_undoes_own_iff started _ _ _ neutral rfl rfl).2 (by simp [neutral, Always, Numbered])⟩

/-- **A stop that an older request takes back.**  The service is told to stop, to start and to stop
again; the second stop finds it restarting. -/
theorem cancelStop_undoes_later : ∃ r t u, started.requestStop = .ok (r, t) ∧
    (t.step .requestStart).Accepted .requestStop ∧
    ([.requestStart, .requestStop].foldl step t).cancelStop r = .ok u ∧ u.desiredState = .running :=
  ⟨_, _, _, rfl, rfl, rfl, rfl⟩

/-! ### Restarts after failures -/

namespace ServiceRuntime

/-- The process has ended unasked, and the service is to be started again. -/
def recovers (s : ServiceRuntime) : Event → Bool
  | .observeStatus status => s.state ≠ .restarting ∧
      (s.observeStatus status).1 = .restart s.spec.restartBackoffYields
  | _ => false

def recoveries : ServiceRuntime → List Event → ℕ
  | _, [] => 0
  | s, e :: es => (s.recovers e).toNat + recoveries (s.step e) es

def isStart : Event → Bool
  | .requestStart => true
  | _ => false

variable {s : ServiceRuntime} {e : Event}

/-- Only a start and the end of the process touch the count of restarts. -/
theorem step_frame (hstart : isStart e = false) (hstatus : ∀ status, e ≠ .observeStatus status) :
    (s.step e).spec = s.spec ∧ (s.step e).restartCount = s.restartCount := by
  cases e with
  | requestStart => simp [isStart] at hstart
  | observeStatus status => exact absurd rfl (hstatus status)
  | noteSpawned => exact ⟨rfl, rfl⟩
  | noteReady =>
    rw [step, noteReady]
    split <;> exact ⟨rfl, rfl⟩
  | cancelRestart =>
    rw [step, cancelRestart]
    split <;> exact ⟨rfl, rfl⟩
  | completeRestart =>
    rw [step, completeRestart]
    split <;> exact ⟨rfl, rfl⟩
  | requestStop =>
    rw [step]
    cases hstop : s.requestStop with
    | error => exact ⟨rfl, rfl⟩
    | ok p => exact requestStop_frame hstop
  | requestRestart =>
    rw [step]
    cases hrestart : s.requestRestart with
    | error => exact ⟨rfl, rfl⟩
    | ok p =>
      change p.2.spec = _ ∧ p.2.restartCount = _
      rw [requestRestart_eq_ok hrestart]
      exact ⟨rfl, rfl⟩
  | cancelStop r =>
    rw [step]
    cases hcancel : s.cancelStop r with
    | error => exact ⟨rfl, rfl⟩
    | ok t =>
      obtain ⟨-, -, rfl⟩ := cancelStop_eq_ok hcancel
      exact ⟨rfl, rfl⟩

/-- The end of a process counts as a restart when it is one, and there are fewer than the limit before. -/
theorem observeStatus_restartCount (hlimit : s.spec.restartLimit < 2 ^ 32) (status : ℕ) :
    (s.observeStatus status).2.spec = s.spec ∧ (s.observeStatus status).2.restartCount =
      s.restartCount + (s.recovers (.observeStatus status)).toNat ∧
    (s.recovers (.observeStatus status) → s.restartCount < s.spec.restartLimit) := by
  unfold recovers observeStatus
  grind

theorem step_restartCount (hlimit : s.spec.restartLimit < 2 ^ 32) : (s.step e).spec = s.spec ∧
    ((s.step e).restartCount = s.restartCount + (s.recovers e).toNat ∨
      isStart e ∧ (s.step e).restartCount = 0 ∧ s.recovers e = false) ∧
    (s.recovers e → s.restartCount < s.spec.restartLimit) := by
  cases e with
  | observeStatus status =>
    obtain ⟨hspec, hcount, hroom⟩ := observeStatus_restartCount hlimit status
    exact ⟨hspec, .inl hcount, hroom⟩
  | requestStart =>
    rw [step]
    cases hstart : s.requestStart with
    | error => exact ⟨rfl, .inl rfl, by simp [recovers]⟩
    | ok t =>
      rcases requestStart_eq_ok hstart with ⟨rfl, -⟩ | ⟨hspec, hzero, -⟩
      · exact ⟨rfl, .inl rfl, by simp [recovers]⟩
      · exact ⟨hspec, .inr ⟨rfl, hzero, rfl⟩, by simp [recovers]⟩
  | _ =>
    exact ⟨(step_frame rfl (by simp)).1, .inl (step_frame rfl (by simp)).2, by simp [recovers]⟩

end ServiceRuntime

/-- **Restarts after failures are bounded.**  Each request to start the service allows as many as its
limit, and nothing else allows any. -/
theorem recoveries_le {s : ServiceRuntime} (hlimit : s.spec.restartLimit < 2 ^ 32) (es : List Event) :
    recoveries s es ≤ s.spec.restartLimit - s.restartCount + s.spec.restartLimit * es.countP isStart := by
  induction es generalizing s with
  | nil => exact Nat.zero_le _
  | cons e es ih =>
    obtain ⟨hspec, hcount, hroom⟩ := @step_restartCount s e hlimit
    have hrest := ih (hspec ▸ hlimit)
    rw [hspec] at hrest
    rw [recoveries, List.countP_cons, Nat.mul_add]
    rcases hcount with hcount | ⟨hstart, hzero, hno⟩
    · have hfits : (s.recovers e).toNat ≤ s.spec.restartLimit - s.restartCount := by
        cases hr : s.recovers e with
        | false => exact Nat.zero_le _
        | true => exact Nat.le_sub_of_add_le' (hroom hr)
      omega
    · rw [hno, if_pos hstart, Nat.mul_one]
      rw [hzero] at hrest
      simp only [Bool.toNat_false]
      omega

/-- A service that may be restarted once, and fails twice. -/
theorem recoveries_le_once : recoveries (new ⟨[], [], [], 0, 1, 0, none⟩) [.noteSpawned 1,
  .observeStatus 1, .noteSpawned 2, .observeStatus 1] ≤ 1 :=
  recoveries_le (by decide) _

end Supervisor
