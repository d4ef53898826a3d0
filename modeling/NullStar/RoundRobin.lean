/-
**Round robin on one processor.**

A processor runs one thread and keeps the others that can run in a queue.  The clock takes the processor
away after a quantum of ticks, and a thread that comes in goes to the end of the queue.  How long a
thread waits is bounded by a potential: a quantum for each thread before it, and the rest of the current
one.  Every tick takes one from it, and no call of any other thread adds to it.

* `RoundRobin` — the queue of a processor, with the calls that change it;
* `waits_at_most` — how long a thread waits in any run.
-/

import NullStar.Machine

set_option autoImplicit false

namespace Scheduling

open List Machine

abbrev ThreadId := ℕ

def maxRunnableThreads : ℕ := 256

structure Switch where
  «from» : Option ThreadId
  «to» : ThreadId

inductive Error where
  | capacity | alreadyRunnable | unknownThread | invalidQuantum

structure RoundRobin where
  (quantumTicks ticksInQuantum : ℕ)
  current : Option ThreadId
  runnable : List ThreadId
  (contextSwitches preemptions voluntarySwitches : ℕ)

/-- One more, unless that is not a 64-bit number. -/
def countUp (n : ℕ) : ℕ := min (n + 1) (2 ^ 64 - 1)

namespace RoundRobin

def new (quantumTicks : UInt64) : Except Error RoundRobin :=
  if quantumTicks = 0 then .error .invalidQuantum
  else .ok ⟨quantumTicks.toNat, 0, none, [], 0, 0, 0⟩

variable (q : RoundRobin) (thread : ThreadId)

def contains : Bool := q.current = some thread || q.runnable.contains thread

/-- The queue with another thread running. -/
def switch (next : ThreadId) (runnable : List ThreadId) : RoundRobin :=
  { q with current := some next, runnable, contextSwitches := countUp q.contextSwitches }

def dispatchNext : Option Switch × RoundRobin :=
  match q.runnable with
  | [] => (none, q)
  | next :: rest => (some ⟨q.current, next⟩, q.switch next rest)

def rotateCurrent : Option Switch × RoundRobin :=
  match q.current, q.runnable with
  | some current, next :: rest => (some ⟨some current, next⟩, q.switch next (rest ++ [current]))
  | _, _ => (none, q)

/-- What admitting a thread and waking one do. -/
def enqueue : Except Error (Option Switch × RoundRobin) :=
  if q.contains thread then .error .alreadyRunnable
  else if maxRunnableThreads ≤ q.runnable.length then .error .capacity
  else if q.current.isNone then .ok (some ⟨none, thread⟩, q.switch thread q.runnable)
  else .ok (none, { q with runnable := q.runnable ++ [thread] })

def admitThread : Except Error (Option Switch × RoundRobin) := q.enqueue thread

def wake : Except Error (Option Switch × RoundRobin) := q.enqueue thread

def tick : Option Switch × RoundRobin :=
  if q.current.isNone then q.dispatchNext
  else
    let q := { q with ticksInQuantum := countUp q.ticksInQuantum }
    if q.ticksInQuantum < q.quantumTicks then (none, q)
    else
      match { q with ticksInQuantum := 0 }.rotateCurrent with
      | (none, q) => (none, q)
      | (some next, q) => (some next, { q with preemptions := countUp q.preemptions })

def yieldCurrent : Option Switch × RoundRobin :=
  match { q with ticksInQuantum := 0 }.rotateCurrent with
  | (none, q) => (none, q)
  | (some next, q) => (some next, { q with voluntarySwitches := countUp q.voluntarySwitches })

def blockCurrent : Option Switch × RoundRobin :=
  let q := { q with ticksInQuantum := 0 }
  match q.current with
  | none => (none, q)
  | some current =>
    match { q with current := none }.dispatchNext with
    | (none, q) => (none, q)
    | (some next, q) => (some ⟨some current, next.to⟩, q)

def remove : Except Error (Option Switch × RoundRobin) :=
  if q.current = some thread then .ok { q with current := none, ticksInQuantum := 0 }.dispatchNext
  else if thread ∈ q.runnable then .ok (none, { q with runnable := q.runnable.erase thread })
  else .error .unknownThread

/-! ### Runs -/

inductive Event where
  | tick | yieldCurrent | blockCurrent
  | admitThread (thread : ThreadId)
  | wake (thread : ThreadId)
  | remove (thread : ThreadId)
  deriving DecidableEq

/-- The queue after a call; one that fails leaves it as it was. -/
def after : Except Error (Option Switch × RoundRobin) → RoundRobin
  | .ok (_, q) => q
  | .error _ => q

def step : Event → RoundRobin
  | .tick => q.tick.2
  | .yieldCurrent => q.yieldCurrent.2
  | .blockCurrent => q.blockCurrent.2
  | .admitThread thread => q.after (q.admitThread thread)
  | .wake thread => q.after (q.wake thread)
  | .remove thread => q.after (q.remove thread)

/-- The queues that calls make of a new one. -/
def Queue (quantum : UInt64) : RoundRobin → Prop :=
  Reachable (fun q => new quantum = .ok q) (fun _ _ => True) step

/-- What holds of every queue. -/
structure Valid (n : ℕ) : Prop where
  quantum : q.quantumTicks = n
  ticks : q.ticksInQuantum < n
  idle : q.current = none → q.runnable = []

/-- The thread waits, with so many threads before it. -/
def Waits (i : ℕ) : Prop := ∃ before after, q.runnable = before ++ thread :: after ∧ before.length = i

/-- The ticks after which a thread at the place is current at the latest. -/
def rank (i : ℕ) : ℕ := i * q.quantumTicks + (q.quantumTicks - q.ticksInQuantum)

/-- What a call does to the threads that wait: there are none, the first of them takes over, or others
have come in behind them or left. -/
inductive Change (e : Event) (q' : RoundRobin) : Prop where
  | none (hqueue : q.runnable = [])
  | advanced {next : ThreadId} {rest : List ThreadId} (hqueue : q.runnable = next :: rest)
      (hcurrent : q'.current = some next) (hrest : rest <+: q'.runnable) (hticks : q'.ticksInQuantum = 0)
  | kept (hticks : q'.ticksInQuantum = q.ticksInQuantum + if e = .tick then 1 else 0)
      (hqueue : q.runnable <+: q'.runnable ∨ ∃ t, e = .remove t ∧ q'.runnable = q.runnable.erase t)

variable {q thread} {n i : ℕ}

theorem Valid.step (h : Valid q n) (hn : n < 2 ^ 64) (e : Event) :
    Valid (q.step e) n ∧ Change q e (q.step e) := by
  obtain ⟨quantum, ticks, current, runnable, switches, preemptions, voluntary⟩ := q
  obtain ⟨rfl, hticks, hidle⟩ := h
  have hpos : 0 < quantum := Nat.zero_lt_of_lt hticks
  have hup : countUp ticks = ticks + 1 := by
    dsimp only at hticks hn
    unfold countUp
    omega
  cases current with
  | none =>
    obtain rfl := hidle rfl
    cases e with
    | yieldCurrent | blockCurrent => exact ⟨⟨rfl, hpos, fun _ => rfl⟩, .none rfl⟩
    | _ => exact ⟨⟨rfl, hticks, fun _ => rfl⟩, .none rfl⟩
  | some current =>
    -- when the current thread stops, it is the turn of the next one
    cases e with
    | tick =>
      dsimp only [RoundRobin.step, tick]
      rw [if_neg (by simp), hup]
      split_ifs with hlt
      · exact ⟨⟨rfl, hlt, nofun⟩, .kept rfl (.inl (prefix_refl _))⟩
      · cases runnable with
        | nil => exact ⟨⟨rfl, hpos, nofun⟩, .none rfl⟩
        | cons => exact ⟨⟨rfl, hpos, nofun⟩, .advanced rfl rfl (prefix_append _ _) rfl⟩
    | yieldCurrent =>
      cases runnable with
      | nil => exact ⟨⟨rfl, hpos, nofun⟩, .none rfl⟩
      | cons => exact ⟨⟨rfl, hpos, nofun⟩, .advanced rfl rfl (prefix_append _ _) rfl⟩
    | blockCurrent =>
      cases runnable with
      | nil => exact ⟨⟨rfl, hpos, fun _ => rfl⟩, .none rfl⟩
      | cons => exact ⟨⟨rfl, hpos, nofun⟩, .advanced rfl rfl (prefix_refl _) rfl⟩
    | admitThread | wake =>
      dsimp only [RoundRobin.step, admitThread, wake, enqueue]
      split_ifs
      · exact ⟨⟨rfl, hticks, nofun⟩, .kept rfl (.inl (prefix_refl _))⟩
      · exact ⟨⟨rfl, hticks, nofun⟩, .kept rfl (.inl (prefix_refl _))⟩
      · contradiction
      · exact ⟨⟨rfl, hticks, nofun⟩, .kept rfl (.inl (prefix_append _ _))⟩
    | remove =>
      dsimp only [RoundRobin.step, remove]
      split_ifs
      · cases runnable with
        | nil => exact ⟨⟨rfl, hpos, fun _ => rfl⟩, .none rfl⟩
        | cons => exact ⟨⟨rfl, hpos, nofun⟩, .advanced rfl rfl (prefix_refl _) rfl⟩
      · exact ⟨⟨rfl, hticks, nofun⟩, .kept rfl (.inr ⟨_, rfl, rfl⟩)⟩
      · exact ⟨⟨rfl, hticks, nofun⟩, .kept rfl (.inl (prefix_refl _))⟩

theorem Queue.valid {quantum : UInt64} (h : Queue quantum q) : Valid q quantum.toNat := by
  refine Reachable.keeps (I := (Valid · _)) (fun q hq => ?_)
    (fun q e hq _ => (hq.step quantum.toNat_lt e).1) h
  unfold new at hq
  split at hq
  · cases hq
  · next hne =>
      cases hq
      exact ⟨rfl, UInt64.pos_iff_ne_zero.2 hne, fun _ => rfl⟩

theorem Valid.rank_pos (h : Valid q n) : 0 < q.rank i := by
  have hlt := h.ticks
  rw [rank, h.quantum]
  omega

/-- A waiting thread becomes current or moves forward, unless it is removed. -/
theorem Waits.step (hw : q.Waits thread i) (h : Valid q n) (hn : n < 2 ^ 64) {e : Event}
    (he : e ≠ .remove thread) : (q.step e).current = some thread ∨ ∃ j, (q.step e).Waits thread j ∧
      (q.step e).rank j + (if e = .tick then 1 else 0) ≤ q.rank i := by
  obtain ⟨before, after, hwaits, rfl⟩ := hw
  obtain ⟨⟨hsame, hticks', -⟩, hchange⟩ := h.step hn e
  obtain ⟨hquantum, hlt, -⟩ := h
  unfold rank
  rw [hsame, hquantum]
  cases hchange with
  | none hqueue => simp [hqueue] at hwaits
  | advanced hqueue hnext hrest hticks =>
    rw [hqueue] at hwaits
    obtain ⟨more, hmore⟩ := hrest
    rcases cons_eq_append_iff.1 hwaits with ⟨rfl, hhead⟩ | ⟨before, rfl, rfl⟩
    · exact .inl (hnext.trans (congrArg some (cons_eq_cons.1 hhead).1.symm))
    · refine .inr ⟨before.length, ⟨before, after ++ more, by simp [← hmore], rfl⟩, ?_⟩
      rw [hticks, length_cons, Nat.succ_mul]
      split_ifs <;> omega
  | kept hticks hqueue =>
    rcases hqueue with ⟨more, hmore⟩ | ⟨t, rfl, hqueue⟩
    · exact .inr ⟨_, ⟨before, after ++ more, by simp [← hmore, hwaits], rfl⟩, by omega⟩
    · have hne : thread ≠ t := fun heq => he (heq ▸ rfl)
      have hle : (before.erase t).length * n ≤ before.length * n :=
        Nat.mul_le_mul_right _ erase_sublist.length_le
      rw [hwaits] at hqueue
      rw [if_neg nofun] at hticks ⊢
      refine .inr ⟨(before.erase t).length, ?_, by omega⟩
      by_cases ht : t ∈ before
      · exact ⟨_, after, by rw [hqueue, erase_append_left _ ht], rfl⟩
      · refine ⟨before, after.erase t, ?_, by rw [erase_of_not_mem ht]⟩
        rw [hqueue, erase_append_right _ ht, erase_cons_tail (by simpa using hne)]

/-- A thread is current after at most its rank of ticks, unless it is removed before. -/
theorem Waits.run (hw : q.Waits thread i) (h : Valid q n) (hn : n < 2 ^ 64) {events : List Event}
    (hticks : q.rank i ≤ events.count .tick) : ∃ first, first <+: events ∧ first.count .tick ≤ q.rank i ∧
        (.remove thread ∈ first ∨ (first.foldl RoundRobin.step q).current = some thread) := by
  induction events generalizing q i with
  | nil => exact absurd hticks h.rank_pos.not_ge
  | cons e events ih =>
    have hcount (l : List Event) : (e :: l).count .tick = l.count .tick + if e = .tick then 1 else 0 := by
      simp [count_cons]
    by_cases he : e = .remove thread
    · exact ⟨[e], prefix_append [e] events, by simp [he], .inl (by simp [he])⟩
    rcases hw.step h hn he with hcurrent | ⟨j, hw', hrank⟩
    · exact ⟨[e], prefix_append [e] events, count_le_length.trans h.rank_pos, .inr hcurrent⟩
    · rw [hcount] at hticks
      obtain ⟨first, hfirst, hle, hdone⟩ := ih hw' (h.step hn e).1 (by omega)
      refine ⟨e :: first, cons_prefix_cons.2 ⟨rfl, hfirst⟩, ?_, hdone.imp_left (mem_cons_of_mem e)⟩
      rw [hcount]
      omega

/-- **Waiting is bounded.**  In every run, whatever calls it is made of, a thread with `i` others before
it in the queue is current after at most `(i + 1) * quantum` ticks, unless it is removed before. -/
theorem waits_at_most {quantum : UInt64} (hq : Queue quantum q) (events : List Event)
    (hi : q.runnable[i]? = some thread) (hticks : (i + 1) * quantum.toNat ≤ events.count .tick) :
    ∃ first, first <+: events ∧ first.count .tick ≤ (i + 1) * quantum.toNat ∧
      (.remove thread ∈ first ∨ (first.foldl step q).current = some thread) := by
  have hw : q.Waits thread i := by
    obtain ⟨hlt, rfl⟩ := List.getElem?_eq_some_iff.1 hi
    refine ⟨q.runnable.take i, q.runnable.drop (i + 1), ?_, length_take_of_le hlt.le⟩
    rw [← drop_eq_getElem_cons hlt, take_append_drop]
  have hrank : q.rank i ≤ (i + 1) * quantum.toNat := by
    rw [rank, hq.valid.quantum, Nat.succ_mul]
    omega
  obtain ⟨first, hfirst, hcount, hdone⟩ := hw.run hq.valid quantum.toNat_lt (hrank.trans hticks)
  exact ⟨first, hfirst, hcount.trans hrank, hdone⟩

theorem waits_at_most_two : ∃ first, first <+: [.tick, .tick, Event.admitThread 3] ∧ first.count .tick ≤ 2 ∧
    (.remove 2 ∈ first ∨ (first.foldl step ⟨2, 0, some 1, [2], 1, 0, 0⟩).current = some 2) := by
  have hnew : Queue 2 ⟨2, 0, none, [], 0, 0, 0⟩ := .start rfl
  have hfirst : Queue 2 (step _ (.admitThread 1)) := hnew.step trivial
  have hsecond : Queue 2 (step _ (.admitThread 2)) := hfirst.step trivial
  exact waits_at_most hsecond _ (i := 0) rfl (by decide)

end RoundRobin

end Scheduling
