/-
**Event ports keep within their bounds.**

An event port queues at most one event for each key, and it has room for as many events as it has
registrations, so a queue is never full when a port looks at a target.  What is queued for a key is
described by `EventPort.pending`, the signals of the event with that key; looking at a target adds
to it the signals that have become asserted since the last look.

* `Valid.observe` — looking at a target finds room for its events;
* `pending_observe` — and queues what has newly become asserted;
* `Valid.add`, `Valid.remove`,
  `Valid.popEvent` — the other operations keep the bounds.
-/

import NullStar.KernelObject
import NullStar.Keyed

set_option autoImplicit false

namespace Kernel.EventPort

open Rust Keyed Option List Registration

/-! ### Queued signals -/

/-- The signals of the event that is queued for the key. -/
def pending (events : List Event) (key : ℕ) : Bits :=
  match Keyed.lookup (·.key) key events with
  | some event => event.signals
  | none => 0

/-- The queue has one event for each of its keys, all of them from the list, and no empty event. -/
structure QueueOk (keys : List ℕ) (events : List Event) : Prop where
  nodup : (events.map (·.key)).Nodup
  sub : ∀ event ∈ events, event.key ∈ keys
  nonzero : ∀ event ∈ events, event.signals ≠ 0

theorem pending_of_not_mem {events : List Event} {key : ℕ} (h : key ∉ events.map (·.key)) :
    pending events key = 0 := by
  have hl : lookup (·.key) key events = none := lookup_eq_none.2 h
  rw [pending, hl]

theorem or_ne_zero_left {a b : Bits} (h : a ≠ 0) : a ||| b ≠ 0 := by
  intro h0
  exact h (BitVec.or_eq_zero_iff.1 h0).1

/-- An event for a key of the list finds room, and adds its signals to what is queued. -/
theorem queueEvent_spec {keys : List ℕ} {capacity : ℕ} (hcap : keys.length ≤ capacity)
    {events : List Event} (h : QueueOk keys events) {key : ℕ} (hkey : key ∈ keys) {signals : Bits}
    (hsignals : signals ≠ 0) :
    ∃ events', queueEvent capacity events key signals = some events' ∧ QueueOk keys events' ∧
      ∀ k, pending events' k = if k = key then pending events k ||| signals else pending events k := by
  unfold queueEvent
  by_cases hmem : key ∈ events.map (·.key)
  · -- the key has an event already, which takes the signals
    let f : Event → Event := fun e => { e with signals := e.signals ||| signals }
    have hf : ∀ e, (f e).key = e.key := fun _ => rfl
    have hkeys : (adjust (·.key) key f events).map (·.key) = events.map (·.key) := map_key_adjust hf
    rw [if_pos hmem]
    refine ⟨_, rfl, ⟨?_, ?_, ?_⟩, ?_⟩
    · exact hkeys ▸ h.nodup
    · intro event he
      rcases mem_adjust he with he | ⟨e, hl, rfl⟩
      · exact h.sub event he
      · exact h.sub e (mem_of_lookup hl)
    · intro event he
      rcases mem_adjust he with he | ⟨e, hl, rfl⟩
      · exact h.nonzero event he
      · exact or_ne_zero_left (h.nonzero e (mem_of_lookup hl))
    · intro k
      change pending (adjust (·.key) key f events) k = _
      by_cases hk : k = key
      · subst hk
        obtain ⟨e, he⟩ := isSome_iff_exists.1 (lookup_isSome.2 hmem)
        have hnew : lookup (·.key) k (adjust (·.key) k f events) = some (f e) := by
          rw [lookup_adjust_self hf, he, map_some]
        rw [if_pos rfl, pending, pending, hnew, he]
      · rw [if_neg hk, pending, pending, lookup_adjust_ne hf hk]
  · -- the keys of the queue and the new one are distinct keys of the list
    have hlt : events.length < capacity := by
      have hsub : (key :: events.map (·.key)).Subperm keys := by
        refine Nodup.subperm (nodup_cons.2 ⟨hmem, h.nodup⟩) ?_
        intro k hk
        rcases mem_cons.1 hk with rfl | hk
        · exact hkey
        · obtain ⟨e, he, rfl⟩ := mem_map.1 hk
          exact h.sub e he
      have := hsub.length_le
      simp at this
      omega
    rw [if_neg hmem, if_neg (by omega)]
    refine ⟨_, rfl, ⟨?_, ?_, ?_⟩, ?_⟩
    · exact nodup_map_concat h.nodup hmem
    · exact forall_mem_append.2 ⟨h.sub, forall_mem_singleton.2 hkey⟩
    · exact forall_mem_append.2 ⟨h.nonzero, forall_mem_singleton.2 hsignals⟩
    · intro k
      rw [pending, Keyed.lookup_append]
      by_cases hk : k = key
      · subst hk
        have hnone : lookup (·.key) k events = none := lookup_eq_none.2 hmem
        rw [pending, hnone]
        simp [Keyed.lookup_cons]
      · rw [if_neg hk, pending]
        cases hl : lookup (·.key) k events with
        | none => simp [Keyed.lookup_cons, Ne.symm hk]
        | some => rfl

/-- Newly asserted signals find room.  Where there are none, nothing is queued. -/
theorem queueRising_spec {keys : List ℕ} {capacity : ℕ} (hcap : keys.length ≤ capacity)
    {events : List Event} (h : QueueOk keys events) {key : ℕ} (hkey : key ∈ keys) (signals : Bits) :
    ∃ events', (if signals ≠ 0 then queueEvent capacity events key signals else some events) =
        some events' ∧ QueueOk keys events' ∧
      ∀ k, pending events' k = if k = key then pending events k ||| signals else pending events k := by
  by_cases hsignals : signals = 0
  · exact ⟨events, by simp [hsignals], h, by simp [hsignals]⟩
  · rw [if_pos hsignals]
    exact queueEvent_spec hcap h hkey hsignals

/-! ### Looking at a target -/

variable (target : ObjectRef) (current : Bits) (registration : Registration)

/-- A registration after a look at the target. -/
def Registration.look : Registration :=
  if registration.target = target then
    { registration with observed := current &&& registration.requested }
  else registration

/-- The signals that a look at the target finds newly asserted. -/
def Registration.rising : Bits :=
  if registration.target = target then
    current &&& registration.requested &&& ~~~registration.observed
  else 0

variable (r : Registration)

@[simp] theorem Registration.look_key : (r.look target current).key = r.key := by
  unfold look
  split <;> rfl

@[simp] theorem Registration.look_target : (r.look target current).target = r.target := by
  unfold look
  split <;> rfl

@[simp] theorem Registration.look_requested : (r.look target current).requested = r.requested := by
  unfold look
  split <;> rfl

/-- The loop of a look: there is room for every event, each registration is looked at, and each key
gets the newly asserted signals of its registration. -/
theorem observeFrom_spec {keys : List ℕ} {capacity : ℕ} (hcap : keys.length ≤ capacity)
    (target : ObjectRef) (current : Bits) : ∀ (registrations : List Registration) (events : List Event),
      (registrations.map (·.key)).Nodup → (∀ r ∈ registrations, r.key ∈ keys) → QueueOk keys events →
      ∃ events', observeFrom capacity target current registrations events =
          (registrations.map (·.look target current), events', true) ∧ QueueOk keys events' ∧
        (∀ r ∈ registrations, pending events' r.key = pending events r.key ||| r.rising target current) ∧
        ∀ k, k ∉ registrations.map (·.key) → pending events' k = pending events k := by
  intro registrations
  induction registrations with
  | nil =>
    intro events _ _ h
    exact ⟨events, rfl, h, by simp, fun _ _ => rfl⟩
  | cons r rest ih =>
    intro events hnd hkeys h
    rw [map_cons, nodup_cons] at hnd
    have hrest : ∀ r' ∈ rest, r'.key ∈ keys := fun r' hr' => hkeys r' (mem_cons_of_mem r hr')
    -- the queue after the first registration
    obtain ⟨events1, hq, hok1, hpend1⟩ :=
      queueRising_spec hcap h (hkeys r mem_cons_self) (r.rising target current)
    obtain ⟨events', hobs, hok', hin, hout⟩ := ih events1 hnd.2 hrest hok1
    refine ⟨events', ?_, hok', ?_, ?_⟩
    · unfold observeFrom
      by_cases ht : r.target = target
      · have hrise : r.rising target current = current &&& r.requested &&& ~~~r.observed := if_pos ht
        rw [hrise] at hq
        simp only [ht, ne_eq, not_true_eq_false, if_false, hq, hobs, map_cons]
        rw [look, if_pos ht, ht]
      · have hrise : r.rising target current = 0 := if_neg ht
        have he : events1 = events := by
          rw [hrise] at hq
          simpa using hq.symm
        rw [he] at hobs
        simp only [ne_eq, ht, not_false_eq_true, if_true, hobs, map_cons]
        rw [look, if_neg ht]
    · intro r' hr'
      rcases mem_cons.1 hr' with rfl | hr'
      · rw [hout _ hnd.1, hpend1, if_pos rfl]
      · have hne : r'.key ≠ r.key := fun hk => hnd.1 (hk ▸ mem_map_of_mem hr')
        rw [hin r' hr', hpend1, if_neg hne]
    · intro k hk
      rw [map_cons, mem_cons, not_or] at hk
      rw [hout k hk.2, hpend1, if_neg hk.1]

/-! ### Ports -/

namespace State

/-- A port has one registration and at most one event for each key, and room for as many events as
registrations.  It asks only for signals that its targets have, and reports only what was asked
for. -/
structure Valid (s : State) : Prop where
  registrations_le : s.registrations.length ≤ s.registrationCapacity
  capacity_le : s.registrationCapacity ≤ s.eventCapacity
  key_le : ∀ r ∈ s.registrations, r.key ≤ s.maximumKey
  maximumKey_le : s.maximumKey ≤ maxKey
  keys_nodup : (s.registrations.map (·.key)).Nodup
  requested_ok : ∀ r ∈ s.registrations, r.requested ≠ 0 ∧
    Within r.requested (capabilityObjectSupportedSignals r.target.kind) ∧ r.target.kind ≠ .eventPort
  observed_within : ∀ r ∈ s.registrations, Within r.observed r.requested
  queue : QueueOk (s.registrations.map (·.key)) s.events
  pending_within : ∀ r ∈ s.registrations, Within (pending s.events r.key) r.requested

variable {s s' : State}

theorem Valid.keys_length_le (h : s.Valid) : (s.registrations.map (·.key)).length ≤ s.eventCapacity := by
  rw [length_map]
  exact h.registrations_le.trans h.capacity_le

theorem within_and_right (a b : Bits) : Within (a &&& b) b := within_iff.2 fun i h => by
    rw [BitVec.getLsbD_and, Bool.and_eq_true] at h
    exact h.2

theorem within_and_left (a b : Bits) : Within (a &&& b) a := within_iff.2 fun i h => by
    rw [BitVec.getLsbD_and, Bool.and_eq_true] at h
    exact h.1

theorem within_or {a b c : Bits} (ha : Within a c) (hb : Within b c) : Within (a ||| b) c :=
  within_iff.2 fun i h => by
    rw [BitVec.getLsbD_or, Bool.or_eq_true] at h
    exact h.elim (within_iff.1 ha i) (within_iff.1 hb i)

theorem eq_zero_of_within {a : Bits} (h : Within a 0) : a = 0 := by
  refine BitVec.eq_of_getLsbD_eq fun i _ => ?_
  by_contra hne
  have hset : a.getLsbD i = true := by simpa using hne
  simpa using within_iff.1 h i hset

theorem within_zero (a : Bits) : Within 0 a := within_iff.2 fun i h => by simp at h

theorem rising_within : Within (r.rising target current) r.requested := by
  unfold rising
  split
  · exact (within_and_left _ _).trans (within_and_right _ _)
  · exact within_zero _

theorem valid_new {registrationCapacity eventCapacity maximumKey : ℕ}
    (hcap : registrationCapacity ≤ eventCapacity) (hkey : maximumKey ≤ maxKey) :
    (State.new registrationCapacity eventCapacity maximumKey).Valid where
  registrations_le := Nat.zero_le _
  capacity_le := hcap
  key_le := by simp [State.new]
  maximumKey_le := hkey
  keys_nodup := nodup_nil
  requested_ok := by simp [State.new]
  observed_within := by simp [State.new]
  queue := ⟨nodup_nil, by simp [State.new], by simp [State.new]⟩
  pending_within := by simp [State.new]

/-- What looking at a target does to a port: there is room for all events. -/
theorem observe_spec (h : s.Valid) (target : ObjectRef) (current : Bits) :
    ∃ events, s.observe target current =
        ({ s with
          registrations := s.registrations.map (·.look target current), events := events }, true) ∧
      QueueOk (s.registrations.map (·.key)) events ∧ (∀ r ∈ s.registrations,
        pending events r.key = pending s.events r.key ||| r.rising target current) ∧
      ∀ k, k ∉ s.registrations.map (·.key) → pending events k = pending s.events k := by
  obtain ⟨events, hobs, hok, hin, hout⟩ := observeFrom_spec h.keys_length_le target current
    s.registrations s.events h.keys_nodup (fun r hr => mem_map_of_mem hr) h.queue
  refine ⟨events, ?_, hok, hin, hout⟩
  rw [observe, hobs]

theorem map_look_key (registrations : List Registration) (target : ObjectRef) (current : Bits) :
    (registrations.map (·.look target current)).map (·.key) = registrations.map (·.key) := by
  simp

/-- Looking at a target finds room for its events. -/
theorem Valid.observe (h : s.Valid) (target : ObjectRef) (current : Bits) :
    (s.observe target current).1.Valid ∧ (s.observe target current).2 = true := by
  obtain ⟨events, hobs, hok, hin, -⟩ := observe_spec h target current
  rw [hobs]
  refine ⟨?_, rfl⟩
  have hmem : ∀ {P : Registration → Prop}, (∀ r ∈ s.registrations, P (r.look target current)) →
      ∀ r ∈ s.registrations.map (·.look target current), P r := by
    intro P hP r hr
    obtain ⟨r0, hr0, rfl⟩ := mem_map.1 hr
    exact hP r0 hr0
  refine ⟨?_, h.capacity_le, ?_, h.maximumKey_le, ?_, ?_, ?_, ?_, ?_⟩
  · simpa using h.registrations_le
  · exact hmem (by simpa using h.key_le)
  · change ((s.registrations.map (·.look target current)).map (·.key)).Nodup
    rw [map_look_key]
    exact h.keys_nodup
  · exact hmem (by simpa using h.requested_ok)
  · refine hmem fun r hr => ?_
    unfold look
    split
    · exact within_and_right _ _
    · exact h.observed_within r hr
  · change QueueOk ((s.registrations.map (·.look target current)).map (·.key)) events
    rw [map_look_key]
    exact hok
  · refine hmem fun r hr => ?_
    simpa [hin r hr] using within_or (h.pending_within r hr) (rising_within target current r)

/-- Looking at a target queues what has newly become asserted. -/
theorem pending_observe (h : s.Valid) (target : ObjectRef) (current : Bits) {r : Registration}
    (hr : r ∈ s.registrations) : pending (s.observe target current).1.events r.key =
      pending s.events r.key ||| r.rising target current := by
  obtain ⟨events, hobs, -, hin, -⟩ := observe_spec h target current
  rw [hobs]
  exact hin r hr

theorem registrations_observe (h : s.Valid) (target : ObjectRef) (current : Bits) :
    (s.observe target current).1.registrations = s.registrations.map (·.look target current) := by
  obtain ⟨events, hobs, -⟩ := observe_spec h target current
  rw [hobs]

/-- The port after it has looked at the targets in the list, whose signals are given. -/
structure Looked (signals : ObjectRef → Bits) (targets : List ObjectRef) (s s' : State) : Prop where
  registrations : s'.registrations = s.registrations.map fun r =>
    if r.target ∈ targets then { r with observed := signals r.target &&& r.requested } else r
  pending : ∀ r ∈ s.registrations, pending s'.events r.key = EventPort.pending s.events r.key |||
    if r.target ∈ targets then signals r.target &&& r.requested &&& ~~~r.observed else 0
  valid : s'.Valid

variable (h : s.Valid)

include h

theorem Looked.refl {signals : ObjectRef → Bits} :
    Looked signals [] s s where
  registrations := by simp
  pending := by simp
  valid := h

/-- Looking at one target more.  A target that is looked at twice has no new signals for the second
look. -/
theorem Looked.cons {signals : ObjectRef → Bits} {target : ObjectRef} {targets : List ObjectRef}
    (hrest : Looked signals targets (s.observe target (signals target)).1 s') :
    Looked signals (target :: targets) s s' where
  registrations := by
    rw [hrest.registrations, registrations_observe h, List.map_map]
    refine map_congr_left fun r _ => ?_
    unfold look
    by_cases ht : r.target = target
    · subst ht
      simp
    · simp [ht]
  pending r hr := by
    have hmem : r.look target (signals target) ∈ (s.observe target (signals target)).1.registrations := by
      rw [registrations_observe h]
      exact mem_map_of_mem hr
    have hkey := hrest.pending _ hmem
    rw [look_key, pending_observe h target _ hr] at hkey
    rw [hkey]
    unfold look rising
    by_cases ht : r.target = target
    · subst ht
      simp
    · simp [ht]
  valid := hrest.valid

/-- A new registration finds room for its event. -/
theorem Valid.add {target : ObjectRef} {requested : Bits} {key : ℕ} {current : Bits}
    (hsupported : Within requested (capabilityObjectSupportedSignals target.kind))
    (hkind : target.kind ≠ .eventPort) (hadd : s.add target requested key current = .ok s') : s'.Valid ∧
      s'.registrations = s.registrations ++ [⟨target, requested, key, current &&& requested⟩] := by
  simp only [State.add, run_eq_ok] at hadd
  obtain ⟨-, hne, hkey, hfresh, hfull, events, hevents, rfl⟩ := hadd
  refine ⟨?_, rfl⟩
  have hkeys : (s.registrations ++ [(⟨target, requested, key, current &&& requested⟩ :
      Registration)]).map (·.key) = s.registrations.map (·.key) ++ [key] := by simp
  have hqueue : QueueOk (s.registrations.map (·.key) ++ [key]) s.events :=
    ⟨h.queue.nodup, fun e he => mem_append_left _ (h.queue.sub e he), h.queue.nonzero⟩
  have hold : pending s.events key = 0 := by
    refine pending_of_not_mem fun hmem => hfresh ?_
    obtain ⟨e, he, rfl⟩ := mem_map.1 hmem
    exact h.queue.sub e he
  have hlen : (s.registrations.map (·.key) ++ [key]).length ≤ s.eventCapacity := by
    have := h.capacity_le
    simp at ⊢
    omega
  -- what is queued for the new key is what was asserted; nothing changes for the others
  have hkmem : key ∈ s.registrations.map (·.key) ++ [key] := by simp
  obtain ⟨events', hq, hok, hpend⟩ := queueRising_spec hlen hqueue hkmem (current &&& requested)
  obtain rfl : events' = events := some.inj (hq.symm.trans hevents)
  have hmem : ∀ {P : Registration → Prop}, (∀ r ∈ s.registrations, P r) →
      P ⟨target, requested, key, current &&& requested⟩ →
      ∀ r ∈ s.registrations ++ [⟨target, requested, key, current &&& requested⟩], P r :=
    fun hP hnew => forall_mem_append.2 ⟨hP, forall_mem_singleton.2 hnew⟩
  refine ⟨?_, h.capacity_le, ?_, h.maximumKey_le, ?_, ?_, ?_, ?_, ?_⟩
  · simp at ⊢
    omega
  · exact hmem h.key_le (by simpa using hkey)
  · exact nodup_map_concat h.keys_nodup hfresh
  · exact hmem h.requested_ok ⟨hne, hsupported, hkind⟩
  · exact hmem h.observed_within (within_and_right _ _)
  · exact hkeys ▸ hok
  · refine hmem (fun r hr => ?_) ?_
    · have hk : r.key ≠ key := fun hk => hfresh (hk ▸ mem_map_of_mem hr)
      rw [hpend, if_neg hk]
      exact h.pending_within r hr
    · change Within (pending events' key) requested
      rw [hpend, hold]
      simpa using within_and_right current requested

/-- A registration and its event are removed together. -/
theorem Valid.remove {key : ℕ} (hremove : s.remove key = some s') :
    s'.Valid ∧ s'.registrations.Sublist s.registrations := by
  unfold State.remove at hremove
  split at hremove
  · next hmem =>
      cases hremove
      have hsub : (s.registrations.eraseP fun r => r.key = key).Sublist s.registrations := eraseP_sublist
      have hin : ∀ r ∈ s.registrations.eraseP fun r => r.key = key, r ∈ s.registrations :=
        fun r hr => hsub.subset hr
      -- the key of the removed registration is gone, as keys do not repeat
      have hgone : ∀ r ∈ s.registrations.eraseP (fun r => r.key = key), r.key ≠ key := by
        rw [eraseP_eq_filter h.keys_nodup]
        exact fun r hr => by simpa using (mem_filter.1 hr).2
      have hpend : ∀ k ≠ key, pending (s.events.filter fun e => e.key ≠ key) k = pending s.events k := by
        intro k hk
        have hl : lookup (·.key) k (s.events.filter fun e => e.key ≠ key) = _ :=
          lookup_filter fun k => decide (k ≠ key)
        rw [pending, hl, if_pos (by simpa using hk), pending]
      refine ⟨⟨?_, h.capacity_le, ?_, h.maximumKey_le, ?_, ?_, ?_, ⟨?_, ?_, ?_⟩, ?_⟩, hsub⟩
      · exact hsub.length_le.trans h.registrations_le
      · exact fun r hr => h.key_le r (hin r hr)
      · exact h.keys_nodup.sublist (hsub.map _)
      · exact fun r hr => h.requested_ok r (hin r hr)
      · exact fun r hr => h.observed_within r (hin r hr)
      · exact h.queue.nodup.sublist (filter_sublist.map _)
      · intro e he
        obtain ⟨he, hk⟩ := mem_filter.1 he
        obtain ⟨r, hr, hrk⟩ := mem_map.1 (h.queue.sub e he)
        refine mem_map.2 ⟨r, ?_, hrk⟩
        exact (mem_eraseP_of_neg (by simpa [hrk] using hk)).2 hr
      · exact fun e he => h.queue.nonzero e (mem_filter.1 he).1
      · intro r hr
        rw [hpend r.key (hgone r hr)]
        exact h.pending_within r (hin r hr)
  · simp at hremove

theorem Valid.popEvent {event : Event} (hpop : s.popEvent = some (event, s')) :
    s'.Valid ∧ s'.registrations = s.registrations := by
  unfold State.popEvent at hpop
  cases he : s.events with
  | nil => simp [he] at hpop
  | cons e rest =>
    rw [he] at hpop
    obtain ⟨-, rfl⟩ := Prod.mk.inj (some.inj hpop)
    have hq := h.queue
    rw [he] at hq
    refine ⟨⟨h.registrations_le, h.capacity_le, h.key_le, h.maximumKey_le, h.keys_nodup,
      h.requested_ok, h.observed_within, ⟨?_, ?_, ?_⟩, ?_⟩, rfl⟩
    · exact hq.nodup.sublist ((sublist_cons_self _ _).map _)
    · exact fun x hx => hq.sub x (mem_cons_of_mem _ hx)
    · exact fun x hx => hq.nonzero x (mem_cons_of_mem _ hx)
    · intro r hr
      have hw := h.pending_within r hr
      rw [he, pending, Keyed.lookup_cons] at hw
      by_cases hk : e.key = r.key
      · have hnot : r.key ∉ rest.map (·.key) := by
          have := hq.nodup
          rw [map_cons, nodup_cons, hk] at this
          exact this.1
        rw [pending_of_not_mem hnot]
        exact within_zero _
      · rw [if_neg hk] at hw
        exact hw

end State

end Kernel.EventPort
