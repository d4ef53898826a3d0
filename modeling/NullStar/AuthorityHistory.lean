/-
**Permanence of handles and of revocation.**

The authority model keeps no history; what it promises is about histories.  A handle that has been
given up stays dead, a revoked object stays out of reach, an object id is used once, and no entry has
more rights than its object was created with.

Two of these promises need care of the caller.  Removing a process drops its table together with the
generations in it, so that the handles of a process that is registered again start over.  And reducing
an entry accepts the empty set of rights.

* `History.step`, `History.Careful` — one call, and the calls that respect the two
  conditions;
* `upheld_of_careful` — the promises hold in every state of every run of careful calls;
* `handle_revives` — without the conditions, a handle revives and an entry loses all rights.
-/

import NullStar.Authority

set_option autoImplicit false

namespace Authority

open Rust Machine CapabilityRegistry Option Keyed

/-- The entry of the process under the handle. -/
def CapabilityRegistry.Holds (r : CapabilityRegistry) (p : ℕ) (h : CapabilityHandle)
    (e : CapabilityEntry) : Prop :=
  ∃ x, r.slot p h.slot = some x ∧ x.generation = h.generation ∧ x.entry = some e

/-- A registry and what has happened to it. -/
structure History where
  registry : CapabilityRegistry
  /-- The handles of a process that were closed, transferred away or dropped with the process. -/
  retired : ℕ → CapabilityHandle → Prop
  /-- The processes that were removed. -/
  removed : ℕ → Prop
  /-- The objects that were revoked. -/
  revoked : ℕ → Prop
  /-- The rights with which an object was created. -/
  granted : ℕ → Option Rights

namespace History

def new : History where
  registry := .new
  retired := fun _ _ => False
  removed := fun _ => False
  revoked := fun _ => False
  granted := fun _ => none

variable (s : History) (op : Operation)

/-- What a successful call adds to the history. -/
def record (md : Option CapabilityMetadata) (r : CapabilityRegistry) : History :=
  match op with
  | .removeProcess p =>
    { s with
      registry := r
      retired := fun q h => s.retired q h ∨ q = p ∧ ∃ e, s.registry.Holds p h e
      removed := fun q => s.removed q ∨ q = p }
  | .createObject _ _ rights =>
    { s with
      registry := r
      granted := fun o => if md.map (·.object) = some o then some rights else s.granted o }
  | .transfer p h _ _ | .close p h =>
    { s with registry := r, retired := fun q k => s.retired q k ∨ q = p ∧ k = h }
  | .revoke o => { s with registry := r, revoked := fun o' => s.revoked o' ∨ o' = o }
  | _ => { s with registry := r }

def step : History :=
  match op.run s.registry with
  | .ok md r => s.record op md r
  | .error _ r => { s with registry := r }

/-- The call registers no process that was removed, and reduces no entry to nothing. -/
def Careful : Operation → Prop
  | .ensureProcess p | .createObject p _ _ | .transfer _ _ p _ => ¬ s.removed p
  | .reduce _ _ requested => requested ≠ Rights.none
  | _ => True

def Reachable : History → Prop := Machine.Reachable (· = new) Careful step

/-- The promises of the authority model. -/
structure Upheld (s : History) : Prop where
  /-- A handle that was given up does not pass validation again. -/
  retired : ∀ p h, s.retired p h → ∀ x, s.registry.validateHandle p h ≠ .ok x
  /-- No lookup, check, duplication or transfer of a revoked object succeeds. -/
  revoked : ∀ o, s.revoked o → (∀ p h md, s.registry.lookup p h = .ok md → md.object ≠ o) ∧
    (∀ p h objectType required md, s.registry.check p h objectType required = .ok md → md.object ≠ o) ∧
    (∀ p h requested md r, duplicate p h requested s.registry = .ok md r → md.object ≠ o) ∧
    ∀ p h q requested md r, transfer p h q requested s.registry = .ok md r → md.object ≠ o
  /-- An object that is created has an id that no object had before. -/
  fresh : ∀ p objectType rights md r,
    createObject p objectType rights s.registry = .ok md r → s.granted md.object = none
  /-- Every entry has some rights, and only rights its object was created with. -/
  rights : ∀ p h e, s.registry.Holds p h e →
    e.rights ≠ Rights.none ∧ ∃ g, s.granted e.object = some g ∧ g.Contains e.rights
  /-- The objects are those for which there is an entry. -/
  objects : ∀ o, o ∈ s.registry.objects.map CapabilityObject.object ↔
    ∃ p h e, s.registry.Holds p h e ∧ e.object = o
  /-- A call that fails leaves the entries as they are. -/
  failure : ∀ (op : Operation) e r, op.run s.registry = .error e r →
    ∀ p h entry, r.Holds p h entry ↔ s.registry.Holds p h entry

/-! ### The invariant -/

/-- The handle has been left behind by its slot, or its process is gone for good. -/
def Dead (p : ℕ) (h : CapabilityHandle) : Prop :=
  h.generation ≠ 0 ∧ (s.removed p ∨
    ∃ x, s.registry.slot p h.slot = some x ∧ (x.generation = 0 ∨ h.generation < x.generation))

/-- What holds in every state of every run of careful calls. -/
structure Kept (s : History) : Prop where
  sound : Sound s.registry
  removed : ∀ p, s.removed p → s.registry.table p = none
  retired : ∀ p h, s.retired p h → s.Dead p h
  revoked : ∀ o, s.revoked o → o < s.registry.nextObjectId ∧
    ∀ x ∈ s.registry.objects, x.object = o → x.revoked = true
  granted : ∀ o, (s.granted o).isSome → o < s.registry.nextObjectId
  rights : ∀ p i x e, s.registry.slot p i = some x → x.entry = some e →
    e.rights ≠ Rights.none ∧ ∃ g, s.granted e.object = some g ∧ g.Contains e.rights

variable {s} {r : CapabilityRegistry} {p q o : ℕ} {h : CapabilityHandle} {md : CapabilityMetadata}
  {rights : Rights} {objectType : ObjectType}

/-- A generation is not taken back. -/
def Later (x x' : HandleSlot) : Prop :=
  x'.generation = x.generation ∨ x'.generation = 0 ∨ x.generation ≠ 0 ∧ x.generation < x'.generation

/-- Dead handles stay dead when every slot moves on. -/
theorem Dead.mono {s' : History} (hdead : s.Dead p h) (hremoved : ∀ p, s.removed p → s'.removed p)
    (hslots : ∀ p i x, s.registry.slot p i = some x → s'.removed p ∨
      ∃ x', s'.registry.slot p i = some x' ∧ Later x x') : s'.Dead p h := by
  obtain ⟨hne, hdead | ⟨x, hx, hold⟩⟩ := hdead
  · exact ⟨hne, .inl (hremoved p hdead)⟩
  · refine ⟨hne, ?_⟩
    rcases hslots p h.slot x hx with hgone | ⟨x', hx', hlater⟩
    · exact .inl hgone
    · refine .inr ⟨x', hx', ?_⟩
      rcases hlater with heq | hzero | ⟨hx0, hlt⟩
      · rwa [heq]
      · exact .inl hzero
      · rcases hold with hold | hold
        · exact absurd hold hx0
        · exact .inr (hold.trans hlt)

theorem kept_new : Kept new where
  sound := sound_new
  removed := fun _ h => h.elim
  retired := fun _ _ h => h.elim
  revoked := fun _ h => h.elim
  granted := by simp [new]
  rights := by simp [new, CapabilityRegistry.new, slot, table]

/-! ### What the calls do to it -/

namespace Kept

variable (hk : Kept s)

include hk

/-- A change that leaves entries and objects as they are. -/
theorem alike (hp : ¬ s.removed p) (ha : Alike p s.registry r) : Kept { s with registry := r } where
  sound := hk.sound.alike ha
  removed := fun q hq => by
    rw [← not_isSome_iff_eq_none]
    intro hsome
    rcases ha.tables q hsome with h | rfl
    · rw [hk.removed q hq] at h
      simp at h
    · exact hp hq
  retired := fun q k hqk => (hk.retired q k hqk).mono (fun _ => id) fun q' i x hx =>
    .inr ⟨x, (ha.slots q' i).trans hx, .inl rfl⟩
  revoked := fun o ho => by
    obtain ⟨hlt, hall⟩ := hk.revoked o ho
    exact ⟨hlt.trans_le ha.next, fun x hx => hall x (ha.objects ▸ hx)⟩
  granted := fun o ho => (hk.granted o ho).trans_le ha.next
  rights := fun q i x e hx => hk.rights q i x e ((ha.slots q i).symm.trans hx)

/-- A new entry.  The objects may have grown by one that was not revoked. -/
theorem installed {r1 : CapabilityRegistry} {granted : ℕ → Option Rights} (hp : ¬ s.removed p)
    (hsound : Sound r) (hslots : ∀ q i, r1.slot q i = s.registry.slot q i)
    (htables : ∀ q, (r1.table q).isSome → (s.registry.table q).isSome ∨ q = p)
    (hnext : s.registry.nextObjectId ≤ r1.nextObjectId)
    (hobjects : ∀ x ∈ r1.objects, x.object < s.registry.nextObjectId → x ∈ s.registry.objects)
    (hold : ∀ o g, s.granted o = some g → granted o = some g)
    (hnew : ∀ o, (granted o).isSome → o < r1.nextObjectId)
    (hgranted : ∃ g, granted o = some g ∧ g.Contains rights) (hi : Installed p o objectType rights md r1 r) :
    Kept { s with registry := r, granted := granted } := by
  obtain ⟨i, g, -, hwas, hset⟩ := hi.slots
  rw [hslots] at hwas
  simp only [hslots] at hset
  constructor
  case sound => exact hsound
  case removed =>
    intro q hq
    rw [← not_isSome_iff_eq_none]
    intro hsome
    have hq' : (s.registry.table q).isSome ∨ q = p := (hi.tables q hsome).elim (htables q) .inr
    rcases hq' with h | rfl
    · rw [hk.removed q hq] at h
      simp at h
    · exact hp hq
  case retired =>
    intro q k hqk
    refine (hk.retired q k hqk).mono (fun _ => id) fun q' j x hx => .inr ?_
    rw [hset]
    split
    · next h =>
        obtain ⟨rfl, rfl⟩ := h
        rcases hwas with hwas | ⟨hwas, -⟩
        · rw [hx] at hwas
          exact ⟨_, rfl, .inl (by rw [some.inj hwas])⟩
        · rw [hx] at hwas
          simp at hwas
    · exact ⟨x, hx, .inl rfl⟩
  case revoked =>
    intro o' ho'
    obtain ⟨hlt, hall⟩ := hk.revoked o' ho'
    rw [hi.next]
    refine ⟨hlt.trans_le hnext, fun x hx hxo => ?_⟩
    rw [hi.objects] at hx
    exact hall x (hobjects x hx (hxo ▸ hlt)) hxo
  case granted =>
    intro o' ho'
    rw [hi.next]
    exact hnew o' ho'
  case rights =>
    intro q j x e hx he
    rw [hset] at hx
    split at hx
    · cases hx
      cases he
      exact ⟨hi.valid, hgranted⟩
    · obtain ⟨hne, g', hg', hcontains⟩ := hk.rights q j x e hx he
      exact ⟨hne, g', hold _ _ hg', hcontains⟩

theorem install (hp : ¬ s.removed p) (hgranted : ∃ g, s.granted o = some g ∧ g.Contains rights)
    (hi : Installed p o objectType rights md s.registry r) : Kept { s with registry := r } :=
  hk.installed hp (hk.sound.install hi) (fun _ _ => rfl) (fun _ => .inl) le_rfl
    (fun _ hx _ => hx) (fun _ _ => id) hk.granted hgranted hi

theorem createObject (hp : ¬ s.removed p) (hok : createObject p objectType rights s.registry = .ok md r) :
    Kept (s.record (.createObject p objectType rights) (some md) r) := by
  obtain ⟨r1, ha, -, hi⟩ := createObject_ok hok
  have hnone : s.granted s.registry.nextObjectId = none := by
    rw [← not_isSome_iff_eq_none]
    exact fun hsome => lt_irrefl _ (hk.granted _ hsome)
  have hrecord : s.record (.createObject p objectType rights) (some md) r =
      { s with
        registry := r
        granted := fun o =>
          if s.registry.nextObjectId = o then some rights else s.granted o } := by
    simp only [record, map_some, some.injEq, hi.object]
  rw [hrecord]
  refine hk.installed hp (hk.sound.create ha hi) ?_ ?_ ?_ ?_ ?_ ?_ ?_ hi
  · exact ha.slots
  · exact ha.tables
  · exact Nat.le_succ _
  · intro x hx hlt
    rcases List.mem_append.1 hx with hx | hx
    · exact hx
    · rw [List.mem_singleton.1 hx] at hlt
      exact absurd hlt (lt_irrefl _)
  · intro o g hg
    rw [if_neg, hg]
    rintro rfl
    rw [hnone] at hg
    simp at hg
  · intro o ho
    split at ho
    · next heq => exact heq ▸ Nat.lt_succ_self _
    · exact (hk.granted o ho).trans (Nat.lt_succ_self _)
  · exact ⟨rights, if_pos rfl, .refl rights⟩

/-- An entry that a lookup has found, and rights that it contains. -/
theorem granted_of_lookup {requested : Rights} (hlookup : s.registry.lookup p h = .ok md)
    (hcontains : md.rights.Contains requested) :
    ∃ g, s.granted md.object = some g ∧ g.Contains requested := by
  obtain ⟨x, e, record, hx, -, he, -, -, rfl⟩ := lookup_ok hlookup
  obtain ⟨-, g, hg, hge⟩ := hk.rights p h.slot x e hx he
  exact ⟨g, hg, hge.trans hcontains⟩

theorem not_removed_of_slot {i : ℕ} {x : HandleSlot} (hx : s.registry.slot p i = some x) : ¬ s.removed p := by
  intro hp
  rw [slot_of_table_none (hk.removed p hp)] at hx
  simp at hx

theorem close (hok : close p h s.registry = .ok () r) :
    Kept { s with registry := r, retired := fun q k => s.retired q k ∨ q = p ∧ k = h } := by
  have hsound : Sound r := hk.sound.close hok
  obtain ⟨x, e, hx, hgeneration, he, rfl⟩ := close_ok hok
  have hset : ∀ q i, (adjustSlot p h.slot .closed s.registry).collectRevokedObjects.slot
      q i = if q = p ∧ i = h.slot then some x.closed else s.registry.slot q i := by
    intro q i
    change (adjustSlot p h.slot .closed s.registry).slot q i = _
    rw [slot_adjustSlot, hx, map_some]
  have hne : x.generation ≠ 0 := (hk.sound.bounded p h.slot x hx).2.2 (by simp [he])
  constructor
  case sound => exact hsound
  case removed =>
    intro q hq
    exact table_adjustSlot_none (hk.removed q hq)
  case retired =>
    rintro q k (hqk | ⟨rfl, rfl⟩)
    · refine (hk.retired q k hqk).mono (fun _ => id) fun q' i y hy => .inr ?_
      rw [hset]
      split
      · next hqi =>
          obtain ⟨rfl, rfl⟩ := hqi
          rw [hx] at hy
          cases hy
          refine ⟨x.closed, rfl, ?_⟩
          rcases nextGeneration_cases x.generation with hzero | hlt
          · exact .inr (.inl hzero)
          · exact .inr (.inr ⟨hne, hlt⟩)
      · exact ⟨y, hy, .inl rfl⟩
    · refine ⟨hgeneration ▸ hne, .inr ⟨x.closed, ?_, ?_⟩⟩
      · rw [hset, if_pos ⟨rfl, rfl⟩]
      · rw [← hgeneration]
        exact nextGeneration_cases x.generation
  case revoked =>
    intro o ho
    obtain ⟨hlt, hall⟩ := hk.revoked o ho
    exact ⟨hlt, fun y hy => hall y (List.mem_of_mem_filter hy)⟩
  case granted => exact hk.granted
  case rights =>
    intro q i y e' hy he'
    rw [hset] at hy
    split at hy
    · cases hy
      exact absurd he' (by simp [HandleSlot.closed])
    · exact hk.rights q i y e' hy he'

theorem removeProcess (hok : removeProcess p s.registry = .ok () r) :
    Kept (s.record (.removeProcess p) none r) := by
  have hsound : Sound r := hk.sound.remove hok
  have hr := removeProcess_ok hok
  have hset : ∀ q i, r.slot q i = if q = p then none else s.registry.slot q i := by
    intro q i
    rw [hr]
    exact hk.sound.slot_remove
  constructor
  case sound => exact hsound
  case removed =>
    intro q hq
    rw [hr]
    change lookup ProcessCapabilities.process q
      (remove ProcessCapabilities.process p s.registry.processes) = none
    rw [lookup_remove hk.sound.processes]
    split
    · rfl
    · next hqp =>
        rcases hq with hq | rfl
        · exact hk.removed q hq
        · exact absurd rfl hqp
  case retired =>
    rintro q k (hqk | ⟨rfl, e, x, hx, hgeneration, he⟩)
    · refine (hk.retired q k hqk).mono (fun _ => .inl) fun q' i y hy => ?_
      by_cases hq' : q' = p
      · exact .inl (.inr hq')
      · refine .inr ⟨y, ?_, .inl rfl⟩
        change r.slot q' i = some y
        rw [hset, if_neg hq', hy]
    · refine ⟨?_, .inl (.inr rfl)⟩
      rw [← hgeneration]
      exact (hk.sound.bounded q k.slot x hx).2.2 (by simp [he])
  case revoked =>
    intro o ho
    obtain ⟨hlt, hall⟩ := hk.revoked o ho
    rw [hr]
    exact ⟨hlt, fun y hy => hall y (List.mem_of_mem_filter hy)⟩
  case granted =>
    intro o ho
    rw [hr]
    exact hk.granted o ho
  case rights =>
    intro q i y e' hy he'
    change r.slot q i = some y at hy
    rw [hset] at hy
    split at hy
    · simp at hy
    · exact hk.rights q i y e' hy he'

theorem reduce {requested : Rights} (hne : requested ≠ Rights.none)
    (hok : reduce p h requested s.registry = .ok md r) : Kept { s with registry := r } := by
  have hsound : Sound r := hk.sound.reduce hok
  obtain ⟨x, e, hx, -, he, hcontains, -, rfl⟩ := reduce_ok hok
  set f : HandleSlot → HandleSlot := ({ · with entry := some { e with rights := requested } })
  have hset : ∀ q i, (adjustSlot p h.slot f s.registry).slot q i =
      if q = p ∧ i = h.slot then some (f x) else s.registry.slot q i := by
    intro q i
    rw [slot_adjustSlot, hx, map_some]
  constructor
  case sound => exact hsound
  case removed =>
    intro q hq
    exact table_adjustSlot_none (hk.removed q hq)
  case retired =>
    intro q k hqk
    refine (hk.retired q k hqk).mono (fun _ => id) fun q' i y hy => .inr ?_
    rw [hset]
    split
    · next hqi =>
        obtain ⟨rfl, rfl⟩ := hqi
        rw [hx] at hy
        cases hy
        exact ⟨f x, rfl, .inl rfl⟩
    · exact ⟨y, hy, .inl rfl⟩
  case revoked => exact hk.revoked
  case granted => exact hk.granted
  case rights =>
    intro q i y e' hy he'
    rw [hset] at hy
    split at hy
    · cases hy
      cases he'
      obtain ⟨-, g, hg, hge⟩ := hk.rights p h.slot x e hx he
      exact ⟨hne, g, hg, hge.trans hcontains⟩
    · exact hk.rights q i y e' hy he'

theorem revoke (hok : revoke o s.registry = .ok () r) : Kept (s.record (.revoke o) none r) := by
  have hsound : Sound r := hk.sound.revoke hok
  obtain ⟨ho, rfl⟩ := revoke_ok hok
  obtain ⟨y, hy, hyo⟩ := List.mem_map.1 ho
  have hlookup := lookup_of_mem hk.sound.objects hy
  rw [hyo] at hlookup
  constructor
  case sound => exact hsound
  case removed => exact hk.removed
  case retired => exact hk.retired
  case revoked =>
    rintro o' (ho' | rfl)
    · obtain ⟨hlt, hall⟩ := hk.revoked o' ho'
      refine ⟨hlt, fun x hx hxo => ?_⟩
      rcases mem_adjust hx with hx | ⟨z, -, rfl⟩
      · exact hall x hx hxo
      · rfl
    · refine ⟨hyo ▸ hk.sound.below y hy, fun x hx hxo => ?_⟩
      rcases (mem_adjust_iff hk.sound.objects hlookup).1 hx with rfl | ⟨hne, -⟩
      · rfl
      · exact absurd hxo hne
  case granted => exact hk.granted
  case rights => exact hk.rights

end Kept

/-! ### Runs -/

/-- The process that the call may register. -/
def registers : Operation → Option ℕ
  | .ensureProcess p | .createObject p _ _ | .transfer _ _ p _ => some p
  | _ => none

variable {e : Fault CapabilityError} {op} {r' : CapabilityRegistry}

/-- A call that fails has at most registered a process. -/
theorem alike_of_error (herror : op.run r = .error e r') :
    r' = r ∨ ∃ p, (registers op = some p ∨ (r.table p).isSome) ∧ Alike p r r' := by
  cases op with
  | ensureProcess p =>
    exact .inl (atomic_ensureProcess p _ _ _ (bind_return_error.1 herror))
  | removeProcess p =>
    exact .inl (atomic_removeProcess p _ _ _ (bind_return_error.1 herror))
  | createObject p objectType rights =>
    have ha := failsWithin_createObject p objectType rights _ _ _ (map_error.1 herror)
    exact .inr ⟨p, .inl rfl, ha⟩
  | duplicate p h requested =>
    rcases failsWithin_duplicate p h requested _ _ _ (map_error.1 herror) with rfl | ⟨hp, ha⟩
    · exact .inl rfl
    · exact .inr ⟨p, .inr hp, ha⟩
  | transfer p h q requested =>
    have ha := failsWithin_transfer p h q requested _ _ _ (map_error.1 herror)
    exact .inr ⟨q, .inl rfl, ha⟩
  | reduce p h requested =>
    exact .inl (atomic_reduce p h requested _ _ _ (map_error.1 herror))
  | close p h =>
    exact .inl (atomic_close p h _ _ _ (bind_return_error.1 herror))
  | revoke o =>
    exact .inl (atomic_revoke o _ _ _ (bind_return_error.1 herror))

theorem slot_of_error (herror : op.run r = .error e r') (p i : ℕ) : r'.slot p i = r.slot p i := by
  rcases alike_of_error herror with rfl | ⟨q, -, ha⟩
  · rfl
  · exact ha.slots p i

theorem Careful.not_removed (hcareful : s.Careful op) (hop : registers op = some p) : ¬ s.removed p := by
  cases op with
  | ensureProcess | createObject | transfer => exact some.inj hop ▸ hcareful
  | _ => exact absurd hop (by simp [registers])

theorem Kept.error (hk : Kept s) (hcareful : s.Careful op) (herror : op.run s.registry = .error e r)
    : Kept { s with registry := r } := by
  rcases alike_of_error herror with rfl | ⟨p, hp | hp, ha⟩
  · exact hk
  · exact hk.alike (hcareful.not_removed hp) ha
  · refine hk.alike (fun hremoved => ?_) ha
    rw [hk.removed p hremoved] at hp
    simp at hp

theorem Kept.step (hk : Kept s) (hcareful : s.Careful op) : Kept (s.step op) := by
  unfold History.step
  cases hrun : op.run s.registry with
  | error => exact hk.error hcareful hrun
  | ok md =>
    cases op with
    | ensureProcess =>
      obtain ⟨_, _, hok, hreturn⟩ := bind_ok.1 hrun
      obtain ⟨rfl, rfl⟩ := return_ok.1 hreturn
      exact hk.alike hcareful (ensureProcess_ok hok).1
    | removeProcess =>
      obtain ⟨_, _, hok, hreturn⟩ := bind_ok.1 hrun
      obtain ⟨rfl, rfl⟩ := return_ok.1 hreturn
      exact hk.removeProcess hok
    | createObject =>
      obtain ⟨md, hok, rfl⟩ := map_ok.1 hrun
      exact hk.createObject hcareful hok
    | duplicate =>
      obtain ⟨md, hok, rfl⟩ := map_ok.1 hrun
      obtain ⟨md0, hlookup, hcontains, hi⟩ := duplicate_ok hok
      obtain ⟨x, _, _, hx, -⟩ := lookup_ok hlookup
      exact hk.install (hk.not_removed_of_slot hx) (hk.granted_of_lookup hlookup hcontains) hi
    | transfer =>
      obtain ⟨md, hok, rfl⟩ := map_ok.1 hrun
      obtain ⟨md0, r1, hlookup, hcontains, hi, hclose⟩ := transfer_ok hok
      have hk1 := hk.install hcareful (hk.granted_of_lookup hlookup hcontains) hi
      exact hk1.close hclose
    | reduce =>
      obtain ⟨md, hok, rfl⟩ := map_ok.1 hrun
      exact hk.reduce hcareful hok
    | close =>
      obtain ⟨_, _, hok, hreturn⟩ := bind_ok.1 hrun
      obtain ⟨rfl, rfl⟩ := return_ok.1 hreturn
      exact hk.close hok
    | revoke =>
      obtain ⟨_, _, hok, hreturn⟩ := bind_ok.1 hrun
      obtain ⟨rfl, rfl⟩ := return_ok.1 hreturn
      exact hk.revoke hok

theorem kept_of_reachable (h : s.Reachable) : Kept s := by
  refine Machine.Reachable.keeps ?_ (fun s op hk hcareful => hk.step hcareful) h
  rintro _ rfl
  exact kept_new

theorem Dead.not_valid (hk : Kept s) (hdead : s.Dead p h) (x : HandleSlot) :
    s.registry.validateHandle p h ≠ .ok x := by
  intro hvalid
  obtain ⟨hx, hgeneration⟩ := validateHandle_ok.1 hvalid
  obtain ⟨hne, hremoved | ⟨y, hy, hold⟩⟩ := hdead
  · exact hk.not_removed_of_slot hx hremoved
  · rw [hx] at hy
    cases hy
    omega

theorem Kept.lookup_ne (hk : Kept s) (ho : s.revoked o)
    (hlookup : s.registry.lookup p h = .ok md) : md.object ≠ o := by
  obtain ⟨x, e, record, -, -, -, hrecord, hrevoked, rfl⟩ := lookup_ok hlookup
  intro heq
  have htrue := (hk.revoked o ho).2 record (mem_of_lookup hrecord)
    ((key_of_lookup hrecord).trans heq)
  rw [hrevoked] at htrue
  simp at htrue

theorem holds_iff_of_slots (hslots : ∀ p i, r'.slot p i = r.slot p i) {e : CapabilityEntry} :
    r'.Holds p h e ↔ r.Holds p h e := by
  simp only [Holds, hslots]

end History

open History

/-- **The promises hold in every state of every run of careful calls.** -/
theorem upheld_of_careful (s : History) (h : s.Reachable) : s.Upheld := by
  have hk := kept_of_reachable h
  constructor
  case retired =>
    intro p h hretired x
    exact (hk.retired p h hretired).not_valid hk x
  case revoked =>
    intro o ho
    refine ⟨fun p h md hlookup => hk.lookup_ne ho hlookup, ?_, ?_, ?_⟩
    · intro p h objectType required md hcheck
      simp only [CapabilityRegistry.check, run_eq_ok] at hcheck
      obtain ⟨md, hlookup, -, -, rfl⟩ := hcheck
      exact hk.lookup_ne ho hlookup
    · intro p h requested md r hok
      obtain ⟨md0, hlookup, -, hi⟩ := duplicate_ok hok
      exact hi.object ▸ hk.lookup_ne ho hlookup
    · intro p h q requested md r hok
      obtain ⟨md0, r1, hlookup, -, hi, -⟩ := transfer_ok hok
      exact hi.object ▸ hk.lookup_ne ho hlookup
  case fresh =>
    intro p objectType rights md r hok
    obtain ⟨r1, -, -, hi⟩ := createObject_ok hok
    rw [hi.object, ← not_isSome_iff_eq_none]
    exact fun hsome => lt_irrefl _ (hk.granted _ hsome)
  case rights =>
    rintro p h e ⟨x, hx, -, he⟩
    exact hk.rights p h.slot x e hx he
  case objects =>
    intro o
    rw [hk.sound.listed]
    constructor
    · rintro ⟨p, i, x, e, hx, he, ho⟩
      exact ⟨p, ⟨i, x.generation⟩, e, ⟨x, hx, rfl, he⟩, ho⟩
    · rintro ⟨p, h, e, ⟨x, hx, -, he⟩, ho⟩
      exact ⟨p, h.slot, x, e, hx, he, ho⟩
  case failure =>
    intro op e r herror p h entry
    exact holds_iff_of_slots (slot_of_error herror)

theorem History.Reachable.next {s : History} (h : s.Reachable) (op : Operation)
    (hcareful : s.Careful op) : (s.step op).Reachable := .step h hcareful

/-- The first handle of a process. -/
def firstHandle : CapabilityHandle := ⟨0, 1⟩

def channelCreated : History := History.new.step (.createObject 1 .channel Rights.basic)

theorem channelCreated_reachable : channelCreated.Reachable :=
  .next (.start rfl) (.createObject 1 .channel .basic) id

/-- The handle is duplicated and closed. -/
def channelClosed : History :=
  (channelCreated.step (.duplicate 1 firstHandle Rights.basic)).step (.close 1 firstHandle)

theorem upheld_of_careful_close :
    channelClosed.Reachable ∧ channelClosed.retired 1 firstHandle ∧ channelClosed.Upheld := by
  have hreachable : channelClosed.Reachable :=
    (channelCreated_reachable.next (.duplicate 1 firstHandle .basic) trivial).next
      (.close 1 firstHandle) trivial
  exact ⟨hreachable, .inr ⟨rfl, rfl⟩, upheld_of_careful channelClosed hreachable⟩

/-- The process is removed and creates a channel again. -/
def processReturned : History :=
  (channelCreated.step (.removeProcess 1)).step (.createObject 1 .channel Rights.basic)

/-- A handle that was dropped with its process is valid again when the process comes back, and an
entry can be reduced to no rights. -/
theorem handle_revives : (processReturned.retired 1 firstHandle ∧
      ∃ x, processReturned.registry.validateHandle 1 firstHandle = .ok x) ∧
    ∃ e, (channelCreated.step (.reduce 1 firstHandle Rights.none)).registry.Holds 1 firstHandle e ∧
      e.rights = Rights.none := by
  refine ⟨⟨.inr ⟨rfl, _, _, rfl, rfl, rfl⟩, _, rfl⟩, _, ⟨_, rfl, rfl, rfl⟩, rfl⟩

end Authority
