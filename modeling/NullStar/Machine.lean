/-
**State machines with fallible operations.**

An operation of a state machine changes the state and returns a value, or fails; one that fails
keeps the changes it has made so far.  What an operation did is read off its result: the lemmas here
invert the result of each way to build an operation, so that a result of a whole operation comes
apart into the results of its steps.

A specification of an operation has a postcondition for success and one for failure.  An invariant is a
condition that serves as both and as the precondition; its rules follow the structure of the operation.

* `check`, `read` — computations that do not change the state;
* `endState` — the state in which an operation ends;
* `onError` — an operation with a step that is taken when it fails;
* `bind_ok`, `bind_error` and their companions — results of operations;
* `Reachable.keeps` — an invariant of the steps holds in every state of a run;
* `Triple.bind`, `Keeps.bind` and their companions — the rules for triples and invariants.
-/

import NullStar.Outcome

set_option autoImplicit false

namespace Machine

open Rust

/-- An operation of a machine with states in `σ` and errors in `ε`. -/
abbrev Op (ε σ α : Type) := EStateM (Fault ε) σ α

section

variable {ε σ α β : Type} {s s' : σ} {e : Fault ε}

/-- A computation that does not look at the state. -/
def check (x : Outcome ε α) : Op ε σ α := fun s =>
  match x with
  | .ok a => .ok a s
  | .error e => .error e s

/-- A computation that looks at the state and does not change it. -/
def read (f : σ → Outcome ε α) : Op ε σ α := fun s => check (f s) s

/-- The state in which an operation ends. -/
def endState (x : Op ε σ α) (s : σ) : σ :=
  match x s with
  | .ok _ s' => s'
  | .error _ s' => s'

/-- An operation that, when it fails, is followed by another one whose own result is ignored. -/
def onError (x : Op ε σ α) (y : Op ε σ Unit) : Op ε σ α := fun s =>
  match x s with
  | .ok a s' => .ok a s'
  | .error e s' => .error e (endState y s')

/-! ### Results -/

variable {f : α → Op ε σ β} {x : Op ε σ α} {a : α} {t : σ}

theorem bind_ok {b : β} : (x >>= f) s = .ok b s' ↔ ∃ a s1, x s = .ok a s1 ∧ f a s1 = .ok b s' := by
  change x.bind f s = _ ↔ _
  unfold EStateM.bind
  cases x s with
  | ok | error => simp

theorem bind_error : (x >>= f) s = .error e s' ↔
      x s = .error e s' ∨ ∃ a s1, x s = .ok a s1 ∧ f a s1 = .error e s' := by
  change x.bind f s = _ ↔ _
  unfold EStateM.bind
  cases x s with
  | ok | error => simp

theorem map_ok {f : α → β} {b : β} : (f <$> x) s = .ok b s' ↔ ∃ a, x s = .ok a s' ∧ b = f a := by
  change EStateM.map f x s = _ ↔ _
  unfold EStateM.map
  cases x s with
  | ok a =>
    simp only [EStateM.Result.ok.injEq]
    constructor
    · rintro ⟨rfl, rfl⟩
      exact ⟨a, ⟨rfl, rfl⟩, rfl⟩
    · rintro ⟨_, ⟨rfl, rfl⟩, rfl⟩
      exact ⟨rfl, rfl⟩
  | error => simp

theorem map_error {f : α → β} : (f <$> x) s = .error e s' ↔ x s = .error e s' := by
  change EStateM.map f x s = _ ↔ _
  unfold EStateM.map
  cases x s with
  | ok | error => simp

theorem bind_return_error {b : β} : (x >>= fun _ => pure b) s = .error e s' ↔ x s = .error e s' := map_error

@[simp] theorem check_ok {x : Outcome ε α} : (check x : Op ε σ α) s = .ok a s' ↔ x = .ok a ∧ s' = s := by
  unfold check
  cases x with
  | ok => simp [eq_comm]
  | error => simp

@[simp] theorem check_error {x : Outcome ε α} :
    (check x : Op ε σ α) s = .error e s' ↔ x = .error e ∧ s' = s := by
  unfold check
  cases x with
  | ok => simp
  | error => simp [eq_comm]

theorem check_ok_bind (a : α) (f : α → Op ε σ β) : (check (.ok a) >>= f) = f a := rfl

@[simp] theorem read_ok {f : σ → Outcome ε α} : read f s = .ok a s' ↔ f s = .ok a ∧ s' = s := check_ok

@[simp] theorem read_error {f : σ → Outcome ε α} :
    read f s = .error e s' ↔ f s = .error e ∧ s' = s := check_error

@[simp] theorem modify_ok {g : σ → σ} {u : PUnit} : (modify g : Op ε σ PUnit) s = .ok u s' ↔ s' = g s := by
  change EStateM.Result.ok PUnit.unit (g s) = _ ↔ _
  simp [eq_comm]

@[simp] theorem modify_error {g : σ → σ} : (modify g : Op ε σ PUnit) s ≠ .error e s' := by
  change EStateM.Result.ok PUnit.unit (g s) ≠ _
  simp

@[simp] theorem return_ok {b : α} : (pure a : Op ε σ α) s = .ok b s' ↔ b = a ∧ s' = s := by
  change EStateM.Result.ok a s = _ ↔ _
  simp [eq_comm]

/-- When an operation returns: the rules for the steps it is made of. -/
theorem op_ok {ε σ : Type} {s s' : σ} : (∀ {α β} {x : Op ε σ α} {f : α → Op ε σ β} {b},
      (x >>= f) s = .ok b s' ↔ ∃ a s1, x s = .ok a s1 ∧ f a s1 = .ok b s') ∧
    (∀ {α} {x : Outcome ε α} {a}, (check x : Op ε σ α) s = .ok a s' ↔ x = .ok a ∧ s' = s) ∧
    (∀ {α} {f : σ → Outcome ε α} {a}, read f s = .ok a s' ↔ f s = .ok a ∧ s' = s) ∧
    (∀ {g : σ → σ} {u}, (modify g : Op ε σ PUnit) s = .ok u s' ↔ s' = g s) ∧
    (∀ {α} {a b : α}, (pure a : Op ε σ α) s = .ok b s' ↔ b = a ∧ s' = s) :=
  ⟨bind_ok, check_ok, read_ok, modify_ok, return_ok⟩

@[simp] theorem return_error : (pure a : Op ε σ α) s ≠ .error e s' := by
  change EStateM.Result.ok a s ≠ _
  simp

@[simp] theorem get_ok : (get : Op ε σ σ) s = .ok t s' ↔ t = s ∧ s' = s := by
  change EStateM.Result.ok s s = _ ↔ _
  simp [eq_comm]

@[simp] theorem get_error : (get : Op ε σ σ) s ≠ .error e s' := by
  change EStateM.Result.ok s s ≠ _
  simp

@[simp] theorem set_ok {u : PUnit} : (set t : Op ε σ PUnit) s = .ok u s' ↔ s' = t := by
  change EStateM.Result.ok PUnit.unit t = _ ↔ _
  simp [eq_comm]

@[simp] theorem set_error : (set t : Op ε σ PUnit) s ≠ .error e s' := by
  change EStateM.Result.ok PUnit.unit t ≠ _
  simp

theorem onError_ok {y : Op ε σ Unit} : onError x y s = .ok a s' ↔ x s = .ok a s' := by
  unfold onError
  cases x s with
  | ok | error => simp

theorem onError_error {y : Op ε σ Unit} :
    onError x y s = .error e s' ↔ ∃ s1, x s = .error e s1 ∧ endState y s1 = s' := by
  unfold onError
  cases x s with
  | ok | error => simp

theorem endState_of_ok (h : x s = .ok a s') : endState x s = s' := by
  rw [endState, h]

theorem endState_of_error (h : x s = .error e s') : endState x s = s' := by
  rw [endState, h]

/-! ### What is left behind by a failure -/

/-- An operation that does not fail. -/
def Total (x : Op ε σ α) : Prop := ∀ s e s', x s ≠ .error e s'

/-- When the operation fails, the state in which it ends is related to the one in which it
started. -/
def FailsWithin (R : σ → σ → Prop) (x : Op ε σ α) : Prop := ∀ s e s', x s = .error e s' → R s s'

/-- An operation that fails only in the state in which it started. -/
def Atomic (x : Op ε σ α) : Prop := FailsWithin (fun s s' => s' = s) x

theorem total_modify {g : σ → σ} : Total (modify g : Op ε σ PUnit) := fun _ _ _ => modify_error

theorem total_set {t : σ} : Total (set t : Op ε σ PUnit) := fun _ _ _ => set_error

theorem total_return {a : α} : Total (pure a : Op ε σ α) := fun _ _ _ => return_error

theorem Total.bind (hx : Total x) (hf : ∀ a, Total (f a)) : Total (x >>= f) := by
  intro s e s' h
  rcases bind_error.1 h with h | ⟨a, s1, -, h⟩
  · exact hx _ _ _ h
  · exact hf _ _ _ _ h

theorem Total.failsWithin (hx : Total x) (R : σ → σ → Prop) : FailsWithin R x :=
  fun s e s' h => absurd h (hx s e s')

namespace FailsWithin

variable {R : σ → σ → Prop}

section

variable (hrefl : ∀ s, R s s)

include hrefl

theorem check (x : Outcome ε α) : FailsWithin R (Machine.check x : Op ε σ α) := by
  intro s e s' h
  rw [(check_error.1 h).2]
  exact hrefl s

theorem read (g : σ → Outcome ε α) : FailsWithin R (Machine.read g) := by
  intro s e s' h
  rw [(read_error.1 h).2]
  exact hrefl s

variable {f : α → Op ε σ β}

theorem check_bind {x : Outcome ε α} (hf : ∀ a, FailsWithin R (f a)) :
    FailsWithin R (Machine.check x >>= f) := by
  intro s e s' h
  rcases bind_error.1 h with h | ⟨a, s1, hx, h⟩
  · exact check hrefl x s e s' h
  · rw [(check_ok.1 hx).2] at h
    exact hf a s e s' h

theorem read_bind {g : σ → Outcome ε α} (hf : ∀ a, FailsWithin R (f a)) :
    FailsWithin R (Machine.read g >>= f) := by
  intro s e s' h
  rcases bind_error.1 h with h | ⟨a, s1, hx, h⟩
  · exact read hrefl g s e s' h
  · rw [(read_ok.1 hx).2] at h
    exact hf a s e s' h

end

theorem get_bind {f : σ → Op ε σ β} (hf : ∀ t, FailsWithin R (f t)) :
    FailsWithin R (get >>= f : Op ε σ β) := by
  intro s e s' h
  rcases bind_error.1 h with h | ⟨t, s1, hx, h⟩
  · exact absurd h get_error
  · rw [(get_ok.1 hx).2] at h
    exact hf t s e s' h

/-- A first step that stays within a transitive relation also when it succeeds. -/
theorem bind (htrans : ∀ a b c, R a b → R b c → R a c) {x : Op ε σ α} (hx : FailsWithin R x)
    (hok : ∀ s a s', x s = .ok a s' → R s s') (hf : ∀ a, FailsWithin R (f a)) : FailsWithin R (x >>= f) := by
  intro s e s' h
  rcases bind_error.1 h with h | ⟨a, s1, hrun, h⟩
  · exact hx _ _ _ h
  · exact htrans _ _ _ (hok _ _ _ hrun) (hf _ _ _ _ h)

/-- After the last step that can fail the state may change. -/
theorem bind_total {x : Op ε σ α} (hx : FailsWithin R x) (hf : ∀ a, Total (f a)) :
    FailsWithin R (x >>= f) := by
  intro s e s' h
  rcases bind_error.1 h with h | ⟨a, s1, -, h⟩
  · exact hx _ _ _ h
  · exact absurd h (hf _ _ _ _)

end FailsWithin

theorem Total.atomic (hx : Total x) : Atomic x := hx.failsWithin _

theorem Atomic.failsWithin {R : σ → σ → Prop} (hrefl : ∀ s, R s s) (hx : Atomic x) : FailsWithin R x := by
  intro s e s' h
  rw [hx s e s' h]
  exact hrefl s

theorem Atomic.check_bind {x : Outcome ε α} (hf : ∀ a, Atomic (f a)) : Atomic (check x >>= f) :=
  FailsWithin.check_bind (R := fun s s' => s' = s) (fun _ => rfl) hf

theorem Atomic.read_bind {g : σ → Outcome ε α} (hf : ∀ a, Atomic (f a)) : Atomic (read g >>= f) :=
  FailsWithin.read_bind (R := fun s s' => s' = s) (fun _ => rfl) hf

theorem Atomic.get_bind {f : σ → Op ε σ β} (hf : ∀ t, Atomic (f t)) :
    Atomic (get >>= f : Op ε σ β) := FailsWithin.get_bind hf

theorem Atomic.bind_total (hx : Atomic x) (hf : ∀ a, Total (f a)) :
    Atomic (x >>= f) := FailsWithin.bind_total hx hf

theorem Atomic.endState (hx : Atomic x) :
    Machine.endState x s = s ∨ ∃ a, x s = .ok a (Machine.endState x s) := by
  cases h : x s with
  | ok a => exact .inr ⟨a, by rw [endState_of_ok h]⟩
  | error e s' => exact .inl (by rw [endState_of_error h, hx s e s' h])

end

/-! ### All or nothing -/

section

variable {ε σ α β : Type} {s s' : σ} {Q : α → σ → Prop} {R : β → σ → Prop}

/-- From the state the operation returns, with the postcondition. -/
def Returns (s : σ) (x : Op ε σ α) (Q : α → σ → Prop) : Prop := ∃ a s', x s = .ok a s' ∧ Q a s'

/-- From the state the operation returns with the postcondition, or it returns an error and changes
nothing. -/
def Commits (s : σ) (x : Op ε σ α) (Q : α → σ → Prop) : Prop :=
  Returns s x Q ∨ ∃ e, x s = .error (.err e) s

variable {f : α → Op ε σ β} {x : Op ε σ α} {a : α}

theorem Returns.bind (hx : Returns s x Q) (hf : ∀ a s', Q a s' → Returns s' (f a) R) :
    Returns s (x >>= f) R := by
  obtain ⟨a, s1, hrun, hQ⟩ := hx
  obtain ⟨b, s2, hrest, hR⟩ := hf a s1 hQ
  exact ⟨b, s2, bind_ok.2 ⟨a, s1, hrun, hrest⟩, hR⟩

theorem Returns.mono {Q' : α → σ → Prop} (hx : Returns s x Q) (h : ∀ a s', Q a s' → Q' a s') :
    Returns s x Q' := by
  obtain ⟨a, s1, hrun, hQ⟩ := hx
  exact ⟨a, s1, hrun, h a s1 hQ⟩

theorem Returns.read_bind {g : σ → Outcome ε α} (hg : g s = .ok a) (hf : Returns s (f a) R) :
    Returns s (read g >>= f) R := by
  obtain ⟨b, s1, hrun, hR⟩ := hf
  exact ⟨b, s1, bind_ok.2 ⟨a, s, read_ok.2 ⟨hg, rfl⟩, hrun⟩, hR⟩

theorem Returns.check_bind {x : Outcome ε α} (hx : x = .ok a) (hf : Returns s (f a) R) :
    Returns s (check x >>= f) R := by
  rw [hx]
  exact hf

theorem Returns.of_modify {g : σ → σ} {Q : PUnit → σ → Prop} (h : Q ⟨⟩ (g s)) :
    Returns s (modify g : Op ε σ PUnit) Q := ⟨⟨⟩, g s, modify_ok.2 rfl, h⟩

theorem Returns.modify_bind {g : σ → σ} {f : PUnit → Op ε σ β} (hf : Returns (g s) (f ⟨⟩) R) :
    Returns s (modify g >>= f) R := by
  obtain ⟨b, s1, hrun, hR⟩ := hf
  exact ⟨b, s1, bind_ok.2 ⟨⟨⟩, g s, modify_ok.2 rfl, hrun⟩, hR⟩

theorem Returns.set_bind {t : σ} {f : PUnit → Op ε σ β} (hf : Returns t (f ⟨⟩) R) :
    Returns s (set t >>= f) R := by
  obtain ⟨b, s1, hrun, hR⟩ := hf
  exact ⟨b, s1, bind_ok.2 ⟨⟨⟩, t, set_ok.2 rfl, hrun⟩, hR⟩

theorem Returns.of_return (h : Q a s) : Returns s (pure a : Op ε σ α) Q := ⟨a, s, return_ok.2 ⟨rfl, rfl⟩, h⟩

theorem Commits.check_bind {x : Outcome ε α} (hx : NoTrap x)
    (hf : ∀ a, x = .ok a → Commits s (f a) R) : Commits s (check x >>= f) R := by
  match x with
  | .ok a =>
    exact hf a rfl
  | .error (.err e) => exact .inr ⟨e, rfl⟩
  | .error .trap => exact absurd rfl hx

theorem Commits.read_bind {g : σ → Outcome ε α} (hg : NoTrap (g s))
    (hf : ∀ a, g s = .ok a → Commits s (f a) R) : Commits s (read g >>= f) R :=
  .check_bind hg hf

/-- After a step that returns or changes nothing, the rest must return. -/
theorem Commits.bind (hx : Commits s x Q) (hf : ∀ a s', Q a s' → Returns s' (f a) R) :
    Commits s (x >>= f) R := by
  rcases hx with hx | ⟨e, he⟩
  · exact .inl (hx.bind hf)
  · exact .inr ⟨e, bind_error.2 (.inl he)⟩

theorem Commits.map {g : α → β} (hx : Commits s x fun a s' => R (g a) s') : Commits s (g <$> x) R := by
  rcases hx with ⟨a, s1, hrun, hR⟩ | ⟨e, he⟩
  · exact .inl ⟨g a, s1, map_ok.2 ⟨a, hrun, rfl⟩, hR⟩
  · exact .inr ⟨e, map_error.2 he⟩

/-- The operation with its errors converted. -/
def mapFault {ε' : Type} (f : ε → ε') (x : Op ε σ α) : Op ε' σ α := fun s =>
  match x s with
  | .ok a s' => .ok a s'
  | .error (.err e) s' => .error (.err (f e)) s'
  | .error .trap s' => .error .trap s'

variable (hx : Commits s x Q)

include hx

theorem Commits.mapFault {ε' : Type} {f : ε → ε'} : Commits s (mapFault f x) Q := by
  rcases hx with ⟨a, s1, hrun, hQ⟩ | ⟨e, he⟩
  · exact .inl ⟨a, s1, by rw [Machine.mapFault, hrun], hQ⟩
  · exact .inr ⟨f e, by rw [Machine.mapFault, he]⟩

theorem Commits.mono {Q' : α → σ → Prop} (h : ∀ a s', Q a s' → Q' a s') :
    Commits s x Q' := hx.imp_left fun hx => hx.mono h

theorem Commits.of_ok (h : x s = .ok a s') : Q a s' := by
  rcases hx with ⟨b, s1, hrun, hQ⟩ | ⟨e, he⟩
  · rw [h] at hrun
    cases hrun
    exact hQ
  · rw [h] at he
    cases he

theorem Commits.of_error {e : Fault ε} (h : x s = .error e s') : s' = s ∧ e ≠ .trap := by
  rcases hx with ⟨b, s1, hrun, -⟩ | ⟨e', he⟩
  · rw [h] at hrun
    cases hrun
  · rw [h] at he
    cases he
    exact ⟨rfl, by simp⟩

end

/-! ### Runs -/

/-- The states that are reached from a start by steps that are allowed. -/
inductive Reachable {σ α : Type} (start : σ → Prop) (allowed : σ → α → Prop) (step : σ → α → σ) :
    σ → Prop where
  | start {s : σ} (h : start s) : Reachable start allowed step s
  | step {s : σ} {a : α} (h : Reachable start allowed step s) (ha : allowed s a) :
      Reachable start allowed step (step s a)

/-- An invariant of the steps holds in every state of a run. -/
theorem Reachable.keeps {σ α : Type} {start : σ → Prop} {allowed : σ → α → Prop}
    {step : σ → α → σ} {I : σ → Prop} (hstart : ∀ s, start s → I s)
    (hstep : ∀ s a, I s → allowed s a → I (step s a)) {s : σ} (h : Reachable start allowed step s) : I s := by
  induction h with
  | start h => exact hstart _ h
  | step _ ha ih => exact hstep _ _ ih ha

/-- Where every step is allowed, any list of steps may follow. -/
theorem Reachable.foldl {σ α : Type} {start : σ → Prop} {step : σ → α → σ} {s : σ}
    (h : Reachable start (fun _ _ => True) step s) (l : List α) :
    Reachable start (fun _ _ => True) step (l.foldl step s) := by
  induction l generalizing s with
  | nil => exact h
  | cons a l ih => exact ih (h.step trivial)

end Machine

namespace Hoare

variable {ε σ α β : Type}

/-- A result meets the postcondition for success or the one for failure. -/
def Post (Q : α → σ → Prop) (E : ε → σ → Prop) : EStateM.Result ε σ α → Prop
  | .ok a s => Q a s
  | .error e s => E e s

instance {Q : α → σ → Prop} {E : ε → σ → Prop} [∀ a s, Decidable (Q a s)] [∀ e s, Decidable (E e s)] :
    (r : EStateM.Result ε σ α) → Decidable (Post Q E r)
  | .ok a s => inferInstanceAs (Decidable (Q a s))
  | .error e s => inferInstanceAs (Decidable (E e s))

theorem Post.imp {Q Q' : α → σ → Prop} {E E' : ε → σ → Prop} {r : EStateM.Result ε σ α} (h : Post Q E r)
    (hQ : ∀ a s, Q a s → Q' a s) (hE : ∀ e s, E e s → E' e s) : Post Q' E' r := by
  cases r with
  | ok a s => exact hQ a s h
  | error e s => exact hE e s h

/-- From every state with the precondition, success leads to the first postcondition and failure to
the second. -/
def Triple (P : σ → Prop) (x : EStateM ε σ α) (Q : α → σ → Prop) (E : ε → σ → Prop) : Prop :=
  ∀ s, P s → Post Q E (x s)

/-- The computation, with the state changed when it fails. -/
def onError (g : σ → σ) (x : EStateM ε σ α) : EStateM ε σ α := fun s =>
  match x s with
  | .ok a s' => .ok a s'
  | .error e s' => .error e (g s')

namespace Triple

variable {P P' : σ → Prop} {x : EStateM ε σ α} {f : α → EStateM ε σ β} {Q Q' : α → σ → Prop}
  {R : β → σ → Prop} {E E' : ε → σ → Prop}

theorem pure {a : α} (h : ∀ s, P s → Q a s) : Triple P (Pure.pure a : EStateM ε σ α) Q E := fun s hs => h s hs

theorem bind (hx : Triple P x Q E) (hf : ∀ a, Triple (Q a) (f a) R E) : Triple P (x >>= f) R E := by
  intro s hs
  have h := hx s hs
  change Post R E (x.bind f s)
  unfold EStateM.bind
  cases hr : x s with
  | ok a s' =>
    rw [hr] at h
    exact hf a s' h
  | error =>
    rw [hr] at h
    exact h

section

variable (h : Triple P x Q E)

include h

theorem mono (hP : ∀ s, P' s → P s) (hQ : ∀ a s, Q a s → Q' a s) (hE : ∀ e s, E e s → E' e s) :
    Triple P' x Q' E' := fun s hs => (h s (hP s hs)).imp hQ hE

theorem imp (hQ : ∀ a s, Q a s → Q' a s) (hE : ∀ e s, E e s → E' e s) : Triple P x Q' E' :=
  h.mono (fun _ hs => hs) hQ hE

theorem imp_ok (hQ : ∀ a s, Q a s → Q' a s) : Triple P x Q' E := h.imp hQ fun _ _ he => he

theorem imp_error (hE : ∀ e s, E e s → E' e s) : Triple P x Q E' := h.imp (fun _ _ hq => hq) hE

end

/-- Reading the state fixes it. -/
theorem get_bind {f : σ → EStateM ε σ β} (h : ∀ s, P s → Triple (· = s) (f s) R E) :
    Triple P (get >>= f) R E :=
  fun s hs => h s hs s rfl

theorem put {s : σ} {Q : PUnit → σ → Prop} (h : Q ⟨⟩ s) :
    Triple P (set s : EStateM ε σ PUnit) Q E := fun _ _ => h

theorem update {g : σ → σ} {Q : PUnit → σ → Prop} (h : ∀ s, P s → Q ⟨⟩ (g s)) :
    Triple P (modify g : EStateM ε σ PUnit) Q E := fun s hs => h s hs

theorem onError {g : σ → σ} (h : Triple P x Q E) (hg : ∀ e s, E e s → E' e (g s)) :
    Triple P (Hoare.onError g x) Q E' := by
  intro s hs
  have h := h s hs
  unfold Hoare.onError
  cases hr : x s with
  | ok =>
    rw [hr] at h
    exact h
  | error e s' =>
    rw [hr] at h
    exact hg e s' h

section

variable {ε : Type} {x : Machine.Op ε σ α} {s : σ} {Q : σ → Prop}

/-- What holds in either case holds in the state in which the operation ends. -/
theorem endState (h : Triple P x (fun _ => Q) fun _ => Q) (hs : P s) : Q (Machine.endState x s) := by
  have hpost := h s hs
  unfold Machine.endState
  cases hrun : x s with
  | ok | error =>
    rw [hrun] at hpost
    exact hpost

/-- What is read is known afterwards. -/
theorem read_bind {f : σ → Rust.Outcome ε α} {g : α → Machine.Op ε σ β} {E : Rust.Fault ε → σ → Prop}
    (hE : ∀ e, E e s) (h : ∀ a, f s = .ok a → Triple (· = s) (g a) R E) :
    Triple (· = s) (Machine.read f >>= g) R E := by
  rintro _ rfl
  change Post R E ((Machine.check (f _) >>= g) _)
  cases hrun : f _ with
  | ok a => exact h a hrun _ rfl
  | error e => exact hE e

end

end Triple

/-- The computation keeps the invariant, whether it succeeds or fails. -/
def Keeps (I : σ → Prop) (x : EStateM ε σ α) : Prop := Triple I x (fun _ => I) (fun _ => I)

namespace Keeps

variable {I J : σ → Prop} {x : EStateM ε σ α} {f : α → EStateM ε σ β}

theorem pure (a : α) : Keeps I (Pure.pure a : EStateM ε σ α) := Triple.pure fun _ h => h

theorem bind (hx : Keeps I x) (hf : ∀ a, Keeps I (f a)) : Keeps I (x >>= f) := Triple.bind hx hf

theorem get_bind {f : σ → EStateM ε σ β} (h : ∀ s, I s → Keeps I (f s)) : Keeps I (get >>= f) :=
  fun s hs => h s hs s hs

/-- Reading the state, where what follows depends on the state it read. -/
theorem get_bind_eq {f : σ → EStateM ε σ β}
    (h : ∀ s, I s → Triple (· = s) (f s) (fun _ => I) (fun _ => I)) : Keeps I (get >>= f) :=
  Triple.get_bind h

theorem update {g : σ → σ} (h : ∀ s, I s → I (g s)) :
    Keeps I (modify g : EStateM ε σ PUnit) := Triple.update h

theorem onError {g : σ → σ} (h : Keeps I x) (hg : ∀ s, I s → I (g s)) :
    Keeps I (Hoare.onError g x) := Triple.onError h fun _ s hs => hg s hs

theorem ite {p : Prop} [Decidable p] {y : EStateM ε σ α} (hx : p → Keeps I x)
    (hy : ¬ p → Keeps I y) : Keeps I (if p then x else y) := by
  split
  · exact hx ‹_›
  · exact hy ‹_›

section

variable {ε : Type} {x : Machine.Op ε σ α} {y : Machine.Op ε σ Unit} {s : σ}

theorem check {o : Rust.Outcome ε α} : Keeps I (Machine.check o : Machine.Op ε σ α) := by
  intro s hs
  cases o with
  | ok | error => exact hs

theorem read {f : σ → Rust.Outcome ε α} : Keeps I (Machine.read f) := fun s hs => Keeps.check s hs

theorem endState (h : Keeps I x) (hs : I s) : I (Machine.endState x s) := Triple.endState h hs

theorem recover (hx : Keeps I x) (hy : Keeps I y) : Keeps I (Machine.onError x y) := by
  intro s hs
  have hpost := hx s hs
  unfold Machine.onError
  cases hrun : x s with
  | ok =>
    rw [hrun] at hpost
    exact hpost
  | error =>
    rw [hrun] at hpost
    exact hy.endState hpost

end

end Keeps

end Hoare
