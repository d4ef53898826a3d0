/-
**Containment: a tree of jobs with resource accounting.**

Every process is admitted to a job with a reservation, which is charged to the job and to all jobs
above it.  The tree walks by following ids; nothing in the code says that the walks end or that the
second pass of a charge cannot fail after the first one has succeeded.  Both rest on the invariant
that is proved here for the links and in `NullStar/ContainmentAccounts.lean` for the accounts.

* `Resource`, `ResourceUsage` — the resources, and an amount of each;
* `ContainmentTree` and its operations;
* `Linked.chain` — the walk to the root ends, and finds the jobs above;
* `Linked.collect` — the walk over a subtree ends, and finds its jobs.
-/

import NullStar.Forest
import NullStar.Keyed
import NullStar.Machine

set_option autoImplicit false

namespace Containment

open Rust Machine Forest Option List

def maxContainmentJobs : ℕ := 64
def maxChildrenPerJob : ℕ := 16
def maxProcessesPerJob : ℕ := 128

/-! ### Resources -/

inductive Resource where
  | processes | threads | memoryBytes | cpuTicks | handles
  deriving DecidableEq

instance : Fintype Resource where
  elems := {.processes, .threads, .memoryBytes, .cpuTicks, .handles}
  complete := fun c => by cases c <;> decide

/-- An amount of each resource. -/
abbrev ResourceUsage := Resource → ℕ

/-- A limit for each resource. -/
abbrev ResourceLimits := Resource → ℕ

instance (a b : Resource → ℕ) : Decidable (a ≤ b) := inferInstanceAs (Decidable (∀ c, a c ≤ b c))

namespace ResourceUsage

variable (a b : ResourceUsage)

def checkedAdd : Option ResourceUsage :=
  if ∀ c, a c + b c < 2 ^ 64 then some (a + b) else none

def checkedSub : Option ResourceUsage :=
  if ∀ c, b c ≤ a c then some (a - b) else none

theorem checkedAdd_eq_some {a b c : ResourceUsage} :
    checkedAdd a b = some c ↔ (∀ x, a x + b x < 2 ^ 64) ∧ c = a + b := by
  unfold checkedAdd
  split <;> simp_all [eq_comm]

/-- What was added can be taken away again. -/
theorem checkedSub_add : checkedSub (a + b) b = some a := by
  have hle : ∀ c, b c ≤ (a + b) c := fun c => Nat.le_add_left _ _
  rw [checkedSub, if_pos hle]
  congr 1
  funext c
  exact Nat.add_sub_cancel (a c) (b c)

end ResourceUsage

inductive ContainmentError where
  | jobLimit | childLimit | processLimit | invalidJob | invalidProcess | duplicateProcess | retired
  | root | limitExceeded | limitRelaxation | usageOverflow | usageUnderflow | processNotFound
  | subtreeNotEmpty
  deriving DecidableEq

structure ProcessReservation where
  process : ℕ
  usage : ResourceUsage

structure JobNode where
  id : ℕ
  parent : Option ℕ
  limits : ResourceLimits
  usage : ResourceUsage
  children : List ℕ
  processes : List ProcessReservation
  retired : Bool

structure ContainmentTree where
  nextJobId : ℕ
  jobs : List JobNode

abbrev Op := Machine.Op ContainmentError ContainmentTree

namespace ContainmentTree

def new : ContainmentTree := ⟨1, []⟩

variable (t : ContainmentTree)

def find (id : ℕ) : Option JobNode := Keyed.lookup JobNode.id id t.jobs

def job (id : ℕ) : Outcome ContainmentError JobNode :=
  okOr (t.find id) .invalidJob

variable (id : ℕ)

def adjustJob (f : JobNode → JobNode) (t : ContainmentTree) : ContainmentTree :=
  { t with jobs := Keyed.adjust JobNode.id id f t.jobs }

def reservation (node : JobNode) (process : ℕ) : Outcome ContainmentError ProcessReservation :=
  okOr (Keyed.lookup ProcessReservation.process process node.processes) .processNotFound

def createNode (parent : Option ℕ) (limits : ResourceLimits) : Op ℕ := do
  read fun t => rejectIf (maxContainmentJobs ≤ t.jobs.length) .jobLimit
  read fun t => rejectIf (t.nextJobId = 0) .jobLimit
  let id ← read fun t => .ok t.nextJobId
  let next ← read fun t => okOr (checkedAdd 64 t.nextJobId 1) .jobLimit
  modify fun t => ⟨next, t.jobs ++ [⟨id, parent, limits, 0, [], [], false⟩]⟩
  return id

variable (limits : ResourceLimits)

def createRoot : Op ℕ := do
  read fun t => rejectIf (t.jobs ≠ []) .jobLimit
  createNode none limits

def createChild (parent : ℕ) (limits : ResourceLimits) : Op ℕ := do
  let node ← read (·.job parent)
  check (rejectIf (node.retired = true) .retired)
  check (rejectIf (maxChildrenPerJob ≤ node.children.length) .childLimit)
  let child ← createNode (some parent) limits
  modify (adjustJob parent fun node => { node with children := node.children ++ [child] })
  return child

def setLimits : Op Unit := do
  let node ← read (·.job id)
  check (rejectIf (node.retired = true) .retired)
  check (rejectIf (¬ limits ≤ node.limits) .limitRelaxation)
  check (rejectIf (¬ node.usage ≤ limits) .limitExceeded)
  modify (adjustJob id ({ · with limits }))

/-- The first pass of a charge: every job up to the root must be able to take it. -/
def checkChain (t : ContainmentTree) (delta : ResourceUsage) : ℕ → Option ℕ → Outcome ContainmentError Unit
  | _, none => .ok ()
  | 0, some _ => trapped
  | fuel + 1, some id => do
    let node ← t.job id
    rejectIf (node.retired = true) .retired
    let projected ← okOr (ResourceUsage.checkedAdd node.usage delta) .usageOverflow
    rejectIf (¬ projected ≤ node.limits) .limitExceeded
    checkChain t delta fuel node.parent

variable (delta : ResourceUsage)

def checkChainCapacity : Op Unit :=
  read fun t => t.checkChain delta t.jobs.length (some id)

/-- The ids from a job up to the root. -/
def chainFrom (t : ContainmentTree) : ℕ → Option ℕ → Outcome ContainmentError (List ℕ)
  | _, none => .ok []
  | 0, some _ => trapped
  | fuel + 1, some id => do
    let node ← t.job id
    let rest ← chainFrom t fuel node.parent
    return id :: rest

/-- The second pass of a charge.  An error leaves the jobs charged so far as they are. -/
def applyDelta (delta : ResourceUsage) (add : Bool) : List ℕ → Op Unit
  | [] => pure ()
  | id :: rest => do
    let node ← read (·.job id)
    let usage ← check (if add then okOr (ResourceUsage.checkedAdd node.usage delta) .usageOverflow
      else okOr (ResourceUsage.checkedSub node.usage delta) .usageUnderflow)
    modify (adjustJob id ({ · with usage }))
    applyDelta delta add rest

def applyChainDelta (add : Bool) : Op Unit := do
  let chain ← read fun t => t.chainFrom t.jobs.length (some id)
  applyDelta delta add chain

variable (process : ℕ)

def admitProcess (usage : ResourceUsage) : Op Unit := do
  check (rejectIf (process = 0 ∨ usage .processes ≠ 1) .invalidProcess)
  let node ← read (·.job id)
  check (rejectIf (node.retired = true) .retired)
  read fun t => rejectIf (∃ n ∈ t.jobs, ∃ entry ∈ n.processes, entry.process = process)
    .duplicateProcess
  check (rejectIf (maxProcessesPerJob ≤ node.processes.length) .processLimit)
  checkChainCapacity id usage
  applyChainDelta id usage true
  modify (adjustJob id fun node => { node with processes := node.processes ++ [⟨process, usage⟩] })

/-- Replaces the reservation of a process: what grows is charged, then what shrinks is given back. -/
def setProcessUsage (replacement : ResourceUsage) : Op Unit := do
  let node ← read (·.job id)
  let entry ← check (reservation node process)
  let current := entry.usage
  check (rejectIf (replacement .processes = 0) .invalidProcess)
  check (rejectIf (replacement .processes ≠ current .processes) .invalidProcess)
  onlyIf (current .memoryBytes ≤ replacement .memoryBytes ∨ current .threads ≤ replacement .threads ∨
      current .cpuTicks ≤ replacement .cpuTicks ∨ current .handles ≤ replacement .handles) do
    checkChainCapacity id (replacement - current)
    applyChainDelta id (replacement - current) true
  applyChainDelta id (current - replacement) false
  modify (adjustJob id fun node =>
    { node with
      processes := Keyed.adjust ProcessReservation.process process ({ · with usage := replacement })
        node.processes })

def releaseProcess : Op ResourceUsage := do
  let node ← read (·.job id)
  let entry ← check (reservation node process)
  modify (adjustJob id fun node =>
    { node with processes := Keyed.remove ProcessReservation.process process node.processes })
  applyChainDelta id entry.usage false
  return entry.usage

/-- The jobs of a subtree; the pending jobs are a stack. -/
def collectFrom (t : ContainmentTree) : ℕ → List ℕ → Outcome ContainmentError (List ℕ)
  | _, [] => .ok []
  | 0, _ :: _ => trapped
  | fuel + 1, id :: pending => do
    let node ← t.job id
    let rest ← collectFrom t fuel (node.children.reverse ++ pending)
    return id :: rest

def collectSubtree : Outcome ContainmentError (List ℕ) :=
  t.collectFrom t.jobs.length [id]

/-- Gives back reservations of a job, one after the other. -/
def releaseEach (id : ℕ) : List ResourceUsage → Op Unit
  | [] => pure ()
  | usage :: rest => do
    applyChainDelta id usage false
    releaseEach id rest

/-- Takes the reservations of the jobs and gives them back, counting them. -/
def releaseJobs (released : ℕ) : List ℕ → Op ℕ
  | [] => pure released
  | id :: rest => do
    let node ← read (·.job id)
    modify (adjustJob id ({ · with processes := [] }))
    releaseEach id (node.processes.map ProcessReservation.usage)
    releaseJobs (min (released + node.processes.length) (2 ^ 64 - 1)) rest

def retireJobs : List ℕ → Op Unit
  | [] => pure ()
  | id :: rest => do
    let _ ← read (·.job id)
    modify (adjustJob id ({ · with children := [], parent := none, retired := true }))
    retireJobs rest

/-- Force-stops every process in the subtree of a job that is not the root, and retires its jobs. -/
def terminateSubtree : Op ℕ := do
  let node ← read (·.job id)
  check (rejectIf (node.parent = none) .root)
  check (rejectIf (node.retired = true) .retired)
  let descendants ← read (·.collectSubtree id)
  let released ← releaseJobs 0 descendants.reverse
  let node ← read (·.job id)
  let parent ← check (okOr node.parent .root)
  let _ ← read (·.job parent)
  modify (adjustJob parent fun node => { node with children := node.children.filter (· ≠ id) })
  retireJobs descendants
  return released

end ContainmentTree

/-! ### Runs -/

inductive Operation where
  | createRoot (limits : ResourceLimits)
  | createChild (parent : ℕ) (limits : ResourceLimits)
  | setLimits (id : ℕ) (limits : ResourceLimits)
  | admitProcess (id process : ℕ) (usage : ResourceUsage)
  | setProcessUsage (id process : ℕ) (replacement : ResourceUsage)
  | releaseProcess (id process : ℕ)
  | terminateSubtree (id : ℕ)

open ContainmentTree in
/-- The call, with its result left out. -/
def Operation.run : Operation → Op Unit
  | .createRoot limits => (fun _ => ()) <$> ContainmentTree.createRoot limits
  | .createChild parent limits => (fun _ => ()) <$> ContainmentTree.createChild parent limits
  | .setLimits id limits => ContainmentTree.setLimits id limits
  | .admitProcess id process usage => ContainmentTree.admitProcess id process usage
  | .setProcessUsage id process replacement =>
    ContainmentTree.setProcessUsage id process replacement
  | .releaseProcess id process => (fun _ => ()) <$> ContainmentTree.releaseProcess id process
  | .terminateSubtree id => (fun _ => ()) <$> ContainmentTree.terminateSubtree id

namespace ContainmentTree

variable {t t' : ContainmentTree} {n m : JobNode} {f g : JobNode → JobNode} {x j p : ℕ}
  {l : List ℕ} {u : ResourceUsage} {w : ℕ → ResourceUsage}

/-! ### Changing jobs -/

section

variable (t : ContainmentTree) (x : ℕ)

/-- The tree with every job changed. -/
def mapJobs (f : JobNode → JobNode) (t : ContainmentTree) : ContainmentTree :=
  { t with jobs := t.jobs.map f }

def ids : List ℕ := t.jobs.map JobNode.id

/-- The parent of a job. -/
def up : Option ℕ := (t.find x).bind JobNode.parent

/-- What the processes of a job have reserved. -/
def own : ResourceUsage :=
  ((t.find x).map fun n => (n.processes.map ProcessReservation.usage).sum).getD 0

/-- What the processes in the subtree of a job have reserved. -/
noncomputable def subtreeUsage : ResourceUsage :=
  total t.ids t.up t.own x

end

theorem job_ok : t.job x = .ok n ↔ t.find x = some n := okOr_eq_ok

theorem find_of_mem (hids : t.ids.Nodup) (h : n ∈ t.jobs) : t.find n.id = some n := Keyed.lookup_of_mem hids h

theorem mem_of_find (h : t.find x = some n) : n ∈ t.jobs := Keyed.mem_of_lookup h

theorem id_of_find (h : t.find x = some n) : n.id = x := Keyed.key_of_lookup h

theorem eq_of_find (hids : t.ids.Nodup) (hn : t.find x = some n) (hm : m ∈ t.jobs)
    (hx : m.id = x) : m = n := by
  have hfind := find_of_mem hids hm
  rw [hx, hn] at hfind
  exact (some.inj hfind).symm

theorem find_of_id (hids : t.ids.Nodup) (h : x ∈ t.ids) : ∃ n, t.find x = some n := by
  obtain ⟨n, hn, rfl⟩ := mem_map.1 h
  exact ⟨n, find_of_mem hids hn⟩

theorem id_mem_of_find (h : t.find x = some n) : x ∈ t.ids := id_of_find h ▸ mem_map_of_mem (mem_of_find h)

theorem adjustJob_eq (hids : t.ids.Nodup) :
    adjustJob x f t = mapJobs (fun n => if n.id = x then f n else n) t := by
  rw [adjustJob, Keyed.adjust_eq_map hids, mapJobs]

theorem ids_mapJobs (hf : ∀ n, (f n).id = n.id) : (mapJobs f t).ids = t.ids := by
  simp only [ids, mapJobs, List.map_map, Function.comp_def, hf]

theorem find_mapJobs (hf : ∀ n, (f n).id = n.id) : (mapJobs f t).find x = (t.find x).map f :=
  Keyed.lookup_map hf

theorem up_mapJobs (hf : ∀ n, (f n).id = n.id) (hparent : ∀ n, (f n).parent = n.parent) :
    (mapJobs f t).up = t.up := by
  funext x
  rw [up, find_mapJobs hf, up]
  cases t.find x with
  | none => rfl
  | some n => exact hparent n

theorem mapJobs_mapJobs : mapJobs g (mapJobs f t) = mapJobs (g ∘ f) t := by
  simp only [mapJobs, List.map_map]

/-! ### Links -/

/-- The links of the tree. -/
structure Linked (t : ContainmentTree) : Prop where
  ids : t.ids.Nodup
  below : ∀ n ∈ t.jobs, n.id < t.nextJobId
  parents : ∀ n ∈ t.jobs, ∀ p, n.parent = some p →
    p < n.id ∧ n.retired = false ∧ ∃ m ∈ t.jobs, m.id = p ∧ n.id ∈ m.children
  children : ∀ n ∈ t.jobs, ∀ c ∈ n.children, ∃ m ∈ t.jobs, m.id = c ∧ m.parent = some n.id
  nodup : ∀ n ∈ t.jobs, n.children.Nodup
  retired : ∀ n ∈ t.jobs, n.retired = true → n.parent = none ∧ n.children = [] ∧ n.processes = []
  root : ∀ n ∈ t.jobs, ∀ m ∈ t.jobs, n.retired = false → m.retired = false →
    n.parent = none → m.parent = none → n.id = m.id

/-- Changes that keep ids and links. -/
structure KeepsLinks (f : JobNode → JobNode) : Prop where
  id : ∀ n, (f n).id = n.id
  parent : ∀ n, (f n).parent = n.parent
  children : ∀ n, (f n).children = n.children
  retired : ∀ n, (f n).retired = n.retired

theorem Linked.mapJobs (h : Linked t) (hf : KeepsLinks f)
    (hprocesses : ∀ n ∈ t.jobs, n.retired = true → (f n).processes = []) : Linked (mapJobs f t) := by
  constructor
  case ids => exact (ids_mapJobs hf.id).symm ▸ h.ids
  case below =>
    refine forall_mem_map.2 fun n hn => ?_
    rw [hf.id]
    exact h.below n hn
  case parents =>
    refine forall_mem_map.2 fun n hn p hp => ?_
    rw [hf.parent] at hp
    obtain ⟨hlt, hretired, m, hm, hmp, hmem⟩ := h.parents n hn p hp
    rw [hf.id, hf.retired]
    exact ⟨hlt, hretired, f m, mem_map_of_mem hm, by rw [hf.id, hmp], by rw [hf.children]; exact hmem⟩
  case children =>
    refine forall_mem_map.2 fun n hn c hc => ?_
    rw [hf.children] at hc
    obtain ⟨m, hm, hmc, hmn⟩ := h.children n hn c hc
    exact ⟨f m, mem_map_of_mem hm, by rw [hf.id, hmc], by rw [hf.parent, hf.id, hmn]⟩
  case nodup =>
    refine forall_mem_map.2 fun n hn => ?_
    rw [hf.children]
    exact h.nodup n hn
  case retired =>
    refine forall_mem_map.2 fun n hn hr => ?_
    rw [hf.retired] at hr
    rw [hf.parent, hf.children]
    exact ⟨(h.retired n hn hr).1, (h.retired n hn hr).2.1, hprocesses n hn hr⟩
  case root =>
    refine forall_mem_map.2 fun n hn => forall_mem_map.2 fun m hm => ?_
    rw [hf.id, hf.id, hf.retired, hf.retired, hf.parent, hf.parent]
    exact h.root n hn m hm

namespace Linked

theorem up_eq (h : Linked t) (hn : n ∈ t.jobs) : t.up n.id = n.parent := by
  rw [up, find_of_mem h.ids hn, bind_some]

theorem up_lt (h : Linked t) (hp : t.up x = some p) : p < x := by
  obtain ⟨n, hn, hparent⟩ := bind_eq_some_iff.1 hp
  have hlt := (h.parents n (mem_of_find hn) p hparent).1
  rwa [id_of_find hn] at hlt

theorem up_mem (h : Linked t) (hp : t.up x = some p) : p ∈ t.ids := by
  obtain ⟨n, hn, hparent⟩ := bind_eq_some_iff.1 hp
  obtain ⟨-, -, m, hm, rfl, -⟩ := h.parents n (mem_of_find hn) p hparent
  exact mem_map_of_mem hm

theorem under_mem (h : Linked t) (hx : x ∈ t.ids) (hj : Under t.up j x) : j ∈ t.ids := by
  induction hj with
  | refl => exact hx
  | tail _ hp => exact h.up_mem hp

end Linked

/-! ### The walk to the root -/

/-- The list is the chain of ids from a job to the root. -/
inductive IsChain (t : ContainmentTree) : Option ℕ → List ℕ → Prop where
  | nil : IsChain t none []
  | cons {x : ℕ} {n : JobNode} {l : List ℕ} (hn : t.find x = some n) (hl : IsChain t n.parent l) :
      IsChain t (some x) (x :: l)

theorem IsChain.chainFrom {o : Option ℕ} (h : IsChain t o l) :
    ∀ fuel, l.length ≤ fuel → t.chainFrom fuel o = .ok l := by
  induction h with
  | nil =>
    intro fuel _
    cases fuel <;> rfl
  | cons hn _ ih =>
    intro fuel hfuel
    cases fuel with
    | zero => simp at hfuel
    | succ fuel =>
      simp only [ContainmentTree.chainFrom, job_ok.2 hn, ok_bind, ih fuel (by simpa using hfuel), pure_eq_ok]

theorem IsChain.mem_iff (h : IsChain t (some x) l) : j ∈ l ↔ Under t.up j x := by
  generalize ho : some x = o at h
  induction h generalizing x with
  | nil => simp at ho
  | @cons y n l hn hl ih =>
    obtain rfl := some.inj ho
    have hup : t.up x = n.parent := by rw [up, hn, bind_some]
    rw [under_iff, hup]
    cases hparent : n.parent with
    | none =>
      rw [hparent] at hl
      cases hl
      simp
    | some => simp [ih hparent.symm]

theorem Linked.exists_isChain (h : Linked t) : ∀ x ∈ t.ids, ∃ l, IsChain t (some x) l ∧ l.Nodup := by
  intro x
  induction x using Nat.strong_induction_on with
  | _ x ih =>
    intro hx
    obtain ⟨n, hn⟩ := find_of_id h.ids hx
    cases hparent : n.parent with
    | none => exact ⟨[x], .cons hn (hparent ▸ .nil), nodup_singleton x⟩
    | some p =>
      have hup : t.up x = some p := by rw [up, hn, bind_some, hparent]
      obtain ⟨l, hl, hnodup⟩ := ih p (h.up_lt hup) (h.up_mem hup)
      refine ⟨x :: l, .cons hn (hparent ▸ hl), nodup_cons.2 ⟨fun hmem => ?_, hnodup⟩⟩
      exact not_under_of_up (fun _ _ => h.up_lt) hup (hl.mem_iff.1 hmem)

/-- The walk to the root ends, and finds the jobs above. -/
theorem Linked.chain (h : Linked t) (hx : x ∈ t.ids) :
    ∃ l, IsChain t (some x) l ∧ l.Nodup ∧ l.length ≤ t.jobs.length := by
  obtain ⟨l, hl, hnodup⟩ := h.exists_isChain x hx
  refine ⟨l, hl, hnodup, ?_⟩
  have hsub : ∀ j ∈ l, j ∈ t.ids := fun j hj => h.under_mem hx (hl.mem_iff.1 hj)
  have hlength := (hnodup.subperm hsub).length_le
  rwa [ContainmentTree.ids, length_map] at hlength

/-! ### The walk over a subtree -/

/-- The second list holds the jobs found by the walk from the pending jobs in the first one. -/
inductive Walk (t : ContainmentTree) : List ℕ → List ℕ → Prop where
  | nil : Walk t [] []
  | cons {x : ℕ} {n : JobNode} {pending l : List ℕ} (hn : t.find x = some n)
      (hl : Walk t (n.children.reverse ++ pending) l) : Walk t (x :: pending) (x :: l)

theorem Walk.collectFrom {pending : List ℕ} (h : Walk t pending l) :
    ∀ fuel, l.length ≤ fuel → t.collectFrom fuel pending = .ok l := by
  induction h with
  | nil =>
    intro fuel _
    cases fuel <;> rfl
  | cons hn _ ih =>
    intro fuel hfuel
    cases fuel with
    | zero => simp at hfuel
    | succ fuel =>
      simp only [ContainmentTree.collectFrom, job_ok.2 hn, ok_bind,
        ih fuel (by simpa using hfuel), pure_eq_ok]

/-- The walk over the given siblings finds the jobs of the list before it goes on. -/
structure Finds (t : ContainmentTree) (xs s : List ℕ) : Prop where
  walk : ∀ pending l, Walk t pending l → Walk t (xs ++ pending) (s ++ l)
  nodup : s.Nodup
  mem_iff : ∀ y, y ∈ s ↔ y ∈ t.ids ∧ ∃ x ∈ xs, Under t.up x y

theorem Finds.nil : Finds t [] [] where
  walk := fun _ _ h => h
  nodup := nodup_nil
  mem_iff := by simp

/-- Subtrees that are disjoint are found one after the other. -/
theorem Finds.cons {xs s s' : List ℕ} (hx : Finds t [x] s) (hxs : Finds t xs s')
    (hdisjoint : ∀ c ∈ xs, ∀ y, Under t.up x y → ¬ Under t.up c y) : Finds t (x :: xs) (s ++ s') := by
  constructor
  case walk =>
    intro pending l h
    rw [append_assoc]
    exact hx.walk _ _ (hxs.walk _ _ h)
  case nodup =>
    refine nodup_append'.2 ⟨hx.nodup, hxs.nodup, fun y hy hy' => ?_⟩
    obtain ⟨-, c, hc, hunder⟩ := (hxs.mem_iff y).1 hy'
    have hxy : Under t.up x y := by simpa using ((hx.mem_iff y).1 hy).2
    exact hdisjoint c hc y hxy hunder
  case mem_iff =>
    intro y
    rw [mem_append, hx.mem_iff, hxs.mem_iff]
    simp only [mem_cons, exists_eq_or_imp]
    tauto

variable (h : Linked t)

include h

/-- The walk over a list of siblings, from the walks over each of them. -/
theorem Linked.finds_siblings {xs : List ℕ} (hnodup : xs.Nodup) (hup : ∀ c ∈ xs, t.up c = some p)
    (hfinds : ∀ c ∈ xs, ∃ s, Finds t [c] s) : ∃ s, Finds t xs s := by
  induction xs with
  | nil => exact ⟨[], .nil⟩
  | cons x xs ih =>
    rw [nodup_cons] at hnodup
    rw [forall_mem_cons] at hup hfinds
    obtain ⟨s, hs⟩ := hfinds.1
    obtain ⟨s', hs'⟩ := ih hnodup.2 hup.2 hfinds.2
    refine ⟨s ++ s', hs.cons hs' fun c hc y hxy hcy => hnodup.1 ?_⟩
    have heq : x = c := eq_of_under_siblings (fun _ _ => h.up_lt) hup.1 (hup.2 c hc) hxy hcy
    exact heq ▸ hc

theorem Linked.up_child (hn : t.find x = some n) {c : ℕ} (hc : c ∈ n.children) : t.up c = some x := by
  obtain ⟨m, hm, rfl, hparent⟩ := h.children n (mem_of_find hn) c hc
  rw [h.up_eq hm, hparent, id_of_find hn]

theorem Linked.mem_children (hn : t.find x = some n) {c : ℕ} (hc : t.up c = some x) : c ∈ n.children := by
  obtain ⟨m, hm, hparent⟩ := bind_eq_some_iff.1 hc
  obtain ⟨-, -, k, hk, hkx, hmem⟩ := h.parents m (mem_of_find hm) x hparent
  rwa [eq_of_find h.ids hn hk hkx, id_of_find hm] at hmem

/-- The walk from one job.  Children have larger ids, so the ids above it are a measure. -/
theorem Linked.exists_finds : ∀ k x, t.nextJobId - x ≤ k → x ∈ t.ids → ∃ s, Finds t [x] s := by
  intro k
  induction k with
  | zero =>
    intro x hk hx
    obtain ⟨n, hn, rfl⟩ := mem_map.1 hx
    have hlt := h.below n hn
    omega
  | succ k ih =>
    intro x hk hx
    obtain ⟨n, hn⟩ := find_of_id h.ids hx
    have hnodup := nodup_reverse.2 (h.nodup n (mem_of_find hn))
    have hup : ∀ c ∈ n.children.reverse, t.up c = some x := fun c hc =>
      h.up_child hn (mem_reverse.1 hc)
    obtain ⟨s, hs⟩ := h.finds_siblings hnodup hup fun c hc => by
      have hlt := h.up_lt (hup c hc)
      obtain ⟨m, hm, hmc, -⟩ := h.children n (mem_of_find hn) c (mem_reverse.1 hc)
      exact ih c (by omega) (hmc ▸ mem_map_of_mem hm)
    have hmem : ∀ y, (∃ c ∈ n.children.reverse, Under t.up c y) ↔ ∃ c, t.up c = some x ∧ Under t.up c y := by
      intro y
      constructor
      · rintro ⟨c, hc, hy⟩
        exact ⟨c, hup c hc, hy⟩
      · rintro ⟨c, hc, hy⟩
        exact ⟨c, mem_reverse.2 (h.mem_children hn hc), hy⟩
    refine ⟨x :: s, ⟨fun pending l hl => .cons hn (hs.walk pending l hl), ?_, fun y => ?_⟩⟩
    · refine nodup_cons.2 ⟨fun hxs => ?_, hs.nodup⟩
      obtain ⟨-, c, hc, hunder⟩ := (hs.mem_iff x).1 hxs
      exact not_under_of_up (fun _ _ => h.up_lt) (hup c hc) hunder
    · rw [mem_cons, hs.mem_iff, hmem]
      simp only [mem_singleton, exists_eq_left]
      rw [under_iff_child]
      constructor
      · rintro (rfl | ⟨hy, hc⟩)
        · exact ⟨hx, .inl rfl⟩
        · exact ⟨hy, .inr hc⟩
      · rintro ⟨hy, rfl | hc⟩
        · exact .inl rfl
        · exact .inr ⟨hy, hc⟩

/-- The walk over a subtree ends, and finds the jobs of it. -/
theorem Linked.collect (hx : x ∈ t.ids) :
    ∃ l, t.collectSubtree x = .ok l ∧ l.Nodup ∧ ∀ y, y ∈ l ↔ y ∈ t.ids ∧ Under t.up x y := by
  obtain ⟨l, hl⟩ := h.exists_finds _ x le_rfl hx
  have hmem : ∀ y, y ∈ l ↔ y ∈ t.ids ∧ Under t.up x y := by simpa using hl.mem_iff
  have hwalk : Walk t [x] l := by simpa using hl.walk [] [] .nil
  refine ⟨l, hwalk.collectFrom _ ?_, hl.nodup, hmem⟩
  have hlength := (hl.nodup.subperm fun y hy => ((hmem y).1 hy).1).length_le
  rwa [ContainmentTree.ids, length_map] at hlength

end ContainmentTree

end Containment
