/-
**Containment: the accounts of a tree of jobs.**

The usage of a job is the sum of the reservations under it, in every reachable state.  A charge walks
to the root twice, once to check and once to add; the sum law makes sure that the second walk and
every later subtraction succeed, so that an operation that returns an error has changed nothing.

Between the two halves of an operation the accounts stand for other weights than the reservations
that are listed: a charge has been made for a process that is not yet there.  The law is therefore
stated for given weights.

* `Accounts.charge`, `Accounts.discharge` —
  charging a job and giving back;
* `commits` — every operation keeps the invariant or changes nothing;
* `accounting_exact` — the accounts in every reachable state.
-/

import NullStar.Containment

set_option autoImplicit false

namespace Containment

open Rust Machine Forest Keyed List

namespace ContainmentTree

variable {t t' : ContainmentTree} {n m : JobNode} {f : JobNode → JobNode} {x j p r : ℕ}
  {l : List ℕ} {u : ResourceUsage} {w : ℕ → ResourceUsage} {g g' : JobNode → ResourceUsage}

/-! ### Accounts -/

def reserved (n : JobNode) : ResourceUsage := (n.processes.map ProcessReservation.usage).sum

/-- The links are sound, every usage is the sum of the weights in the subtree, and no usage is above
its limit. -/
structure Accounts (t : ContainmentTree) (w : ℕ → ResourceUsage) : Prop where
  linked : Linked t
  balanced : ∀ n ∈ t.jobs, n.usage = total t.ids t.up w n.id
  within : ∀ n ∈ t.jobs, n.usage ≤ n.limits

/-- The tree with other usages. -/
def withUsage (g : JobNode → ResourceUsage) (t : ContainmentTree) : ContainmentTree :=
  mapJobs (fun n => { n with usage := g n }) t

theorem ids_withUsage : (withUsage g t).ids = t.ids := ids_mapJobs fun _ => rfl

theorem find_withUsage : (withUsage g t).find x = (t.find x).map fun n => { n with usage := g n } :=
  find_mapJobs fun _ => rfl

theorem up_withUsage : (withUsage g t).up = t.up := up_mapJobs (fun _ => rfl) fun _ => rfl

theorem withUsage_withUsage :
    withUsage g' (withUsage g t) = withUsage (fun n => g' { n with usage := g n }) t :=
  mapJobs_mapJobs

theorem withUsage_usage : withUsage JobNode.usage t = t := by
  simp [withUsage, mapJobs]

theorem own_eq (hn : t.find x = some n) : t.own x = reserved n := by
  rw [own, hn, Option.map_some, Option.getD_some, reserved]

theorem own_of_not_mem (hx : x ∉ t.ids) : t.own x = 0 := by
  rw [own, find, lookup_eq_none.2 hx, Option.map_none, Option.getD_none]

theorem own_mapJobs (hf : ∀ n, (f n).id = n.id) (hprocesses : ∀ n, (f n).processes = n.processes) :
    (mapJobs f t).own = t.own := by
  funext x
  rw [own, find_mapJobs hf, own]
  cases t.find x with
  | none => rfl
  | some => simp only [Option.map_some, hprocesses]

theorem own_withUsage : (withUsage g t).own = t.own := own_mapJobs (fun _ => rfl) fun _ => rfl

section

variable (hf : ∀ n, (f n).id = n.id)

include hf

theorem ids_adjustJob : (adjustJob x f t).ids = t.ids := map_key_adjust hf

theorem find_adjustJob (hn : t.find x = some n) : (adjustJob x f t).find x = some (f n) := by
  change lookup _ _ _ = _
  rw [adjustJob, lookup_adjust_self hf]
  change (t.find x).map f = _
  rw [hn, Option.map_some]

theorem find_adjustJob_ne (hj : j ≠ x) : (adjustJob x f t).find j = t.find j := lookup_adjust_ne hf hj

/-- Moving weight between a job and the rest of the account. -/
theorem own_adjustJob (hn : t.find x = some n) {a b : ResourceUsage}
    (h : reserved n + a = reserved (f n) + b) :
    t.own + Pi.single x a = (adjustJob x f t).own + Pi.single x b := by
  funext j
  rw [Pi.add_apply, Pi.add_apply]
  by_cases hj : j = x
  · subst hj
    rw [own_eq hn, own_eq (find_adjustJob hf hn), Pi.single_eq_same, Pi.single_eq_same, h]
  · rw [Pi.single_eq_of_ne hj, Pi.single_eq_of_ne hj, own, own, find_adjustJob_ne hf hj]

end

/-- A change that keeps the links, the usage and the limits. -/
structure KeepsAccounts (f : JobNode → JobNode) : Prop extends KeepsLinks f where
  usage : ∀ n, (f n).usage = n.usage
  limits : ∀ n, (f n).limits = n.limits

theorem keepsAccounts_processes (g : JobNode → List ProcessReservation) :
    KeepsAccounts fun n => { n with processes := g n } :=
  ⟨⟨fun _ => rfl, fun _ => rfl, fun _ => rfl, fun _ => rfl⟩, fun _ => rfl, fun _ => rfl⟩

theorem Accounts.mapJobs (h : Accounts t w) (hf : KeepsAccounts f)
    (hprocesses : ∀ n ∈ t.jobs, n.retired = true → (f n).processes = []) : Accounts (mapJobs f t) w := by
  refine ⟨h.linked.mapJobs hf.toKeepsLinks hprocesses, ?_, ?_⟩
  · refine forall_mem_map.2 fun m hm => ?_
    rw [hf.usage, hf.id, ids_mapJobs hf.id, up_mapJobs hf.id hf.parent]
    exact h.balanced m hm
  · refine forall_mem_map.2 fun m hm => ?_
    rw [hf.usage, hf.limits]
    exact h.within m hm

/-- A change of one job that keeps its links, its usage and its limits. -/
theorem Accounts.adjustJob (h : Accounts t w) (hf : KeepsAccounts f) (hn : t.find x = some n)
    (hlive : n.retired = true → (f n).processes = []) : Accounts (adjustJob x f t) w := by
  rw [adjustJob_eq h.linked.ids]
  refine h.mapJobs ⟨⟨?_, ?_, ?_, ?_⟩, ?_, ?_⟩ fun m hm hretired => ?_
  case refine_7 =>
    split
    · next hx =>
        obtain rfl := eq_of_find h.linked.ids hn hm hx
        exact hlive hretired
    · exact (h.linked.retired m hm hretired).2.2
  all_goals
    intro m
    split
    · first
        | exact hf.id m
        | exact hf.parent m
        | exact hf.children m
        | exact hf.retired m
        | exact hf.usage m
        | exact hf.limits m
    · rfl

/-! ### Charging a chain -/

/-- Changing the usages along a list of jobs. -/
theorem applyDelta_eq {add : Bool} {g : ResourceUsage → ResourceUsage} (hnodup : l.Nodup) :
    ∀ t : ContainmentTree, t.ids.Nodup → (∀ j ∈ l, j ∈ t.ids) →
      (∀ n ∈ t.jobs, n.id ∈ l → (if add then okOr (ResourceUsage.checkedAdd n.usage u) .usageOverflow
        else okOr (ResourceUsage.checkedSub n.usage u) .usageUnderflow : Outcome ContainmentError _) =
          .ok (g n.usage)) → applyDelta u add l t =
        .ok () (withUsage (fun n => if n.id ∈ l then g n.usage else n.usage) t) := by
  induction l with
  | nil =>
    intro t _ _ _
    simp only [not_mem_nil, if_false]
    rw [withUsage_usage]
    rfl
  | cons x l ih =>
    intro t hids hl hg
    rw [nodup_cons] at hnodup
    rw [forall_mem_cons] at hl
    obtain ⟨n, hn⟩ := find_of_id hids hl.1
    have hstep : adjustJob x ({ · with usage := g n.usage }) t =
        withUsage (fun m => if m.id = x then g m.usage else m.usage) t := by
      rw [adjustJob_eq hids]
      refine congrArg (ContainmentTree.mk t.nextJobId) (map_congr_left fun m hm => ?_)
      by_cases hx : m.id = x
      · obtain rfl := eq_of_find hids hn hm hx
        simp only [if_pos hx]
      · simp only [if_neg hx]
    have hnx : n.id ∈ x :: l := id_of_find hn ▸ mem_cons_self
    refine bind_ok.2 ⟨n, t, read_ok.2 ⟨job_ok.2 hn, rfl⟩, bind_ok.2 ⟨g n.usage, t,
      check_ok.2 ⟨hg n (mem_of_find hn) hnx, rfl⟩, bind_ok.2 ⟨(), _, modify_ok.2 rfl, ?_⟩⟩⟩
    rw [hstep, ih hnodup.2 _ (by rwa [ids_withUsage]) (by rw [ids_withUsage]; exact hl.2),
      withUsage_withUsage]
    · congr 2
      funext m
      by_cases hx : m.id = x
      · simp [hx, hnodup.1]
      · simp [hx]
    · intro m hm hml
      obtain ⟨k, hk, rfl⟩ := mem_map.1 hm
      have hkx : k.id ≠ x := fun hk => hnodup.1 (hk ▸ hml)
      simp only [hkx]
      exact hg k hk (mem_cons_of_mem _ hml)

/-- The usages changed on the chain above a job. -/
theorem Accounts.applyChainDelta (h : Accounts t w) (hx : x ∈ t.ids) {w' : ℕ → ResourceUsage}
    {add : Bool} {g : ResourceUsage → ResourceUsage} (hg : ∀ n ∈ t.jobs, Under t.up n.id x →
      (if add then okOr (ResourceUsage.checkedAdd n.usage u) .usageOverflow
        else okOr (ResourceUsage.checkedSub n.usage u) .usageUnderflow : Outcome ContainmentError _) =
          .ok (g n.usage) ∧ g n.usage = total t.ids t.up w' n.id ∧ g n.usage ≤ n.limits)
    (hother : ∀ n ∈ t.jobs, ¬ Under t.up n.id x → n.usage = total t.ids t.up w' n.id) :
    Returns t (applyChainDelta x u add) fun _ t' => ∃ g, t' = withUsage g t ∧ Accounts t' w' := by
  obtain ⟨l, hl, hnodup, hlength⟩ := h.linked.chain hx
  refine ⟨(), _, bind_ok.2 ⟨l, t, read_ok.2 ⟨hl.chainFrom _ hlength, rfl⟩, applyDelta_eq hnodup t h.linked.ids
    (fun j hj => h.linked.under_mem hx (hl.mem_iff.1 hj))
    fun n hn hnl => (hg n hn (hl.mem_iff.1 hnl)).1⟩, _, rfl, ?_⟩
  refine ⟨h.linked.mapJobs ⟨fun _ => rfl, fun _ => rfl, fun _ => rfl, fun _ => rfl⟩
    fun n hn hretired => (h.linked.retired n hn hretired).2.2, ?_, ?_⟩
  · refine forall_mem_map.2 fun m hm => ?_
    rw [ids_withUsage, up_withUsage]
    by_cases hml : m.id ∈ l
    · simpa only [hml, if_true] using (hg m hm (hl.mem_iff.1 hml)).2.1
    · simpa only [hml, if_false] using hother m hm fun hu => hml (hl.mem_iff.2 hu)
  · refine forall_mem_map.2 fun m hm => ?_
    by_cases hml : m.id ∈ l
    · simpa only [hml, if_true] using (hg m hm (hl.mem_iff.1 hml)).2.2
    · simpa only [hml, if_false] using h.within m hm

/-- A weight that is added to one job counts for the jobs above it. -/
theorem Linked.total_add_single (h : Linked t) (hx : x ∈ t.ids) (j : ℕ) :
    (Under t.up j x → total t.ids t.up (w + Pi.single x u) j = total t.ids t.up w j + u) ∧
      (¬ Under t.up j x → total t.ids t.up (w + Pi.single x u) j = total t.ids t.up w j) := by
  rw [total_add, total_single h.ids hx]
  exact ⟨fun hu => by rw [if_pos hu], fun hu => by rw [if_neg hu, add_zero]⟩

/-- A job can take a charge. -/
def Fits (u : ResourceUsage) (n : JobNode) : Prop :=
  n.retired = false ∧ (∀ c, n.usage c + u c < 2 ^ 64) ∧ n.usage + u ≤ n.limits

/-- Charging a job and the jobs above it. -/
theorem Accounts.charge (h : Accounts t w) (hx : x ∈ t.ids)
    (hfits : ∀ n ∈ t.jobs, Under t.up n.id x → Fits u n) :
    Returns t (ContainmentTree.applyChainDelta x u true) fun _ t' =>
      ∃ g, t' = withUsage g t ∧ Accounts t' (w + Pi.single x u) := by
  refine h.applyChainDelta hx (g := (· + u)) (fun n hn hu => ?_) fun n hn hu => ?_
  · obtain ⟨-, hadd, hlimit⟩ := hfits n hn hu
    refine ⟨?_, ?_, hlimit⟩
    · rw [if_pos rfl, okOr_eq_ok, ResourceUsage.checkedAdd_eq_some]
      exact ⟨hadd, rfl⟩
    · rw [(h.linked.total_add_single hx n.id).1 hu, ← h.balanced n hn]
  · rw [(h.linked.total_add_single hx n.id).2 hu, h.balanced n hn]

/-- Giving back what was charged. -/
theorem Accounts.discharge (h : Accounts t (w + Pi.single x u)) (hx : x ∈ t.ids) :
    Returns t (ContainmentTree.applyChainDelta x u false) fun _ t' =>
      ∃ g, t' = withUsage g t ∧ Accounts t' w := by
  refine h.applyChainDelta hx (g := (· - u)) (fun n hn hu => ?_) fun n hn hu => ?_
  · have husage := (h.balanced n hn).trans ((h.linked.total_add_single hx n.id).1 hu)
    have hsub : n.usage - u = total t.ids t.up w n.id := by
      rw [husage]
      funext c
      exact Nat.add_sub_cancel _ _
    refine ⟨?_, hsub, fun c => (Nat.sub_le _ _).trans (h.within n hn c)⟩
    rw [if_neg (by simp), okOr_eq_ok, hsub, husage, ResourceUsage.checkedSub_add]
  · rw [h.balanced n hn, (h.linked.total_add_single hx n.id).2 hu]

/-- The first pass of a charge looks at every job of the chain. -/
theorem IsChain.fits {o : Option ℕ} (h : IsChain t o l) :
    ∀ fuel, t.checkChain u fuel o = .ok () → ∀ j ∈ l, ∀ n, t.find j = some n → Fits u n := by
  induction h with
  | nil =>
    intro fuel _ j hj
    simp at hj
  | @cons x n l hn _ ih =>
    intro fuel hcheck
    cases fuel with
    | zero => exact absurd hcheck (by simp [checkChain])
    | succ fuel =>
      simp only [checkChain, job_ok.2 hn, ok_bind, run_eq_ok, ResourceUsage.checkedAdd_eq_some] at hcheck
      obtain ⟨hlive, _, ⟨hadd, rfl⟩, hlimit, hrest⟩ := hcheck
      rw [forall_mem_cons]
      refine ⟨fun m hm => ?_, ih fuel hrest⟩
      cases hn.symm.trans hm
      exact ⟨by simpa using hlive, hadd, not_not.1 hlimit⟩

theorem IsChain.noTrap {o : Option ℕ} (h : IsChain t o l) :
    ∀ fuel, l.length ≤ fuel → NoTrap (t.checkChain u fuel o) := by
  induction h with
  | nil =>
    intro fuel _
    cases fuel <;> exact noTrap_ok
  | cons hn _ ih =>
    intro fuel hfuel
    cases fuel with
    | zero => simp at hfuel
    | succ fuel =>
      rw [checkChain, job_ok.2 hn]
      refine .rejectIf_bind fun _ => noTrap_okOr.bind fun _ _ => .rejectIf_bind fun _ => ?_
      exact ih fuel (by simpa using hfuel)

/-- A charge that passes the check is made; one that does not changes nothing. -/
theorem Accounts.checked (h : Accounts t w) (hx : x ∈ t.ids) :
    Commits t (checkChainCapacity x u >>= fun _ => ContainmentTree.applyChainDelta x u true)
      fun _ t' => ∃ g, t' = withUsage g t ∧ Accounts t' (w + Pi.single x u) := by
  obtain ⟨l, hl, -, hlength⟩ := h.linked.chain hx
  refine .read_bind (hl.noTrap _ hlength) fun _ hcheck => .inl ?_
  refine h.charge hx fun n hn hu => ?_
  exact hl.fits _ hcheck n.id (hl.mem_iff.2 hu) n (find_of_mem h.linked.ids hn)

/-! ### The invariant -/

def admitted (n : JobNode) : List ℕ := n.processes.map ProcessReservation.process

/-- Every process is admitted once, in one job. -/
structure Unique (t : ContainmentTree) : Prop where
  each : ∀ n ∈ t.jobs, (admitted n).Nodup
  apart : ∀ n ∈ t.jobs, ∀ m ∈ t.jobs, ∀ p ∈ admitted n, p ∈ admitted m → n.id = m.id

/-- At most one job admits processes that were nowhere before. -/
theorem Unique.mapJobs (h : Unique t) (hid : ∀ n, (f n).id = n.id)
    (heach : ∀ n ∈ t.jobs, (admitted (f n)).Nodup) (hnew : ∀ n ∈ t.jobs, ∀ p ∈ admitted (f n),
      p ∈ admitted n ∨ n.id = x ∧ ∀ m ∈ t.jobs, p ∉ admitted m) : Unique (mapJobs f t) := by
  constructor
  case each =>
    exact forall_mem_map.2 heach
  case apart =>
    intro n hn m hm p hpn hpm
    obtain ⟨k, hk, rfl⟩ := mem_map.1 hn
    obtain ⟨i, hi, rfl⟩ := mem_map.1 hm
    rw [hid, hid]
    rcases hnew k hk p hpn with hpk | ⟨hkx, hpk⟩
    · rcases hnew i hi p hpm with hpi | ⟨-, hpi⟩
      · exact h.apart k hk i hi p hpk hpi
      · exact absurd hpk (hpi k hk)
    · rcases hnew i hi p hpm with hpi | ⟨hix, -⟩
      · exact absurd hpi (hpk i hi)
      · rw [hkx, hix]

theorem Unique.withUsage (h : Unique t) : Unique (withUsage g t) :=
  h.mapJobs (x := 0) (fun _ => rfl) h.each fun _ _ _ hp => .inl hp

/-- A change of the processes of one job. -/
theorem Unique.adjustJob (h : Unique t) (hids : t.ids.Nodup) (hid : ∀ n, (f n).id = n.id)
    (hn : t.find x = some n) (heach : (admitted (f n)).Nodup)
    (hnew : ∀ p ∈ admitted (f n), p ∈ admitted n ∨ ∀ m ∈ t.jobs, p ∉ admitted m) :
    Unique (adjustJob x f t) := by
  rw [adjustJob_eq hids]
  refine h.mapJobs (x := x) (fun m => ?_) (fun m hm => ?_) fun m hm p hp => ?_
  · split
    · exact hid m
    · rfl
  · split
    · next hx =>
        obtain rfl := eq_of_find hids hn hm hx
        exact heach
    · exact h.each m hm
  · split at hp
    · next hx =>
        obtain rfl := eq_of_find hids hn hm hx
        exact (hnew p hp).imp_right fun hp => ⟨hx, hp⟩
    · exact .inl hp

/-- The invariant of the tree: the accounts stand for the reservations that are listed, and every
process is listed once. -/
structure Contained (t : ContainmentTree) : Prop where
  accounts : Accounts t t.own
  unique : Unique t

theorem contained_new : Contained new where
  accounts := by
    refine ⟨⟨nodup_nil, ?_, ?_, ?_, ?_, ?_, ?_⟩, ?_, ?_⟩ <;>
      exact fun n hn => absurd hn not_mem_nil
  unique := ⟨fun n hn => absurd hn not_mem_nil, fun n hn => absurd hn not_mem_nil⟩

/-! ### Limits and processes -/

theorem Contained.setLimits (h : Contained t) (x : ℕ) (limits : ResourceLimits) :
    Commits t (setLimits x limits) fun _ t' => Contained t' := by
  refine .read_bind noTrap_okOr fun n hn => .check_bind noTrap_rejectIf fun _ _ =>
    .check_bind noTrap_rejectIf fun _ _ => .check_bind noTrap_rejectIf fun _ hlimit =>
    .inl (.of_modify ?_)
  rw [job_ok] at hn
  have hlimit : n.usage ≤ limits := not_not.1 (rejectIf_eq_ok.1 hlimit)
  have hids := h.accounts.linked.ids
  have hown : (adjustJob x ({ · with limits }) t).own = t.own := by
    have hmove := own_adjustJob (f := ({ · with limits })) (fun _ => rfl) hn (b := 0) rfl
    simpa using hmove.symm
  refine ⟨hown ▸ ?_, h.unique.adjustJob hids (fun _ => rfl) hn
    (h.unique.each n (mem_of_find hn)) fun _ hp => .inl hp⟩
  rw [adjustJob_eq hids]
  have hkeeps : KeepsLinks fun n => if n.id = x then { n with limits } else n := by
    constructor <;> intro m <;> split <;> rfl
  refine ⟨h.accounts.linked.mapJobs hkeeps fun m hm hretired => ?_, ?_, ?_⟩
  · have hnone := (h.accounts.linked.retired m hm hretired).2.2
    split <;> exact hnone
  · refine forall_mem_map.2 fun k hk => ?_
    rw [ids_mapJobs hkeeps.id, up_mapJobs hkeeps.id hkeeps.parent]
    have hbalanced := h.accounts.balanced k hk
    split <;> exact hbalanced
  · refine forall_mem_map.2 fun k hk => ?_
    split
    · next hx =>
        obtain rfl := eq_of_find hids hn hk hx
        exact hlimit
    · exact h.accounts.within k hk

theorem Contained.admitProcess (h : Contained t) (x process : ℕ) (usage : ResourceUsage) :
    Commits t (admitProcess x process usage) fun _ t' => Contained t' := by
  refine .check_bind noTrap_rejectIf fun _ _ => .read_bind noTrap_okOr fun n hn =>
    .check_bind noTrap_rejectIf fun _ hlive => .read_bind noTrap_rejectIf fun _ hnew =>
    .check_bind noTrap_rejectIf fun _ _ => ?_
  rw [job_ok] at hn
  rw [rejectIf_eq_ok] at hlive hnew
  rw [← bind_assoc]
  refine (h.accounts.checked (id_mem_of_find hn)).bind fun _ t1 hcharged => .of_modify ?_
  obtain ⟨g, rfl, haccounts⟩ := hcharged
  have hn1 : (withUsage g t).find x = some { n with usage := g n } := by
    rw [find_withUsage, hn, Option.map_some]
  set push : JobNode → JobNode := fun node =>
    { node with processes := node.processes ++ [⟨process, usage⟩] } with hpush
  have hown : (withUsage g t).own + Pi.single x usage = (adjustJob x push (withUsage g t)).own := by
    have hmove := own_adjustJob (f := push) (fun _ => rfl) hn1 (a := usage) (b := 0)
      (by simp [hpush, reserved])
    simpa using hmove
  constructor
  case accounts =>
    rw [← hown, own_withUsage]
    exact haccounts.adjustJob (keepsAccounts_processes _) hn1 fun hretired => absurd hretired hlive
  case unique =>
    have hfresh : ∀ m ∈ t.jobs, process ∉ admitted m := by
      intro m hm hmem
      obtain ⟨entry, hentry, rfl⟩ := mem_map.1 hmem
      exact hnew ⟨m, hm, entry, hentry, rfl⟩
    have hadmitted : admitted (push { n with usage := g n }) = admitted n ++ [process] := by
      simp [hpush, admitted]
    refine h.unique.withUsage.adjustJob haccounts.linked.ids (fun _ => rfl) hn1 ?_ ?_
    · rw [hadmitted]
      refine nodup_append'.2 ⟨h.unique.each n (mem_of_find hn), nodup_singleton _, ?_⟩
      rw [disjoint_singleton]
      exact hfresh n (mem_of_find hn)
    · intro p hp
      rw [hadmitted, mem_append, mem_singleton] at hp
      refine hp.imp_right ?_
      rintro rfl m hm
      obtain ⟨k, hk, rfl⟩ := mem_map.1 hm
      exact hfresh k hk

theorem reservation_ok {process : ℕ} {entry : ProcessReservation} : reservation n process = .ok entry ↔
      lookup ProcessReservation.process process n.processes = some entry := okOr_eq_ok

/-- A job that lists a reservation is not retired. -/
theorem Contained.live (h : Contained t) (hn : t.find x = some n) {process : ℕ}
    {entry : ProcessReservation} (hentry : reservation n process = .ok entry) : n.retired ≠ true := by
  intro hretired
  rw [reservation_ok, (h.accounts.linked.retired n (mem_of_find hn) hretired).2.2] at hentry
  simp at hentry

theorem Contained.setProcessUsage (h : Contained t) (x process : ℕ) (replacement : ResourceUsage) :
    Commits t (setProcessUsage x process replacement) fun _ t' => Contained t' := by
  refine .read_bind noTrap_okOr fun n hn => .check_bind noTrap_okOr fun entry hentry =>
    .check_bind noTrap_rejectIf fun _ _ => .check_bind noTrap_rejectIf fun _ hsame => ?_
  rw [job_ok] at hn
  rw [rejectIf_eq_ok, not_not] at hsame
  have hlive := h.live hn hentry
  have hx := id_mem_of_find hn
  -- what is charged first
  refine .bind (Q := fun _ t' => ∃ g, t' = withUsage g t ∧
    Accounts t' (t.own + Pi.single x (replacement - entry.usage))) ?_ fun _ t1 hcharged => ?_
  · unfold onlyIf
    split
    · exact h.accounts.checked hx
    · next hless =>
        refine .inl (.of_return ⟨JobNode.usage, withUsage_usage.symm, ?_⟩)
        have hzero : replacement - entry.usage = 0 := by
          funext c
          simp only [not_or, not_le] at hless
          rw [Pi.sub_apply, Pi.zero_apply, Nat.sub_eq_zero_iff_le]
          cases c with
          | processes => exact hsame.le
          | threads => exact hless.2.1.le
          | memoryBytes => exact hless.1.le
          | cpuTicks => exact hless.2.2.1.le
          | handles => exact hless.2.2.2.le
        rw [hzero, Pi.single_zero]
        exact h.accounts
  obtain ⟨g1, rfl, hcharged⟩ := hcharged
  set put : JobNode → JobNode := fun node =>
    { node with
      processes := adjust ProcessReservation.process process
        ({ · with usage := replacement }) node.processes } with hput
  -- the old reservation and the charge are the new reservation and what is given back
  have hfind : ∀ g, (withUsage g t).find x = some { n with usage := g n } := by
    intro g
    rw [find_withUsage, hn, Option.map_some]
  have hmove : ∀ g, t.own + Pi.single x (replacement - entry.usage) =
      (adjustJob x put (withUsage g t)).own + Pi.single x (entry.usage - replacement) := by
    intro g
    rw [← own_withUsage]
    refine own_adjustJob (f := put) (fun _ => rfl) (hfind g) ?_
    have hsum := sum_adjust (g := ProcessReservation.usage)
      (f := ({ · with usage := replacement })) (reservation_ok.1 hentry)
    funext c
    have hc := congrFun hsum c
    simp only [Pi.add_apply, Pi.sub_apply] at hc ⊢
    simp only [reserved, hput]
    omega
  rw [hmove g1] at hcharged
  refine (hcharged.discharge (ids_withUsage.symm ▸ hx)).bind fun _ t2 hdischarged => .of_modify ?_
  obtain ⟨g2, rfl, hdischarged⟩ := hdischarged
  rw [withUsage_withUsage] at hdischarged ⊢
  set g : JobNode → ResourceUsage := fun n => g2 { n with usage := g1 n }
  have hown : (adjustJob x put (withUsage g1 t)).own = (adjustJob x put (withUsage g t)).own :=
    add_right_cancel ((hmove g1).symm.trans (hmove g))
  rw [hown] at hdischarged
  constructor
  case accounts =>
    exact hdischarged.adjustJob (keepsAccounts_processes _) (hfind g) fun hretired => absurd hretired hlive
  case unique =>
    have hadmitted : admitted (put { n with usage := g n }) = admitted n := map_key_adjust fun _ => rfl
    refine h.unique.withUsage.adjustJob hdischarged.linked.ids (fun _ => rfl) (hfind g) ?_ ?_
    · rw [hadmitted]
      exact h.unique.each n (mem_of_find hn)
    · intro p hp
      rw [hadmitted] at hp
      exact .inl hp

theorem Contained.releaseProcess (h : Contained t) (x process : ℕ) :
    Commits t (releaseProcess x process) fun _ t' => Contained t' := by
  refine .read_bind noTrap_okOr fun n hn => .check_bind noTrap_okOr fun entry hentry =>
    .inl (.modify_bind ?_)
  rw [job_ok] at hn
  have hlive := h.live hn hentry
  rw [reservation_ok] at hentry
  set drop : JobNode → JobNode := fun node =>
    { node with processes := remove ProcessReservation.process process node.processes }
  have hown : t.own = (adjustJob x drop t).own + Pi.single x entry.usage := by
    have hmove := own_adjustJob (f := drop) (fun _ => rfl) hn
      (by rw [add_zero]; exact (sum_remove hentry).symm)
    simpa using hmove
  have haccounts : Accounts (adjustJob x drop t) t.own :=
    h.accounts.adjustJob (keepsAccounts_processes _) hn fun hretired => absurd hretired hlive
  rw [hown] at haccounts
  have hunique : Unique (adjustJob x drop t) := by
    refine h.unique.adjustJob h.accounts.linked.ids (fun _ => rfl) hn ?_ fun p hp => .inl ?_
    · exact nodup_map_remove (h.unique.each n (mem_of_find hn))
    · obtain ⟨e, he, rfl⟩ := mem_map.1 hp
      exact mem_map_of_mem (mem_of_mem_remove he)
  have hx : x ∈ (adjustJob x drop t).ids := id_mem_of_find (find_adjustJob (fun _ => rfl) hn)
  refine (haccounts.discharge hx).bind fun _ t1 hdischarged => .of_return ?_
  obtain ⟨g, rfl, hdischarged⟩ := hdischarged
  exact ⟨own_withUsage.symm ▸ hdischarged, hunique.withUsage⟩

/-! ### Creating jobs -/

/-- The state after a job has been created. -/
theorem createNode_commits (parent : Option ℕ) (limits : ResourceLimits) :
    Commits t (createNode parent limits) fun id t' => id = t.nextJobId ∧
      t' = ⟨t.nextJobId + 1, t.jobs ++ [⟨t.nextJobId, parent, limits, 0, [], [], false⟩]⟩ := by
  refine .read_bind noTrap_rejectIf fun _ _ => .read_bind noTrap_rejectIf fun _ _ =>
    .read_bind noTrap_ok fun id hid => .read_bind noTrap_okOr fun next hnext =>
    .inl (.modify_bind (.of_return ?_))
  cases hid
  rw [okOr_eq_ok, checkedAdd_eq_some] at hnext
  obtain ⟨-, rfl⟩ := hnext
  exact ⟨rfl, rfl⟩

theorem createRoot_commits (limits : ResourceLimits) :
    Commits t (createRoot limits) fun _ t' => Contained t' := by
  refine .read_bind noTrap_rejectIf fun _ hempty => ?_
  rw [rejectIf_eq_ok, not_not] at hempty
  refine (createNode_commits none limits).mono fun id t' ⟨_, ht'⟩ => ?_
  rw [hempty] at ht'
  subst ht'
  have hown : own ⟨t.nextJobId + 1, [⟨t.nextJobId, none, limits, 0, [], [], false⟩]⟩ = 0 := by
    funext x
    by_cases hx : x = t.nextJobId
    · subst hx
      exact own_eq (find_of_mem (t := ⟨_, [_]⟩) (nodup_singleton _) mem_cons_self)
    · exact own_of_not_mem (by simpa [ids] using hx)
  constructor
  case accounts =>
    refine ⟨⟨?_, ?_, ?_, ?_, ?_, ?_, ?_⟩, forall_mem_singleton.2 ?_, forall_mem_singleton.2 ?_⟩
    case refine_8 => exact (total_eq_zero fun x _ _ => congrFun hown x).symm
    all_goals simp [ids]
  case unique => constructor <;> simp [admitted]

/-- A job with one more child, when it is the given one. -/
def addChild (x c : ℕ) (n : JobNode) : JobNode :=
  if n.id = x then { n with children := n.children ++ [c] } else n

@[simp] theorem addChild_kept (x c : ℕ) : (addChild x c n).id = n.id ∧ (addChild x c n).parent = n.parent ∧
    (addChild x c n).limits = n.limits ∧ (addChild x c n).usage = n.usage ∧
    (addChild x c n).processes = n.processes ∧ (addChild x c n).retired = n.retired := by
  unfold addChild
  split <;> simp

theorem mem_addChild_children {c d : ℕ} :
    d ∈ (addChild x c n).children ↔ d ∈ n.children ∨ n.id = x ∧ d = c := by
  unfold addChild
  split
  · next hx => simp [hx]
  · next hx => simp [hx]

/-- The tree with a new child of the given job. -/
def attach (x : ℕ) (limits : ResourceLimits) (t : ContainmentTree) : ContainmentTree :=
  ⟨t.nextJobId + 1, t.jobs.map (addChild x t.nextJobId) ++ [⟨t.nextJobId, some x, limits, 0, [], [], false⟩]⟩

theorem mem_attach {limits : ResourceLimits} :
    n ∈ (attach x limits t).jobs ↔ (∃ k ∈ t.jobs, n = addChild x t.nextJobId k) ∨
      n = ⟨t.nextJobId, some x, limits, 0, [], [], false⟩ := by
  simp [attach, eq_comm]

theorem ids_attach {limits : ResourceLimits} : (attach x limits t).ids = t.ids ++ [t.nextJobId] := by
  simp [ids, attach]

theorem Linked.next_not_mem (h : Linked t) : t.nextJobId ∉ t.ids := by
  intro hmem
  obtain ⟨n, hn, hid⟩ := mem_map.1 hmem
  exact absurd (h.below n hn) (by omega)

theorem Linked.attach (h : Linked t) (hn : t.find x = some n) (hlive : n.retired = false)
    (limits : ResourceLimits) : Linked (attach x limits t) := by
  have hx : x < t.nextJobId := id_of_find hn ▸ h.below n (mem_of_find hn)
  constructor
  case ids =>
    rw [ids_attach, nodup_append']
    exact ⟨h.ids, nodup_singleton _, disjoint_singleton.2 h.next_not_mem⟩
  case below =>
    intro m hm
    rcases mem_attach.1 hm with ⟨k, hk, rfl⟩ | rfl
    · simp only [addChild_kept]
      exact (h.below k hk).trans (Nat.lt_succ_self _)
    · exact Nat.lt_succ_self _
  case parents =>
    intro m hm p hp
    rcases mem_attach.1 hm with ⟨k, hk, rfl⟩ | rfl
    · simp only [addChild_kept] at hp
      obtain ⟨hlt, hretired, i, hi, rfl, hmem⟩ := h.parents k hk p hp
      simp only [addChild_kept]
      exact ⟨hlt, hretired, _, mem_attach.2 (.inl ⟨i, hi, rfl⟩), (addChild_kept _ _).1,
        mem_addChild_children.2 (.inl hmem)⟩
    · cases hp
      exact ⟨hx, rfl, _, mem_attach.2 (.inl ⟨n, mem_of_find hn, rfl⟩), by simp [id_of_find hn],
        mem_addChild_children.2 (.inr ⟨id_of_find hn, rfl⟩)⟩
  case children =>
    intro m hm c hc
    rcases mem_attach.1 hm with ⟨k, hk, rfl⟩ | rfl
    · simp only [addChild_kept]
      rcases mem_addChild_children.1 hc with hc | ⟨hkx, rfl⟩
      · obtain ⟨i, hi, hic, hparent⟩ := h.children k hk c hc
        exact ⟨_, mem_attach.2 (.inl ⟨i, hi, rfl⟩), by simp [hic], by simp [hparent]⟩
      · exact ⟨_, mem_attach.2 (.inr rfl), rfl, by rw [hkx]⟩
    · exact absurd hc not_mem_nil
  case nodup =>
    intro m hm
    rcases mem_attach.1 hm with ⟨k, hk, rfl⟩ | rfl
    · unfold addChild
      split
      · refine nodup_append'.2 ⟨h.nodup k hk, nodup_singleton _, ?_⟩
        rw [disjoint_singleton]
        intro hmem
        obtain ⟨i, hi, hid, -⟩ := h.children k hk _ hmem
        exact h.next_not_mem (hid ▸ mem_map_of_mem hi)
      · exact h.nodup k hk
    · exact nodup_nil
  case retired =>
    intro m hm hretired
    rcases mem_attach.1 hm with ⟨k, hk, rfl⟩ | rfl
    · simp only [addChild_kept] at hretired
      have hkx : k.id ≠ x := by
        intro hkx
        rw [eq_of_find h.ids hn hk hkx, hlive] at hretired
        simp at hretired
      rw [addChild, if_neg hkx]
      exact h.retired k hk hretired
    · simp at hretired
  case root =>
    intro m hm i hi hm' hi' hmp hip
    rcases mem_attach.1 hm with ⟨k, hk, rfl⟩ | rfl
    · rcases mem_attach.1 hi with ⟨j, hj, rfl⟩ | rfl
      · simp only [addChild_kept] at *
        exact h.root k hk j hj hm' hi' hmp hip
      · simp at hip
    · simp at hmp

theorem find_attach {limits : ResourceLimits} (hj : j ∈ t.ids) :
    (ContainmentTree.attach x limits t).find j = (t.find j).map (addChild x t.nextJobId) := by
  change lookup _ _ (_ ++ _) = _
  rw [Keyed.lookup_append, lookup_map fun _ => (addChild_kept _ _).1]
  cases hfind : lookup JobNode.id j t.jobs with
  | none => exact absurd hj (lookup_eq_none.1 hfind)
  | some => simp [find, hfind]

theorem Contained.attach (h : Contained t) (hn : t.find x = some n) (hlive : n.retired = false)
    (limits : ResourceLimits) : Contained (attach x limits t) := by
  have hlinked := h.accounts.linked
  have hnext := hlinked.next_not_mem
  have hlinked' := hlinked.attach hn hlive limits
  set t' := ContainmentTree.attach x limits t with ht'
  have hown : t'.own = t.own := by
    funext j
    by_cases hj : j ∈ t.ids
    · rw [own, find_attach hj, Option.map_map]
      congr 2
      funext m
      simp
    · rw [own_of_not_mem hj]
      by_cases hjn : j = t.nextJobId
      · have hfind := find_of_mem hlinked'.ids (mem_attach.2 (.inr rfl))
        rw [hjn, own_eq hfind]
        rfl
      · refine own_of_not_mem ?_
        rw [ids_attach, mem_append, mem_singleton]
        exact not_or.2 ⟨hj, hjn⟩
  have htotal : ∀ j, total t'.ids t'.up t'.own j = total t.ids t.up t.own j := by
    intro j
    rw [hown, ids_attach]
    refine total_attach (fun a b _ hab => hlinked.up_mem hab) (fun a ha => ?_)
      (own_of_not_mem hnext) j
    rw [up, find_attach ha, up]
    cases t.find a with
    | none => rfl
    | some => exact (addChild_kept _ _).2.1
  constructor
  case accounts =>
    refine ⟨hlinked', fun m hm => ?_, fun m hm => ?_⟩
    · rw [htotal]
      rcases mem_attach.1 hm with ⟨k, hk, rfl⟩ | rfl
      · simp only [addChild_kept]
        exact h.accounts.balanced k hk
      · refine (total_eq_zero fun y hy hu => ?_).symm
        exact absurd (hlinked.under_mem hy hu) hnext
    · rcases mem_attach.1 hm with ⟨k, hk, rfl⟩ | rfl
      · simp only [addChild_kept]
        exact h.accounts.within k hk
      · exact fun c => Nat.zero_le _
  case unique =>
    refine ⟨fun m hm => ?_, fun m hm i hi p hpm hpi => ?_⟩
    · rcases mem_attach.1 hm with ⟨k, hk, rfl⟩ | rfl
      · simp only [admitted, addChild_kept]
        exact h.unique.each k hk
      · exact nodup_nil
    · rcases mem_attach.1 hm with ⟨k, hk, rfl⟩ | rfl
      · rcases mem_attach.1 hi with ⟨j, hj, rfl⟩ | rfl
        · simp only [admitted, addChild_kept] at hpm hpi
          simp only [addChild_kept]
          exact h.unique.apart k hk j hj p hpm hpi
        · exact absurd hpi not_mem_nil
      · exact absurd hpm not_mem_nil

theorem Contained.createChild (h : Contained t) (x : ℕ) (limits : ResourceLimits) :
    Commits t (createChild x limits) fun _ t' => Contained t' := by
  refine .read_bind noTrap_okOr fun n hn => .check_bind noTrap_rejectIf fun _ hlive =>
    .check_bind noTrap_rejectIf fun _ _ => ?_
  rw [job_ok] at hn
  rw [rejectIf_eq_ok, Bool.not_eq_true] at hlive
  refine (createNode_commits (some x) limits).bind fun c t1 ⟨hc, ht1⟩ =>
    .modify_bind (.of_return ?_)
  have hlinked := (h.attach hn hlive limits).accounts.linked
  have hx : x ≠ t.nextJobId := by
    have hlt := h.accounts.linked.below n (mem_of_find hn)
    rw [id_of_find hn] at hlt
    exact hlt.ne
  have hattach : adjustJob x (fun node => { node with children := node.children ++ [c] }) t1 =
      .attach x limits t := by
    have hids : t1.ids.Nodup := by
      have hnodup := hlinked.ids
      rw [ids_attach] at hnodup
      rw [ht1, ids, map_append]
      exact hnodup
    rw [adjustJob_eq hids, ht1, hc, mapJobs, ContainmentTree.attach]
    simp [hx.symm, addChild]
  rw [hattach]
  exact h.attach hn hlive limits

/-! ### Terminating a subtree -/

/-- Giving back reservations of a job one after the other. -/
theorem Accounts.releaseEach (hx : x ∈ t.ids) : ∀ (us : List ResourceUsage) (t' : ContainmentTree),
    t'.ids = t.ids → Accounts t' (w + Pi.single x us.sum) →
      Returns t' (releaseEach x us) fun _ t'' => ∃ g, t'' = withUsage g t' ∧ Accounts t'' w := by
  intro us
  induction us with
  | nil =>
    intro t' _ h
    rw [sum_nil, Pi.single_zero] at h
    exact .of_return ⟨JobNode.usage, withUsage_usage.symm, h⟩
  | cons u us ih =>
    intro t' hids h
    rw [sum_cons, add_comm u, Pi.single_add, ← add_assoc] at h
    refine (h.discharge (hids ▸ hx)).bind fun _ t1 hdischarged => ?_
    obtain ⟨g, rfl, hdischarged⟩ := hdischarged
    refine (ih _ (ids_withUsage.trans hids) hdischarged).mono fun _ t2 hrest => ?_
    obtain ⟨g', rfl, hrest⟩ := hrest
    exact ⟨_, withUsage_withUsage, hrest⟩

/-- The tree with the reservations of some jobs dropped, and with other usages. -/
def emptied (l : List ℕ) (g : JobNode → ResourceUsage) (t : ContainmentTree) : ContainmentTree :=
  mapJobs (fun n => { n with usage := g n, processes := if n.id ∈ l then [] else n.processes }) t

theorem ids_emptied : (emptied l g t).ids = t.ids := ids_mapJobs fun _ => rfl

theorem up_emptied : (emptied l g t).up = t.up := up_mapJobs (fun _ => rfl) fun _ => rfl

theorem find_emptied (hn : t.find x = some n) : (emptied l g t).find x =
    some { n with usage := g n, processes := if n.id ∈ l then [] else n.processes } := by
  have hfind : (emptied l g t).find x = (t.find x).map _ := find_mapJobs fun _ => rfl
  rw [hfind, hn, Option.map_some]

/-- The accounts are exact after each job of the list has been emptied. -/
theorem releaseJobs_returns : ∀ (k : ℕ) (t : ContainmentTree), Accounts t t.own →
    (∀ x ∈ l, x ∈ t.ids) → Returns t (releaseJobs k l) fun _ t' =>
      ∃ g, t' = emptied l g t ∧ Accounts t' t'.own := by
  induction l with
  | nil =>
    intro k t h _
    refine .of_return ⟨JobNode.usage, ?_, h⟩
    simp [emptied, mapJobs]
  | cons x l ih =>
    intro k t h hl
    rw [forall_mem_cons] at hl
    obtain ⟨n, hn⟩ := find_of_id h.linked.ids hl.1
    refine .read_bind (job_ok.2 hn) (.modify_bind ?_)
    set clear : JobNode → JobNode := ({ · with processes := [] }) with hclear
    have hown : t.own = (adjustJob x clear t).own +
        Pi.single x (n.processes.map ProcessReservation.usage).sum := by
      have hmove := own_adjustJob (f := clear) (fun _ => rfl) hn (a := 0) (b := reserved n)
        (by simp [hclear, reserved])
      simpa [reserved] using hmove
    have haccounts : Accounts (adjustJob x clear t) t.own :=
      h.adjustJob (keepsAccounts_processes _) hn fun _ => rfl
    rw [hown] at haccounts
    have hids : (adjustJob x clear t).ids = t.ids := ids_adjustJob fun _ => rfl
    refine (Accounts.releaseEach hl.1 _ _ hids haccounts).bind fun _ t1 hreleased => ?_
    obtain ⟨g, rfl, hreleased⟩ := hreleased
    rw [← own_withUsage] at hreleased
    refine (ih _ _ hreleased ?_).mono fun _ t2 hrest => ?_
    · rw [ids_withUsage, hids]
      exact hl.2
    · obtain ⟨g', rfl, hrest⟩ := hrest
      rw [adjustJob_eq h.linked.ids] at hrest ⊢
      set cleared : JobNode → JobNode := fun n => if n.id = x then clear n else n with hcleared
      refine ⟨fun n => g' { cleared n with usage := g (cleared n) }, ?_, hrest⟩
      rw [emptied, withUsage, mapJobs_mapJobs, mapJobs_mapJobs]
      congr 1
      funext m
      by_cases hm : m.id = x
      · simp [hcleared, hclear, hm]
      · simp [hcleared, hm]

/-- A job after a subtree with the given root, child of the given parent, has been cut off. -/
def cutNode (l : List ℕ) (p r : ℕ) (n : JobNode) : JobNode :=
  if n.id ∈ l then { n with children := [], parent := none, retired := true }
  else if n.id = p then { n with children := n.children.filter (· ≠ r) } else n

theorem retireJobs_eq : ∀ t : ContainmentTree, t.ids.Nodup → (∀ x ∈ l, x ∈ t.ids) →
    retireJobs l t = .ok () (mapJobs (fun n =>
      if n.id ∈ l then { n with children := [], parent := none, retired := true } else n) t) := by
  induction l with
  | nil =>
    intro t _ _
    simp [mapJobs]
    rfl
  | cons x l ih =>
    intro t hids hl
    rw [forall_mem_cons] at hl
    obtain ⟨n, hn⟩ := find_of_id hids hl.1
    refine bind_ok.2 ⟨n, t, read_ok.2 ⟨job_ok.2 hn, rfl⟩, bind_ok.2 ⟨(), _, modify_ok.2 rfl, ?_⟩⟩
    have hids' : (adjustJob x ({ · with children := [], parent := none, retired := true }) t).ids =
        t.ids := ids_adjustJob fun _ => rfl
    rw [ih _ (hids' ▸ hids) (hids' ▸ hl.2), adjustJob_eq hids, mapJobs_mapJobs]
    congr 2
    funext m
    by_cases hm : m.id = x
    · by_cases hml : m.id ∈ l <;> simp [hm]
    · simp [hm]

@[simp] theorem cutNode_kept : (cutNode l p r n).id = n.id ∧ (cutNode l p r n).usage = n.usage ∧
    (cutNode l p r n).limits = n.limits ∧ (cutNode l p r n).processes = n.processes := by
  unfold cutNode
  split_ifs <;> simp

theorem cutNode_parent : (cutNode l p r n).parent = if n.id ∈ l then none else n.parent := by
  unfold cutNode
  split_ifs <;> rfl

theorem cutNode_retired : (cutNode l p r n).retired = (decide (n.id ∈ l) || n.retired) := by
  unfold cutNode
  split
  · next hn => simp [hn]
  · next hn => split <;> simp [hn]

theorem mem_cutNode_children {c : ℕ} : c ∈ (cutNode l p r n).children ↔
    n.id ∉ l ∧ c ∈ n.children ∧ (n.id = p → c ≠ r) := by
  unfold cutNode
  split
  · next hn => simp [hn]
  · next hn =>
      split
      · next hp =>
          subst hp
          simp [hn]
      · next hp => simp [hn, hp]

/-- The subtree of a job that is not the root is cut off. -/
theorem Linked.cut (h : Linked t) (hr : t.up r = some p) (hl : ∀ y, y ∈ l ↔ y ∈ t.ids ∧ Under t.up r y)
    (hempty : ∀ n ∈ t.jobs, n.id ∈ l → n.processes = []) :
    Linked (ContainmentTree.mapJobs (cutNode l p r) t) := by
  -- a child is in the subtree exactly when it is the root of it or its parent is in it
  have hchild : ∀ n ∈ t.jobs, ∀ m ∈ t.jobs, n.parent = some m.id → (n.id ∈ l ↔ n.id = r ∨ m.id ∈ l) := by
    intro n hn m hm hparent
    have hn' : n.id ∈ t.ids := mem_map_of_mem hn
    have hm' : m.id ∈ t.ids := mem_map_of_mem hm
    rw [hl, hl, under_iff, h.up_eq hn, hparent, eq_comm]
    simp only [Option.some.injEq, exists_eq_left', hn', hm', true_and]
  constructor
  case ids => exact (ids_mapJobs fun _ => cutNode_kept.1).symm ▸ h.ids
  case below =>
    refine forall_mem_map.2 fun n hn => ?_
    rw [cutNode_kept.1]
    exact h.below n hn
  case parents =>
    refine forall_mem_map.2 fun n hn q hq => ?_
    rw [cutNode_parent] at hq
    split at hq
    · simp at hq
    · next hnl =>
        obtain ⟨hlt, hretired, m, hm, rfl, hmem⟩ := h.parents n hn q hq
        rw [hchild n hn m hm hq, not_or] at hnl
        refine ⟨by rwa [cutNode_kept.1], ?_, _, mem_map_of_mem hm, cutNode_kept.1, ?_⟩
        · rw [cutNode_retired, hretired, Bool.or_false, decide_eq_false_iff_not, hchild n hn m hm hq]
          exact not_or.2 hnl
        · rw [cutNode_kept.1]
          exact mem_cutNode_children.2 ⟨hnl.2, hmem, fun _ => hnl.1⟩
  case children =>
    refine forall_mem_map.2 fun n hn c hc => ?_
    obtain ⟨hnl, hc, hcr⟩ := mem_cutNode_children.1 hc
    obtain ⟨m, hm, rfl, hparent⟩ := h.children n hn c hc
    refine ⟨_, mem_map_of_mem hm, cutNode_kept.1, ?_⟩
    rw [cutNode_parent, cutNode_kept.1, if_neg, hparent]
    rw [hchild m hm n hn hparent, not_or]
    refine ⟨fun hmr => hcr ?_ hmr, hnl⟩
    rw [← hmr, h.up_eq hm, hparent] at hr
    exact Option.some.inj hr
  case nodup =>
    refine forall_mem_map.2 fun n hn => ?_
    have hnodup := h.nodup n hn
    unfold cutNode
    split
    · exact nodup_nil
    · split
      · exact hnodup.filter _
      · exact hnodup
  case retired =>
    refine forall_mem_map.2 fun n hn hretired => ?_
    rw [cutNode_retired, Bool.or_eq_true, decide_eq_true_iff] at hretired
    rw [cutNode_parent, cutNode_kept.2.2.2, eq_nil_iff_forall_not_mem]
    rcases hretired with hnl | hretired
    · exact ⟨if_pos hnl, fun c hc => (mem_cutNode_children.1 hc).1 hnl, hempty n hn hnl⟩
    · obtain ⟨hparent, hchildren, hprocesses⟩ := h.retired n hn hretired
      refine ⟨by rw [hparent, ite_self], fun c hc => ?_, hprocesses⟩
      have hcn := (mem_cutNode_children.1 hc).2.1
      rw [hchildren] at hcn
      exact absurd hcn not_mem_nil
  case root =>
    refine forall_mem_map.2 fun n hn => forall_mem_map.2 fun m hm => ?_
    rw [cutNode_retired, cutNode_retired, Bool.or_eq_false_iff, Bool.or_eq_false_iff,
      decide_eq_false_iff_not, decide_eq_false_iff_not, cutNode_parent, cutNode_parent, cutNode_kept.1,
      cutNode_kept.1]
    rintro ⟨hnl, hnlive⟩ ⟨hml, hmlive⟩ hnparent hmparent
    rw [if_neg hnl] at hnparent
    rw [if_neg hml] at hmparent
    exact h.root n hn m hm hnlive hmlive hnparent hmparent

theorem up_cut (hl : ∀ y, y ∈ l ↔ y ∈ t.ids ∧ Under t.up r y) {a : ℕ} (ha : ¬ Under t.up r a) :
    (mapJobs (cutNode l p r) t).up a = t.up a := by
  rw [up, find_mapJobs fun _ => cutNode_kept.1, up]
  cases hfind : t.find a with
  | none => rfl
  | some n =>
    have hnl : n.id ∉ l := fun hnl => ha (id_of_find hfind ▸ ((hl n.id).1 hnl).2)
    rw [Option.map_some, Option.bind_some, Option.bind_some, cutNode_parent, if_neg hnl]

/-- Cutting off a subtree without reservations leaves all accounts as they are. -/
theorem Accounts.cut (h : Accounts t t.own) (hr : t.up r = some p)
    (hl : ∀ y, y ∈ l ↔ y ∈ t.ids ∧ Under t.up r y) (hempty : ∀ n ∈ t.jobs, n.id ∈ l → n.processes = []) :
    Accounts (ContainmentTree.mapJobs (cutNode l p r) t) (ContainmentTree.mapJobs (cutNode l p r) t).own := by
  have hown : (ContainmentTree.mapJobs (cutNode l p r) t).own = t.own :=
    own_mapJobs (fun _ => cutNode_kept.1) fun _ => cutNode_kept.2.2.2
  have hzero : ∀ a, Under t.up r a → t.own a = 0 := by
    intro a ha
    by_cases hids : a ∈ t.ids
    · obtain ⟨n, hn⟩ := find_of_id h.linked.ids hids
      have hnl : n.id ∈ l := (hl n.id).2 (by rw [id_of_find hn]; exact ⟨hids, ha⟩)
      rw [own_eq hn, reserved, hempty n (mem_of_find hn) hnl]
      rfl
    · exact own_of_not_mem hids
  refine ⟨h.linked.cut hr hl hempty, fun n hn => ?_, fun n hn => ?_⟩
  · obtain ⟨m, hm, rfl⟩ := mem_map.1 hn
    rw [cutNode_kept.2.1, cutNode_kept.1, hown, ids_mapJobs fun _ => cutNode_kept.1,
      total_cut (fun a ha => up_cut hl ha) hzero]
    exact h.balanced m hm
  · obtain ⟨m, hm, rfl⟩ := mem_map.1 hn
    rw [cutNode_kept.2.1, cutNode_kept.2.2.1]
    exact h.within m hm

theorem adjust_retire_eq (hids : t.ids.Nodup) : mapJobs (fun n =>
        if n.id ∈ l then { n with children := [], parent := none, retired := true } else n)
      (adjustJob p (fun n => { n with children := n.children.filter (· ≠ r) }) t) =
    mapJobs (cutNode l p r) t := by
  rw [adjustJob_eq hids, mapJobs_mapJobs]
  congr 1
  funext n
  rw [Function.comp_apply, cutNode]
  by_cases hp : n.id = p
  · rw [if_pos hp]
  · rw [if_neg hp]

/-- The state in which terminating a subtree ends. -/
theorem Contained.terminate_commits (h : Contained t) (r : ℕ) :
    Commits t (terminateSubtree r) fun _ t' => ∃ (p : ℕ) (l : List ℕ) (g : JobNode → ResourceUsage),
      t.up r = some p ∧ (∀ y, y ∈ l ↔ y ∈ t.ids ∧ Under t.up r y) ∧
      Accounts (emptied l g t) (emptied l g t).own ∧ t' = mapJobs (cutNode l p r) (emptied l g t) := by
  refine .read_bind noTrap_okOr fun n hn => .check_bind noTrap_rejectIf fun _ hroot =>
    .check_bind noTrap_rejectIf fun _ _ => ?_
  rw [job_ok] at hn
  rw [rejectIf_eq_ok] at hroot
  obtain ⟨p, hp⟩ := Option.ne_none_iff_exists'.1 hroot
  have hup : t.up r = some p := by rw [up, hn, Option.bind_some, hp]
  obtain ⟨l, hcollect, -, hl⟩ := h.accounts.linked.collect (id_mem_of_find hn)
  have hids : ∀ y ∈ l, y ∈ t.ids := fun y hy => ((hl y).1 hy).1
  refine .inl (.read_bind hcollect ?_)
  refine (releaseJobs_returns 0 t h.accounts fun y hy => hids y (mem_reverse.1 hy)).bind
    fun released t1 hreleased => ?_
  obtain ⟨g, rfl, haccounts⟩ := hreleased
  have hreverse : emptied l.reverse g t = emptied l g t := by simp only [emptied, mem_reverse]
  rw [hreverse] at haccounts ⊢
  -- the walks that follow cannot fail: the job and its parent are still there
  obtain ⟨m, hm⟩ : ∃ m, (emptied l g t).find p = some m :=
    find_of_id haccounts.linked.ids (ids_emptied (t := t) ▸ h.accounts.linked.up_mem hup)
  refine .read_bind (job_ok.2 (find_emptied hn)) (.check_bind (okOr_eq_ok.2 hp)
    (.read_bind (job_ok.2 hm) (.modify_bind ?_)))
  have hids2 : (adjustJob p (fun n => { n with children := n.children.filter (· ≠ r) })
      (emptied l g t)).ids = (emptied l g t).ids := ids_adjustJob fun _ => rfl
  rw [ids_emptied] at hids2
  have hretire := retireJobs_eq _ (hids2 ▸ h.accounts.linked.ids) (hids2 ▸ hids)
  rw [adjust_retire_eq haccounts.linked.ids] at hretire
  exact ⟨released, _, bind_ok.2 ⟨(), _, hretire, return_ok.2 ⟨rfl, rfl⟩⟩, p, l, g, hup, hl, haccounts, rfl⟩

/-- What terminating the subtree of a job does to a job of the tree. -/
structure Terminated (t : ContainmentTree) (r : ℕ) (n n' : JobNode) : Prop where
  limits : n'.limits = n.limits
  inside : Under t.up r n.id → n'.processes = [] ∧ n'.retired = true
  outside : ¬ Under t.up r n.id → n'.processes = n.processes ∧ n'.retired = n.retired
  above : ¬ Under t.up r n.id → Under t.up n.id r → n.usage = n'.usage + t.subtreeUsage r
  beside : ¬ Under t.up r n.id → ¬ Under t.up n.id r → n'.usage = n.usage

open Classical in
/-- The reservations are those that are kept and those of the subtree. -/
theorem own_emptied (hl : ∀ y, y ∈ l ↔ y ∈ t.ids ∧ Under t.up r y) :
    t.own = (emptied l g t).own + fun y => if Under t.up r y then t.own y else 0 := by
  funext y
  rw [Pi.add_apply]
  cases hfind : t.find y with
  | none =>
    have hy : y ∉ t.ids := Keyed.lookup_eq_none.1 hfind
    rw [own_of_not_mem hy, own_of_not_mem (ids_emptied (t := t) ▸ hy), ite_self, add_zero]
  | some n =>
    have hmem : n.id ∈ l ↔ Under t.up r y := by
      rw [hl, id_of_find hfind]
      exact and_iff_right (id_mem_of_find hfind)
    rw [own_eq (find_emptied hfind), own_eq hfind]
    by_cases hy : Under t.up r y
    · simp [reserved, hmem, hy]
    · simp [reserved, hmem, hy]

theorem Contained.terminateSubtree (h : Contained t) (r : ℕ) :
    Commits t (terminateSubtree r) fun _ t' => Contained t' ∧ t'.ids = t.ids ∧
      ∀ x n, t.find x = some n → ∃ n', t'.find x = some n' ∧ Terminated t r n n' := by
  refine (h.terminate_commits r).mono fun _ t' ⟨p, l, g, hup, hl, haccounts, ht'⟩ => ?_
  have hl' : ∀ y, y ∈ l ↔ y ∈ (emptied l g t).ids ∧ Under (emptied l g t).up r y := by
    rw [ids_emptied, up_emptied]
    exact hl
  have hempty : ∀ n ∈ (emptied l g t).jobs, n.id ∈ l → n.processes = [] := by
    intro n hn hnl
    obtain ⟨m, hm, rfl⟩ := mem_map.1 hn
    exact if_pos hnl
  subst ht'
  refine ⟨⟨haccounts.cut (by rw [up_emptied, hup]) hl' hempty, ?_⟩, ?_, fun x n hn => ?_⟩
  · rw [emptied, mapJobs_mapJobs]
    refine h.unique.mapJobs (x := 0) (fun _ => cutNode_kept.1) (fun m hm => ?_) fun m hm q hq => ?_
    · rw [Function.comp_apply, admitted, cutNode_kept.2.2.2]
      split
      · exact nodup_nil
      · exact h.unique.each m hm
    · rw [Function.comp_apply, admitted, cutNode_kept.2.2.2] at hq
      split at hq
      · exact absurd hq not_mem_nil
      · exact .inl hq
  · rw [ids_mapJobs fun _ => cutNode_kept.1, ids_emptied]
  · have hmem : n.id ∈ l ↔ Under t.up r n.id := by
      rw [hl]
      exact and_iff_right (mem_map_of_mem (mem_of_find hn))
    have hn1 := find_emptied (l := l) (g := g) hn
    have husage : g n = total t.ids t.up (emptied l g t).own n.id := by
      have hbalanced := haccounts.balanced _ (mem_of_find hn1)
      rwa [ids_emptied, up_emptied] at hbalanced
    have hsplit := h.accounts.balanced n (mem_of_find hn)
    rw [own_emptied hl, total_add, ← husage] at hsplit
    refine ⟨_, by rw [find_mapJobs fun _ => cutNode_kept.1, hn1, Option.map_some], ?_⟩
    constructor
    case limits => exact cutNode_kept.2.2.1
    case inside =>
      intro hin
      rw [cutNode_retired]
      simp [hmem.2 hin]
    case outside =>
      intro hout
      rw [cutNode_retired]
      simp [hmem, hout]
    case above =>
      intro _ habove
      rw [cutNode_kept.2.1, hsplit, total_within habove, subtreeUsage]
    case beside =>
      intro hout habove
      rw [cutNode_kept.2.1, hsplit, total_within_apart habove hout, add_zero]

/-! ### The tree of jobs -/

/-- The jobs that are not retired form a tree, and the links of a job in both directions agree. -/
structure IsTree (t : ContainmentTree) : Prop where
  ids : t.ids.Nodup
  agree : ∀ n ∈ t.jobs, ∀ m ∈ t.jobs, n.id ∈ m.children ↔ n.parent = some m.id
  closed : ∀ n ∈ t.jobs, (∀ c ∈ n.children, c ∈ t.ids) ∧ ∀ p, n.parent = some p → p ∈ t.ids
  nodup : ∀ n ∈ t.jobs, n.children.Nodup
  acyclic : ∀ x p, t.up x = some p → ¬ Under t.up x p
  rooted : ∀ n ∈ t.jobs, n.retired = false → ∃ r ∈ t.jobs, r.retired = false ∧ r.parent = none ∧
    ∀ m ∈ t.jobs, m.retired = false → Under t.up r.id m.id
  retired : ∀ n ∈ t.jobs, n.retired = true → n.parent = none ∧ n.children = []

/-- The chain of parents of a job that is not retired ends at a root that is not retired. -/
theorem Linked.exists_root (h : Linked t) : ∀ x n, t.find x = some n → n.retired = false →
    ∃ r ∈ t.jobs, r.retired = false ∧ r.parent = none ∧ Under t.up r.id x := by
  intro x
  induction x using Nat.strong_induction_on with
  | _ x ih =>
    intro n hn hlive
    cases hparent : n.parent with
    | none =>
      exact ⟨n, mem_of_find hn, hlive, hparent, id_of_find hn ▸ .refl _⟩
    | some p =>
      obtain ⟨hlt, -, m, hm, rfl, hmem⟩ := h.parents n (mem_of_find hn) p hparent
      rw [id_of_find hn] at hlt
      have hmlive : m.retired = false := by
        rw [← Bool.not_eq_true]
        intro hretired
        rw [(h.retired m hm hretired).2.1] at hmem
        exact absurd hmem not_mem_nil
      obtain ⟨r, hr, hrlive, hrparent, hunder⟩ := ih m.id hlt m (find_of_mem h.ids hm) hmlive
      have hup : t.up x = some m.id := by rw [up, hn, Option.bind_some, hparent]
      exact ⟨r, hr, hrlive, hrparent, .of_up hup hunder⟩

theorem Linked.isTree (h : Linked t) : IsTree t where
  ids := h.ids
  agree := by
    intro n hn m hm
    rw [← h.up_eq hn]
    exact ⟨h.up_child (find_of_mem h.ids hm), h.mem_children (find_of_mem h.ids hm)⟩
  closed := by
    intro n hn
    constructor
    · intro c hc
      obtain ⟨m, hm, rfl, -⟩ := h.children n hn c hc
      exact mem_map_of_mem hm
    · intro p hp
      exact h.up_mem ((h.up_eq hn).trans hp)
  nodup := h.nodup
  acyclic := fun x p hp => not_under_of_up (fun _ _ => h.up_lt) hp
  rooted := by
    intro n hn hlive
    obtain ⟨r, hr, hrlive, hrparent, -⟩ := h.exists_root n.id n (find_of_mem h.ids hn) hlive
    refine ⟨r, hr, hrlive, hrparent, fun m hm hmlive => ?_⟩
    obtain ⟨r', hr', hrlive', hrparent', hunder⟩ := h.exists_root m.id m (find_of_mem h.ids hm) hmlive
    rw [h.root r hr r' hr' hrlive hrlive' hrparent hrparent']
    exact hunder
  retired := fun n hn hretired =>
    ⟨(h.retired n hn hretired).1, (h.retired n hn hretired).2.1⟩

end ContainmentTree

/-! ### Every run -/

open ContainmentTree

/-- Every operation keeps the invariant, or returns an error and changes nothing. -/
theorem commits {t : ContainmentTree} (h : Contained t) (op : Operation) :
    Commits t op.run fun _ t' => Contained t' := by
  cases op with
  | createRoot limits => exact (createRoot_commits limits).map
  | createChild parent limits => exact (h.createChild parent limits).map
  | setLimits id limits => exact h.setLimits id limits
  | admitProcess id process usage => exact h.admitProcess id process usage
  | setProcessUsage id process replacement => exact h.setProcessUsage id process replacement
  | releaseProcess id process => exact (h.releaseProcess id process).map
  | terminateSubtree id => exact ((h.terminateSubtree id).mono fun _ _ h => h.1).map

/-- The trees that some sequence of operations, failing ones included, leads to. -/
def Reached : ContainmentTree → Prop :=
  Reachable (· = ContainmentTree.new) (fun _ _ => True) fun t (op : Operation) => endState op.run t

theorem contained_of_reached {t : ContainmentTree} (h : Reached t) : Contained t := by
  refine Reachable.keeps ?_ (fun s op hs _ => ?_) h
  · rintro s rfl
    exact contained_new
  · rcases commits hs op with ⟨a, s', hrun, hs'⟩ | ⟨e, he⟩
    · rw [endState_of_ok hrun]
      exact hs'
    · rw [endState_of_error he]
      exact hs

/-- In every reachable tree the usage of each job is the sum of the reservations of the processes in
its subtree and within its limits, every process is admitted once, the jobs that are not retired form
a tree, terminating a subtree gives back exactly its reservations, and an operation that fails returns
an error and changes nothing. -/
theorem accounting_exact {t : ContainmentTree} (h : Reached t) :
    (∀ n ∈ t.jobs, n.usage = t.subtreeUsage n.id ∧ n.usage ≤ n.limits) ∧
    (∀ n ∈ t.jobs, (admitted n).Nodup ∧ ∀ m ∈ t.jobs, ∀ p ∈ admitted n, p ∈ admitted m → n.id = m.id) ∧
    IsTree t ∧ (∀ r released t', terminateSubtree r t = .ok released t' → t'.ids = t.ids ∧
      ∀ x n, t.find x = some n → ∃ n', t'.find x = some n' ∧ Terminated t r n n') ∧
    ∀ (op : Operation) e t', op.run t = .error e t' → t' = t ∧ e ≠ .trap := by
  have hcontained := contained_of_reached h
  have haccounts := hcontained.accounts
  refine ⟨fun n hn => ⟨haccounts.balanced n hn, haccounts.within n hn⟩, fun n hn => ?_,
    haccounts.linked.isTree, fun r released t' hrun => ?_, fun op e t' hrun => ?_⟩
  · exact ⟨hcontained.unique.each n hn, hcontained.unique.apart n hn⟩
  · exact ((hcontained.terminateSubtree r).of_ok hrun).2
  · exact (commits hcontained op).of_error hrun

/-- A process with one megabyte in a child of the root. -/
theorem accounting_exact_child : ∃ t, Reached t ∧ ∃ n ∈ t.jobs, n.parent = none ∧
    t.subtreeUsage n.id .memoryBytes = 2 ^ 20 := by
  have hreached : Reached (endState (Operation.run (.admitProcess 2 7 fun c =>
      match c with
      | .memoryBytes => 2 ^ 20
      | _ => 1)) (endState (Operation.run (.createChild 1 fun _ => 2 ^ 30))
        (endState (Operation.run (.createRoot fun _ => 2 ^ 40)) ContainmentTree.new))) :=
    .step (.step (.step (.start rfl) trivial) trivial) trivial
  have hroot := ((accounting_exact hreached).1 _ mem_cons_self).1
  exact ⟨_, hreached, _, mem_cons_self, rfl, (congrFun hroot .memoryBytes).symm⟩

end Containment
