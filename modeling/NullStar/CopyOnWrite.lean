/-
**Protection and isolation of address spaces.**

Three promises of the table of address spaces, and what they rest on.

No page is writable and executable at once, and a write fault gives write access back only to a page
that was asked to be writable.  The table forgets what was asked: a copy-on-write mapping is made
writable by a fault whatever its protection has become since.  So this holds in the runs in which no
copy-on-write mapping is protected again.

Stores in one address space are not seen in another.  A clone shares the frames of read-only mappings
without a mark, and protecting such a mapping as writable does not copy the frame.  So this holds
exactly in the runs in which a mapping becomes writable by a call only when no other address space maps
its frame.

The counts of the frames are exact in the runs in which every frame that a call maps was allocated before:
a frame that is mapped without being allocated is allocated later all the same.

* `WellFormed.change` — every operation is one of the changes;
* `protections_follow_requests` — protections, in runs without a second protection;
* `isolated_iff_exclusive` — isolation, and when it holds;
* `countsExact_of_reachable` — exact counts, in runs that map only allocated frames.
-/

import NullStar.AddressSpace

set_option autoImplicit false

namespace Memory

open Rust Machine Keyed List Hoare

/-! ### The protection that was asked for -/

/-- For each page, the permissions of the last call that mapped or protected it. -/
abbrev Requests := AddressSpaceId → VirtualPage → Option PagePermissions

def Requests.record (q : Requests) (id : AddressSpaceId) (page : VirtualPage)
    (permissions : PagePermissions) : Requests := fun i p =>
  if i = id ∧ p = page then some permissions else q i p

/-- A cloned address space starts with what was asked for in its parent. -/
def Requests.inherit (q : Requests) (parent child : AddressSpaceId) : Requests := fun i p =>
  if i = child then q parent p else q i p

namespace AddressSpaceTable

variable {t : AddressSpaceTable} {op : Operation}

/-- What has been asked for after a call; a call that fails asks for nothing. -/
def note (t : AddressSpaceTable) (op : Operation) (q : Requests) : Requests :=
  match op with
  | .map id page frame permissions =>
    match map id page frame permissions t with
    | .ok _ _ => q.record id page permissions
    | .error _ _ => q
  | .mapNew id page permissions =>
    match mapNew id page permissions t with
    | .ok _ _ => q.record id page permissions
    | .error _ _ => q
  | .protect id page permissions =>
    match protect id page permissions t with
    | .ok _ _ => q.record id page permissions
    | .error _ _ => q
  | .cloneCow parent childOwner =>
    match cloneCow parent childOwner t with
    | .ok child _ => q.inherit parent child
    | .error _ _ => q
  | _ => q

/-- What an operation does to the mappings of the table and to what has been asked for. -/
inductive Change (t : AddressSpaceTable) (op : Operation) : Prop where
  | shrunk (hmaps : ∀ i n, (t.apply op).Maps i n → t.Maps i n) (hnote : ∀ q, t.note op q = q)
  | mapped {id : AddressSpaceId} {page : VirtualPage} {frame : PhysicalFrame}
      {permissions : PagePermissions}
      (hop : op = .map id page frame permissions ∧ (∃ m t', map id page frame permissions t = .ok m t') ∨
        op = .mapNew id page permissions ∧
          ∃ t', mapNew id page permissions t = .ok ⟨page, frame, permissions, false⟩ t')
      (hvalid : ¬ permissions.WritableExecutable) (hfree : ∀ n, t.Maps id n → n.page ≠ page)
      (hmaps : ∀ i n, (t.apply op).Maps i n ↔ t.Maps i n ∨ i = id ∧ n = ⟨page, frame, permissions, false⟩)
      (hnote : ∀ q, t.note op q = q.record id page permissions)
  | restricted {id : AddressSpaceId} {page : VirtualPage} {permissions : PagePermissions}
      {m : Mapping} (hop : op = .protect id page permissions)
      (hrun : ∃ t', protect id page permissions t = .ok { m with permissions } t')
      (hm : t.Maps id m) (hpage : m.page = page) (hvalid : ¬ permissions.WritableExecutable)
      (hcow : ¬ (m.copyOnWrite = true ∧ permissions.writableFlag = true))
      (hmaps : ∀ i n, (t.apply op).Maps i n ↔
        i = id ∧ n = { m with permissions } ∨ ¬ (i = id ∧ n.page = page) ∧ t.Maps i n)
      (hnote : ∀ q, t.note op q = q.record id page permissions)
  | cloned {parent child : AddressSpaceId} {childOwner : ℕ}
      (hop : op = .cloneCow parent childOwner) (hne : child ≠ parent) (hempty : ∀ n, ¬ t.Maps child n)
      (hmaps : ∀ i n, (t.apply op).Maps i n ↔
        (i = child ∨ i = parent) ∧ (∃ m, t.Maps parent m ∧ n = m.share) ∨ i ≠ child ∧ i ≠ parent ∧ t.Maps i n)
      (hnote : ∀ q, t.note op q = q.inherit parent child)
  | resolved {id : AddressSpaceId} {page : VirtualPage} {frame : PhysicalFrame} {m : Mapping}
      (hop : op = .resolveCowFault id page frame)
      (hrun : ∃ r t', resolveCowFault id page frame t = .ok r t') (hm : t.Maps id m) (hpage : m.page = page)
      (hcow : m.copyOnWrite = true) (hmaps : ∀ i n, (t.apply op).Maps i n ↔
        i = id ∧ n = m.resolve frame ∨ ¬ (i = id ∧ n.page = page) ∧ t.Maps i n)
      (hnote : ∀ q, t.note op q = q)

/-- A table that stays as it is, when nothing is noted. -/
theorem WellFormed.unchanged (h : WellFormed t) (happly : t.apply op = t)
    (hnote : ∀ q, t.note op q = q) : WellFormed (t.apply op) ∧ Change t op ∧
      (Balanced t → NextUnrecorded t → Balanced (t.apply op)) := by
  rw [happly]
  refine ⟨h, .shrunk (fun i n hn => ?_) hnote, fun hb _ => hb⟩
  rwa [happly] at hn

/-- A change that keeps the balance, whichever number is next. -/
theorem Kept.changed (h : Kept t (t.apply op)) (hchange : Change t op) : WellFormed (t.apply op) ∧
    Change t op ∧ (Balanced t → NextUnrecorded t → Balanced (t.apply op)) :=
  ⟨h.wellFormed, hchange, fun hb _ => h.balanced hb⟩

/-- Every operation keeps the invariant, is one of the changes, and keeps the balance while the next
number is free. -/
theorem WellFormed.change (h : WellFormed t) (op : Operation) : WellFormed (t.apply op) ∧ Change t op ∧
      (Balanced t → NextUnrecorded t → Balanced (t.apply op)) := by
  cases op with
  | create owner =>
    rcases (atomic_create owner).endState with hsame | ⟨id, hok⟩
    · exact h.unchanged hsame fun _ => rfl
    · obtain ⟨hkept, -, -, hmaps⟩ := h.create hok
      exact hkept.changed (.shrunk (fun i n => (hmaps i n).1) fun _ => rfl)
  | destroy id =>
    rcases (atomic_destroy id).endState with hsame | ⟨r, hok⟩
    · exact h.unchanged hsame fun _ => rfl
    · obtain ⟨hkept, hmaps⟩ := h.destroy hok
      exact hkept.changed (.shrunk (fun i n hn => ((hmaps i n).1 hn).2) fun _ => rfl)
  | allocateFrame =>
    rcases atomic_allocateFrame.endState with hsame | ⟨f, hok⟩
    · exact h.unchanged hsame fun _ => rfl
    · obtain ⟨h', hspaces⟩ := h.allocateFrame hok
      exact ⟨h', .shrunk (fun i n => (maps_congr hspaces).1) fun _ => rfl,
        fun hb hnext => (hb.allocateFrame hnext hok).1⟩
  | releaseFrame frame =>
    rcases (atomic_releaseFrame frame).endState with hsame | ⟨u, hok⟩
    · exact h.unchanged hsame fun _ => rfl
    · obtain ⟨hkept, hspaces⟩ := h.releaseFrame hok
      exact hkept.changed (.shrunk (fun i n => (maps_congr hspaces).1) fun _ => rfl)
  | unmap id page =>
    rcases (atomic_unmap id page).endState with hsame | ⟨m, hok⟩
    · exact h.unchanged hsame fun _ => rfl
    · obtain ⟨hkept, hmaps⟩ := h.unmap hok
      exact hkept.changed (.shrunk hmaps fun _ => rfl)
  | map id page frame permissions =>
    cases hrun : AddressSpaceTable.map id page frame permissions t with
    | ok m t' =>
      obtain rfl : t.apply (.map id page frame permissions) = t' := endState_of_ok hrun
      obtain ⟨hkept, rfl, hvalid, hfree, hmaps⟩ := h.map hrun
      exact hkept.changed (.mapped (.inl ⟨rfl, _, _, hrun⟩) hvalid hfree hmaps
        fun q => by simp only [note, hrun])
    | error =>
      have hend : t.apply (.map id page frame permissions) = t :=
        (endState_of_error hrun).trans (atomic_map _ _ _ _ _ _ _ hrun)
      exact h.unchanged hend fun q => by simp only [note, hrun]
  | mapNew id page permissions =>
    cases hrun : AddressSpaceTable.mapNew id page permissions t with
    | ok m t' =>
      obtain rfl : t.apply (.mapNew id page permissions) = t' := endState_of_ok hrun
      obtain ⟨frame, t1, hallocate, -, hspaces, h1, hmap⟩ := h.mapNew_ok hrun
      obtain ⟨⟨h', hbalanced⟩, rfl, hvalid, hfree, hmaps⟩ := h1.map hmap
      simp only [maps_congr hspaces] at hfree hmaps
      exact ⟨h', .mapped (.inr ⟨rfl, _, hrun⟩) hvalid hfree hmaps fun q => by simp only [note, hrun],
        fun hb hnext => hbalanced (hb.allocateFrame hnext hallocate).1⟩
    | error e t' =>
      obtain rfl : t.apply (.mapNew id page permissions) = t' := endState_of_error hrun
      obtain ⟨h', hspaces, hbalanced⟩ := h.mapNew_error hrun
      exact ⟨h', .shrunk (fun i n => (maps_congr hspaces).1) fun q => by simp only [note, hrun], hbalanced⟩
  | protect id page permissions =>
    cases hrun : AddressSpaceTable.protect id page permissions t with
    | ok m' t' =>
      obtain rfl : t.apply (.protect id page permissions) = t' := endState_of_ok hrun
      obtain ⟨hkept, m, hm, hpage, rfl, hvalid, hcow, hmaps⟩ := h.protect hrun
      exact hkept.changed (.restricted rfl ⟨_, hrun⟩ hm hpage hvalid hcow hmaps
        fun q => by simp only [note, hrun])
    | error =>
      have hend : t.apply (.protect id page permissions) = t :=
        (endState_of_error hrun).trans (atomic_protect _ _ _ _ _ _ hrun)
      exact h.unchanged hend fun q => by simp only [note, hrun]
  | cloneCow parent childOwner =>
    cases hrun : AddressSpaceTable.cloneCow parent childOwner t with
    | ok child t' =>
      obtain rfl : t.apply (.cloneCow parent childOwner) = t' := endState_of_ok hrun
      obtain ⟨hkept, hne, hempty, hmaps⟩ := h.cloneCow hrun
      exact hkept.changed (.cloned rfl hne hempty hmaps fun q => by simp only [note, hrun])
    | error =>
      have hend : t.apply (.cloneCow parent childOwner) = t :=
        (endState_of_error hrun).trans (h.cloneCow_error hrun)
      exact h.unchanged hend fun q => by simp only [note, hrun]
  | resolveCowFault id page frame =>
    rcases (atomic_resolveCowFault id page frame).endState with hsame | ⟨r, hok⟩
    · exact h.unchanged hsame fun _ => rfl
    · obtain ⟨hkept, m, hm, hpage, hcow, hmaps⟩ := h.resolveCowFault hok
      exact hkept.changed (.resolved rfl ⟨r, _, hok⟩ hm hpage hcow hmaps fun _ => rfl)

/-! ### Protections -/

/-- What the mappings have to do with what was asked for: a copy-on-write mapping is one that was
asked to be writable and has lost that permission; every other one is as it was asked for. -/
def Follows (t : AddressSpaceTable) (q : Requests) : Prop :=
  ∀ i n, t.Maps i n → ∃ p, q i n.page = some p ∧ ¬ p.WritableExecutable ∧
    if n.copyOnWrite then p.writableFlag = true ∧ n.permissions = p.withWritable false
    else n.permissions = p

/-- The call does not protect a copy-on-write mapping. -/
def ProtectsNoCow (t : AddressSpaceTable) : Operation → Prop
  | .protect id page permissions =>
    ∀ m t', protect id page permissions t = .ok m t' → m.copyOnWrite = false
  | _ => True

theorem Follows.not_writableExecutable {q : Requests} (h : Follows t q) {i : AddressSpaceId}
    {n : Mapping} (hn : t.Maps i n) : ¬ n.permissions.WritableExecutable ∧
      (n.copyOnWrite = true → n.permissions.writableFlag = false) := by
  obtain ⟨p, -, hvalid, hn⟩ := h i n hn
  split at hn
  · rw [hn.2]
    exact ⟨fun hwx => absurd hwx.1 (by simp [PagePermissions.withWritable]), fun _ => rfl⟩
  · next hcow =>
      rw [hn]
      exact ⟨hvalid, fun h => absurd h hcow⟩

/-- Marking a mapping as copy-on-write keeps what was asked for. -/
theorem Follows.share {q : Requests} (h : Follows t q) {i : AddressSpaceId} {m : Mapping}
    (hm : t.Maps i m) : ∃ p, q i m.page = some p ∧ ¬ p.WritableExecutable ∧
      if m.share.copyOnWrite then p.writableFlag = true ∧ m.share.permissions = p.withWritable false
      else m.share.permissions = p := by
  obtain ⟨p, hp, hvalid, hm'⟩ := h i m hm
  refine ⟨p, hp, hvalid, ?_⟩
  unfold Mapping.share
  split
  · next hw =>
      -- a writable mapping is not copy-on-write, so it has what was asked for
      split at hm'
      · rw [hm'.2] at hw
        exact absurd hw (by simp [PagePermissions.withWritable])
      · rw [hm'] at hw
        simp [hm', hw]
  · exact hm'

/-- One step keeps the mappings and the requests together. -/
theorem Follows.step {q : Requests} (hq : Follows t q) (hcow : ProtectsNoCow t op)
    (h : Change t op) : Follows (t.apply op) (t.note op q) := by
  intro i n hn
  cases h with
  | shrunk hmaps hnote =>
    rw [hnote]
    exact hq i n (hmaps i n hn)
  | @mapped id page frame permissions _ hvalid hfree hmaps hnote =>
    rw [hnote]
    rcases (hmaps i n).1 hn with hn | ⟨rfl, rfl⟩
    · have hkeep : ¬ (i = id ∧ n.page = page) := by
        rintro ⟨rfl, hpage⟩
        exact hfree n hn hpage
      simpa [Requests.record, hkeep] using hq i n hn
    · exact ⟨permissions, by simp [Requests.record], hvalid, by simp⟩
  | @restricted id page permissions m hop hrun hm hpage hvalid _ hmaps hnote =>
    rw [hnote]
    rcases (hmaps i n).1 hn with ⟨rfl, rfl⟩ | ⟨hkeep, hn⟩
    · have hplain : m.copyOnWrite = false := by
        obtain ⟨t', hrun⟩ := hrun
        rw [hop] at hcow
        exact hcow { m with permissions } t' hrun
      exact ⟨permissions, by simp [Requests.record, hpage], hvalid, by simp [hplain]⟩
    · simpa [Requests.record, hkeep] using hq i n hn
  | @cloned parent child _ _ hne _ hmaps hnote =>
    rw [hnote]
    rcases (hmaps i n).1 hn with ⟨hi, m, hm, rfl⟩ | ⟨hchild, -, hn⟩
    · have hinherit : q.inherit parent child i m.share.page = q parent m.page := by
        rcases hi with rfl | rfl
        · simp [Requests.inherit]
        · simp [Requests.inherit]
      rw [hinherit]
      exact hq.share hm
    · simpa [Requests.inherit, hchild] using hq i n hn
  | @resolved id page frame m _ _ hm hpage hmcow hmaps hnote =>
    rw [hnote]
    rcases (hmaps i n).1 hn with ⟨rfl, rfl⟩ | ⟨-, hn⟩
    · -- write access comes back to what was asked for
      obtain ⟨p, hp, hvalid, hmp⟩ := hq i m hm
      rw [if_pos hmcow] at hmp
      refine ⟨p, hp, hvalid, ?_⟩
      simp [Mapping.resolve, hmp.2, PagePermissions.withWritable, ← hmp.1]
    · exact hq i n hn

end AddressSpaceTable

/-- A table together with what has been asked for. -/
structure Traced where
  table : AddressSpaceTable
  requests : Requests

namespace Traced

open AddressSpaceTable

def new : Traced := ⟨.new, fun _ _ => none⟩

def step (s : Traced) (op : Operation) : Traced :=
  ⟨s.table.apply op, s.table.note op s.requests⟩

/-- The states of the runs in which no copy-on-write mapping is protected again. -/
def Reachable : Traced → Prop :=
  Machine.Reachable (· = new) (fun s op => ProtectsNoCow s.table op) step

theorem reachable_new : new.Reachable := .start rfl

theorem Reachable.next {s : Traced} (h : s.Reachable) (op : Operation)
    (hop : ProtectsNoCow s.table op) : (s.step op).Reachable := .step h hop

theorem follows_of_reachable {s : Traced} (h : Reachable s) :
    WellFormed s.table ∧ Follows s.table s.requests := by
  refine Machine.Reachable.keeps
    (I := fun s => WellFormed s.table ∧ Follows s.table s.requests) ?_ ?_ h
  · rintro _ rfl
    refine ⟨wellFormed_new, ?_⟩
    rintro i n ⟨a, ha, -⟩
    exact absurd ha (by simp [new, AddressSpaceTable.new])
  · rintro s op ⟨hwf, hq⟩ hcow
    obtain ⟨hwf', hchange, -⟩ := hwf.change op
    exact ⟨hwf', hq.step hcow hchange⟩

end Traced

open AddressSpaceTable

/-- In every run in which no copy-on-write mapping is protected again, no mapping is both writable and
executable, no copy-on-write mapping is writable, and a write fault is resolved only for a page that
was last asked to be writable. -/
theorem protections_follow_requests (s : Traced) (h : s.Reachable) :
    (∀ a ∈ s.table.spaces, ∀ m ∈ a.mappings, ¬ m.permissions.WritableExecutable ∧
      (m.copyOnWrite = true → m.permissions.writableFlag = false)) ∧
    ∀ id page frame r t', resolveCowFault id page frame s.table = .ok r t' →
      ∃ p, s.requests id page = some p ∧ p.writableFlag = true := by
  obtain ⟨hwf, hfollows⟩ := Traced.follows_of_reachable h
  refine ⟨?_, ?_⟩
  · intro a ha m hm
    exact hfollows.not_writableExecutable ⟨a, ha, rfl, hm⟩
  · intro id page frame r t' hok
    obtain ⟨-, m, hm, rfl, hcow, -⟩ := hwf.resolveCowFault hok
    obtain ⟨p, hp, -, hmp⟩ := hfollows id m hm
    rw [if_pos hcow] at hmp
    exact ⟨p, hp, hmp.1⟩

def firstSpace : AddressSpaceId := ⟨1, by decide⟩
def firstPage : VirtualPage := ⟨1, by decide, by decide⟩
def secondFrame : PhysicalFrame := ⟨2, by decide, by decide⟩

/-- A writable page, cloned. -/
def clonedPage : Traced :=
  ((Traced.new.step (.create 1)).step (.mapNew firstSpace firstPage .writable)).step
    (.cloneCow firstSpace 2)

theorem protections_follow_requests_clone : clonedPage.Reachable ∧
    (∀ a ∈ clonedPage.table.spaces, ∀ m ∈ a.mappings, ¬ m.permissions.WritableExecutable ∧
      (m.copyOnWrite = true → m.permissions.writableFlag = false)) ∧
    ∀ id page frame r t', resolveCowFault id page frame clonedPage.table = .ok r t' →
      ∃ p, clonedPage.requests id page = some p ∧ p.writableFlag = true := by
  have hreachable : clonedPage.Reachable :=
    ((Traced.reachable_new.next (.create 1) trivial).next (.mapNew firstSpace firstPage .writable)
      trivial).next (.cloneCow firstSpace 2) trivial
  exact ⟨hreachable, protections_follow_requests clonedPage hreachable⟩

/-- A cloned page that is then protected as executable becomes writable and executable by a fault,
and one that is protected as read-only becomes writable. -/
theorem fault_ignores_protection : (∃ a ∈ ((clonedPage.step (.protect firstSpace firstPage .executable)).step
        (.resolveCowFault firstSpace firstPage secondFrame)).table.spaces,
      ∃ m ∈ a.mappings, m.permissions.WritableExecutable) ∧
    (∃ r t', resolveCowFault firstSpace firstPage secondFrame
        (clonedPage.step (.protect firstSpace firstPage .readOnly)).table = .ok r t') ∧
    (clonedPage.step (.protect firstSpace firstPage .readOnly)).requests firstSpace firstPage =
      some .readOnly := by
  refine ⟨?_, ⟨_, _, rfl⟩, rfl⟩
  decide

/-! ### Isolation -/

theorem Mapping.share_not_writable (m : Mapping) : m.share.permissions.writableFlag = false := by
  unfold Mapping.share
  split
  · rfl
  · next h => simpa using h

namespace AddressSpaceTable

variable {t : AddressSpaceTable} {op : Operation}

section

variable (t : AddressSpaceTable)

/-- A frame that is mapped writable in one address space is mapped in no other. -/
def Isolated : Prop :=
  ∀ a ∈ t.spaces, ∀ b ∈ t.spaces, a.id ≠ b.id → ∀ m ∈ a.mappings, ∀ n ∈ b.mappings,
    m.permissions.writableFlag = true → n.frame ≠ m.frame

/-- No address space but the given one maps the frame. -/
def OnlyIn (id : AddressSpaceId) (frame : PhysicalFrame) : Prop :=
  ∀ b ∈ t.spaces, b.id ≠ id → ∀ n ∈ b.mappings, n.frame ≠ frame

/-- The call lets two address spaces share a frame only by cloning: every frame that it maps anew is
mapped in no other address space. -/
def SharesByCloning : Operation → Prop
  | .map id page frame permissions =>
    ∀ m t', map id page frame permissions t = .ok m t' → t.OnlyIn id frame
  | .mapNew id page permissions => ∀ m t', mapNew id page permissions t = .ok m t' → t.OnlyIn id m.frame
  | .resolveCowFault id page newFrame =>
    ∀ r t', resolveCowFault id page newFrame t = .ok r t' → t.OnlyIn id newFrame
  | _ => True

/-- The call makes a mapping writable by protection only when no other address space maps its
frame. -/
def Exclusive : Operation → Prop
  | .protect id page permissions =>
    ∀ m t', protect id page permissions t = .ok m t' → permissions.writableFlag = true → t.OnlyIn id m.frame
  | _ => True

end

instance : Decidable t.Isolated :=
  inferInstanceAs (Decidable (∀ a ∈ t.spaces, ∀ b ∈ t.spaces, a.id ≠ b.id → ∀ m ∈ a.mappings,
    ∀ n ∈ b.mappings, m.permissions.writableFlag = true → n.frame ≠ m.frame))

theorem isolated_iff : t.Isolated ↔ ∀ i j m n, i ≠ j → t.Maps i m → t.Maps j n →
    m.permissions.writableFlag = true → n.frame ≠ m.frame := by
  constructor
  · rintro h i j m n hij ⟨a, ha, rfl, hm⟩ ⟨b, hb, rfl, hn⟩
    exact h a ha b hb hij m hm n hn
  · intro h a ha b hb hij m hm n hn
    exact h _ _ m n hij ⟨a, ha, rfl, hm⟩ ⟨b, hb, rfl, hn⟩

theorem onlyIn_iff {id : AddressSpaceId} {frame : PhysicalFrame} :
    t.OnlyIn id frame ↔ ∀ j n, j ≠ id → t.Maps j n → n.frame ≠ frame := by
  constructor
  · rintro h j n hj ⟨b, hb, rfl, hn⟩
    exact h b hb hj n hn
  · intro h b hb hj n hn
    exact h _ n hj ⟨b, hb, rfl, hn⟩

/-- Isolation is kept when frames are shared by cloning only and no mapping of a shared frame is made
writable. -/
theorem Isolated.step (h : t.Isolated) (hshare : t.SharesByCloning op) (hexclusive : t.Exclusive op)
    (hchange : Change t op) : (t.apply op).Isolated := by
  rw [isolated_iff] at h ⊢
  intro i j m n hij hm hn hw
  cases hchange with
  | shrunk hmaps => exact h i j m n hij (hmaps i m hm) (hmaps j n hn) hw
  | @mapped id page frame permissions hop _ _ hmaps _ =>
    have honly : t.OnlyIn id frame := by
      rcases hop with ⟨rfl, m, t', hrun⟩ | ⟨rfl, t', hrun⟩
      · exact hshare m t' hrun
      · exact hshare _ t' hrun
    rw [onlyIn_iff] at honly
    rcases (hmaps i m).1 hm with hm | ⟨rfl, rfl⟩
    · rcases (hmaps j n).1 hn with hn | ⟨rfl, rfl⟩
      · exact h i j m n hij hm hn hw
      · exact (honly i m hij hm).symm
    · rcases (hmaps j n).1 hn with hn | ⟨rfl, rfl⟩
      · exact honly j n hij.symm hn
      · exact absurd rfl hij
  | @restricted id page permissions m0 hop hrun hm0 _ _ _ hmaps _ =>
    rcases (hmaps i m).1 hm with ⟨rfl, rfl⟩ | ⟨-, hm⟩
    · rcases (hmaps j n).1 hn with ⟨rfl, rfl⟩ | ⟨-, hn⟩
      · exact absurd rfl hij
      · obtain ⟨t', hrun⟩ := hrun
        rw [hop] at hexclusive
        exact onlyIn_iff.1 (hexclusive _ t' hrun hw) j n hij.symm hn
    · rcases (hmaps j n).1 hn with ⟨rfl, rfl⟩ | ⟨-, hn⟩
      · exact h i j m m0 hij hm hm0 hw
      · exact h i j m n hij hm hn hw
  | @cloned parent child _ _ _ _ hmaps _ =>
    rcases (hmaps i m).1 hm with ⟨-, m0, -, rfl⟩ | ⟨-, hi, hm⟩
    · exact absurd hw (by simp [m0.share_not_writable])
    · rcases (hmaps j n).1 hn with ⟨-, n0, hn0, rfl⟩ | ⟨-, -, hn⟩
      · rw [Mapping.frame_share]
        exact h i parent m n0 hi hm hn0 hw
      · exact h i j m n hij hm hn hw
  | @resolved id page frame m0 hop hrun _ _ _ hmaps _ =>
    have honly : t.OnlyIn id frame := by
      obtain ⟨r, t', hrun⟩ := hrun
      rw [hop] at hshare
      exact hshare r t' hrun
    rw [onlyIn_iff] at honly
    rcases (hmaps i m).1 hm with ⟨rfl, rfl⟩ | ⟨-, hm⟩
    · rcases (hmaps j n).1 hn with ⟨rfl, rfl⟩ | ⟨-, hn⟩
      · exact absurd rfl hij
      · exact honly j n hij.symm hn
    · rcases (hmaps j n).1 hn with ⟨rfl, rfl⟩ | ⟨-, hn⟩
      · exact (honly i m hij hm).symm
      · exact h i j m n hij hm hn hw

/-- A step after which the table is isolated has made no mapping of a shared frame writable. -/
theorem exclusive_of_isolated (hwf : WellFormed t) (h : (t.apply op).Isolated) : t.Exclusive op := by
  cases op with
  | protect id page permissions =>
    intro m t' hrun hw
    have hend : t.apply (.protect id page permissions) = t' := endState_of_ok hrun
    obtain ⟨-, m0, -, -, rfl, -, -, hmaps⟩ := hwf.protect hrun
    rw [hend, isolated_iff] at h
    rw [onlyIn_iff]
    intro j n hj hn
    have hm' := (hmaps id _).2 (.inl ⟨rfl, rfl⟩)
    have hn' := (hmaps j n).2 (.inr ⟨fun hid => hj hid.1, hn⟩)
    exact h id j _ n hj.symm hm' hn' hw
  | _ => trivial

/-! ### Stores -/

abbrev Contents := PhysicalFrame → ℕ

section

variable (t : AddressSpaceTable) (id : AddressSpaceId) (page : VirtualPage)

/-- A store through the page table: it reaches memory only through a writable mapping. -/
def store (v : ℕ) (c : Contents) : Contents :=
  match t.mapping id page with
  | .ok m => if m.permissions.writableFlag then Function.update c m.frame v else c
  | .error _ => c

/-- What a load through the page table finds. -/
def load (c : Contents) : Option ℕ :=
  match t.mapping id page with
  | .ok m => some (c m.frame)
  | .error _ => none

/-- No store in one address space is visible in another. -/
def StoresPrivate : Prop :=
  ∀ i j, i ≠ j → ∀ page page' v c, t.load j page' (t.store i page v c) = t.load j page' c

end

theorem maps_of_mapping {id : AddressSpaceId} {page : VirtualPage} {m : Mapping}
    (h : t.mapping id page = .ok m) : t.Maps id m := by
  obtain ⟨a, ha, hm⟩ := mapping_ok.1 h
  exact ⟨a, Keyed.mem_of_lookup ha, Keyed.key_of_lookup ha, Keyed.mem_of_lookup hm⟩

theorem Isolated.storesPrivate (h : t.Isolated) : t.StoresPrivate := by
  rw [isolated_iff] at h
  intro i j hij page page' v c
  unfold load
  cases hn : t.mapping j page' with
  | error => rfl
  | ok n =>
    unfold store
    cases hm : t.mapping i page with
    | error => rfl
    | ok m =>
      dsimp only
      split
      · next hw =>
          have hne := h i j m n hij (maps_of_mapping hm) (maps_of_mapping hn) hw
          rw [Function.update_of_ne hne]
      · rfl

/-! ### Exact counts -/

/-- The records count the mappings, and allocating and releasing frames may rely on them. -/
structure CountsExact (t : AddressSpaceTable) : Prop where
  unique : t.Unique
  counted : ∀ r ∈ t.frames, r.references = t.uses r.frame
  recorded : ∀ x, 0 < t.uses x → x ∈ t.frames.map FrameRecord.frame
  allocated : ∀ x t', allocateFrame t = .ok x t' → x ∉ t.frames.map FrameRecord.frame ∧ t.uses x = 0
  released : ∀ x u t', releaseFrame x t = .ok u t' → t.uses x = 0
  destroyed : t.spaces = [] → ∀ r ∈ t.frames, r.references = 0

/-- In a balanced table with a free next number the counts are exact. -/
theorem Balanced.countsExact (h : Balanced t) (hw : WellFormed t) (hnext : NextUnrecorded t) :
    CountsExact t := by
  have hcount : ∀ r ∈ t.frames, r.references = t.uses r.frame := fun r hr => by
    rw [← references_eq h.unique hr]
    exact (h.le_uses _).antisymm (hw.counted _)
  have hrecorded : ∀ x, 0 < t.uses x → x ∈ t.frames.map FrameRecord.frame := fun x hx => by
    obtain ⟨r, hr⟩ := lookup_of_references (hx.trans_le (hw.counted x))
    exact lookup_isSome.1 (hr ▸ rfl)
  refine ⟨h.unique, hcount, hrecorded, fun x t' hok => ?_, fun x u t' hok => ?_, fun hnil r hr => ?_⟩
  · have hnew := (h.allocateFrame hnext hok).2
    exact ⟨hnew, Nat.eq_zero_of_not_pos fun hpos => hnew (hrecorded x hpos)⟩
  · obtain ⟨r, hr, hzero, -⟩ := releaseFrame_ok hok
    rw [← hzero, hcount r (mem_of_lookup hr), key_of_lookup hr]
  · rw [hcount r hr, uses, hnil]
    rfl

/-- The frame that a call maps was allocated before. -/
def NamesAllocated (t : AddressSpaceTable) : Operation → Prop
  | .map id page frame permissions =>
    ∀ m t', map id page frame permissions t = .ok m t' → frame.raw < t.nextFrameNumber
  | .resolveCowFault id page newFrame =>
    ∀ r t', resolveCowFault id page newFrame t = .ok r t' → newFrame.raw < t.nextFrameNumber
  | _ => True

/-- The number is the one that is allocated next, and every record has a smaller one. -/
structure FramesBelow (n : ℕ) (t : AddressSpaceTable) : Prop where
  next : t.nextFrameNumber = n
  below : ∀ r ∈ t.frames, r.frame.raw < n

section

variable {n : ℕ} {frame : PhysicalFrame} {id : AddressSpaceId} {page : VirtualPage}
  {permissions : PagePermissions}

theorem FramesBelow.nextUnrecorded (h : FramesBelow n t) : NextUnrecorded t := fun r hr =>
  h.next ▸ (h.below r hr).ne

theorem FramesBelow.adjustFrame (h : FramesBelow n t) {f : FrameRecord → FrameRecord}
    (hf : ∀ r, (f r).frame = r.frame) : FramesBelow n (t.adjustFrame frame f) := by
  refine ⟨h.next, fun r hr => ?_⟩
  rcases mem_adjust hr with hr | ⟨r', hr', rfl⟩
  · exact h.below r hr
  · exact (hf r').symm ▸ h.below r' (mem_of_lookup hr')

theorem FramesBelow.dropFrame (h : FramesBelow n t) : FramesBelow n (t.dropFrame frame) :=
  ⟨h.next, fun r hr => h.below r (mem_of_mem_remove hr)⟩

theorem FramesBelow.releaseReference (h : FramesBelow n t) : FramesBelow n (t.releaseReference frame) := by
  unfold AddressSpaceTable.releaseReference
  split
  · exact h
  · split
    · exact h.adjustFrame fun _ => rfl
    · exact h.dropFrame

theorem keeps_retainFrame (hframe : frame.raw < n) : Keeps (FramesBelow n) (retainFrame frame) := by
  refine .get_bind fun t ht => ?_
  split
  · exact Triple.put (ht.adjustFrame fun _ => rfl)
  · refine Keeps.check.bind fun _ => Triple.put ⟨ht.next, forall_mem_append.2 ⟨ht.below, ?_⟩⟩
    exact forall_mem_singleton.2 hframe

/-- Changes of the address spaces do not matter here. -/
theorem keeps_adjustSpace {f : AddressSpace → AddressSpace} :
    Keeps (FramesBelow n) (modify (adjustSpace id f) : Op PUnit) :=
  .update fun _ h => ⟨h.next, h.below⟩

theorem keeps_map (hframe : frame.raw < n) : Keeps (FramesBelow n) (map id page frame permissions) := by
  refine Keeps.check.bind fun _ => Keeps.read.bind fun _ => Keeps.check.bind fun _ => Keeps.check.bind fun _ => ?_
  exact (keeps_retainFrame hframe).bind fun _ => keeps_adjustSpace.bind fun _ =>
    keeps_adjustSpace.bind fun _ => .pure _

theorem keeps_create (owner : ℕ) : Keeps (FramesBelow n) (create owner) := by
  refine Keeps.read.bind fun _ => Keeps.read.bind fun _ => Keeps.read.bind fun _ => ?_
  exact (Keeps.update fun _ h => ⟨h.next, h.below⟩).bind fun _ => .pure _

theorem keeps_releaseFrame : Keeps (FramesBelow n) (releaseFrame frame) :=
  Keeps.read.bind fun _ => Keeps.check.bind fun _ => .update fun _ h => h.dropFrame

theorem keeps_destroy : Keeps (FramesBelow n) (destroy id) := by
  refine Keeps.read.bind fun a => (Keeps.update fun _ h => ⟨h.next, h.below⟩).bind fun _ => ?_
  refine (Keeps.update fun t h => ?_).bind fun _ => .pure _
  -- the frames are released one after the other
  exact foldlRecOn (a.mappings.map Mapping.frame) _ h fun _ ht _ _ => ht.releaseReference

theorem keeps_cloneMappings {child : AddressSpaceId} {rest : List Mapping} (h : ∀ m ∈ rest, m.frame.raw < n) :
    Keeps (FramesBelow n) (cloneMappings child rest) := by
  induction rest with
  | nil => exact .pure _
  | cons m rest ih =>
    obtain ⟨hm, hrest⟩ := forall_mem_cons.1 h
    exact (keeps_retainFrame hm).bind fun _ => keeps_adjustSpace.bind fun _ => ih hrest

/-- Cloning retains frames that are mapped, hence recorded. -/
theorem FramesBelow.cloneCow (h : FramesBelow n t) (hw : WellFormed t) (parent : AddressSpaceId) (childOwner : ℕ) :
    FramesBelow n (endState (cloneCow parent childOwner) t) := by
  refine Triple.endState (P := (· = t)) (Triple.read_bind (fun _ => h) fun a ha => ?_) rfl
  have ha := space_ok.1 ha
  have hframes : ∀ m ∈ a.mappings, m.frame.raw < n := fun m hm => by
    have hpos := (uses_pos ⟨a, mem_of_lookup ha, key_of_lookup ha, hm⟩).trans_le (hw.counted m.frame)
    obtain ⟨r, hr⟩ := lookup_of_references hpos
    exact key_of_lookup hr ▸ h.below r (mem_of_lookup hr)
  refine Triple.mono (P := FramesBelow n) ?_ (fun _ ht => ht ▸ h) (fun _ _ h => h) fun _ _ h => h
  refine (keeps_create childOwner).bind fun child => Keeps.read.bind fun _ => ?_
  exact (keeps_cloneMappings hframes).bind fun _ => keeps_adjustSpace.bind fun _ =>
    keeps_adjustSpace.bind fun _ => keeps_adjustSpace.bind fun _ => .pure _

/-- Allocating a frame takes the next number. -/
theorem triple_allocateFrame : Triple (FramesBelow n) allocateFrame
    (fun frame t => frame.raw = n ∧ FramesBelow (n + 1) t) fun _ => FramesBelow n := by
  intro t ht
  cases hrun : allocateFrame t with
  | ok frame t' =>
    obtain ⟨hraw, rfl⟩ := allocateFrame_ok hrun
    rw [ht.next] at hraw
    have hbelow : ∀ r ∈ t.frames, r.frame.raw < n + 1 := fun r hr => (ht.below r hr).trans n.lt_succ_self
    refine ⟨hraw, congrArg (· + 1) ht.next, forall_mem_append.2 ⟨hbelow, forall_mem_singleton.2 ?_⟩⟩
    exact hraw ▸ n.lt_succ_self
  | error e t' => exact (atomic_allocateFrame _ _ _ hrun).symm ▸ ht

/-- A frame is allocated for the mapping, and given back when the mapping fails. -/
theorem triple_mapNew : Triple (FramesBelow n) (mapNew id page permissions)
    (fun _ t => ∃ n', FramesBelow n' t) fun _ t => ∃ n', FramesBelow n' t := by
  refine (triple_allocateFrame.imp_error fun _ _ h => ⟨n, h⟩).bind fun frame t ⟨hraw, ht⟩ => ?_
  have hframe : frame.raw < n + 1 := hraw.le.trans_lt n.lt_succ_self
  exact ((keeps_map hframe).recover keeps_releaseFrame t ht).imp (fun _ _ h => ⟨n + 1, h⟩)
    fun _ _ h => ⟨n + 1, h⟩

/-- Every call that maps only allocated frames keeps the records below the next number. -/
theorem FramesBelow.apply (h : FramesBelow n t) (hw : WellFormed t) (hop : t.NamesAllocated op) :
    ∃ n', FramesBelow n' (t.apply op) := by
  cases op with
  | create owner => exact ⟨n, (keeps_create owner).endState h⟩
  | destroy id => exact ⟨n, keeps_destroy.endState h⟩
  | allocateFrame =>
    exact Triple.endState (Q := fun t => ∃ n', FramesBelow n' t)
      (triple_allocateFrame.imp (fun _ _ h => ⟨n + 1, h.2⟩) fun _ _ h => ⟨n, h⟩) h
  | releaseFrame frame => exact ⟨n, keeps_releaseFrame.endState h⟩
  | mapNew id page permissions => exact triple_mapNew.endState h
  | map id page frame permissions =>
    rcases (atomic_map id page frame permissions).endState with hsame | ⟨m, hok⟩
    · rw [apply, hsame]
      exact ⟨n, h⟩
    · exact ⟨n, (keeps_map (h.next ▸ hop m _ hok)).endState h⟩
  | unmap id page =>
    exact ⟨n, (Keeps.read.bind fun _ => keeps_adjustSpace.bind fun _ => (Keeps.update fun _ h =>
      h.releaseReference).bind fun _ => keeps_adjustSpace.bind fun _ => .pure _).endState h⟩
  | protect id page permissions =>
    exact ⟨n, (Keeps.check.bind fun _ => Keeps.read.bind fun _ => Keeps.check.bind fun _ =>
      keeps_adjustSpace.bind fun _ => keeps_adjustSpace.bind fun _ => .pure _).endState h⟩
  | cloneCow parent childOwner => exact ⟨n, h.cloneCow hw parent childOwner⟩
  | resolveCowFault id page frame =>
    rcases (atomic_resolveCowFault id page frame).endState with hsame | ⟨r, hok⟩
    · rw [apply, hsame]
      exact ⟨n, h⟩
    · have hframe : frame.raw < n := h.next ▸ hop r _ hok
      exact ⟨n, (Keeps.read.bind fun _ => Keeps.check.bind fun _ => Keeps.check.bind fun _ =>
        (keeps_retainFrame hframe).bind fun _ => (Keeps.update fun _ h => h.releaseReference).bind fun _ =>
        keeps_adjustSpace.bind fun _ => keeps_adjustSpace.bind fun _ => .pure _).endState h⟩

end

end AddressSpaceTable

/-! ### Runs -/

/-- The table after a run. -/
def tableAfter (ops : List Operation) : AddressSpaceTable := ops.foldl AddressSpaceTable.apply .new

theorem wellFormed_tableAfter (ops : List Operation) : WellFormed (tableAfter ops) := by
  induction ops using reverseRecOn with
  | nil => exact wellFormed_new
  | append_singleton ops op ih =>
    rw [tableAfter, foldl_append]
    exact (ih.change op).1

/-- In every run in which frames become shared by cloning only, all tables are isolated, and no store
is visible in another address space, exactly when no call makes a mapping of a shared frame
writable. -/
theorem isolated_iff_exclusive (ops : List Operation)
    (hshare : ∀ past op, past ++ [op] <+: ops → (tableAfter past).SharesByCloning op) :
    (∀ past, past <+: ops → (tableAfter past).Isolated ∧ (tableAfter past).StoresPrivate) ↔
      ∀ past op, past ++ [op] <+: ops → (tableAfter past).Exclusive op := by
  constructor
  · intro h past op hpast
    have hisolated := (h _ hpast).1
    rw [tableAfter, foldl_append] at hisolated
    exact exclusive_of_isolated (wellFormed_tableAfter past) hisolated
  · intro h past hpast
    have hisolated : (tableAfter past).Isolated := by
      induction past using reverseRecOn with
      | nil => decide
      | append_singleton past op ih =>
        have hbefore := ih ((prefix_append past [op]).trans hpast)
        rw [tableAfter, foldl_append]
        exact hbefore.step (hshare past op hpast) (h past op hpast)
          ((wellFormed_tableAfter past).change op).2.1
    exact ⟨hisolated, hisolated.storesPrivate⟩

/-- A page is mapped, its address space is cloned, and the page is protected in the parent. -/
def cloneRun (mapped protection : PagePermissions) : List Operation :=
  [.create 1, .mapNew firstSpace firstPage mapped, .cloneCow firstSpace 2,
    .protect firstSpace firstPage protection]

theorem sharesByCloning_cloneRun (mapped protection : PagePermissions) (past : List Operation)
    (op : Operation) (h : past ++ [op] <+: cloneRun mapped protection) :
    (tableAfter past).SharesByCloning op := by
  obtain ⟨rest, h⟩ := h
  rw [append_assoc] at h
  rcases past with _ | ⟨a, _ | ⟨b, past⟩⟩
  · obtain ⟨rfl, -⟩ := cons_eq_cons.1 h
    trivial
  · obtain ⟨rfl, htail⟩ := cons_eq_cons.1 h
    obtain ⟨rfl, -⟩ := cons_eq_cons.1 htail
    -- the only address space has no mappings yet
    intro m t' _ b hb _ n hn
    have hspaces : (tableAfter [.create 1]).spaces = [⟨firstSpace, 1, 0, []⟩] := rfl
    rw [hspaces, mem_singleton] at hb
    rw [hb] at hn
    simp at hn
  · obtain ⟨-, htail⟩ := cons_eq_cons.1 h
    obtain ⟨-, htail⟩ := cons_eq_cons.1 htail
    have hop : op ∈ past.append ([op] ++ rest) := mem_append_right past (by simp)
    rw [htail, mem_cons, mem_singleton] at hop
    rcases hop with rfl | rfl
    · trivial
    · trivial

theorem isolated_iff_exclusive_cloneRun : (∀ past op, past ++ [op] <+: cloneRun .writable .readOnly →
      (tableAfter past).SharesByCloning op) ∧ ((∀ past, past <+: cloneRun .writable .readOnly →
        (tableAfter past).Isolated ∧ (tableAfter past).StoresPrivate) ↔
      ∀ past op, past ++ [op] <+: cloneRun .writable .readOnly → (tableAfter past).Exclusive op) :=
  ⟨sharesByCloning_cloneRun _ _, isolated_iff_exclusive _ (sharesByCloning_cloneRun _ _)⟩

/-- A read-only page that is shared by cloning and then made writable in the parent: the child sees
what the parent stores. -/
theorem protect_shares_writable_frame : (∀ past op, past ++ [op] <+: cloneRun .readOnly .writable →
      (tableAfter past).SharesByCloning op) ∧ ¬ (tableAfter (cloneRun .readOnly .writable)).Isolated ∧
    ¬ (tableAfter (cloneRun .readOnly .writable)).StoresPrivate := by
  refine ⟨sharesByCloning_cloneRun _ _, by decide, fun h => ?_⟩
  have hchild := h firstSpace ⟨2, by decide⟩ (by decide) firstPage firstPage 1 fun _ => 0
  cases hchild

/-- The tables of the runs in which every frame that a call maps was allocated before. -/
def Reachable : AddressSpaceTable → Prop := Machine.Reachable (· = .new) NamesAllocated apply

theorem Reachable.next {t : AddressSpaceTable} (h : Reachable t) (op : Operation)
    (hop : t.NamesAllocated op) : Reachable (t.apply op) := .step h hop

/-- The counts are exact throughout every run in which every frame that a call maps was allocated before. -/
theorem countsExact_of_reachable {t : AddressSpaceTable} (h : Reachable t) : t.CountsExact := by
  have hkept : WellFormed t ∧ Balanced t ∧ ∃ n, FramesBelow n t := by
    refine Machine.Reachable.keeps (I := fun t => WellFormed t ∧ Balanced t ∧ ∃ n, FramesBelow n t) ?_ ?_ h
    · rintro _ rfl
      exact ⟨wellFormed_new, ⟨nodup_nil, fun _ => Nat.le_refl _⟩, 1, rfl, by simp [AddressSpaceTable.new]⟩
    · rintro t op ⟨hw, hb, n, hn⟩ hop
      obtain ⟨hw', -, hb'⟩ := hw.change op
      exact ⟨hw', hb' hb hn.nextUnrecorded, hn.apply hw hop⟩
  obtain ⟨hw, hb, n, hn⟩ := hkept
  exact hb.countsExact hw hn.nextUnrecorded

def firstFrame : PhysicalFrame := ⟨1, by decide, by decide⟩
def secondPage : VirtualPage := ⟨2, by decide, by decide⟩

/-- A page is cloned, the fault of the parent is resolved with a frame that was allocated for it, and the
frame is mapped a second time. -/
def faultRun : List Operation :=
  [.create 1, .mapNew firstSpace firstPage .writable, .cloneCow firstSpace 2, .allocateFrame,
    .resolveCowFault firstSpace firstPage secondFrame, .map firstSpace secondPage secondFrame .readOnly]

theorem countsExact_of_reachable_faultRun : Reachable (tableAfter faultRun) ∧
    ((tableAfter faultRun).frames.map fun r => (r.frame.raw, r.references)) = [(1, 1), (2, 2)] ∧
    (tableAfter faultRun).CountsExact := by
  have hstart : Reachable .new := .start rfl
  have hcloned := ((hstart.next (.create 1) trivial).next (.mapNew firstSpace firstPage .writable)
    trivial).next (.cloneCow firstSpace 2) trivial
  have hresolved := (hcloned.next .allocateFrame trivial).next
    (.resolveCowFault firstSpace firstPage secondFrame) fun _ _ _ => by decide
  have hreachable : Reachable (tableAfter faultRun) :=
    hresolved.next (.map firstSpace secondPage secondFrame .readOnly) fun _ _ _ => by decide
  exact ⟨hreachable, by decide, countsExact_of_reachable hreachable⟩

/-- The first frame is mapped without being allocated, and then it is allocated: it is mapped and has
two records. -/
theorem allocateFrame_returns_mapped :
    let t := tableAfter [.create 1, .map firstSpace firstPage firstFrame .writable]
    ¬ t.CountsExact ∧ t.uses firstFrame = 1 ∧
      ((t.apply .allocateFrame).frames.map fun r => (r.frame.raw, r.references)) = [(1, 1), (1, 0)] := by
  refine ⟨fun h => ?_, by decide, by decide⟩
  exact (h.allocated firstFrame _ rfl).1 (by decide)

end Memory
