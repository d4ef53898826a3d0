/-
**What the operations of the permission store do to its grants.**

A grant is issued once and never changes, except that it can end: it is revoked, or used up when it
was for one use.  Ids and revisions only grow.

* `issue_commits`, `authorize_commits`, `prepareIssue_commits`, `revoke_commits`,
  `revokeMatching_commits` — each operation returns a sound store that continues the old one, or it
  changes nothing;
* `Sound.restoreCheckpoint`, `Sound.decode` — the grants are read back from a checkpoint.
-/

import Mathlib.Data.List.ReduceOption
import NullStar.PermissionCodec

set_option autoImplicit false

namespace Permission

open Rust Machine ApplicationGrantRecord List Option

/-! ### What becomes of a grant -/

/-- The second record is the first one, or the first one after it has ended. -/
structure Continues (r r' : ApplicationGrantRecord) : Prop where
  id : r'.id = r.id
  subject : r'.subject = r.subject
  resource : r'.resource = r.resource
  rights : r'.rights = r.rights
  scope : r'.scope = r.scope
  session : r'.session = r.session
  ended : r.active = false → r'.active = false

theorem Continues.refl (r : ApplicationGrantRecord) : Continues r r :=
  ⟨rfl, rfl, rfl, rfl, rfl, rfl, fun ha => ha⟩

theorem Continues.trans {a b c : ApplicationGrantRecord} (h : Continues a b) (h' : Continues b c) :
    Continues a c :=
  ⟨h'.id.trans h.id, h'.subject.trans h.subject, h'.resource.trans h.resource,
    h'.rights.trans h.rights, h'.scope.trans h.scope, h'.session.trans h.session,
    fun ha => h'.ended (h.ended ha)⟩

/-- A step in the life of a grant: it stays, or it ends with a revision from the given range. -/
def Kept (lo hi : ℕ) (r r' : ApplicationGrantRecord) : Prop :=
  r' = r ∨ ∃ v reason, lo ≤ v.toNat ∧ v.toNat < hi ∧ r' = { r with revision := v, state := .revoked reason }

variable {hi lo : ℕ} {r r' : ApplicationGrantRecord}

section

variable (h : Kept lo hi r r')

include h

theorem Kept.continues : Continues r r' := by
  rcases h with rfl | ⟨v, reason, -, -, rfl⟩
  · exact .refl r'
  · exact ⟨rfl, rfl, rfl, rfl, rfl, rfl, fun _ => rfl⟩

theorem Kept.mono {lo' hi' : ℕ} (hlo : lo' ≤ lo) (hhi : hi ≤ hi') : Kept lo' hi' r r' := by
  rcases h with rfl | ⟨v, reason, hv, hv', rfl⟩
  · exact .inl rfl
  · exact .inr ⟨v, reason, hlo.trans hv, hv'.trans_le hhi, rfl⟩

theorem Kept.active (ha : r'.active = true) : r' = r := by
  rcases h with rfl | ⟨v, reason, -, -, rfl⟩
  · rfl
  · exact absurd ha (by simp [active])

theorem Kept.revision : r'.revision = r.revision ∨ lo ≤ r'.revision.toNat ∧ r'.revision.toNat < hi := by
  rcases h with rfl | ⟨v, reason, hv, hv', rfl⟩
  · exact .inl rfl
  · exact .inr ⟨hv, hv'⟩

theorem Kept.canonical (hlo : 0 < lo) (hr : r.canonical = true) : r'.canonical = true := by
  rcases h with rfl | ⟨v, reason, hv, -, rfl⟩
  · exact hr
  · obtain ⟨hid, -, hrights, hscope⟩ := canonical_eq_true.1 hr
    refine canonical_eq_true.2 ⟨hid, ?_, hrights, hscope⟩
    rintro rfl
    exact absurd hv (by simpa using hlo.ne')

end

/-! ### The invariant -/

namespace ApplicationPermissionStore

variable {s s' : ApplicationPermissionStore} {r : ApplicationGrantRecord} {index : ℕ}

/-- The invariant of the store. -/
structure Sound (s : ApplicationPermissionStore) : Prop where
  canonical : ∀ r ∈ s.records, r.canonical = true
  ids : (s.records.map (·.id)).Nodup
  revisions : (s.records.map (·.revision)).Nodup
  idsBelow : ∀ r ∈ s.records, r.id.toNat < s.nextGrantId.toNat
  revisionsBelow : ∀ r ∈ s.records, r.revision.toNat < s.nextRevision.toNat
  single : ∀ r ∈ s.records, ∀ r' ∈ s.records, r.active = true → r'.active = true →
    r.subject = r'.subject → r.resource = r'.resource → r = r'
  grantIdPos : 0 < s.nextGrantId.toNat
  revisionPos : 0 < s.nextRevision.toNat

/-- What the checks on the records of a checkpoint establish. -/
structure Restorable (nextGrantId nextRevision : UInt64) (rs : List ApplicationGrantRecord) :
    Prop where
  canonical : ∀ r ∈ rs, r.canonical = true
  ids : (rs.map (·.id)).Nodup
  revisions : (rs.map (·.revision)).Nodup
  idsBelow : ∀ r ∈ rs, r.id.toNat < nextGrantId.toNat
  revisionsBelow : ∀ r ∈ rs, r.revision.toNat < nextRevision.toNat
  single : ∀ r ∈ rs, ∀ r' ∈ rs, r.active = true → r'.active = true → r.subject = r'.subject →
    r.resource = r'.resource → r = r'

section

variable {nextGrantId nextRevision : UInt64} {rs : List ApplicationGrantRecord}

theorem Sound.restorable (h : Sound s) : Restorable s.nextGrantId s.nextRevision s.records := { h with }

theorem Restorable.sound (h : Restorable s.nextGrantId s.nextRevision s.records)
    (hid : 0 < s.nextGrantId.toNat) (hrevision : 0 < s.nextRevision.toNat) : Sound s :=
  { h with grantIdPos := hid, revisionPos := hrevision }

/-- A record that passes the checks is put among the others. -/
theorem Restorable.insert (h : Restorable nextGrantId nextRevision rs) {rs' : List ApplicationGrantRecord}
    (hperm : rs'.Perm (r :: rs)) {nextGrantId' nextRevision' : UInt64} (hcanonical : r.canonical = true)
    (hid : ∀ c ∈ rs, c.id ≠ r.id) (hrevision : ∀ c ∈ rs, c.revision ≠ r.revision)
    (hactive : r.active = true → ∀ c ∈ rs, c.covers r.subject r.resource = false)
    (hnextId : r.id.toNat < nextGrantId'.toNat ∧ nextGrantId.toNat ≤ nextGrantId'.toNat)
    (hnextRevision : r.revision.toNat < nextRevision'.toNat ∧ nextRevision.toNat ≤ nextRevision'.toNat) :
    Restorable nextGrantId' nextRevision' rs' := by
  have hall {P : ApplicationGrantRecord → Prop} (hr : P r) (hrs : ∀ c ∈ rs, P c) : ∀ c ∈ rs', P c :=
    fun c hc => forall_mem_cons.2 ⟨hr, hrs⟩ c (hperm.mem_iff.1 hc)
  have hnodup {f : ApplicationGrantRecord → UInt64} (hf : (rs.map f).Nodup) (hne : ∀ c ∈ rs, f c ≠ f r) :
      (rs'.map f).Nodup := by
    rw [(hperm.map f).nodup_iff, map_cons, nodup_cons]
    exact ⟨fun hmem => (mem_map.1 hmem).elim fun c hc => hne c hc.1 hc.2, hf⟩
  have hcovers : ∀ c ∈ rs, c.active = true → r.active = true → c.subject = r.subject →
      c.resource = r.resource → False := fun c hc hca hra hsubject hresource =>
    absurd (covers_iff.2 ⟨hca, hsubject, hresource⟩) (by simp [hactive hra c hc])
  refine ⟨hall hcanonical h.canonical, hnodup h.ids hid, hnodup h.revisions hrevision,
    hall hnextId.1 fun c hc => (h.idsBelow c hc).trans_le hnextId.2,
    hall hnextRevision.1 fun c hc => (h.revisionsBelow c hc).trans_le hnextRevision.2,
    hall (hall (fun _ _ _ _ => rfl) fun c hc => ?_) fun c hc => hall ?_ (h.single c hc)⟩
  · exact fun hra hca hsubject hresource => (hcovers c hc hca hra hsubject.symm hresource.symm).elim
  · exact fun hca hra hsubject hresource => (hcovers c hc hca hra hsubject hresource).elim

end

theorem Sound.eq_of_id (h : Sound s) {r' : ApplicationGrantRecord} (hr : r ∈ s.records)
    (hr' : r' ∈ s.records) (hid : r.id = r'.id) : r = r' :=
  inj_on_of_nodup_map h.ids hr hr' hid

/-- The store continues the other one: no grant is lost, and no id is given again. -/
structure Later (s s' : ApplicationPermissionStore) : Prop where
  continues : ∀ r ∈ s.records, ∃ r' ∈ s'.records, Continues r r'
  nextGrantId : s.nextGrantId.toNat ≤ s'.nextGrantId.toNat

theorem Later.refl (s : ApplicationPermissionStore) : Later s s := ⟨fun r hr => ⟨r, hr, .refl r⟩, le_rfl⟩

theorem Later.trans {s1 s2 s3 : ApplicationPermissionStore} (h : Later s1 s2) (h' : Later s2 s3) :
    Later s1 s3 := by
  refine ⟨fun r hr => ?_, h.nextGrantId.trans h'.nextGrantId⟩
  obtain ⟨r', hr', hc⟩ := h.continues r hr
  obtain ⟨r'', hr'', hc'⟩ := h'.continues r' hr'
  exact ⟨r'', hr'', hc.trans hc'⟩

/-- No slot in use follows a free one. -/
def Packed : List (Option ApplicationGrantRecord) → Prop
  | [] => True
  | some _ :: rest => Packed rest
  | none :: rest => ∀ slot ∈ rest, slot = none

variable {l : List (Option ApplicationGrantRecord)} {predicate : ApplicationGrantRecord → Bool}
  {reason : ApplicationGrantRevocation} {records : List ApplicationGrantRecord}

theorem packed_of_free (h : ∀ slot ∈ l, slot = none) : Packed l := by
  cases l with
  | nil => trivial
  | cons slot =>
    obtain rfl := h slot mem_cons_self
    exact fun slot' hslot' => h slot' (mem_cons_of_mem _ hslot')

theorem packed_append (rs : List ApplicationGrantRecord) (n : ℕ) :
    Packed (rs.map some ++ replicate n none) := by
  induction rs with
  | nil => exact packed_of_free fun _ h => eq_of_mem_replicate h
  | cons r rs ih => exact ih

theorem Packed.eq_append (h : Packed l) :
    l = l.reduceOption.map some ++ replicate (l.length - l.reduceOption.length) none := by
  induction l with
  | nil => rfl
  | cons slot l ih =>
    cases slot with
    | some => simpa using ih h
    | none =>
      have hfree : l = replicate l.length none := eq_replicate_of_mem h
      rw [hfree]
      simp [replicate_succ]

/-- The slots before one in use are in use. -/
theorem Packed.front (h : Packed l) : ∀ {i : ℕ}, l.getD i none ≠ none → ∀ j < i, l.getD j none ≠ none := by
  induction l with
  | nil => exact absurd (getD_nil)
  | cons slot l ih =>
    intro i hi j hj
    obtain ⟨i, rfl⟩ := Nat.exists_eq_succ_of_ne_zero (Nat.ne_zero_of_lt hj)
    rw [getD_cons_succ] at hi
    cases slot with
    | none =>
      have hlt : i < l.length := by
        by_contra hge
        exact hi (getD_eq_default _ _ (Nat.not_lt.1 hge))
      rw [getD_eq_getElem _ _ hlt] at hi
      exact absurd (h _ (getElem_mem hlt)) hi
    | some =>
      cases j with
      | zero => simp
      | succ j => exact ih h hi j (Nat.lt_of_succ_lt_succ hj)

/-- The first free slot can be taken, and a slot in use can be changed. -/
theorem Packed.set (h : Packed l) (r : ApplicationGrantRecord) :
    ∀ {i : ℕ}, (∀ j < i, l.getD j none ≠ none) → Packed (l.set i (some r)) := by
  induction l with
  | nil => exact fun _ => trivial
  | cons slot l ih =>
    intro i hi
    cases i with
    | zero =>
      cases slot with
      | none => exact packed_of_free (l := l) h
      | some => exact h
    | succ i =>
      cases slot with
      | none => exact absurd rfl (hi 0 i.succ_pos)
      | some => exact ih h fun j hj => hi (j + 1) (Nat.succ_lt_succ hj)

theorem packed_revokeEach (h : Packed l) : ∀ {v : UInt64}, Packed (revokeEach reason predicate v l) := by
  induction l with
  | nil => exact trivial
  | cons slot l ih =>
    intro v
    cases slot with
    | some =>
      rw [revokeEach]
      split
      · exact ih h
      · exact ih h
    | none =>
      have hfree : l = replicate l.length none := eq_replicate_of_mem h
      have hkeep : ∀ n, revokeEach reason predicate v (replicate n none) = replicate n none := by
        intro n
        induction n with
        | zero => rfl
        | succ n ih => rw [replicate_succ, revokeEach, ih]
      rw [revokeEach, hfree, hkeep]
      exact fun _ hslot => eq_of_mem_replicate hslot

/-- What every operation keeps. -/
structure Next (s s' : ApplicationPermissionStore) : Prop where
  sound : Sound s'
  later : Later s s'
  packed : Packed s.grants → Packed s'.grants

theorem Next.refl (hs : Sound s) : Next s s := ⟨hs, .refl s, id⟩

/-- Some grants end, with new revisions. -/
theorem Sound.end (h : Sound s) {hi : ℕ} (hkept : Forall₂ (Kept s.nextRevision.toNat hi) s.records s'.records)
    (hnodup : (s'.records.map (·.revision)).Nodup) (hid : s'.nextGrantId = s.nextGrantId)
    (hle : s.nextRevision.toNat ≤ hi) (hrevision : s'.nextRevision.toNat = hi)
    (hpacked : Packed s.grants → Packed s'.grants) : Next s s' := by
  have hback : ∀ r' ∈ s'.records, ∃ r ∈ s.records, Kept s.nextRevision.toNat hi r r' := by
    intro r' hr'
    obtain ⟨i, hi', rfl⟩ := getElem_of_mem hr'
    have hlt : i < s.records.length := hkept.length_eq ▸ hi'
    exact ⟨s.records[i], getElem_mem hlt, forall₂_iff_get.1 hkept |>.2 i hlt hi'⟩
  have hforth : ∀ r ∈ s.records, ∃ r' ∈ s'.records, Kept s.nextRevision.toNat hi r r' := by
    intro r hr
    obtain ⟨i, hi', rfl⟩ := getElem_of_mem hr
    have hlt : i < s'.records.length := hkept.length_eq ▸ hi'
    exact ⟨s'.records[i], getElem_mem hlt, forall₂_iff_get.1 hkept |>.2 i hi' hlt⟩
  have hids : s'.records.map (·.id) = s.records.map (·.id) := by
    have hmap : Forall₂ (· = ·) (s.records.map (·.id)) (s'.records.map (·.id)) := by
      rw [forall₂_map_left_iff, forall₂_map_right_iff]
      exact hkept.imp fun _ _ h => h.continues.id.symm
    exact (forall₂_eq_eq_eq ▸ hmap : _ = _).symm
  refine ⟨?_, ?_, hpacked⟩
  · constructor
    case canonical =>
      intro r' hr'
      obtain ⟨r, hr, hk⟩ := hback r' hr'
      exact hk.canonical h.revisionPos (h.canonical r hr)
    case ids => exact hids ▸ h.ids
    case revisions => exact hnodup
    case idsBelow =>
      intro r' hr'
      obtain ⟨r, hr, hk⟩ := hback r' hr'
      rw [hk.continues.id, hid]
      exact h.idsBelow r hr
    case revisionsBelow =>
      intro r' hr'
      obtain ⟨r, hr, hk⟩ := hback r' hr'
      rw [hrevision]
      rcases hk.revision with hv | ⟨-, hv⟩
      · rw [hv]
        exact (h.revisionsBelow r hr).trans_le hle
      · exact hv
    case single =>
      intro a ha b hb haa hba hs hr
      obtain ⟨a0, ha0, hka⟩ := hback a ha
      obtain ⟨b0, hb0, hkb⟩ := hback b hb
      obtain rfl := hka.active haa
      obtain rfl := hkb.active hba
      exact h.single a ha0 b hb0 haa hba hs hr
    case grantIdPos => exact hid ▸ h.grantIdPos
    case revisionPos => exact hrevision ▸ h.revisionPos.trans_le hle
  · refine ⟨fun r hr => ?_, by rw [hid]⟩
    obtain ⟨r', hr', hk⟩ := hforth r hr
    exact ⟨r', hr', hk.continues⟩

/-! ### Slots -/

theorem records_setSlot (hindex : index < s.grants.length) (r : ApplicationGrantRecord) :
    ∃ a b, s.records = a ++ (s.grants.getD index none).toList ++ b ∧
      (setSlot index r s).records = a ++ r :: b := by
  refine ⟨(s.grants.take index).reduceOption, (s.grants.drop (index + 1)).reduceOption, ?_, ?_⟩
  · have hsplit : s.grants = s.grants.take index ++ s.grants[index] :: s.grants.drop (index + 1) := by
      rw [← drop_eq_getElem_cons hindex, take_append_drop]
    conv_lhs => rw [records, hsplit]
    rw [getD_eq_getElem _ _ hindex, reduceOption_append]
    cases s.grants[index] with
    | none | some => simp
  · change (s.grants.set index (some r)).reduceOption = _
    rw [set_eq_take_append_cons_drop, if_pos hindex, reduceOption_append, reduceOption_cons_of_some]

/-- A slot that was found by a condition on its content. -/
theorem findIdx_spec {p : Option ApplicationGrantRecord → Bool} (h : s.grants.findIdx? p = some index) :
    index < s.grants.length ∧ p (s.grants.getD index none) = true := by
  obtain ⟨hlt, hp, -⟩ := findIdx?_eq_some_iff_getElem.1 h
  rw [getD_eq_getElem _ _ hlt]
  exact ⟨hlt, hp⟩

theorem lt_of_getD (h : s.grants.getD index none = some r) : index < s.grants.length := by
  by_contra hge
  rw [getD_eq_default _ _ (Nat.not_lt.1 hge)] at h
  simp at h

theorem mem_records_of_getD (h : s.grants.getD index none = some r) : r ∈ s.records := by
  have hlt := lt_of_getD h
  rw [getD_eq_getElem _ _ hlt] at h
  rw [records, reduceOption_mem_iff]
  exact h ▸ getElem_mem hlt

theorem Sound.endSlot (h : Sound s) (hr : s.grants.getD index none = some r) {v : UInt64}
    (hv : v = s.nextRevision) (reason : ApplicationGrantRevocation) {r' : ApplicationGrantRecord}
    (hr' : r' = { r with revision := v, state := .revoked reason })
    (hgrants : s'.grants = (setSlot index r' s).grants) (hid : s'.nextGrantId = s.nextGrantId)
    (hrevision : s'.nextRevision.toNat = s.nextRevision.toNat + 1) : Next s s' := by
  have hrecords : s'.records = (setSlot index r' s).records := congrArg reduceOption hgrants
  obtain ⟨a, b, hs, hset⟩ := records_setSlot (lt_of_getD hr) r'
  rw [hr, toList_some, append_assoc, singleton_append] at hs
  rw [hset] at hrecords
  have hsame : ∀ l, Forall₂ (Kept s.nextRevision.toNat (s.nextRevision.toNat + 1)) l l :=
    fun l => forall₂_same.2 fun r _ => .inl rfl
  have hpacked : Packed s.grants → Packed s'.grants := by
    intro hp
    rw [hgrants]
    exact hp.set r' (hp.front (by rw [hr]; simp))
  refine h.end ?_ ?_ hid (Nat.le_succ _) hrevision hpacked
  · rw [hs, hrecords]
    refine rel_append (hsame a) (.cons (.inr ⟨v, reason, ?_, ?_, hr'⟩) (hsame b))
    · rw [hv]
    · rw [hv]
      exact Nat.lt_succ_self _
  · have hbelow := h.revisionsBelow
    have hnodup := h.revisions
    rw [hs, map_append, map_cons, nodup_middle, nodup_cons] at hnodup
    rw [hrecords, map_append, map_cons, nodup_middle, nodup_cons]
    refine ⟨fun hmem => ?_, hnodup.2⟩
    rw [← map_append, List.mem_map] at hmem
    obtain ⟨c, hc, heq⟩ := hmem
    have hlt := hbelow c (hs ▸ perm_middle.mem_iff.2 (mem_cons_of_mem _ hc))
    rw [heq, hr', hv] at hlt
    exact absurd hlt (lt_irrefl _)

theorem Sound.insert (h : Sound s) (hr : s.grants.getD index none = none)
    (hindex : index < s.grants.length) (hfirst : ∀ j < index, s.grants.getD j none ≠ none)
    (hgrants : s'.grants = (setSlot index r s).grants)
    (hcanonical : r.canonical = true) (hid : r.id = s.nextGrantId)
    (hrevision : s.nextRevision.toNat ≤ r.revision.toNat)
    (hsingle : r.active = true → ∀ r' ∈ s.records, r'.covers r.subject r.resource = false)
    (hnextId : s'.nextGrantId.toNat = s.nextGrantId.toNat + 1)
    (hnextRevision : r.revision.toNat < s'.nextRevision.toNat) : Next s s' := by
  have hrecords : s'.records = (setSlot index r s).records := congrArg reduceOption hgrants
  obtain ⟨a, b, hs, hset⟩ := records_setSlot hindex r
  rw [hr, toList_none, append_nil] at hs
  rw [hset] at hrecords
  have hperm : s'.records.Perm (r :: s.records) := by
    rw [hrecords, hs]
    exact perm_middle
  refine ⟨(h.restorable.insert hperm hcanonical (fun c hc heq => ?_) (fun c hc heq => ?_)
    hsingle ?_ ?_).sound ?_ ?_, ⟨fun c hc => ⟨c, hperm.mem_iff.2 (mem_cons_of_mem _ hc), .refl c⟩, by omega⟩,
    fun hp => hgrants ▸ hp.set r hfirst⟩
  · have hlt := h.idsBelow c hc
    rw [heq, hid] at hlt
    exact absurd hlt (lt_irrefl _)
  · have hlt := h.revisionsBelow c hc
    rw [heq] at hlt
    omega
  · rw [hid]
    omega
  all_goals omega

/-- The records that end do not take a revision below the range. -/
theorem revision_notMem {lo hi : ℕ} {l l' : List ApplicationGrantRecord}
    (hkept : Forall₂ (Kept lo hi) l l') {v : UInt64} (hv : v ∉ l.map (·.revision))
    (hlt : v.toNat < lo) : v ∉ l'.map (·.revision) := by
  induction hkept with
  | nil => exact hv
  | cons hk _ ih =>
    rw [map_cons, mem_cons, not_or] at hv ⊢
    refine ⟨fun heq => ?_, ih hv.2⟩
    rcases hk.revision with hr | ⟨hr, -⟩
    · exact hv.1 (heq.trans hr)
    · rw [heq] at hlt
      exact absurd hr (Nat.not_le.2 hlt)

/-- The loop over the slots ends grants, with the revisions from its start on. -/
theorem revokeEach_spec {bound : ℕ} {grants : List (Option ApplicationGrantRecord)} {lo : UInt64}
    (hlo : bound ≤ lo.toNat) (hfit : lo.toNat +
      (grants.reduceOption.filter fun r => r.active && predicate r).length < 2 ^ 64)
    (hnodup : (grants.reduceOption.map (·.revision)).Nodup)
    (hbound : ∀ r ∈ grants.reduceOption, r.revision.toNat < bound) : Forall₂ (Kept lo.toNat
        (lo.toNat + (grants.reduceOption.filter fun r => r.active && predicate r).length))
      grants.reduceOption (revokeEach reason predicate lo grants).reduceOption ∧
    ((revokeEach reason predicate lo grants).reduceOption.map (·.revision)).Nodup := by
  induction grants generalizing lo with
  | nil => exact ⟨.nil, nodup_nil⟩
  | cons slot grants ih =>
    cases slot with
    | none =>
      exact ih hlo hfit hnodup hbound
    | some r =>
      rw [reduceOption_cons_of_some] at hfit hnodup hbound
      rw [map_cons, nodup_cons] at hnodup
      rw [forall_mem_cons] at hbound
      rw [revokeEach, reduceOption_cons_of_some, filter_cons]
      rw [filter_cons] at hfit
      by_cases hmatch : (r.active && predicate r) = true
      · -- the head ends with the first revision, the others get later ones
        rw [if_pos hmatch, length_cons] at hfit
        rw [if_pos hmatch, if_pos hmatch, length_cons, reduceOption_cons_of_some, map_cons, nodup_cons]
        have hsucc : (lo + 1).toNat = lo.toNat + 1 := by
          exact Nat.mod_eq_of_lt (by simp; omega)
        obtain ⟨hkept, hrest⟩ := @ih (lo + 1) (by omega) (by omega) hnodup.2 hbound.2
        rw [hsucc] at hkept
        have hnew : lo ∉ grants.reduceOption.map (·.revision) := by
          intro hmem
          obtain ⟨r', hr', heq⟩ := mem_map.1 hmem
          have hlt := hbound.2 r' hr'
          rw [heq] at hlt
          omega
        exact ⟨.cons (.inr ⟨lo, reason, le_rfl, by omega, rfl⟩)
          (hkept.imp fun _ _ h => h.mono (by omega) (by omega)),
          revision_notMem hkept hnew (Nat.lt_succ_self _), hrest⟩
      · rw [if_neg hmatch] at hfit
        rw [if_neg hmatch, if_neg hmatch, reduceOption_cons_of_some, map_cons, nodup_cons]
        obtain ⟨hkept, hrest⟩ := ih hlo hfit hnodup.2 hbound.2
        exact ⟨.cons (.inl rfl) hkept, revision_notMem hkept hnodup.1 (hbound.1.trans_le hlo), hrest⟩

/-! ### Checkpoints -/

theorem length_records_le (s : ApplicationPermissionStore) : s.records.length ≤ maxApplicationGrants := by
  rw [← s.size]
  exact reduceOption_length_le s.grants

section

variable (h : records.length ≤ maxApplicationGrants)

include h

theorem slots_eq : slots records =
      records.map some ++ replicate (maxApplicationGrants - records.length) none := by
  rw [slots, take_append, take_of_length_le (by rw [length_map]; exact h),
    length_map, take_replicate, Nat.min_eq_left (Nat.sub_le _ _)]

theorem reduceOption_slots : (slots records).reduceOption = records := by
  rw [slots_eq h, reduceOption_append, reduceOption_replicate_none, append_nil, reduceOption, filterMap_map]
  exact filterMap_some

theorem take_slots : (slots records).take records.length = records.map some := by
  rw [slots_eq h, take_left' (length_map _)]

theorem packed_slots : Packed (slots records) := by
  rw [slots_eq h]
  exact packed_append _ _

end

/-- The store with the same grants in its first slots. -/
def compact (s : ApplicationPermissionStore) : ApplicationPermissionStore :=
  ⟨slots s.records, s.nextGrantId, s.nextRevision, length_slots _⟩

theorem records_compact (s : ApplicationPermissionStore) : s.compact.records = s.records :=
  reduceOption_slots s.length_records_le

/-- A store without a free slot before one in use stays as it is. -/
theorem compact_of_packed (h : Packed s.grants) : s.compact = s := by
  have hgrants : slots s.records = s.grants := by
    rw [slots_eq s.length_records_le, ← s.size]
    exact h.eq_append.symm
  cases s
  simpa [compact] using hgrants

theorem Sound.compact (h : Sound s) : Next s s.compact := by
  have hrestorable : Restorable s.nextGrantId s.nextRevision s.compact.records :=
    records_compact s ▸ h.restorable
  refine ⟨hrestorable.sound h.grantIdPos h.revisionPos, ⟨?_, le_rfl⟩,
    fun _ => packed_slots s.length_records_le⟩
  rw [records_compact]
  exact fun r hr => ⟨r, hr, .refl r⟩

/-- No grant of the store is refused when they are read back. -/
theorem Sound.restoreEach (h : Sound s) {done todo : List ApplicationGrantRecord}
    (hsplit : s.records = done ++ todo) :
    restoreEach s.nextGrantId s.nextRevision done (todo.map some) = .ok s.records := by
  induction todo generalizing done with
  | nil =>
    rw [hsplit, append_nil]
    rfl
  | cons r todo ih =>
    have hr : r ∈ s.records := hsplit ▸ mem_append_right _ mem_cons_self
    have hdone : ∀ d ∈ done, d ∈ s.records := fun d hd => hsplit ▸ mem_append_left _ hd
    have hids := h.ids
    have hrevisions := h.revisions
    rw [hsplit, map_append, map_cons, nodup_middle, nodup_cons, ← map_append] at hids hrevisions
    have hid : ¬ ∃ d ∈ done, d.id = r.id := fun ⟨d, hd, heq⟩ =>
      hids.1 (mem_map.2 ⟨d, mem_append_left _ hd, heq⟩)
    have hrevision : ¬ ∃ d ∈ done, d.revision = r.revision := fun ⟨d, hd, heq⟩ =>
      hrevisions.1 (mem_map.2 ⟨d, mem_append_left _ hd, heq⟩)
    have hactive : ¬ (r.active = true ∧ ∃ d ∈ done, d.covers r.subject r.resource = true) := by
      rintro ⟨hra, d, hd, hcovers⟩
      obtain ⟨hda, hsubject, hresource⟩ := covers_iff.1 hcovers
      exact hid ⟨d, hd, congrArg _ (h.single d (hdone d hd) r hr hda hra hsubject hresource)⟩
    have hrecord : ¬ (r.canonical = false ∨ s.nextGrantId ≤ r.id ∨ s.nextRevision ≤ r.revision) := by
      rw [h.canonical r hr, UInt64.le_iff_toNat_le, UInt64.le_iff_toNat_le]
      have hlt := h.idsBelow r hr
      have hlt' := h.revisionsBelow r hr
      rintro (hf | hf | hf)
      · simp at hf
      · omega
      · omega
    rw [map_cons, ApplicationPermissionStore.restoreEach, checkRestored,
      rejectIf_of_not hrecord, rejectIf_of_not hid, rejectIf_of_not hrevision, rejectIf_of_not hactive]
    exact ih (by rw [hsplit, append_assoc, singleton_append])

theorem Sound.restoreCheckpointSlots (h : Sound s) :
    restoreCheckpointSlots (slots s.records) s.records.length s.nextGrantId s.nextRevision =
      .ok s.compact := by
  have hle := s.length_records_le
  have htake := take_slots hle
  have hdrop : (slots s.records).drop s.records.length =
      replicate (maxApplicationGrants - s.records.length) none := by
    rw [slots_eq hle, drop_left' (length_map _)]
  have hcapacity : ¬ (maxApplicationGrants < s.records.length ∨
      none ∈ (slots s.records).take s.records.length ∨
      ∃ record ∈ (slots s.records).drop s.records.length, record ≠ none) := by
    rw [htake, hdrop]
    rintro (hlt | hmem | ⟨record, hmem, hne⟩)
    · exact absurd hlt (Nat.not_lt.2 hle)
    · simp at hmem
    · exact hne (eq_of_mem_replicate hmem)
  have hcounter : ¬ (s.nextGrantId = 0 ∨ s.nextRevision = 0) := by
    have hid := h.grantIdPos
    have hrevision := h.revisionPos
    rintro (heq | heq)
    · rw [heq] at hid
      simp at hid
    · rw [heq] at hrevision
      simp at hrevision
  rw [ApplicationPermissionStore.restoreCheckpointSlots, rejectIf_of_not hcapacity,
    rejectIf_of_not hcounter, htake, h.restoreEach (nil_append _).symm]
  rfl

theorem Sound.restoreCheckpoint (h : Sound s) :
    restoreCheckpoint s.records s.nextGrantId s.nextRevision = .ok s.compact := by
  rw [ApplicationPermissionStore.restoreCheckpoint,
    rejectIf_of_not (Nat.not_lt.2 s.length_records_le), ok_bind, h.restoreCheckpointSlots]

def checkpoint (s : ApplicationPermissionStore) (generation : UInt64) : List UInt8 :=
  checkpointImage generation s.nextGrantId s.nextRevision s.records.length
    (checkpointPayload (imagesOf s.records))

theorem Sound.encode (h : Sound s) {generation : UInt64} (hgeneration : generation ≠ 0) :
    encodeApplicationPermissionCheckpoint s generation = .ok (s.checkpoint generation) := by
  rw [encodeApplicationPermissionCheckpoint, rejectIf_of_not hgeneration, encodeRecords_eq h.canonical]
  rfl

theorem Sound.decode (h : Sound s) {generation : UInt64} (hgeneration : generation ≠ 0) :
    decodeApplicationPermissionCheckpoint (s.checkpoint generation) = .ok (generation, s.compact) :=
  decodeCheckpoint_eq_ok.2 ⟨hgeneration, _, _, _, s.length_records_le, h.canonical,
    h.restoreCheckpointSlots, rfl⟩

section

variable {nextGrantId nextRevision : UInt64} {rs todo : List ApplicationGrantRecord}

/-- A record that passes the checks behind others. -/
theorem Restorable.concat (h : Restorable nextGrantId nextRevision rs)
    (hr : checkRestored nextGrantId nextRevision rs r = .ok ()) :
    Restorable nextGrantId nextRevision (rs ++ [r]) := by
  simp only [checkRestored, run_eq_ok, not_or, Bool.not_eq_false, UInt64.not_le] at hr
  obtain ⟨⟨hcanonical, hid, hrevision⟩, hnewId, hnewRevision, hactive⟩ := hr
  refine h.insert (perm_append_singleton r rs) hcanonical (fun c hc heq => hnewId ⟨c, hc, heq⟩)
    (fun c hc heq => hnewRevision ⟨c, hc, heq⟩) (fun hra c hc => ?_) ⟨hid, le_rfl⟩ ⟨hrevision, le_rfl⟩
  exact Bool.eq_false_iff.2 fun hcovers => hactive ⟨hra, c, hc, hcovers⟩

theorem restoreEach_ok {restored : List ApplicationGrantRecord} (hrs : Restorable nextGrantId nextRevision rs)
    (h : ApplicationPermissionStore.restoreEach nextGrantId nextRevision rs (todo.map some) =
      .ok restored) : restored = rs ++ todo ∧ Restorable nextGrantId nextRevision restored := by
  induction todo generalizing rs with
  | nil =>
    cases h
    exact ⟨(append_nil _).symm, hrs⟩
  | cons r todo ih =>
    rw [map_cons, ApplicationPermissionStore.restoreEach, bind_eq_ok] at h
    obtain ⟨_, hr, h⟩ := h
    obtain ⟨rfl, hall⟩ := ih (hrs.concat hr) h
    exact ⟨by rw [append_assoc, singleton_append], hall⟩

/-- A checkpoint that is accepted is that of the store it is decoded to. -/
theorem decodeCheckpoint_ok {bytes : List UInt8} {generation : UInt64}
    (h : decodeApplicationPermissionCheckpoint bytes = .ok (generation, s)) :
    generation ≠ 0 ∧ Sound s ∧ Packed s.grants ∧ bytes = s.checkpoint generation := by
  obtain ⟨hgeneration, rs, nextGrantId, nextRevision, hle, -, hrestore, hbytes⟩ := decodeCheckpoint_eq_ok.1 h
  simp only [ApplicationPermissionStore.restoreCheckpointSlots, run_eq_ok, take_slots hle, not_or] at hrestore
  obtain ⟨-, ⟨hid, hrevision⟩, restored, hrestored, rfl⟩ := hrestore
  obtain ⟨rfl, hall⟩ := restoreEach_ok ⟨by simp, by simp, by simp, by simp, by simp, by simp⟩ hrestored
  have hrecords : (⟨slots restored, nextGrantId, nextRevision, length_slots restored⟩ :
      ApplicationPermissionStore).records = restored := reduceOption_slots hle
  have hpos : ∀ {v : UInt64}, v ≠ 0 → 0 < v.toNat := fun hv =>
    Nat.pos_of_ne_zero fun h0 => hv (UInt64.toNat_inj.1 h0)
  refine ⟨hgeneration, Restorable.sound (hrecords.symm ▸ hall) (hpos hid) (hpos hrevision),
    packed_slots hle, ?_⟩
  rw [checkpoint, hrecords]
  exact hbytes

end

/-! ### Issuing -/

section

variable {authorization : AuthorizedApplication} {resource : ApplicationResourceIdentity}
  {rights : ApplicationGrantRights} {scope : ApplicationGrantScope}

variable (s authorization resource rights scope) in
/-- What `preflightIssue` establishes. -/
structure Preflight (slot : ℕ) (r : ApplicationGrantRecord) (nextGrantId nextRevision : UInt64) :
    Prop where
  subject : ApplicationGrantSubject.fromAuthorization authorization = some r.subject
  record : r = ⟨s.nextGrantId, s.nextRevision, r.subject, resource, rights, scope,
    if scope = .persistent then 0 else authorization.session, .active⟩
  rights : rights.validFor resource.kind = true
  persistent : ¬ (scope = .persistent ∧ r.subject.isTransient = true)
  none_covers : ∀ r' ∈ s.records, r'.covers r.subject resource = false
  slot_lt : slot < s.grants.length
  slot_empty : s.grants.getD slot none = none
  slot_first : ∀ j < slot, s.grants.getD j none ≠ none
  nextGrantId : nextGrantId.toNat = s.nextGrantId.toNat + 1
  nextRevision : nextRevision.toNat = s.nextRevision.toNat + 1

variable {nextGrantId nextRevision : UInt64} {slot : ℕ} {prepared : PreparedApplicationGrant}

theorem preflightIssue_ok (h : s.preflightIssue authorization resource rights scope =
      .ok (slot, r, nextGrantId, nextRevision)) :
    Preflight s authorization resource rights scope slot r nextGrantId nextRevision := by
  simp only [preflightIssue, bind_eq_ok, okOr_eq_ok, rejectIf_eq_ok, checkedAddU64_eq_some] at h
  obtain ⟨subject, hsubject, -, hrights, -, hpersistent, -, hcovers, i, hslot, n, hn, v, hv, hresult⟩ := h
  cases hresult
  obtain ⟨hlt, hempty⟩ := findIdx_spec hslot
  refine ⟨hsubject, rfl, Bool.of_not_eq_false hrights, hpersistent, ?_, hlt, ?_, ?_, hn, hv⟩
  · exact fun r' hr' => Bool.eq_false_iff.2 fun hc => hcovers ⟨r', hr', hc⟩
  · exact isNone_iff_eq_none.1 hempty
  · intro j hj
    have hused := (findIdx?_eq_some_iff_getElem.1 hslot).2.2 j hj
    rwa [isNone_iff_eq_none, ← getD_eq_getElem _ none] at hused

theorem noTrap_preflightIssue : NoTrap (s.preflightIssue authorization resource rights scope) := by
  simp [preflightIssue, noTrap_bind]

/-- The new record is canonical, with any later revision and in any state. -/
theorem Preflight.canonical (hs : Sound s)
    (h : Preflight s authorization resource rights scope slot r nextGrantId nextRevision)
    {v : UInt64} (hv : s.nextRevision.toNat ≤ v.toNat) (state : ApplicationGrantState) :
    ({ r with revision := v, state } : ApplicationGrantRecord).canonical = true := by
  have hid := hs.grantIdPos
  have hrevision := hs.revisionPos
  rw [h.record]
  refine canonical_eq_true.2 ⟨?_, ?_, h.rights, ?_⟩
  · exact UInt64.pos_iff_ne_zero.1 hid
  · intro (heq : v = 0)
    rw [heq] at hv
    simp at hv
    omega
  · have hpersistent := h.persistent
    cases scope with
    | once | session => simp [scopeCanonical, authorization.session_ne]
    | persistent =>
      have htransient : r.subject.isTransient = false := Bool.eq_false_iff.2 fun ht => hpersistent ⟨rfl, ht⟩
      simp [scopeCanonical, htransient]

theorem mem_setSlot (hindex : index < s.grants.length) (r : ApplicationGrantRecord) :
    r ∈ (setSlot index r s).records := by
  obtain ⟨a, b, -, hset⟩ := records_setSlot hindex r
  rw [hset]
  exact mem_append_right _ mem_cons_self

variable (authorization resource rights scope) in
/-- The record carries what was asked for. -/
structure IssuedFor (r : ApplicationGrantRecord) : Prop where
  subject : ApplicationGrantSubject.fromAuthorization authorization = some r.subject
  resource : r.resource = resource
  rights : r.rights = rights
  scope : r.scope = scope
  session : r.scope ≠ .persistent → r.session = authorization.session

theorem Preflight.issuedFor
    (h : Preflight s authorization resource rights scope slot r nextGrantId nextRevision) :
    IssuedFor authorization resource rights scope r := by
  refine ⟨h.subject, ?_, ?_, ?_, ?_⟩ <;> rw [h.record]
  intro hscope
  exact if_neg hscope

/-- The new record is stored, with any later revision and in any state. -/
theorem Preflight.next (hs : Sound s)
    (h : Preflight s authorization resource rights scope slot r nextGrantId nextRevision) {v after : UInt64}
    (hv : s.nextRevision.toNat ≤ v.toNat) (hafter : v.toNat < after.toNat) (state : ApplicationGrantState) :
    Next s { setSlot slot { r with revision := v, state } s with nextGrantId, nextRevision := after } := by
  have hid : r.id = s.nextGrantId := by rw [h.record]
  refine hs.insert h.slot_empty h.slot_lt h.slot_first rfl (h.canonical hs hv state) hid hv
    (fun _ => ?_) h.nextGrantId hafter
  rw [show r.resource = resource from h.issuedFor.resource]
  exact h.none_covers

theorem Preflight.active (h : Preflight s authorization resource rights scope slot r nextGrantId
    nextRevision) : r.id = s.nextGrantId ∧ r.active = true := by
  rw [h.record]
  exact ⟨rfl, rfl⟩

/-- With the revision it was given. -/
theorem Preflight.next_self (hs : Sound s)
    (h : Preflight s authorization resource rights scope slot r nextGrantId nextRevision) :
    Next s { setSlot slot r s with nextGrantId, nextRevision } := by
  have hrevision : r.revision = s.nextRevision := by rw [h.record]
  have hnext := h.nextRevision
  exact h.next hs (by rw [hrevision]) (by rw [hrevision]; omega) r.state

theorem issue_commits (hs : Sound s) :
    Commits s (issue authorization resource rights scope) fun r s' => Next s s' ∧
      r ∈ s'.records ∧ r.active = true ∧ r.id = s.nextGrantId ∧
        IssuedFor authorization resource rights scope r := by
  refine .read_bind noTrap_preflightIssue fun ⟨slot, r, nextGrantId, nextRevision⟩ hok =>
    .inl (.modify_bind (.of_return ?_))
  have h := preflightIssue_ok hok
  exact ⟨h.next_self hs, mem_setSlot h.slot_lt r, h.active.2, h.active.1, h.issuedFor⟩

/-! ### Authorizing -/

/-- The authorization is one that the grant allows. -/
structure Allows (r : ApplicationGrantRecord) (a : ApplicationGrantAuthorization) : Prop where
  grantId : a.grantId = r.id
  subject : a.subject = r.subject
  resource : a.resource = r.resource
  rights : r.rights.contains a.rights = true
  scope : a.scope = r.scope
  session : r.scope ≠ .persistent → a.applicationSession = r.session

theorem Allows.continues {r' : ApplicationGrantRecord} {a : ApplicationGrantAuthorization}
    (h : Allows r a) (hc : Continues r r') : Allows r' a :=
  ⟨h.grantId.trans hc.id.symm, h.subject.trans hc.subject.symm, h.resource.trans hc.resource.symm,
    hc.rights ▸ h.rights, h.scope.trans hc.scope.symm,
    fun hscope => (h.session (hc.scope ▸ hscope)).trans hc.session.symm⟩

/-- The same, backwards: what a grant allows after it has changed it allowed before. -/
theorem Allows.of_continues {r' : ApplicationGrantRecord} {a : ApplicationGrantAuthorization}
    (h : Allows r' a) (hc : Continues r r') : Allows r a :=
  ⟨h.grantId.trans hc.id, h.subject.trans hc.subject, h.resource.trans hc.resource,
    hc.rights ▸ h.rights, h.scope.trans hc.scope,
    fun hscope => (h.session (hc.scope.symm ▸ hscope)).trans hc.session⟩

variable (authorization resource rights) in
/-- The authorization is for what was asked. -/
structure AuthorizedFor (a : ApplicationGrantAuthorization) : Prop where
  subject : ApplicationGrantSubject.fromAuthorization authorization = some a.subject
  resource : a.resource = resource
  rights : a.rights = rights
  session : a.applicationSession = authorization.session

variable (s authorization resource rights) in
/-- What `prepareAuthorization` establishes: the grant at the slot allows the authorization, and the
commit uses up a grant for one use. -/
structure PreparedExisting (prepared : PreparedApplicationGrant) (index : ℕ)
    (r : ApplicationGrantRecord) : Prop where
  slot : s.grants.getD index none = some r
  active : r.active = true
  allows : Allows r prepared.authorization
  revision : prepared.authorization.grantRevision = r.revision
  asked : AuthorizedFor authorization resource rights prepared.authorization
  commit : (r.scope ≠ .once ∧ prepared.commit = .existing index none s.nextRevision) ∨
    (r.scope = .once ∧ ∃ v : UInt64, v.toNat = s.nextRevision.toNat + 1 ∧
      prepared.commit = .existing index (some s.nextRevision) v)

theorem prepareAuthorization_ok (h : s.prepareAuthorization authorization resource rights = .ok prepared) :
    ∃ index r, PreparedExisting s authorization resource rights prepared index r := by
  simp only [prepareAuthorization, bind_eq_ok, okOr_eq_ok] at h
  obtain ⟨subject, hsubject, -, -, index, hindex, h⟩ := h
  obtain ⟨-, hany⟩ := findIdx_spec hindex
  obtain ⟨r, hr, hcovers⟩ := (any_eq_true _ _).1 hany
  obtain ⟨hactive, rfl, rfl⟩ := covers_iff.1 hcovers
  rw [hr] at h
  simp only [bind_eq_ok, rejectIf_eq_ok] at h
  obtain ⟨-, hcontains, -, hsession, h⟩ := h
  have hsame : r.scope ≠ .persistent → authorization.session = r.session := by
    intro hscope
    by_contra hne
    exact hsession ⟨hscope, fun heq => hne heq.symm⟩
  have hrights : r.rights.contains rights = true := Bool.of_not_eq_false hcontains
  by_cases hscope : r.scope = .once
  · rw [if_pos hscope] at h
    simp only [bind_eq_ok, okOr_eq_ok, checkedAddU64_eq_some] at h
    obtain ⟨v, hv, _, hpair, hresult⟩ := h
    cases hpair
    cases hresult
    exact ⟨index, r, hr, hactive, ⟨rfl, rfl, rfl, hrights, rfl, hsame⟩, rfl, ⟨hsubject, rfl, rfl, rfl⟩,
      .inr ⟨hscope, v, hv, rfl⟩⟩
  · rw [if_neg hscope] at h
    cases h
    exact ⟨index, r, hr, hactive, ⟨rfl, rfl, rfl, hrights, rfl, hsame⟩, rfl, ⟨hsubject, rfl, rfl, rfl⟩,
      .inl ⟨hscope, rfl⟩⟩

theorem noTrap_prepareAuthorization : NoTrap (s.prepareAuthorization authorization resource rights) := by
  refine noTrap_okOr.bind fun subject _ => noTrap_rejectIf.bind fun _ _ =>
    noTrap_okOr.bind fun index hindex => ?_
  obtain ⟨-, hany⟩ := findIdx_spec (okOr_eq_ok.1 hindex)
  obtain ⟨r, hr, -⟩ := (any_eq_true _ _).1 hany
  rw [hr]
  dsimp only
  split <;> simp [noTrap_bind]

/-- The grant under which the authorization is given, after the commit. -/
structure Settles (s' : ApplicationPermissionStore) (a : ApplicationGrantAuthorization)
    (r : ApplicationGrantRecord) : Prop where
  mem : r ∈ s'.records
  allows : Allows r a
  active : r.active = true ↔ a.scope ≠ .once

/-- The commit of an authorization under an existing grant. -/
theorem PreparedExisting.commit_returns {ε : Type} (hs : Sound s)
    (h : PreparedExisting s authorization resource rights prepared index r) :
    Returns s (commitWithStore prepared : Op ε ApplicationGrantAuthorization) fun a s' =>
      a = prepared.authorization ∧ Next s s' ∧ ∃ r', Settles s' a r' := by
  unfold commitWithStore
  rcases h.commit with ⟨hscope, hcommit⟩ | ⟨hscope, v, hv, hcommit⟩
  · rw [hcommit]
    refine .of_return ⟨rfl, .refl hs, r, mem_records_of_getD h.slot, h.allows, ?_⟩
    rw [h.allows.scope]
    exact ⟨fun _ => hscope, fun _ => h.active⟩
  · rw [hcommit]
    refine .read_bind (a := r) (by simp only [h.slot])
      (.modify_bind (.modify_bind (.of_return ⟨rfl, ?_⟩)))
    refine ⟨hs.endSlot h.slot rfl .consumed rfl rfl rfl hv, _, mem_setSlot (lt_of_getD h.slot) _,
      h.allows.continues ⟨rfl, rfl, rfl, rfl, rfl, rfl, fun _ => rfl⟩, ?_⟩
    rw [h.allows.scope, hscope]
    simp [ApplicationGrantRecord.active]

variable (s s' authorization resource rights) in
/-- What is authorized under an existing grant. -/
structure AuthorizesExisting (a : ApplicationGrantAuthorization) : Prop where
  asked : AuthorizedFor authorization resource rights a
  grant : ∃ r ∈ s.records, r.active = true ∧ Allows r a
  settles : ∃ r, Settles s' a r

theorem PreparedExisting.commits {ε : Type} (hs : Sound s)
    (h : PreparedExisting s authorization resource rights prepared index r) :
    Returns s (commitWithStore prepared : Op ε ApplicationGrantAuthorization) fun a s' =>
      Next s s' ∧ AuthorizesExisting s s' authorization resource rights a := by
  refine (h.commit_returns hs).mono ?_
  rintro a s' ⟨rfl, hs', hsettles⟩
  exact ⟨hs', h.asked, ⟨r, mem_records_of_getD h.slot, h.active, h.allows⟩, hsettles⟩

theorem authorize_commits (hs : Sound s) : Commits s (authorize authorization resource rights) fun a s' =>
      Next s s' ∧ AuthorizesExisting s s' authorization resource rights a := by
  refine .read_bind noTrap_prepareAuthorization fun prepared hok => .inl ?_
  obtain ⟨index, r, h⟩ := prepareAuthorization_ok hok
  exact h.commits hs

/-! ### Issuing and authorizing at once -/

variable (s s' authorization resource rights scope) in
/-- What is authorized under a grant that is issued for it. -/
structure AuthorizesIssued (a : ApplicationGrantAuthorization) : Prop where
  asked : AuthorizedFor authorization resource rights a
  fresh : a.grantId = s.nextGrantId
  none_covers : ∀ r ∈ s.records, r.covers a.subject a.resource = false
  settles : ∃ r, Settles s' a r ∧ IssuedFor authorization resource rights scope r

theorem prepareIssueAuthorization_ok
    (h : s.prepareIssueAuthorization authorization resource rights scope = .ok prepared) :
    ∃ slot r nextGrantId afterIssueRevision, Preflight s authorization resource rights scope slot r
        nextGrantId afterIssueRevision ∧ prepared.authorization =
        ⟨r.id, r.revision, authorization.session, r.subject, resource, rights, scope⟩ ∧
      ((scope ≠ .once ∧ prepared.commit = .issued slot r nextGrantId afterIssueRevision) ∨
        (scope = .once ∧ ∃ v : UInt64, v.toNat = afterIssueRevision.toNat + 1 ∧ prepared.commit = .issued slot
            { r with revision := afterIssueRevision, state := .revoked .consumed } nextGrantId v)) := by
  simp only [prepareIssueAuthorization, bind_eq_ok] at h
  obtain ⟨⟨slot, r, nextGrantId, after⟩, hpreflight, h⟩ := h
  refine ⟨slot, r, nextGrantId, after, preflightIssue_ok hpreflight, ?_⟩
  by_cases hscope : scope = .once
  · rw [if_pos hscope] at h
    simp only [run_eq_ok, checkedAddU64_eq_some] at h
    obtain ⟨v, hv, _, hpair, hresult⟩ := h
    cases hpair
    cases hresult
    exact ⟨rfl, .inr ⟨hscope, v, hv, rfl⟩⟩
  · rw [if_neg hscope] at h
    cases h
    exact ⟨rfl, .inl ⟨hscope, rfl⟩⟩

theorem noTrap_prepareIssueAuthorization :
    NoTrap (s.prepareIssueAuthorization authorization resource rights scope) := by
  refine noTrap_preflightIssue.bind fun _ _ => ?_
  dsimp only
  split <;> simp [noTrap_bind]

theorem prepareIssue_commits {ε : Type} (hs : Sound s)
    (h : s.prepareIssueAuthorization authorization resource rights scope = .ok prepared) :
    Returns s (commitWithStore prepared : Op ε ApplicationGrantAuthorization) fun a s' =>
      Next s s' ∧ AuthorizesIssued s s' authorization resource rights scope a := by
  obtain ⟨slot, r, nextGrantId, after, hp, hauthorization, hcommit⟩ := prepareIssueAuthorization_ok h
  have hfor := hp.issuedFor
  obtain ⟨hid, hactive⟩ := hp.active
  have hallows : Allows r prepared.authorization := by
    rw [hauthorization]
    refine ⟨rfl, rfl, hfor.resource.symm, ?_, hfor.scope.symm, fun hscope =>
      (hfor.session hscope).symm⟩
    rw [hfor.rights]
    exact rights.contains_self
  have hasked : AuthorizedFor authorization resource rights prepared.authorization := by
    rw [hauthorization]
    exact ⟨hp.subject, rfl, rfl, rfl⟩
  have hfresh : prepared.authorization.grantId = s.nextGrantId := hallows.grantId.trans hid
  have hnone : ∀ r' ∈ s.records, r'.covers prepared.authorization.subject
      prepared.authorization.resource = false := by
    rw [hauthorization]
    exact hp.none_covers
  unfold commitWithStore
  rcases hcommit with ⟨hscope, hcommit⟩ | ⟨hscope, v, hv, hcommit⟩
  · rw [hcommit]
    refine .modify_bind (.of_return ⟨hp.next_self hs, hasked, hfresh, hnone, r,
      ⟨mem_setSlot hp.slot_lt r, hallows, ?_⟩, hfor⟩)
    rw [hallows.scope, hfor.scope]
    exact ⟨fun _ => hscope, fun _ => hactive⟩
  · -- the grant is stored as used up already
    rw [hcommit]
    have hlater := hp.nextRevision
    refine .modify_bind (.of_return ⟨hp.next hs (by omega) (by omega) _, hasked, hfresh, hnone,
      { r with revision := after, state := .revoked .consumed },
      ⟨mem_setSlot hp.slot_lt _, hallows.continues ⟨rfl, rfl, rfl, rfl, rfl, rfl, fun _ => rfl⟩, ?_⟩,
      { hfor with }⟩)
    rw [hallows.scope, hfor.scope, hscope]
    simp [active]

end

/-! ### Revoking -/

theorem revoke_commits (hs : Sound s) (grantId : UInt64) (reason : ApplicationGrantRevocation) :
    Commits s (revoke grantId reason) fun _ s' => Next s s' ∧
      ∀ r ∈ s'.records, r.id = grantId → r.active = false := by
  refine .check_bind noTrap_rejectIf fun _ _ => .read_bind noTrap_okOr fun index hindex =>
    ?_
  obtain ⟨hlt, hany⟩ := findIdx_spec (okOr_eq_ok.1 hindex)
  obtain ⟨r, hr, hid⟩ := (any_eq_true _ _).1 hany
  refine .read_bind (by rw [hr]; exact noTrap_ok) fun r' hr' => ?_
  obtain rfl : r = r' := by
    rw [hr] at hr'
    exact Except.ok.inj hr'
  refine .check_bind noTrap_rejectIf fun _ _ => .read_bind noTrap_ok fun v hv =>
    .check_bind noTrap_okOr fun next hnext =>
    .inl (.modify_bind (.modify_bind (.of_return ?_)))
  obtain rfl : s.nextRevision = v := Except.ok.inj hv
  rw [okOr_eq_ok, checkedAddU64_eq_some] at hnext
  have hend : Next s (setSlot index
      { r with revision := s.nextRevision, state := .revoked reason }
      { s with nextRevision := next }) :=
    hs.endSlot hr rfl reason rfl rfl rfl hnext
  refine ⟨hend, fun c hc hcid => ?_⟩
  have hmem : { r with revision := s.nextRevision, state := .revoked reason } ∈
      (setSlot index { r with revision := s.nextRevision, state := .revoked reason }
        { s with nextRevision := next }).records := mem_setSlot hlt _
  rw [hend.sound.eq_of_id hc hmem (hcid.trans (of_decide_eq_true hid).symm)]
  rfl

/-- No grant that the condition holds for stays active. -/
theorem revokeEach_inactive {grants : List (Option ApplicationGrantRecord)} {lo : UInt64} :
    ∀ r ∈ (revokeEach reason predicate lo grants).reduceOption, predicate r = true → r.active = false := by
  induction grants generalizing lo with
  | nil =>
    intro r hr
    exact absurd hr (by simp [revokeEach])
  | cons slot grants ih =>
    cases slot with
    | none =>
      exact ih
    | some =>
      rw [revokeEach]
      split
      · rw [reduceOption_cons_of_some, forall_mem_cons]
        exact ⟨fun _ => rfl, ih⟩
      · next hmatch =>
          rw [reduceOption_cons_of_some, forall_mem_cons]
          refine ⟨fun hpred => ?_, ih⟩
          rw [hpred, Bool.and_true] at hmatch
          exact Bool.eq_false_iff.2 hmatch

theorem revokeMatching_commits (hs : Sound s) (reason : ApplicationGrantRevocation)
    (predicate : ApplicationGrantRecord → Bool) :
    Commits s (revokeMatching reason predicate) fun _ s' => Next s s' ∧
      ∀ r ∈ s'.records, predicate r = true → r.active = false := by
  refine .check_bind noTrap_rejectIf fun _ _ => .read_bind noTrap_ok fun count hcount =>
    .read_bind noTrap_okOr fun next hnext =>
    .inl (.modify_bind (.modify_bind (.of_return ⟨?_, revokeEach_inactive⟩)))
  cases hcount
  rw [okOr_eq_ok, checkedAddU64_eq_some, UInt64.toNat_ofNat'] at hnext
  have hfew : (s.records.filter fun r => r.active && predicate r).length < 2 ^ 64 := by
    have hle := (length_filter_le (fun r => r.active && predicate r) s.records).trans
      s.length_records_le
    rw [maxApplicationGrants] at hle
    omega
  rw [Nat.mod_eq_of_lt hfew] at hnext
  obtain ⟨hkept, hnodup⟩ := @revokeEach_spec predicate reason _ _ _ le_rfl
    (hnext ▸ next.toNat_lt) hs.revisions hs.revisionsBelow
  exact hs.end hkept hnodup rfl (Nat.le_add_right _ _) hnext fun hp => packed_revokeEach hp

theorem resetApplication_commits (hs : Sound s) (authorization : AuthorizedApplication)
    (reason : ApplicationGrantRevocation) :
    Commits s (resetApplication authorization reason) fun _ s' => Next s s' ∧
      ∀ r ∈ s'.records, ApplicationGrantSubject.fromAuthorization authorization = some r.subject →
        r.active = false := by
  refine .check_bind noTrap_okOr fun subject hsubject => ?_
  refine (revokeMatching_commits hs reason _).mono fun _ s' ⟨hs', hinactive⟩ => ⟨hs', ?_⟩
  intro r hr hfor
  rw [okOr_eq_ok.1 hsubject, some_inj] at hfor
  exact hinactive r hr (decide_eq_true hfor.symm)

theorem revokeResource_commits (hs : Sound s) (resource : ApplicationResourceIdentity)
    (reason : ApplicationGrantRevocation) : Commits s (revokeResource resource reason) fun _ s' => Next s s' ∧
      ∀ r ∈ s'.records, r.resource = resource → r.active = false := by
  refine (revokeMatching_commits hs reason _).mono fun _ s' ⟨hs', hinactive⟩ => ⟨hs', ?_⟩
  exact fun r hr hfor => hinactive r hr (decide_eq_true hfor)

end ApplicationPermissionStore

end Permission
