/-
**The NSWP validator never traps, and the accessors read every value that it accepts.**

The validator walks a body with a moving cursor; the accessors of a validated value follow the
references on their own.  This module says what the accessors find in an accepted body, kind by kind,
and that they never fail there.

Every read of the validator goes through a slice whose bounds have been checked, every addition and
multiplication of addresses is checked, and the depth of the recursion is bounded by the limit of the
connection.  So the validator returns on every byte string, whatever the descriptor.

* `readable` — the accessors read every accepted value;
* `noTrap_validateNode`, `noTrap_validateBody` — the validator.
-/

import Mathlib.Data.List.TakeWhile
import NullStar.SchemaSpec

set_option autoImplicit false

namespace NSWP

open Bytes Rust List

variable {levels : ℕ}

/-! ### Vectors, strings and byte strings -/

variable {body bs : List UInt8} {r : SliceRef} {start payloadCursor tableEnd : ℕ}
  {c : SchemaContext} {s κ : Cursor} {check : Check} {e : Envelope}
  {f : TableFieldDescriptor TypeDescriptor} {view : ValidatedVector}
  {xs : List (UnionAlternativeDescriptor TypeDescriptor)}
  {fields rest : List (TableFieldDescriptor TypeDescriptor)}

section

variable (hr : sliceRef body start = .ok r)

include hr

theorem vectorView_eq {element : TypeDescriptor} (h : vectorView body element start = .ok view) :
    (r.count = 0 ∧ view = ⟨0, 0, 0⟩) ∨ (r.count ≠ 0 ∧ ∃ stride, elementStride element = .ok stride ∧
        view = ⟨start + r.relativeOffset, r.count, stride⟩) := by
  rw [vectorView, hr, ok_bind] at h
  split at h
  case isTrue hc => exact .inl ⟨hc, (Except.ok.inj h).symm⟩
  case isFalse hc =>
    simp only [run_eq_ok, add_eq_ok] at h
    obtain ⟨_, ⟨_, rfl⟩, stride, hs, rfl⟩ := h
    exact .inr ⟨hc, stride, hs, rfl⟩

theorem view_count {element : TypeDescriptor} (h : vectorView body element start = .ok view) :
    view.count = r.count := by
  rcases vectorView_eq hr h with ⟨hc, rfl⟩ | ⟨_, _, _, rfl⟩
  · exact hc.symm
  · rfl

/-- What the accessor of a string or byte string returns. -/
theorem materializedSlice_eq (h : materializedSlice body start = .ok bs) :
    bs.length = r.count ∧ (r.count ≠ 0 → bs = slice body (start + r.relativeOffset) r.count) := by
  rw [materializedSlice, hr, ok_bind] at h
  split at h
  case isTrue hc =>
    cases h
    exact ⟨hc.symm, absurd hc⟩
  case isFalse hc =>
    simp only [bind_eq_ok, add_eq_ok, sliceAt_eq_ok] at h
    obtain ⟨_, ⟨_, rfl⟩, _, hl, rfl⟩ := h
    exact ⟨length_slice_of_le hl, fun _ => rfl⟩

end

/-- The accessor of an accepted string or byte string returns its bytes, well-formed for a string. -/
theorem exists_materializedSlice {maximum : ℕ} {utf8 : Bool}
    (h : validateBytesLike c start maximum utf8 κ = .ok s) :
    ∃ bs, materializedSlice c.body start = .ok bs ∧ (utf8 = true → isUtf8 bs = true) := by
  obtain ⟨r, hr, _, _, h⟩ := validateBytesLike_eq_ok h
  rw [materializedSlice, hr, ok_bind]
  rcases h with ⟨hc, _⟩ | ⟨hc, hregion, ht, hlt, hz, hu, hd, _⟩
  · rw [if_pos hc]
    exact ⟨[], rfl, fun _ => rfl⟩
  · rw [if_neg hc, add_eq_ok.2 ⟨hlt, ht.symm⟩]
    obtain ⟨hle, hlen, _⟩ := requireZero_eq_ok.1 hz
    have hs : sliceAt c.body κ.next r.count = .ok (slice c.body κ.next r.count) :=
      sliceAt_eq_ok.2 ⟨hd, by omega, rfl⟩
    refine ⟨_, hs, fun htext => ?_⟩
    simpa [requireUtf8, htext, hs] using hu

/-! ### Optionals and unions -/

/-- The place where the accessors look for a payload. -/
def payloadStart (payload : Option PayloadRange) : ℕ :=
  match payload with
  | some range => range.start
  | none => 0

theorem validateOptional_eq_ok {d : TypeDescriptor}
    (h : validateOptional c levels check d start κ = .ok s) : (start + 24 ≤ c.body.length ∧
        sliceAt c.body start envelopeBytes = .ok (slice c.body start 24) ∧
        (slice c.body start 24).all (· = 0) = true ∧ s = κ) ∨
      ∃ e, parseEnvelope c.body start = .ok e ∧ e.ordinal = 1 ∧
        validateSelectedPayload c levels check d e.payload κ = .ok s := by
  simp only [validateOptional, bind_eq_ok] at h
  obtain ⟨_, hs, h⟩ := h
  obtain ⟨_, hl, rfl⟩ := sliceAt_eq_ok.1 hs
  split at h
  case isTrue hz => exact .inl ⟨hl, hs, hz, (Except.ok.inj h).symm⟩
  case isFalse =>
    simp only [run_eq_ok, not_not] at h
    obtain ⟨e, he, ho, h⟩ := h
    exact .inr ⟨e, he, ho, h⟩

/-- Every number read from zero bytes is zero. -/
theorem word_of_all_zero (hz : bs.all (· = 0) = true) (o w : ℕ) : word bs o w = 0 := by
  have hzero : ∀ {bs : List UInt8}, (∀ x ∈ bs, x = 0) → ofLe bs = 0 := by
    intro bs hbs
    induction bs with
    | nil => rfl
    | cons x bs ih =>
      rw [ofLe, hbs x mem_cons_self, ih fun y hy => hbs y (mem_cons_of_mem _ hy)]
      rfl
  refine hzero fun x hx => ?_
  have hmem := mem_of_mem_drop (mem_of_mem_take hx)
  simpa using all_eq_true.1 hz x hmem

theorem parseEnvelope_zero (hs : sliceAt body start envelopeBytes = .ok (slice body start 24))
    (hz : (slice body start 24).all (· = 0) = true) : parseEnvelope body start = .ok ⟨0, none⟩ := by
  rw [parseEnvelope_slice hs]
  simp only [word_of_all_zero hz]
  rfl

/-- An absent optional is read as absent. -/
theorem optionalView_zero (hs : sliceAt body start envelopeBytes = .ok (slice body start 24))
    (hz : (slice body start 24).all (· = 0) = true) : optionalView body start = .ok none := by
  rw [optionalView, parseEnvelope_zero hs hz]
  rfl

theorem optionalView_one (he : parseEnvelope body start = .ok e) (ho : e.ordinal = 1) :
    optionalView body start = .ok (some (payloadStart e.payload)) := by
  rw [optionalView, he, ok_bind, ho]
  rfl

/-- A union: its envelope names an alternative, and the payload is as the alternative says. -/
theorem validateClosedUnion_eq_ok (hd : ∀ x ∈ xs, ∀ p, x.payload = some p → Valid p ∧ p.isUnit = false)
    (h : validateClosedUnion c levels check xs start κ = .ok s) :
    ∃ e x, parseEnvelope c.body start = .ok e ∧ findAlternative xs e.ordinal = some x ∧
      ((x.payload = none ∧ e.payload = none ∧ s = κ) ∨
        ∃ d range, x.payload = some d ∧ e.payload = some range ∧ Valid d ∧
          validateSelectedPayload c levels check d (some range) κ = .ok s) := by
  simp only [validateClosedUnion, run_eq_ok] at h
  obtain ⟨e, he, _, x, hx, h⟩ := h
  refine ⟨e, x, he, hx, ?_⟩
  have hmem : x ∈ xs := mem_of_find?_eq_some hx
  cases hp : x.payload with
  | none =>
    simp only [hp, run_eq_ok, Bool.not_eq_true, Option.isSome_eq_false_iff, Option.isNone_iff_eq_none] at h
    obtain ⟨_, hnone, rfl⟩ := h
    exact .inl ⟨rfl, hnone, rfl⟩
  | some d =>
    simp only [hp] at h
    obtain ⟨hvalid, hunit⟩ := hd x hmem d hp
    rcases validateSelectedPayload_eq_ok h with ⟨hu, _⟩ | ⟨_, range, hrange, _⟩
    · rw [hunit] at hu
      cases hu
    · exact .inr ⟨d, range, rfl, hrange, hvalid, hrange ▸ h⟩

theorem unionView_ordinal {view : ValidatedUnion} (he : parseEnvelope body start = .ok e)
    (h : unionView body xs start = .ok view) : view.ordinal = e.ordinal := by
  simp only [unionView, he, ok_bind, bind_eq_ok] at h
  obtain ⟨x, _, h⟩ := h
  split at h
  · rw [← Except.ok.inj h]
  · rw [← Except.ok.inj h]
  · cases h

/-! ### The loop over the envelopes of a table -/

/-- The cursor moves on to the end of the payload. -/
theorem advance_eq {d : TypeDescriptor} {stop : ℕ} {r : Cursor}
    (h : validateSelectedPayload c levels check d e.payload ⟨payloadCursor, stop⟩ = .ok r) :
    e.advance payloadCursor = r.next := by
  rcases validateSelectedPayload_eq_ok h with ⟨_, hp, rfl⟩ | ⟨_, range, hp, _, _, rfl⟩
  · simp [Envelope.advance, hp]
  · simp [Envelope.advance, hp]

theorem skipFields_eq_ok {bound : BoundProtocol} {ordinal : ℕ}
    (h : skipFields bound ordinal fields = .ok rest) : rest = fields.dropWhile (·.ordinal < ordinal) := by
  induction fields with
  | nil => exact (Except.ok.inj h).symm
  | cons field fields ih =>
    rw [skipFields] at h
    split at h
    case isTrue hlt =>
      obtain ⟨_, _, h⟩ := bind_eq_ok.1 h
      rw [dropWhile_cons_of_pos (by simpa using hlt)]
      exact ih h
    case isFalse hlt =>
      rw [dropWhile_cons_of_neg (by simpa using hlt)]
      exact (Except.ok.inj h).symm

/-- In a sorted list of fields, skipping up to the ordinal of one of them stops at this field, and
all later fields remain. -/
theorem dropWhile_of_mem (hs : fields.Pairwise (fun f g => f.ordinal < g.ordinal)) (hf : f ∈ fields) :
    ∃ rest, fields.dropWhile (·.ordinal < f.ordinal) = f :: rest ∧ (f :: rest) <:+ fields ∧
      ∀ g ∈ fields, f.ordinal < g.ordinal → g ∈ rest := by
  induction fields with
  | nil => simp at hf
  | cons field fields ih =>
    obtain ⟨hgt, hs⟩ := pairwise_cons.1 hs
    rcases mem_cons.1 hf with rfl | hf
    · refine ⟨fields, dropWhile_cons_of_neg (by simp), suffix_rfl, ?_⟩
      intro g hg hlt
      rcases mem_cons.1 hg with rfl | hg
      · exact absurd hlt (lt_irrefl _)
      · exact hg
    · obtain ⟨rest, hdrop, hsuffix, hlater⟩ := ih hs hf
      have hlt : field.ordinal < f.ordinal := hgt f hf
      refine ⟨rest, ?_, hsuffix.trans (suffix_cons _ _), ?_⟩
      · rw [dropWhile_cons_of_pos (by simpa using hlt)]
        exact hdrop
      · intro g hg hlt'
        rcases mem_cons.1 hg with rfl | hg
        · exact absurd (lt_trans hlt hlt') (lt_irrefl _)
        · exact hlater g hg hlt'

/-- One envelope of a table whose ordinal is the one of a field that remains. -/
theorem checkEnvelope_eq_ok (hf : f.ordinal = e.ordinal)
    (h : checkEnvelope c levels check tableEnd e (f :: rest) payloadCursor = .ok fields) :
    fields = rest ∧ ∃ r, validateSelectedPayload c levels check f.ty e.payload
      ⟨payloadCursor, tableEnd⟩ = .ok r := by
  rw [checkEnvelope, if_pos hf] at h
  simp only [run_eq_ok] at h
  obtain ⟨_, r, hr, rfl⟩ := h
  exact ⟨rfl, r, hr⟩

/-- The fields of the descriptor that are left behind an envelope: those with smaller ordinals are
absent, and the one with the same ordinal is used up. -/
def remaining (fields : List (TableFieldDescriptor TypeDescriptor)) (e : Envelope) :
    List (TableFieldDescriptor TypeDescriptor) :=
  match fields.dropWhile (·.ordinal < e.ordinal) with
  | [] => []
  | field :: rest => if field.ordinal = e.ordinal then rest else field :: rest

theorem checkEnvelope_rest {fields later : List (TableFieldDescriptor TypeDescriptor)}
    (h : checkEnvelope c levels check tableEnd e (fields.dropWhile (·.ordinal < e.ordinal))
      payloadCursor = .ok later) : later = remaining fields e := by
  unfold remaining
  cases hdrop : fields.dropWhile (·.ordinal < e.ordinal) with
  | nil =>
    rw [hdrop] at h
    exact (Except.ok.inj h).symm
  | cons g =>
    rw [hdrop] at h
    by_cases hg : g.ordinal = e.ordinal
    · rw [(checkEnvelope_eq_ok hg h).1]
      simp only [hg, if_true]
    · rw [checkEnvelope, if_neg hg] at h
      rw [← Except.ok.inj h]
      simp only [hg, if_false]

theorem remaining_suffix (fields : List (TableFieldDescriptor TypeDescriptor)) (e : Envelope) :
    remaining fields e <:+ fields := by
  have hdrop := dropWhile_suffix (l := fields) (fun f => decide (f.ordinal < e.ordinal))
  unfold remaining
  split
  case h_1 => exact nil_suffix
  case h_2 g gs heq =>
    rw [heq] at hdrop
    split
    · exact (suffix_cons _ _).trans hdrop
    · exact hdrop

/-- What is left holds every field with a later ordinal. -/
theorem mem_remaining (hf : f ∈ fields) (hlt : e.ordinal < f.ordinal) : f ∈ remaining fields e := by
  have hkeep : f ∈ fields.dropWhile (·.ordinal < e.ordinal) := by
    rw [← takeWhile_append_dropWhile (p := fun f => decide (f.ordinal < e.ordinal)) (l := fields)] at hf
    rcases mem_append.1 hf with hf | hf
    · have := mem_takeWhile_imp hf
      simp only [decide_eq_true_eq] at this
      omega
    · exact hf
  unfold remaining
  split
  case h_1 heq =>
    rw [heq] at hkeep
    cases hkeep
  case h_2 g gs heq =>
    rw [heq] at hkeep
    split
    case isTrue hg =>
      rcases mem_cons.1 hkeep with rfl | hmem
      · omega
      · exact hmem
    case isFalse => exact hkeep

/-! ### The fields of a table -/

section

variable {body : List UInt8} {tableStart : ℕ} {indices : List ℕ} {es : List Envelope}
  (he : envelopesAt body tableStart indices = .ok es)

include he

/-- The search for an ordinal finds the envelope that has it. -/
theorem findEnvelope_of_mem (hs : es.Pairwise (fun e e' => e.ordinal < e'.ordinal)) (hmem : e ∈ es)
    : findEnvelope body tableStart e.ordinal indices = .ok (some e.payload) := by
  induction indices generalizing es with
  | nil =>
    cases he
    simp at hmem
  | cons index rest ih =>
    obtain ⟨e', es', hat, he', rfl⟩ := envelopesAt_cons.1 he
    obtain ⟨hgt, hs⟩ := pairwise_cons.1 hs
    rw [findEnvelope, hat, ok_bind]
    rcases mem_cons.1 hmem with rfl | hmem
    · rw [if_pos rfl]
      rfl
    · have hlt : e'.ordinal < e.ordinal := hgt e hmem
      rw [if_neg (by omega), if_neg (by omega)]
      exact ih he' hs hmem

/-- The search never fails among envelopes that can be read. -/
theorem exists_findEnvelope (ordinal : ℕ) :
    ∃ view, findEnvelope body tableStart ordinal indices = .ok view := by
  induction indices generalizing es with
  | nil => exact ⟨none, rfl⟩
  | cons index rest ih =>
    obtain ⟨e, es', hat, he', rfl⟩ := envelopesAt_cons.1 he
    rw [findEnvelope, hat, ok_bind]
    split
    · exact ⟨_, rfl⟩
    · split
      · exact ⟨_, rfl⟩
      · exact ih he'

/-- What the search finds is the payload of an envelope with the ordinal. -/
theorem mem_of_findEnvelope {ordinal : ℕ} {p : Option PayloadRange}
    (h : findEnvelope body tableStart ordinal indices = .ok (some p)) :
    ∃ e ∈ es, e.ordinal = ordinal ∧ e.payload = p := by
  induction indices generalizing es with
  | nil => cases h
  | cons index rest ih =>
    obtain ⟨e, es', hat, he', rfl⟩ := envelopesAt_cons.1 he
    rw [findEnvelope, hat, ok_bind] at h
    split at h
    case isTrue ho =>
      exact ⟨e, mem_cons_self, ho, Option.some.inj (Except.ok.inj h)⟩
    case isFalse =>
      split at h
      case isTrue => cases h
      case isFalse =>
        obtain ⟨e', hmem, ho, hp⟩ := ih he' h
        exact ⟨e', mem_cons_of_mem _ hmem, ho, hp⟩

end

/-- What the validator and the accessors find in the table at `start`: the reference, and the
envelopes with their ordinals in increasing order. -/
structure TableRun (c : SchemaContext) (levels : ℕ) (table : TableDescriptor TypeDescriptor)
    (start : ℕ) (cursor result : Cursor) (r : TableRef) (es : List Envelope) : Prop where
  ref : tableRef c.body start = .ok r
  reserved : r.reserved = 0 ∧ r.reservedTail = 0
  length : es.length = r.fieldCount
  sorted : es.Pairwise (fun e e' => e.ordinal < e'.ordinal)
  ordinals : tableOrdinals c.body start = .ok (es.map (·.ordinal))
  found : ∀ e ∈ es, tableField c.body start e.ordinal = .ok (some e.payload)
  total : ∀ o, ∃ view, tableField c.body start o = .ok view
  only : ∀ o p, tableField c.body start o = .ok (some p) → ∃ e ∈ es, e.ordinal = o ∧ e.payload = p
  region : (r.fieldCount = 0 ∧ r.relativeOffset = 0 ∧ r.regionBytes = 0 ∧ result = cursor) ∨
    (r.fieldCount ≠ 0 ∧ start + r.relativeOffset = cursor.next ∧
      envelopesAt c.body cursor.next (List.range r.fieldCount) = .ok es ∧
      checkTable c levels (validateValue c levels) cursor.next (cursor.next + r.regionBytes)
        (List.range r.fieldCount) table.fields (cursor.next + r.fieldCount * 24) =
        .ok (cursor.next + r.regionBytes) ∧ result = { cursor with next := cursor.next + r.regionBytes })

theorem exists_tableRun {table : TableDescriptor TypeDescriptor} {cursor result : Cursor}
    (h : validateTable c levels (validateValue c levels) table start cursor = .ok result) :
    ∃ r es, TableRun c levels table start cursor result r es := by
  obtain ⟨r, hr, hres, htail, hregion⟩ := validateTable_eq_ok h
  rcases hregion with ⟨hc, ho, hb, rfl⟩ | ⟨hc, ht, hlt, ⟨es, hes, hs⟩, hcheck, rfl⟩
  · have hfield : ∀ o, tableField c.body start o = .ok none := by
      intro o
      rw [tableField, hr, ok_bind, if_pos hc]
      rfl
    refine ⟨r, [], hr, ⟨hres, htail⟩, hc.symm, .nil, ?_, by simp,
      fun o => ⟨none, hfield o⟩, ?_, .inl ⟨hc, ho, hb, rfl⟩⟩
    · rw [tableOrdinals, hr, ok_bind, if_pos hc]
      rfl
    · intro o p hp
      rw [hfield o] at hp
      cases hp
  · have hstart : add start r.relativeOffset = .ok cursor.next := add_eq_ok.2 ⟨hlt, ht.symm⟩
    have hfield : ∀ o, tableField c.body start o =
        findEnvelope c.body cursor.next o (range r.fieldCount) := by
      intro o
      rw [tableField, hr, ok_bind, if_neg hc, hstart, ok_bind]
    refine ⟨r, es, hr, ⟨hres, htail⟩, ?_, hs, ?_, ?_, ?_, ?_, .inr ⟨hc, ht, hes, hcheck, rfl⟩⟩
    · rw [length_envelopesAt hes, length_range]
    · rw [tableOrdinals, hr, ok_bind, if_neg hc, hstart, ok_bind, hes]
      rfl
    · intro e he
      rw [hfield]
      exact findEnvelope_of_mem hes hs he
    · intro o
      rw [hfield]
      exact exists_findEnvelope hes o
    · intro o p hp
      rw [hfield] at hp
      exact mem_of_findEnvelope hes hp

theorem readTableField_eq_some {read : TypeDescriptor → ℕ → Outcome BodyError Value}
    {w : Option Value} (h : readTableField read body start f = .ok (some w)) :
    ∃ p, tableField body start f.ordinal = .ok (some p) ∧ readPayload read f.ty p = .ok w := by
  simp only [readTableField, bind_eq_ok] at h
  obtain ⟨view, hview, h⟩ := h
  cases view with
  | none => cases h
  | some p =>
    simp only [run_eq_ok, Option.some.injEq] at h
    obtain ⟨_, hp, rfl⟩ := h
    exact ⟨p, hview, hp⟩

theorem readTableField_of_some {read : TypeDescriptor → ℕ → Outcome BodyError Value}
    {p : Option PayloadRange} {x : Option (Option Value)}
    (hp : tableField body start f.ordinal = .ok (some p)) (h : readTableField read body start f = .ok x) :
    ∃ w, x = some w ∧ readPayload read f.ty p = .ok w := by
  simp only [readTableField, hp, ok_bind, run_eq_ok] at h
  obtain ⟨w, hw, rfl⟩ := h
  exact ⟨w, rfl, hw⟩

/-! ### Accepted values can be read -/

/-- At some number of levels, the accessors read every value that the validator accepts. -/
def Readable (c : SchemaContext) (levels : ℕ) : Prop :=
  ∀ (d : TypeDescriptor) (start : ℕ) (κ r : Cursor), Valid d →
    validateValue c levels d start κ = .ok r → ∃ v, materialize c.body levels d start = .ok v

namespace Readable

variable {c : SchemaContext} {levels start : ℕ} {r κ : Cursor} {p : Option PayloadRange}
  {indices : List ℕ} {es : List Envelope}

section

variable (ih : Readable c levels)

include ih

theorem payload {d : TypeDescriptor} (hd : Valid d)
    (h : validateSelectedPayload c levels (validateValue c levels) d p κ = .ok r) :
    ∃ w, readPayload (materialize c.body levels) d p = .ok w := by
  rcases validateSelectedPayload_eq_ok h with ⟨_, rfl, _⟩ | ⟨_, range, rfl, _, ha, _⟩
  · exact ⟨none, rfl⟩
  · obtain ⟨_, _, _, _, hv, _⟩ := validateAllocation_eq_ok ha
    obtain ⟨v, hv⟩ := ih d _ _ _ hd hv
    exact ⟨some v, by rw [readPayload, hv]; rfl⟩

/-- The accessors look for a selected payload at its start, and for the unit anywhere. -/
theorem atStart {d : TypeDescriptor} (hd : Valid d)
    (h : validateSelectedPayload c levels (validateValue c levels) d p κ = .ok r) :
    ∃ v, materialize c.body levels d (payloadStart p) = .ok v := by
  have hlevels : levels ≠ 0 := by
    intro hz
    simp [validateSelectedPayload, hz, rejectIf] at h
  rcases validateSelectedPayload_eq_ok h with ⟨hu, rfl, _⟩ | ⟨_, range, rfl, _, ha, _⟩
  · obtain ⟨n, rfl⟩ := Nat.exists_eq_succ_of_ne_zero hlevels
    exact ⟨.unit, by simp only [materialize, kind_of_isUnit hu]⟩
  · obtain ⟨_, _, _, _, hv, _⟩ := validateAllocation_eq_ok ha
    exact ih d _ _ _ hd hv

theorem structureFields {bytes previousEnd : ℕ} {fields : List (StructureFieldDescriptor TypeDescriptor)}
    (hd : ∀ field ∈ fields, Valid field.ty)
    (h : checkFields c (validateValue c levels) bytes start fields previousEnd κ = .ok r) :
    ∃ vs, readFields (materialize c.body levels) start fields = .ok vs := by
  induction fields generalizing previousEnd κ with
  | nil => exact ⟨[], rfl⟩
  | cons field fields step =>
    simp only [checkFields, run_eq_ok, add_eq_ok] at h
    obtain ⟨_, _, _, _, _, _, _, _, _, ⟨hlt, rfl⟩, _, _, m, hm, h⟩ := h
    obtain ⟨v, hv⟩ := ih _ _ _ _ (hd field mem_cons_self) hm
    obtain ⟨vs, hvs⟩ := step (fun f hf => hd f (mem_cons_of_mem _ hf)) h
    refine ⟨v :: vs, ?_⟩
    rw [readFields, add_eq_ok.2 ⟨hlt, rfl⟩, ok_bind, hv, hvs]
    rfl

theorem elements {element : TypeDescriptor} {target stride n : ℕ} (hd : Valid element)
    (h : checkElements (validateValue c levels) element target stride indices κ = .ok r) :
    ∃ vs, readElements (materialize c.body levels) element ⟨target, n, stride⟩ indices = .ok vs := by
  induction indices generalizing κ with
  | nil => exact ⟨[], rfl⟩
  | cons index rest step =>
    simp only [checkElements, bind_eq_ok] at h
    obtain ⟨s, hs, m, hm, h⟩ := h
    obtain ⟨v, hv⟩ := ih _ _ _ _ hd hm
    obtain ⟨vs, hvs⟩ := step h
    refine ⟨v :: vs, ?_⟩
    rw [readElements, show elementStart target stride index = .ok s from hs, ok_bind, hv, hvs]
    rfl

end

/-- Every field that has an envelope is checked with its payload, at a cursor that does not depend on
how payloads are checked. -/
theorem selected {tableStart tableEnd : ℕ} (hs : fields.Pairwise (fun f g => f.ordinal < g.ordinal))
    (he : envelopesAt c.body tableStart indices = .ok es)
    (hes : es.Pairwise (fun e e' => e.ordinal < e'.ordinal)) :
    ∀ f ∈ fields, ∀ e ∈ es, f.ordinal = e.ordinal → ∃ κ, ∀ (check : Check) (left : ℕ),
      checkTable c levels check tableStart tableEnd indices fields payloadCursor = .ok left →
        ∃ r, validateSelectedPayload c levels check f.ty e.payload κ = .ok r := by
  induction indices generalizing fields payloadCursor es with
  | nil =>
    cases he
    simp
  | cons index rest step =>
    obtain ⟨e0, es, hat, hrest, rfl⟩ := envelopesAt_cons.1 he
    obtain ⟨hgt, hes⟩ := pairwise_cons.1 hes
    intro f hf e hmem ho
    rcases mem_cons.1 hmem with rfl | hmem
    · refine ⟨⟨payloadCursor, tableEnd⟩, fun check left h => ?_⟩
      simp only [checkTable, bind_eq_ok, hat, Except.ok.injEq, exists_eq_left'] at h
      obtain ⟨_, hskip, later, hcheck, h⟩ := h
      obtain rfl := skipFields_eq_ok hskip
      obtain ⟨gs, hgs, _⟩ := dropWhile_of_mem hs hf
      rw [← ho, hgs] at hcheck
      exact (checkEnvelope_eq_ok ho hcheck).2
    · have hlater := mem_remaining hf (show e0.ordinal < f.ordinal from ho ▸ hgt e hmem)
      obtain ⟨κ, hκ⟩ := step (hs.sublist (remaining_suffix fields e0).sublist) hrest hes f
        hlater e hmem ho
      refine ⟨κ, fun check left h => ?_⟩
      simp only [checkTable, bind_eq_ok, hat, Except.ok.injEq, exists_eq_left'] at h
      obtain ⟨_, hskip, later, hcheck, h⟩ := h
      obtain rfl := skipFields_eq_ok hskip
      obtain rfl := checkEnvelope_rest hcheck
      exact hκ check left h

theorem tableField (ih : Readable c levels) {table : TableDescriptor TypeDescriptor} {r : TableRef}
    (hd : ∀ f ∈ table.fields, Valid f.ty) (hs : table.fields.Pairwise (fun f g => f.ordinal < g.ordinal))
    (run : TableRun c levels table start κ s r es) (hf : f ∈ table.fields) :
    ∃ x, readTableField (materialize c.body levels) c.body start f = .ok x := by
  obtain ⟨view, hview⟩ := run.total f.ordinal
  rw [readTableField, hview]
  cases view with
  | none => exact ⟨none, rfl⟩
  | some =>
    obtain ⟨e, he, ho, rfl⟩ := run.only _ _ hview
    rcases run.region with ⟨hc, _⟩ | ⟨_, _, hes, hcheck, _⟩
    · have hempty : es = [] := length_eq_zero_iff.1 (run.length.trans hc)
      rw [hempty] at he
      cases he
    · obtain ⟨_, hsel⟩ := selected hs hes run.sorted f hf e he ho.symm
      obtain ⟨_, hsel⟩ := hsel _ _ hcheck
      obtain ⟨w, hw⟩ := ih.payload (hd f hf) hsel
      exact ⟨some w, by simp only [hw, ok_bind, pure_eq_ok]⟩

theorem table (h : ∀ f ∈ fields, ∃ x, readTableField (materialize c.body levels) c.body start f = .ok x) :
    ∃ vs, readTable (materialize c.body levels) c.body start fields = .ok vs := by
  induction fields with
  | nil => exact ⟨[], rfl⟩
  | cons f fields ih =>
    obtain ⟨x, hx⟩ := h f mem_cons_self
    obtain ⟨xs, hxs⟩ := ih fun g hg => h g (mem_cons_of_mem _ hg)
    exact ⟨x :: xs, by simp only [readTable, hx, hxs, ok_bind, pure_eq_ok]⟩

end Readable

/-- The accessors read every value that the validator accepts. -/
theorem readable (c : SchemaContext) (levels : ℕ) : Readable c levels := by
  induction levels with
  | zero =>
    rintro d start κ r _ h
    cases h
  | succ levels ih =>
    intro d start κ r hd h
    simp only [materialize]
    cases hk : d.kind with
    | unit => exact ⟨_, rfl⟩
    | primitive kind =>
      obtain ⟨_, hv, _⟩ := validateNode_kind hk h
      cases kind with
      | id128 =>
        obtain ⟨bs, hbs, _⟩ := bind_eq_ok.1 hv
        exact ⟨.id bs, by simp only [hbs, ok_bind, pure_eq_ok]⟩
      | _ =>
        obtain ⟨raw, hraw, _⟩ := bind_eq_ok.1 hv
        exact ⟨.integer raw, by simp only [hraw, ok_bind, pure_eq_ok]⟩
    | bytes =>
      obtain ⟨bs, hbs, _⟩ := exists_materializedSlice (validateNode_kind hk h)
      exact ⟨.bytes bs, by simp only [hbs, ok_bind, pure_eq_ok]⟩
    | string =>
      obtain ⟨bs, hbs, htext⟩ := exists_materializedSlice (validateNode_kind hk h)
      refine ⟨.string bs, ?_⟩
      simp only [hbs, ok_bind, rejectIf_of_not (show ¬ isUtf8 bs = false by simp [htext rfl]), pure_eq_ok]
    | struct =>
      obtain ⟨vs, hvs⟩ := ih.structureFields (hd.fields hk) (validateNode_kind hk h)
      exact ⟨.struct vs, by simp only [hvs, ok_bind, pure_eq_ok]⟩
    | vector maximum element =>
      obtain ⟨ref, stride, href, _, _, hst, h⟩ := validateVector_eq_ok (validateNode_kind hk h)
      rcases h with ⟨hc, _⟩ | ⟨hc, ht, hlt, _, inner, _, _, _, hin, _⟩
      · have hview : vectorView c.body element start = .ok ⟨0, 0, 0⟩ := by
          rw [vectorView, href, ok_bind, if_pos hc]
          rfl
        exact ⟨.vector [], by simp only [hview]; rfl⟩
      · have hview : vectorView c.body element start = .ok ⟨κ.next, ref.count, stride⟩ := by
          rw [vectorView, href, ok_bind, if_neg hc, add_eq_ok.2 ⟨hlt, ht.symm⟩, hst]
          rfl
        obtain ⟨vs, hvs⟩ := ih.elements (n := ref.count) (hd.element hk) hin
        exact ⟨.vector vs, by simp only [hview, ok_bind, hvs, pure_eq_ok]⟩
    | optional =>
      rcases validateOptional_eq_ok (validateNode_kind hk h) with ⟨_, hs, hz, _⟩ | ⟨e, he, ho, h⟩
      · exact ⟨.optional none, by simp only [optionalView_zero hs hz, ok_bind, pure_eq_ok]⟩
      · obtain ⟨v, hv⟩ := ih.atStart (hd.value hk) h
        exact ⟨.optional (some v), by simp only [optionalView_one he ho, ok_bind, hv, pure_eq_ok]⟩
    | table =>
      obtain ⟨ref, es, run⟩ := exists_tableRun (validateNode_kind hk h)
      obtain ⟨hs, hvalid⟩ := hd.table hk
      obtain ⟨vs, hvs⟩ := Readable.table fun f hf => ih.tableField hvalid hs run hf
      exact ⟨.table vs, by simp only [hvs, ok_bind, pure_eq_ok]⟩
    | closedEnum =>
      have he := (validateNode_kind hk h).2.1
      simp only [validateClosedEnum, bind_eq_ok] at he
      obtain ⟨_, _, _, _, raw, hraw, _⟩ := he
      exact ⟨.enumeration raw, by simp only [hraw, ok_bind, pure_eq_ok]⟩
    | closedUnion =>
      obtain ⟨e, x, he, hx, h⟩ := validateClosedUnion_eq_ok (hd.alternative hk) (validateNode_kind hk h)
      rcases h with ⟨hp, hn, _⟩ | ⟨v, range, hp, hr, hv, h⟩
      · exact ⟨.union e.ordinal none, by
          simp only [unionView, he, hx, okOr_some, ok_bind, hp, hn, pure_eq_ok]⟩
      · obtain ⟨w, hw⟩ := ih.atStart hv h
        refine ⟨.union e.ordinal (some w), ?_⟩
        simp only [unionView, he, hx, okOr_some, ok_bind, hp, hr, pure_eq_ok]
        rw [show materialize c.body levels v range.start = .ok w from hw]
        rfl

end NSWP

namespace NSWP

open Bytes Rust NoTrap

variable {a b maximum payloadCursor previous previousEnd start stop tableEnd tableStart visits : ℕ}
  {body : List UInt8} {utf8 : Bool} {indices : List ℕ} {cursor : Cursor} {layout : InlineLayout}
  {bound : BoundProtocol} {d element : TypeDescriptor} {enumeration : ClosedEnumDescriptor}
  {table : TableDescriptor TypeDescriptor} {fields : List (TableFieldDescriptor TypeDescriptor)}
  {alternatives : List (UnionAlternativeDescriptor TypeDescriptor)}

/-! ### Reads -/

@[simp] theorem noTrap_add : NoTrap (add a b) := noTrap_okOr

@[simp] theorem noTrap_mul : NoTrap (mul a b) := noTrap_okOr

@[simp] theorem noTrap_alignUp {value alignment : ℕ} : NoTrap (alignUp value alignment) := by
  simp [alignUp, noTrap_bind]

@[simp] theorem noTrap_requireLayout {actual expected : InlineLayout} :
    NoTrap (requireLayout actual expected) := noTrap_rejectIf

@[simp] theorem noTrap_validateLayout : NoTrap (validateLayout layout) :=
  noTrap_rejectIf

@[simp] theorem noTrap_descriptorInlineBytes : NoTrap (descriptorInlineBytes d) := by
  simp [descriptorInlineBytes, noTrap_bind]

@[simp] theorem noTrap_elementStride : NoTrap (elementStride d) := by
  simp [elementStride, noTrap_bind]

@[simp] theorem noTrap_sliceAt {n : ℕ} : NoTrap (sliceAt body start n) := by
  simp [sliceAt, noTrap_bind]

@[simp] theorem noTrap_requireTarget {actual expected : ℕ} : NoTrap (requireTarget actual expected) := by
  simp [requireTarget, noTrap_bind]

@[simp] theorem noTrap_requireZero : NoTrap (requireZero body start stop) := by
  simp [requireZero, noTrap_bind]

/-- A slice that was cut out has the length that was asked for, so that its words are there. -/
theorem noTrap_getWord {start n o w : ℕ} {bytes : List UInt8} (h : sliceAt body start n = .ok bytes)
    (ho : o + w ≤ n) : NoTrap (getWord bytes o w) := by
  obtain ⟨_, hle, rfl⟩ := sliceAt_eq_ok.1 h
  rw [getWord_slice hle ho]
  exact noTrap_ok

@[simp] theorem noTrap_readScalar {w : ℕ} : NoTrap (readScalar body start w) := by
  unfold readScalar
  split
  · simp [noTrap_bind]
  · exact noTrap_sliceAt.bind fun _ h => noTrap_getWord h (by omega)

@[simp] theorem noTrap_sliceRef : NoTrap (sliceRef body start) := by
  rw [sliceRef_eq]
  simp [noTrap_bind]

@[simp] theorem noTrap_tableRef : NoTrap (tableRef body start) := by
  rw [tableRef_eq]
  simp [noTrap_bind]

@[simp] theorem noTrap_parseEnvelope : NoTrap (parseEnvelope body start) := by
  cases h : sliceAt body start envelopeBytes with
  | error e =>
    have he : NoTrap (.error e : Outcome BodyError (List UInt8)) := h ▸ noTrap_sliceAt
    rw [parseEnvelope, h]
    exact he.bind fun _ h => by cases h
  | ok =>
    obtain ⟨_, _, rfl⟩ := sliceAt_eq_ok.1 h
    rw [parseEnvelope_slice h]
    refine rejectIf_bind fun _ => ite (fun _ => noTrap_ok) fun _ => ?_
    simp [noTrap_bind]

@[simp] theorem noTrap_envelopeAt {index : ℕ} : NoTrap (envelopeAt body tableStart index) := by
  simp [envelopeAt, noTrap_bind]

@[simp] theorem noTrap_requireUtf8 {count : ℕ} : NoTrap (requireUtf8 body utf8 start count) := by
  unfold requireUtf8
  split <;> simp [noTrap_bind]

@[simp] theorem noTrap_validatePrimitive {kind : PrimitiveKind} :
    NoTrap (validatePrimitive body start kind) := by
  cases kind <;> simp [validatePrimitive, readPrimitiveRaw, noTrap_bind]

/-! ### Descriptors -/

@[simp] theorem noTrap_checkIncreasing {ns : List ℕ} : NoTrap (checkIncreasing previous ns) := by
  induction ns generalizing previous with
  | nil => exact noTrap_ok
  | cons n ns ih => simp [checkIncreasing, noTrap_bind, ih]

@[simp] theorem noTrap_checkTableFields : NoTrap (checkTableFields table previous fields) := by
  induction fields generalizing previous with
  | nil => exact noTrap_ok
  | cons field fields ih => simp [checkTableFields, validateFeatureIds, noTrap_bind, ih]

@[simp] theorem noTrap_checkRanges {ranges : List OrdinalRange} :
    NoTrap (checkRanges previousEnd ranges) := by
  induction ranges generalizing previousEnd with
  | nil => exact noTrap_ok
  | cons range ranges ih => simp [checkRanges, noTrap_bind, ih]

@[simp] theorem noTrap_checkEnumValues {previous : Option ℕ} {values : List ℕ} :
    NoTrap (checkEnumValues maximum previous values) := by
  induction values generalizing previous with
  | nil => exact noTrap_ok
  | cons value values ih => simp [checkEnumValues, noTrap_bind, ih]

@[simp] theorem noTrap_validateEnumDescriptor : NoTrap (validateEnumDescriptor enumeration) := by
  simp [validateEnumDescriptor, noTrap_bind]

@[simp] theorem noTrap_checkAlternatives : NoTrap (checkAlternatives previous alternatives) := by
  induction alternatives generalizing previous with
  | nil => exact noTrap_ok
  | cons x xs ih =>
    refine rejectIf_bind fun _ => ?_
    split <;> simp [noTrap_bind, ih]

theorem noTrap_visitAll {visit : TypeDescriptor → ℕ → Outcome BodyError ℕ}
    (hvisit : ∀ {d visits}, NoTrap (visit d visits)) {ds : List TypeDescriptor} :
    NoTrap (visitAll visit ds visits) := by
  induction ds generalizing visits with
  | nil => exact noTrap_ok
  | cons d ds ih => simp [visitAll, noTrap_bind, hvisit, ih]

theorem noTrap_checkStructureFields {visit : TypeDescriptor → ℕ → Outcome BodyError ℕ}
    (hvisit : ∀ {d visits}, NoTrap (visit d visits)) {bytes : ℕ}
    {fields : List (StructureFieldDescriptor TypeDescriptor)} {greatest : ℕ} :
    NoTrap (checkStructureFields visit bytes fields previousEnd greatest visits) := by
  induction fields generalizing previousEnd greatest visits with
  | nil => exact noTrap_ok
  | cons field fields ih => simp [checkStructureFields, noTrap_bind, hvisit, ih]

theorem noTrap_validateTypeDescriptor {nesting : ℕ} : NoTrap (validateTypeDescriptor nesting d visits) := by
  induction nesting generalizing d visits with
  | zero => exact noTrap_fail
  | succ nesting ih =>
    refine rejectIf_bind fun _ => noTrap_validateLayout.bind fun _ _ => ?_
    split
    all_goals simp [noTrap_bind, validateTableDescriptor, validateUnionDescriptor, ih,
      noTrap_visitAll ih, noTrap_checkStructureFields ih]

@[simp] theorem noTrap_validateDescriptorGraph {root : TypeDescriptor} :
    NoTrap (validateDescriptorGraph root) :=
  noTrap_validateTypeDescriptor.bind fun _ _ => noTrap_ok

/-! ### The validator -/

section

variable {ctx : SchemaContext} {check : Check} {levels : ℕ}

theorem noTrap_validateBytesLike : NoTrap (validateBytesLike ctx start maximum utf8 cursor) := by
  refine noTrap_sliceRef.bind fun _ _ => rejectIf_bind fun _ => ?_
  refine rejectIf_bind fun _ => ite (fun _ => ?_) fun _ => ?_
  · simp [noTrap_bind]
  · simp [noTrap_bind]

theorem noTrap_validateClosedEnum : NoTrap (validateClosedEnum ctx layout enumeration start) := by
  simp [validateClosedEnum, readRepr, noTrap_bind]

theorem noTrap_prevalidateEnvelopes {previous : Option ℕ} :
    NoTrap (prevalidateEnvelopes ctx levels table tableStart stop indices previous payloadCursor) := by
  induction indices generalizing previous payloadCursor with
  | nil => exact noTrap_ok
  | cons index rest ih =>
    refine noTrap_envelopeAt.bind fun envelope _ => rejectIf_bind fun _ => ?_
    refine rejectIf_bind fun _ => rejectIf_bind fun _ => ?_
    refine rejectIf_bind fun _ => rejectIf_bind fun _ => ?_
    refine bind ?_ fun _ _ => ih
    cases envelope.payload <;> simp [requirePlacement, noTrap_bind]

theorem noTrap_skipFields {ordinal : ℕ} : NoTrap (skipFields bound ordinal fields) := by
  induction fields with
  | nil => exact noTrap_ok
  | cons field fields ih =>
    exact ite (fun _ => noTrap_rejectIf.bind fun _ _ => ih) fun _ => noTrap_ok

theorem noTrap_requireFields : NoTrap (each (requireFieldIfActive bound) fields) :=
  each fun _ _ => noTrap_rejectIf

section

variable (hcheck : ∀ {d start cursor}, NoTrap (check d start cursor))

include hcheck

theorem noTrap_validateAllocation : NoTrap (validateAllocation ctx check d start stop) := by
  simp [validateAllocation, noTrap_bind, hcheck]

theorem noTrap_validateSelectedPayload {payload : Option PayloadRange} :
    NoTrap (validateSelectedPayload ctx levels check d payload cursor) := by
  refine rejectIf_bind fun _ => ite (fun _ => ?_) fun _ => ?_
  · simp [noTrap_bind]
  · simp [noTrap_bind, noTrap_validateAllocation hcheck]

theorem noTrap_checkFields {structureBytes : ℕ} {fields : List (StructureFieldDescriptor TypeDescriptor)} :
    NoTrap (checkFields ctx check structureBytes start fields previousEnd cursor) := by
  induction fields generalizing previousEnd cursor with
  | nil => simp [checkFields, noTrap_bind]
  | cons field fields ih => simp [checkFields, noTrap_bind, hcheck, ih]

theorem noTrap_checkElements {target stride : ℕ} :
    NoTrap (checkElements check element target stride indices cursor) := by
  induction indices generalizing cursor with
  | nil => exact noTrap_ok
  | cons index rest ih => simp [checkElements, elementStart, noTrap_bind, hcheck, ih]

theorem noTrap_validateVector : NoTrap (validateVector ctx check maximum element start cursor) := by
  have hpad : ∀ target stride bytes indices,
      NoTrap (each (checkElementPadding ctx target stride bytes) indices) := by
    intro target stride bytes indices
    exact each fun _ _ => by simp [checkElementPadding, elementStart, noTrap_bind]
  refine noTrap_sliceRef.bind fun _ _ => rejectIf_bind fun _ => ?_
  refine rejectIf_bind fun _ => noTrap_elementStride.bind fun _ _ => ?_
  refine ite (fun _ => by simp [noTrap_bind]) fun _ => ?_
  simp [noTrap_bind, hpad, noTrap_checkElements hcheck]

theorem noTrap_validateOptional {value : TypeDescriptor} :
    NoTrap (validateOptional ctx levels check value start cursor) := by
  refine noTrap_sliceAt.bind fun _ _ => ite (fun _ => noTrap_ok) fun _ => ?_
  refine noTrap_parseEnvelope.bind fun _ _ => rejectIf_bind fun _ => ?_
  exact noTrap_validateSelectedPayload hcheck

theorem noTrap_validateClosedUnion :
    NoTrap (validateClosedUnion ctx levels check alternatives start cursor) := by
  refine noTrap_parseEnvelope.bind fun _ _ => rejectIf_bind fun _ => ?_
  refine noTrap_okOr.bind fun _ _ => ?_
  split
  · exact noTrap_validateSelectedPayload hcheck
  · simp [noTrap_bind]

theorem noTrap_checkEnvelope {envelope : Envelope} :
    NoTrap (checkEnvelope ctx levels check tableEnd envelope fields payloadCursor) := by
  unfold checkEnvelope
  split
  · exact noTrap_ok
  · refine ite (fun _ => rejectIf_bind fun _ => ?_) fun _ => noTrap_ok
    exact (noTrap_validateSelectedPayload hcheck).bind fun _ _ => noTrap_ok

theorem noTrap_checkTable :
    NoTrap (checkTable ctx levels check tableStart tableEnd indices fields payloadCursor) := by
  induction indices generalizing fields payloadCursor with
  | nil => exact noTrap_requireFields.bind fun _ _ => noTrap_ok
  | cons index rest ih =>
    refine noTrap_envelopeAt.bind fun _ _ => noTrap_skipFields.bind fun _ _ => ?_
    exact (noTrap_checkEnvelope hcheck).bind fun _ _ => ih

theorem noTrap_validateTable : NoTrap (validateTable ctx levels check table start cursor) := by
  refine noTrap_tableRef.bind fun _ _ => rejectIf_bind fun _ => ?_
  refine rejectIf_bind fun _ => ite (fun _ => ?_) fun _ => ?_
  · refine rejectIf_bind fun _ => ?_
    exact noTrap_requireFields.bind fun _ _ => noTrap_ok
  · simp [noTrap_bind, prevalidateTableEnvelopes, noTrap_prevalidateEnvelopes, noTrap_checkTable hcheck]

/-- One level of the validator does not trap when the level below does not. -/
theorem noTrap_validateNode : NoTrap (validateNode ctx levels check d start cursor) := by
  refine noTrap_validateLayout.bind fun _ _ => noTrap_descriptorInlineBytes.bind fun _ _ => ?_
  refine noTrap_add.bind fun _ _ => rejectIf_bind fun _ => ?_
  split
  case h_5 => exact rejectIf_bind fun _ => noTrap_checkFields hcheck
  case h_9 => exact noTrap_validateClosedEnum.bind fun _ _ => noTrap_ok
  all_goals refine noTrap_requireLayout.bind fun _ _ => ?_
  case h_1 => exact noTrap_ok
  case h_2 => exact noTrap_validatePrimitive.bind fun _ _ => noTrap_ok
  case h_3 => exact noTrap_validateBytesLike
  case h_4 => exact noTrap_validateBytesLike
  case h_6 => exact noTrap_validateVector hcheck
  case h_7 => exact noTrap_validateOptional hcheck
  case h_8 => exact noTrap_validateTable hcheck
  case h_10 => exact noTrap_validateClosedUnion hcheck

end

theorem noTrap_validateValue : NoTrap (validateValue ctx levels d start cursor) := by
  induction levels generalizing d start cursor with
  | zero => exact noTrap_fail
  | succ levels ih => exact noTrap_validateNode ih

end

/-- The validator returns on every byte string, with a result or with an error of its own. -/
theorem noTrap_validateBody (schema : ProtocolBodyDescriptor) (bound : BoundProtocol)
    (limits : BodyLimits) (body : List UInt8) : NoTrap (validateBody schema bound limits body) := by
  refine rejectIf_bind fun _ => rejectIf_bind fun _ => ?_
  refine rejectIf_bind fun _ => rejectIf_bind fun _ => ?_
  refine noTrap_validateDescriptorGraph.bind fun _ _ => ?_
  exact noTrap_validateAllocation noTrap_validateValue

end NSWP
