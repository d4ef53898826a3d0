/-
**Walking through a validated NSWP body.**

A validated body is read through views: a view is a place in the body with a descriptor, and its
accessors lead to the views of its parts.  The accessors compute strides, offsets and the places of
envelopes on their own.  This module proves that they find exactly what the validator has checked:
along every walk from the root, each accessor that fits the descriptor returns, and the place it leads
to is one at which the validator has accepted a value of this type.

The validator is a function over the check of the parts of a value, so that "this part was checked" can
be said without a second, instrumented validator: the acceptance of a value *rests on* a part when no
weaker check that still accepts the value refuses the part.

* `answers_of_validateNode` — the accessors of an accepted value;
* `part_of_step` — an accessor leads to a part that was checked, inside the region of the whole;
* `validateBody_walk` — every walk through an accepted body.
-/

import NullStar.SchemaCanonical

set_option autoImplicit false

namespace NSWP

open Bytes Rust Option List

/-! ### Views -/

/-- A view of a value: where it starts in the body, and its type. -/
structure ValidatedValue where
  start : ℕ
  descriptor : TypeDescriptor

/-- A view of a field of a table; a field of the unit type has no value. -/
structure ValidatedField where
  ordinal : ℕ
  value : Option ValidatedValue

def ValidatedVector.get (view : ValidatedVector) (element : TypeDescriptor) (index : ℕ) :
    Option ValidatedValue :=
  if view.count ≤ index then none
  else do
    let offset ← checkedMul 64 index view.stride
    let start ← checkedAdd 64 view.elementsStart offset
    return ⟨start, element⟩

/-- `copy_array`; copying between ranges of different lengths traps. -/
def copyArray (n : ℕ) (bytes : List UInt8) : Outcome BodyError (Buf n) :=
  if h : bytes.length = n then .ok ⟨bytes, h⟩ else trapped

namespace ValidatedValue

section

variable (body : List UInt8) (v : ValidatedValue)

def rawInteger (expected : PrimitiveKind) : Outcome BodyError ℕ :=
  match v.descriptor.kind with
  | .primitive actual => do
    rejectIf (actual ≠ expected) .materializationMismatch
    readPrimitiveRaw body v.start actual
  | _ => fail .materializationMismatch

def bool : Outcome BodyError Bool := do
  let raw ← v.rawInteger body .bool
  if raw = 0 then return false
  else if raw = 1 then return true
  else fail .invalidBool

def u32 : Outcome BodyError ℕ := do
  let raw ← v.rawInteger body .u32
  rejectIf (2 ^ 32 ≤ raw) .materializationMismatch
  return raw

def u64 : Outcome BodyError ℕ := v.rawInteger body .u64

def id128 : Outcome BodyError (Buf 16) :=
  match v.descriptor.kind with
  | .primitive .id128 => do
    let bytes ← sliceAt body v.start 16
    copyArray 16 bytes
  | _ => fail .materializationMismatch

def string : Outcome BodyError (List UInt8) :=
  match v.descriptor.kind with
  | .string _ => do
    let bytes ← materializedSlice body v.start
    rejectIf (isUtf8 bytes = false) .invalidUtf8
    return bytes
  | _ => fail .materializationMismatch

def bytes : Outcome BodyError (List UInt8) :=
  match v.descriptor.kind with
  | .bytes _ => materializedSlice body v.start
  | _ => fail .materializationMismatch

/-- `vector`: the view, and the type of its elements. -/
def vector : Outcome BodyError (ValidatedVector × TypeDescriptor) :=
  match v.descriptor.kind with
  | .vector _ element => do
    let view ← vectorView body element v.start
    return (view, element)
  | _ => fail .materializationMismatch

end

def structureField (v : ValidatedValue) (index : ℕ) : Outcome BodyError (Option ValidatedValue) :=
  match v.descriptor.kind with
  | .struct fields =>
    match fields[index]? with
    | none => .ok none
    | some field => do
      let start ← add v.start field.offset
      return some ⟨start, field.ty⟩
  | _ => fail .materializationMismatch

section

variable (body : List UInt8) (v : ValidatedValue)

/-- `table_field`.  The source finds the field of the descriptor by bisection; in a valid descriptor
the fields are sorted. -/
def tableField (ordinal : ℕ) : Outcome BodyError (Option ValidatedField) :=
  match v.descriptor.kind with
  | .table table =>
    match table.fields.find? (·.ordinal = ordinal) with
    | none => .ok none
    | some field => do
      let found ← NSWP.tableField body v.start ordinal
      return found.map fun payload =>
        ⟨ordinal, payload.map fun range => ⟨range.start, field.ty⟩⟩
  | _ => fail .materializationMismatch

def enumRaw : Outcome BodyError ℕ :=
  match v.descriptor.kind with
  | .closedEnum enumeration => readRepr body v.start enumeration.repr
  | _ => fail .materializationMismatch

/-- `union`: the ordinal, and the payload. -/
def union : Outcome BodyError (ℕ × Option ValidatedValue) :=
  match v.descriptor.kind with
  | .closedUnion alternatives => do
    let view ← unionView body alternatives v.start
    return (view.ordinal, view.payload.map fun payload => ⟨payload.2, payload.1⟩)
  | _ => fail .materializationMismatch

def optional : Outcome BodyError (Option ValidatedValue) :=
  match v.descriptor.kind with
  | .optional value => do
    let view ← optionalView body v.start
    return view.map fun start => ⟨start, value⟩
  | _ => fail .materializationMismatch

end

end ValidatedValue

/-- One accessor leads from a view to the view of a part. -/
inductive Step (body : List UInt8) (v w : ValidatedValue) : Prop where
  | field {index : ℕ} (h : v.structureField index = .ok (some w))
  | element {view : ValidatedVector} {element : TypeDescriptor} {index : ℕ}
      (h : v.vector body = .ok (view, element)) (hw : view.get element index = some w)
  | tableField {ordinal : ℕ} {field : ValidatedField}
      (h : v.tableField body ordinal = .ok (some field)) (hw : field.value = some w)
  | optional (h : v.optional body = .ok (some w))
  | payload {ordinal : ℕ} (h : v.union body = .ok (ordinal, some w))

/-- What a sequence of accessors reaches. -/
abbrev Walk (body : List UInt8) : ValidatedValue → ValidatedValue → Prop :=
  Relation.ReflTransGen (Step body)

/-! ### The checks that an acceptance rests on -/

/-- Whatever the first check accepts, the second accepts with the same result. -/
def Check.Weaker (check' check : Check) : Prop :=
  ∀ d start cursor r, check' d start cursor = .ok r → check d start cursor = .ok r

/-- The run over the check of the parts rests on this part: no weaker check with which the run is
accepted refuses it. -/
def RestsOn {α : Type} (run : Check → Outcome BodyError α) (check : Check) (d : TypeDescriptor)
    (start : ℕ) (cursor : Cursor) : Prop :=
  ∀ check' : Check, check'.Weaker check → ∀ a, run check' = .ok a → ∃ r, check' d start cursor = .ok r

/-- The acceptance of the body rests on this call of `validate_value`, with this number of levels
left. -/
inductive Visited (ctx : SchemaContext) (root : TypeDescriptor) :
    ℕ → TypeDescriptor → ℕ → Cursor → Prop where
  | root {start : ℕ} {cursor : Cursor}
      (h : RestsOn (fun check => validateAllocation ctx check root 0 ctx.body.length)
        (validateValue ctx ctx.limits.maxDepth) root start cursor) :
      Visited ctx root ctx.limits.maxDepth root start cursor
  | part {levels : ℕ} {d d' : TypeDescriptor} {start start' : ℕ} {cursor cursor' : Cursor}
      (h : Visited ctx root (levels + 1) d start cursor)
      (hp : RestsOn (fun check => validateNode ctx levels check d start cursor)
        (validateValue ctx levels) d' start' cursor') : Visited ctx root levels d' start' cursor'

/-- The bytes that belong to a value: its inline part, and what the cursor passes. -/
def region (d : TypeDescriptor) (start : ℕ) (cursor result : Cursor) : Set ℕ :=
  {i | (start ≤ i ∧ i < start + d.layout.bytes) ∨ (cursor.next ≤ i ∧ i < result.next)}

/-- The number of bytes that a string of `n` bytes takes in its region. -/
def padded (n : ℕ) : ℕ := (n + 7) / 8 * 8

/-- The accessors of the view return, and what they return is what the validator has seen: scalars are
the inline bytes, strings are the bytes behind the cursor, and an index or an ordinal without a part is
answered with nothing. -/
def Answers (body : List UInt8) (v : ValidatedValue) (cursor result : Cursor) : Prop :=
  match v.descriptor.kind with
  | .unit => True
  | .primitive .id128 => ∃ id, v.id128 body = .ok id ∧ id.1 = slice body v.start 16
  | .primitive kind =>
    v.rawInteger body kind = .ok (ofLe (slice body v.start kind.layout.bytes)) ∧
      (kind = .bool → ∃ b, v.bool body = .ok b) ∧ (kind = .u32 → ∃ n, v.u32 body = .ok n) ∧
      (kind = .u64 → ∃ n, v.u64 body = .ok n)
  | .bytes maximum => ∃ bs, v.bytes body = .ok bs ∧ bs.length ≤ maximum ∧
      bs = slice body cursor.next bs.length ∧ result.next = cursor.next + padded bs.length
  | .string maximum => ∃ bs, v.string body = .ok bs ∧ bs.length ≤ maximum ∧
      bs = slice body cursor.next bs.length ∧ result.next = cursor.next + padded bs.length
  | .struct fields => ∀ index, (index < fields.length → ∃ w, v.structureField index = .ok (some w)) ∧
        (fields.length ≤ index → v.structureField index = .ok none)
  | .vector maximum element => ∃ view, v.vector body = .ok (view, element) ∧
      view.count ≤ maximum ∧ ∀ index, (index < view.count → ∃ w, view.get element index = some w) ∧
        (view.count ≤ index → view.get element index = none)
  | .optional _ => ∃ w, v.optional body = .ok w
  | .table _ => ∀ ordinal, ∃ field, v.tableField body ordinal = .ok field
  | .closedEnum enumeration =>
    v.enumRaw body = .ok (ofLe (slice body v.start enumeration.repr.layout.bytes))
  | .closedUnion _ => ∃ view, v.union body = .ok view

/-! ### Allocations and payloads -/

section

variable {ctx : SchemaContext} {check : Check} {levels : ℕ}

theorem alignUp_bounds {value alignment aligned : ℕ} (h : alignUp value alignment = .ok aligned) :
    value ≤ aligned := by
  simp only [alignUp, run_eq_ok, not_not, add_eq_ok] at h
  obtain ⟨⟨k, rfl⟩, _, ⟨_, rfl⟩, rfl⟩ := h
  have hdiv := Nat.div_add_mod' (value + (2 ^ k - 1)) (2 ^ k)
  omega

/-- The check moves its cursor forward only. -/
def Check.Forward (check : Check) : Prop :=
  ∀ d start (cursor r : Cursor), check d start cursor = .ok r → cursor.next ≤ r.next

variable {start maximum stop stride : ℕ} {r κ : Cursor} {table : TableDescriptor TypeDescriptor}
  {payload : Option PayloadRange} {indices : List ℕ}
  {xs : List (UnionAlternativeDescriptor TypeDescriptor)} {es : List Envelope}

section

variable (hcheck : check.Forward)

include hcheck

/-- An allocation checks its value at its start, and the value lies inside the allocation. -/
theorem allocation_part {d : TypeDescriptor} {u : Unit}
    (h : validateAllocation ctx check d start stop = .ok u) :
    start ≤ stop ∧ stop ≤ ctx.body.length ∧ ∃ κ r, check d start κ = .ok r ∧
      RestsOn (fun c => validateAllocation ctx c d start stop) check d start κ ∧
      region d start κ r ⊆ Set.Ico start stop := by
  have hstop : stop ≤ ctx.body.length := by
    simp only [validateAllocation, run_eq_ok, not_or, not_lt] at h
    obtain ⟨_, _, _, _, _, ⟨_, hle⟩, _⟩ := h
    exact hle
  obtain ⟨childrenStart, r, hc, _, hr, rfl⟩ := validateAllocation_eq_ok h
  have hinline := alignUp_bounds hc
  have hforward : childrenStart ≤ r.next := hcheck _ _ _ _ hr
  refine ⟨by omega, hstop, ⟨childrenStart, r.next⟩, r, hr, ?_, ?_⟩
  · intro check' _ a h'
    obtain ⟨childrenStart', r', hc', _, hr', _⟩ := validateAllocation_eq_ok h'
    cases hc.symm.trans hc'
    exact ⟨r', hr'⟩
  · rintro i (⟨hlo, hhi⟩ | ⟨hlo, hhi⟩)
    · exact ⟨hlo, by omega⟩
    · have hlo : childrenStart ≤ i := hlo
      exact ⟨by omega, hhi⟩

/-- A selected payload is the allocation between the old and the new place of the cursor. -/
theorem selected_part {d : TypeDescriptor}
    (h : validateSelectedPayload ctx levels check d payload κ = .ok r) :
    (d.isUnit = true ∧ payload = none ∧ r = κ) ∨
      ∃ range κ' r', payload = some range ∧ check d range.start κ' = .ok r' ∧
        RestsOn (fun c => validateSelectedPayload ctx levels c d payload κ) check d range.start κ' ∧
        region d range.start κ' r' ⊆ Set.Ico range.start range.stop ∧ range.start = κ.next ∧
        range.stop = r.next ∧ κ.next ≤ r.next ∧ range.stop ≤ ctx.body.length := by
  rcases validateSelectedPayload_eq_ok h with hunit | ⟨hunit, range, rfl, hstart, ha, rfl⟩
  · exact .inl hunit
  · obtain ⟨hle, hstop, κ', r', hr', hrests, hregion⟩ := allocation_part hcheck ha
    refine .inr ⟨range, κ', r', rfl, hr', ?_, hregion, hstart, rfl, hstart ▸ hle, hstop⟩
    intro check' hw a h'
    rcases validateSelectedPayload_eq_ok h' with ⟨hu, _⟩ | ⟨_, range', heq, _, ha', _⟩
    · rw [hunit] at hu
      cases hu
    · cases heq
      exact hrests check' hw _ ha'

theorem selected_forward {d : TypeDescriptor}
    (h : validateSelectedPayload ctx levels check d payload κ = .ok r) : κ.next ≤ r.next := by
  rcases selected_part hcheck h with ⟨_, _, rfl⟩ | ⟨_, _, _, _, _, _, _, _, _, hle, _⟩
  · exact le_rfl
  · exact hle

/-! ### Structures and vectors -/

/-- Every field of a structure is checked in its place, and the cursor moves from field to field. -/
theorem field_part {bytes previousEnd : ℕ} {fields : List (StructureFieldDescriptor TypeDescriptor)}
    (h : checkFields ctx check bytes start fields previousEnd κ = .ok r) :
    κ.next ≤ r.next ∧ ∀ field ∈ fields, field.offset + field.ty.layout.bytes ≤ bytes ∧
      start + field.offset < 2 ^ 64 ∧
      ∃ κ' r', check field.ty (start + field.offset) κ' = .ok r' ∧ κ.next ≤ κ'.next ∧ r'.next ≤ r.next ∧
        RestsOn (fun c => checkFields ctx c bytes start fields previousEnd κ) check field.ty
          (start + field.offset) κ' := by
  induction fields generalizing previousEnd κ with
  | nil =>
    simp only [checkFields, run_eq_ok] at h
    obtain ⟨_, _, _, _, _, _, rfl⟩ := h
    exact ⟨le_rfl, by simp⟩
  | cons field fields ih =>
    simp only [checkFields, run_eq_ok, add_eq_ok, not_lt] at h
    obtain ⟨n, hn, _, _, ⟨_, rfl⟩, hend, _, ⟨_, rfl⟩, _, ⟨hlt, rfl⟩, _, _, m, hm, h⟩ := h
    obtain rfl := descriptorInlineBytes_eq_ok hn
    obtain ⟨hforward, hparts⟩ := ih h
    have hfirst := hcheck _ _ _ _ hm
    refine ⟨hfirst.trans hforward, fun f hf => ?_⟩
    -- what a weaker check accepts it accepts with the same cursors
    have hsame : ∀ {check' : Check} {a : Cursor}, check'.Weaker check →
        checkFields ctx check' bytes start (field :: fields) previousEnd κ = .ok a →
        check' field.ty (start + field.offset) κ = .ok m ∧
          checkFields ctx check' bytes start fields (field.offset + field.ty.layout.bytes) m = .ok a := by
      intro check' a hw h'
      simp only [checkFields, run_eq_ok, add_eq_ok] at h'
      obtain ⟨n', hn', _, _, ⟨_, rfl⟩, _, _, ⟨_, rfl⟩, _, ⟨_, rfl⟩, _, _, m', hm', h'⟩ := h'
      obtain rfl := descriptorInlineBytes_eq_ok hn'
      cases (hw _ _ _ _ hm').symm.trans hm
      exact ⟨hm', h'⟩
    rcases mem_cons.1 hf with rfl | hf
    · exact ⟨hend, hlt, κ, m, hm, le_rfl, hforward, fun check' hw a h' => ⟨m, (hsame hw h').1⟩⟩
    · obtain ⟨hle, hlt', κ', r', hr', hκ', hle', hrests⟩ := hparts f hf
      exact ⟨hle, hlt', κ', r', hr', hfirst.trans hκ', hle',
        fun check' hw a h' => hrests check' hw a (hsame hw h').2⟩

/-- Every element of a vector is checked in its place. -/
theorem element_part {element : TypeDescriptor} {target : ℕ}
    (h : checkElements check element target stride indices κ = .ok r) :
    κ.next ≤ r.next ∧ ∀ index ∈ indices, index * stride < 2 ^ 64 ∧ target + index * stride < 2 ^ 64 ∧
      ∃ κ' r', check element (target + index * stride) κ' = .ok r' ∧ κ.next ≤ κ'.next ∧
        r'.next ≤ r.next ∧ RestsOn (fun c => checkElements c element target stride indices κ) check
          element (target + index * stride) κ' := by
  induction indices generalizing κ with
  | nil =>
    cases h
    exact ⟨le_rfl, by simp⟩
  | cons index rest ih =>
    simp only [checkElements, bind_eq_ok, elementStart_eq_ok] at h
    obtain ⟨_, ⟨hlt, hlt', rfl⟩, m, hm, h⟩ := h
    obtain ⟨hforward, hparts⟩ := ih h
    have hfirst := hcheck _ _ _ _ hm
    refine ⟨hfirst.trans hforward, fun i hi => ?_⟩
    have hsame : ∀ {check' : Check} {a : Cursor}, check'.Weaker check →
        checkElements check' element target stride (index :: rest) κ = .ok a →
        check' element (target + index * stride) κ = .ok m ∧
          checkElements check' element target stride rest m = .ok a := by
      intro check' a hw h'
      simp only [checkElements, bind_eq_ok, elementStart_eq_ok] at h'
      obtain ⟨_, ⟨_, _, rfl⟩, m', hm', h'⟩ := h'
      cases (hw _ _ _ _ hm').symm.trans hm
      exact ⟨hm', h'⟩
    rcases mem_cons.1 hi with rfl | hi
    · exact ⟨hlt, hlt', κ, m, hm, le_rfl, hforward, fun check' hw a h' => ⟨m, (hsame hw h').1⟩⟩
    · obtain ⟨hle, hle', κ', r', hr', hκ', hr, hrests⟩ := hparts i hi
      exact ⟨hle, hle', κ', r', hr', hfirst.trans hκ', hr,
        fun check' hw a h' => hrests check' hw a (hsame hw h').2⟩

end

theorem elementStride_bounds {d : TypeDescriptor} (h : elementStride d = .ok stride) :
    d.layout.bytes ≤ stride := by
  simp only [elementStride, bind_eq_ok] at h
  obtain ⟨n, hn, _, _, hs⟩ := h
  exact descriptorInlineBytes_eq_ok hn ▸ alignUp_bounds hs

/-- The view of a vector shows elements that were checked, inside the region of the vector. -/
theorem vector_part (hcheck : check.Forward) {element : TypeDescriptor}
    (h : validateVector ctx check maximum element start κ = .ok r) :
    κ.next ≤ r.next ∧ ∃ view, vectorView ctx.body element start = .ok view ∧
      view.count ≤ maximum ∧ ∀ index < view.count, index * view.stride < 2 ^ 64 ∧
        view.elementsStart + index * view.stride < 2 ^ 64 ∧
        ∃ κ' r', check element (view.elementsStart + index * view.stride) κ' = .ok r' ∧
          RestsOn (fun c => validateVector ctx c maximum element start κ) check element
            (view.elementsStart + index * view.stride) κ' ∧
          region element (view.elementsStart + index * view.stride) κ' r' ⊆ Set.Ico κ.next r.next := by
  obtain ⟨ref, stride, href, _, hcount, hst, hcases⟩ := validateVector_eq_ok h
  rcases hcases with ⟨hc, _, _, rfl⟩ | ⟨hc, ht, hlt, childrenStart, inner, hcs, _, _, hin, hnext, rfl⟩
  · refine ⟨le_rfl, ⟨0, 0, 0⟩, ?_, Nat.zero_le _, by simp⟩
    rw [vectorView, href, ok_bind, if_pos hc]
    rfl
  · have hbytes := elementStride_bounds hst
    obtain ⟨hforward, hparts⟩ := element_part hcheck hin
    have hforward : childrenStart ≤ inner.next := hforward
    have harray := alignUp_bounds hcs
    refine ⟨Nat.le_add_right _ _, ⟨κ.next, ref.count, stride⟩, ?_, hcount, fun index hindex => ?_⟩
    · rw [vectorView, href, ok_bind, if_neg hc, add_eq_ok.2 ⟨hlt, ht.symm⟩, hst]
      rfl
    · obtain ⟨hlt1, hlt2, κ', r', hr', hκ', hle, hrests⟩ := hparts index (mem_range.2 hindex)
      have hκ' : childrenStart ≤ κ'.next := hκ'
      refine ⟨hlt1, hlt2, κ', r', hr', ?_, ?_⟩
      · intro check' hw a h'
        obtain ⟨ref', stride', href', _, _, hst', hcases⟩ := validateVector_eq_ok h'
        cases href.symm.trans href'
        cases hst.symm.trans hst'
        rcases hcases with ⟨hc', _⟩ | ⟨_, _, _, childrenStart', inner', hcs', _, _, hin', _⟩
        · exact absurd hc' hc
        · cases hcs.symm.trans hcs'
          exact hrests check' hw _ hin'
      · have hrow : index * stride + stride ≤ ref.count * stride := by
          rw [← Nat.succ_mul]
          exact Nat.mul_le_mul_right _ hindex
        rintro i (⟨hlo, hhi⟩ | ⟨hlo, hhi⟩)
        · simp only [Set.mem_Ico]
          change κ.next + index * stride ≤ i at hlo
          change i < κ.next + index * stride + element.layout.bytes at hhi
          omega
        · simp only [Set.mem_Ico]
          omega

/-! ### Optionals and unions -/

/-- A present optional shows its value where it was checked; the unit is shown anywhere. -/
theorem optional_part (hcheck : check.Forward) {value : TypeDescriptor}
    (h : validateOptional ctx levels check value start κ = .ok r) :
    κ.next ≤ r.next ∧ ∃ view, optionalView ctx.body start = .ok view ∧
      ∀ s ∈ view, (value.isUnit = true ∧ s = 0) ∨ ∃ κ' r', check value s κ' = .ok r' ∧
        RestsOn (fun c => validateOptional ctx levels c value start κ) check value s κ' ∧
        region value s κ' r' ⊆ Set.Ico κ.next r.next := by
  rcases validateOptional_eq_ok h with ⟨_, hs, hz, rfl⟩ | ⟨e, he, ho, h⟩
  · exact ⟨le_rfl, none, optionalView_zero hs hz, by simp⟩
  · refine ⟨selected_forward hcheck h, _, optionalView_one he ho, fun s hs => ?_⟩
    obtain rfl := mem_some_iff.1 hs
    rcases selected_part hcheck h with
      ⟨hu, hp, rfl⟩ | ⟨range, κ', r', hp, hr', hrests, hregion, hstart, hstop, _⟩
    · exact .inl ⟨hu, by rw [hp]; rfl⟩
    · rw [hstop] at hregion
      rw [hp]
      refine .inr ⟨κ', r', hr', fun check' hw a h' => ?_, hstart ▸ hregion⟩
      rcases validateOptional_eq_ok h' with ⟨_, hs', hz', _⟩ | ⟨e', he', _, h'⟩
      · have := parseEnvelope_zero hs' hz'
        rw [← Except.ok.inj (this.symm.trans he)] at ho
        cases ho
      · cases he.symm.trans he'
        exact hrests check' hw a h'

/-- A union shows its payload where it was checked. -/
theorem union_part (hcheck : check.Forward)
    (hd : ∀ x ∈ xs, ∀ p, x.payload = some p → Valid p ∧ p.isUnit = false)
    (h : validateClosedUnion ctx levels check xs start κ = .ok r) :
    κ.next ≤ r.next ∧ ∃ view, unionView ctx.body xs start = .ok view ∧
      ∀ d s, view.payload = some (d, s) → Valid d ∧ ∃ κ' r', check d s κ' = .ok r' ∧
        RestsOn (fun c => validateClosedUnion ctx levels c xs start κ) check d s κ' ∧
        region d s κ' r' ⊆ Set.Ico κ.next r.next := by
  obtain ⟨e, x, he, hx, hcases⟩ := validateClosedUnion_eq_ok hd h
  rcases hcases with ⟨hp, hn, rfl⟩ | ⟨d, range, hp, hr, hvalid, hsel⟩
  · refine ⟨le_rfl, ⟨e.ordinal, none⟩, ?_, by simp⟩
    simp only [unionView, he, hx, okOr_some, ok_bind, hp, hn, pure_eq_ok]
  · refine ⟨selected_forward hcheck hsel, ⟨e.ordinal, some (d, range.start)⟩, ?_, ?_⟩
    · simp only [unionView, he, hx, okOr_some, ok_bind, hp, hr, pure_eq_ok]
    · rintro d' s heq
      cases some.inj heq
      have hunit : d.isUnit = false := (hd x (mem_of_find?_eq_some hx) d hp).2
      rcases selected_part hcheck hsel with
        ⟨hu, _⟩ | ⟨range', κ', r', heq', hr', hrests, hregion, hstart, hstop, _⟩
      · rw [hunit] at hu
        cases hu
      · cases heq'
        rw [hstop] at hregion
        refine ⟨hvalid, κ', r', hr', fun check' hw a h' => ?_, hstart ▸ hregion⟩
        obtain ⟨e', x', he', hx', hcases'⟩ := validateClosedUnion_eq_ok hd h'
        cases he.symm.trans he'
        cases hx.symm.trans hx'
        rcases hcases' with ⟨hp', _⟩ | ⟨d', range', hp', hr'', _, hsel'⟩
        · rw [hp] at hp'
          cases hp'
        · cases hp.symm.trans hp'
          cases hr.symm.trans hr''
          exact hrests check' hw a hsel'

/-! ### Tables -/

/-- The payloads of a table lie behind its envelopes and inside its region. -/
theorem placed_of_prevalidate {tableStart payloadCursor left : ℕ} {previous : Option ℕ}
    (he : envelopesAt ctx.body tableStart indices = .ok es)
    (h : prevalidateEnvelopes ctx levels table tableStart stop indices previous payloadCursor =
      .ok left) : ∀ e ∈ es, ∀ range ∈ e.payload, payloadCursor ≤ range.start ∧ range.stop ≤ stop := by
  induction indices generalizing previous payloadCursor es with
  | nil =>
    cases he
    simp
  | cons index rest ih =>
    obtain ⟨e, es, hat, hrest, rfl⟩ := envelopesAt_cons.1 he
    simp only [prevalidateEnvelopes, hat, ok_bind, run_eq_ok] at h
    obtain ⟨_, _, _, _, _, _, hplace, h⟩ := h
    obtain ⟨_, _, _, hfield, _⟩ := parseEnvelope_eq_ok (envelopeAt_eq_ok.1 hat).2.2
    have hplaced : ∀ range ∈ e.payload, range.start = payloadCursor ∧ range.start ≤ range.stop ∧
        range.stop ≤ stop := by
      intro range hrange
      rw [mem_def.1 hrange] at hplace hfield
      simp only [requirePlacement, run_eq_ok, requireTarget_eq_ok, not_lt] at hplace
      obtain ⟨⟨_, hstart⟩, hstop⟩ := hplace
      obtain ⟨_, _, rfl⟩ := hfield
      exact ⟨hstart, Nat.le_add_right _ _, hstop⟩
    have hadvance : payloadCursor ≤ e.advance payloadCursor := by
      unfold Envelope.advance
      cases hp : e.payload with
      | none => exact le_rfl
      | some range =>
        obtain ⟨h1, h2, _⟩ := hplaced range hp
        exact h1 ▸ h2
    intro e' he' range hrange
    rcases mem_cons.1 he' with rfl | he'
    · obtain ⟨h1, _, h3⟩ := hplaced range hrange
      exact ⟨h1.ge, h3⟩
    · obtain ⟨h1, h2⟩ := ih hrest h e' he' range hrange
      exact ⟨hadvance.trans h1, h2⟩

theorem placed_of_validateTable {ref : TableRef} (h : validateTable ctx levels check table start κ = .ok r)
    (href : tableRef ctx.body start = .ok ref) (hc : ref.fieldCount ≠ 0)
    (he : envelopesAt ctx.body κ.next (range ref.fieldCount) = .ok es) : ∀ e ∈ es, ∀ range ∈ e.payload,
      κ.next ≤ range.start ∧ range.stop ≤ κ.next + ref.regionBytes := by
  rw [validateTable, href, ok_bind] at h
  simp only [run_eq_ok, hc, if_false, add_eq_ok, mul_eq_ok, requireTarget_eq_ok,
    prevalidateTableEnvelopes] at h
  obtain ⟨_, _, _, _, ⟨_, rfl⟩, ⟨_, ht⟩, _, ⟨_, rfl⟩, _, _, ⟨_, rfl⟩, _, ⟨_, rfl⟩, _, ⟨_, hpre, _⟩, _⟩ := h
  rw [ht] at hpre
  intro e hmem range hrange
  obtain ⟨h1, h2⟩ := placed_of_prevalidate he hpre e hmem range hrange
  exact ⟨(Nat.le_add_right _ _).trans h1, h2⟩

/-- A table shows the payloads of its fields where they were checked. -/
theorem table_part (hcheck : (validateValue ctx levels).Forward)
    (hs : table.fields.Pairwise (fun f g => f.ordinal < g.ordinal))
    (h : validateTable ctx levels (validateValue ctx levels) table start κ = .ok r) :
    κ.next ≤ r.next ∧ (∀ o, ∃ view, tableField ctx.body start o = .ok view) ∧
      ∀ f ∈ table.fields, ∀ range, tableField ctx.body start f.ordinal = .ok (some (some range)) →
        ∃ κ' r', validateValue ctx levels f.ty range.start κ' = .ok r' ∧
          RestsOn (fun c => validateTable ctx levels c table start κ) (validateValue ctx levels) f.ty
            range.start κ' ∧ region f.ty range.start κ' r' ⊆ Set.Ico κ.next r.next := by
  obtain ⟨ref, es, run⟩ := exists_tableRun h
  rcases run.region with ⟨hc, _, _, rfl⟩ | ⟨hc, _, hes, hcheckTable, rfl⟩
  · refine ⟨le_rfl, run.total, fun f _ range hview => ?_⟩
    obtain ⟨e, hmem, _⟩ := run.only _ _ hview
    rw [length_eq_zero_iff.1 (run.length.trans hc)] at hmem
    cases hmem
  · refine ⟨Nat.le_add_right _ _, run.total, fun f hf range hview => ?_⟩
    obtain ⟨e, hmem, ho, hp⟩ := run.only _ _ hview
    obtain ⟨κs, hsel⟩ := Readable.selected hs hes run.sorted f hf e hmem ho.symm
    obtain ⟨_, hchecked⟩ := hsel _ _ hcheckTable
    rcases selected_part hcheck hchecked with
      ⟨_, hnone, _⟩ | ⟨range', κ', r', heq, hr', hrests, hregion, _⟩
    · rw [hp] at hnone
      cases hnone
    · obtain rfl : range = range' := by simpa using hp.symm.trans heq
      obtain ⟨hlo, hhi⟩ := placed_of_validateTable h run.ref hc hes e hmem range hp
      refine ⟨κ', r', hr', fun check' hw a h' => ?_, hregion.trans (Set.Ico_subset_Ico hlo hhi)⟩
      obtain ⟨ref', href', _, _, hcases⟩ := validateTable_eq_ok h'
      cases run.ref.symm.trans href'
      rcases hcases with ⟨hc', _⟩ | ⟨_, _, _, _, hcheck', _⟩
      · exact absurd hc' hc
      · obtain ⟨b, hb⟩ := hsel _ _ hcheck'
        exact hrests check' hw b hb

/-! ### One level of the validator -/

theorem bytesLike_forward {utf8 : Bool} (h : validateBytesLike ctx start maximum utf8 κ = .ok r) :
    κ.next ≤ r.next := by
  obtain ⟨_, _, _, _, ⟨_, _, _, rfl⟩ | ⟨_, _, _, _, _, _, _, rfl⟩⟩ := validateBytesLike_eq_ok h
  · exact le_rfl
  · exact Nat.le_add_right _ _

theorem validateNode_inline {d : TypeDescriptor} (h : validateNode ctx levels check d start κ = .ok r) :
    start + d.layout.bytes ≤ ctx.body.length := by
  simp only [validateNode, bind_eq_ok, add_eq_ok, rejectIf_eq_ok, not_lt] at h
  obtain ⟨_, _, n, hn, _, ⟨_, rfl⟩, _, hle, _⟩ := h
  exact descriptorInlineBytes_eq_ok hn ▸ hle

theorem union_forward (hcheck : check.Forward)
    (h : validateClosedUnion ctx levels check xs start κ = .ok r) : κ.next ≤ r.next := by
  simp only [validateClosedUnion, bind_eq_ok] at h
  obtain ⟨_, _, _, _, x, _, h⟩ := h
  split at h
  · exact selected_forward hcheck h
  · simp only [bind_eq_ok, return_eq_ok] at h
    obtain ⟨_, _, _, _, rfl⟩ := h
    exact le_rfl

theorem table_forward (h : validateTable ctx levels check table start κ = .ok r) : κ.next ≤ r.next := by
  obtain ⟨_, _, _, _, ⟨_, _, _, rfl⟩ | ⟨_, _, _, _, _, rfl⟩⟩ := validateTable_eq_ok h
  · exact le_rfl
  · exact Nat.le_add_right _ _

theorem validateNode_forward (hcheck : check.Forward) : (validateNode ctx levels check).Forward := by
  intro d start κ r h
  cases hk : d.kind with
  | unit => exact (validateNode_kind hk h).2 ▸ le_rfl
  | primitive | closedEnum => exact (validateNode_kind hk h).2.2 ▸ le_rfl
  | bytes | string => exact bytesLike_forward (validateNode_kind hk h)
  | struct => exact (field_part hcheck (validateNode_kind hk h)).1
  | vector => exact (vector_part hcheck (validateNode_kind hk h)).1
  | optional => exact (optional_part hcheck (validateNode_kind hk h)).1
  | table => exact table_forward (validateNode_kind hk h)
  | closedUnion => exact union_forward hcheck (validateNode_kind hk h)

end

theorem validateValue_forward (ctx : SchemaContext) (levels : ℕ) : (validateValue ctx levels).Forward := by
  induction levels with
  | zero =>
    intro d start κ r h
    cases h
  | succ levels ih => exact validateNode_forward ih

/-! ### The accessors of an accepted value -/

section

variable {ctx : SchemaContext} {levels start : ℕ} {d : TypeDescriptor} {κ r : Cursor}

/-- The string that an accessor returns is the one behind the cursor. -/
theorem bytesLike_part {maximum : ℕ} {utf8 : Bool} (h : validateBytesLike ctx start maximum utf8 κ = .ok r) :
    ∃ bs, materializedSlice ctx.body start = .ok bs ∧ (utf8 = true → isUtf8 bs = true) ∧
      bs.length ≤ maximum ∧ bs = slice ctx.body κ.next bs.length ∧ r.next = κ.next + padded bs.length := by
  obtain ⟨bs, hbs, htext⟩ := exists_materializedSlice h
  obtain ⟨ref, href, _, hmaximum, hcases⟩ := validateBytesLike_eq_ok h
  obtain ⟨hlength, hslice⟩ := materializedSlice_eq href hbs
  refine ⟨bs, hbs, htext, hlength ▸ hmaximum, ?_⟩
  rcases hcases with ⟨hc, _, _, rfl⟩ | ⟨hc, hregion, ht, _, _, _, _, rfl⟩
  · rw [hc] at hlength
    obtain rfl := length_eq_zero_iff.1 hlength
    exact ⟨by simp [slice], rfl⟩
  · refine ⟨by rw [hlength, ← ht]; exact hslice hc, ?_⟩
    simp only [alignUp, bind_eq_ok, rejectIf_eq_ok, exists_const, add_eq_ok, return_eq_ok] at hregion
    obtain ⟨_, _, ⟨_, rfl⟩, hregion⟩ := hregion
    rw [hlength, ← hregion]
    rfl

/-- An accepted scalar is the number in its inline bytes. -/
theorem scalar_part {kind : PrimitiveKind} (hk : kind ≠ .id128)
    (h : validatePrimitive ctx.body start kind = .ok ()) : readPrimitiveRaw ctx.body start kind =
        .ok (ofLe (slice ctx.body start kind.layout.bytes)) ∧
      (kind = .bool → ofLe (slice ctx.body start kind.layout.bytes) ≤ 1) ∧
      ofLe (slice ctx.body start kind.layout.bytes) < 256 ^ kind.layout.bytes := by
  have hraw : ∃ raw, readPrimitiveRaw ctx.body start kind = .ok raw ∧ (kind = .bool → raw ≤ 1) := by
    cases kind with
    | id128 => exact absurd rfl hk
    | bool =>
      obtain ⟨raw, hraw, hle⟩ := bind_eq_ok.1 h
      exact ⟨raw, hraw, fun _ => by simpa using hle⟩
    | _ =>
      obtain ⟨raw, hraw, _⟩ := bind_eq_ok.1 h
      exact ⟨raw, hraw, fun h => by cases h⟩
  obtain ⟨raw, hraw, hbool⟩ := hraw
  have hscalar : kind.layout.bytes ≠ 0 ∧ readScalar ctx.body start kind.layout.bytes = .ok raw := by
    cases kind with
    | id128 => exact absurd rfl hk
    | _ => exact ⟨by decide, hraw⟩
  obtain ⟨_, hle, rfl⟩ := (readScalar_eq_ok hscalar.1).1 hscalar.2
  refine ⟨hraw, hbool, ?_⟩
  have := ofLe_lt (slice ctx.body start kind.layout.bytes)
  rwa [length_slice_of_le hle] at this

/-- The accessors of an accepted value return what the validator has seen. -/
theorem answers_of_validateNode (hd : Valid d)
    (h : validateNode ctx levels (validateValue ctx levels) d start κ = .ok r) :
    Answers ctx.body ⟨start, d⟩ κ r := by
  have hcheck := validateValue_forward ctx levels
  unfold Answers
  cases hk : d.kind with
  | unit => trivial
  | primitive kind =>
    obtain ⟨_, hv, _⟩ := validateNode_kind hk h
    by_cases hid : kind = .id128
    · subst hid
      obtain ⟨bs, hbs, _⟩ := bind_eq_ok.1 hv
      obtain ⟨_, hle, rfl⟩ := sliceAt_eq_ok.1 hbs
      refine ⟨⟨_, length_slice_of_le hle⟩, ?_, rfl⟩
      simp only [ValidatedValue.id128, hk, hbs, ok_bind, copyArray, length_slice_of_le hle, dite_true]
    · obtain ⟨hraw, hbool, hlt⟩ := scalar_part hid hv
      have hinteger : (⟨start, d⟩ : ValidatedValue).rawInteger ctx.body kind =
          .ok (ofLe (slice ctx.body start kind.layout.bytes)) := by
        simp only [ValidatedValue.rawInteger, hk, hraw, rejectIf_of_not (not_not.2 rfl), ok_bind]
      suffices hgoal : (⟨start, d⟩ : ValidatedValue).rawInteger ctx.body kind =
          .ok (ofLe (slice ctx.body start kind.layout.bytes)) ∧
          (kind = .bool → ∃ b, (⟨start, d⟩ : ValidatedValue).bool ctx.body = .ok b) ∧
          (kind = .u32 → ∃ n, (⟨start, d⟩ : ValidatedValue).u32 ctx.body = .ok n) ∧
          (kind = .u64 → ∃ n, (⟨start, d⟩ : ValidatedValue).u64 ctx.body = .ok n) by
        cases kind <;> first | exact absurd rfl hid | exact hgoal
      refine ⟨hinteger, ?_, ?_, ?_⟩
      · rintro rfl
        have hle := hbool rfl
        rw [ValidatedValue.bool, hinteger, ok_bind]
        split
        · exact ⟨_, rfl⟩
        · rw [if_pos (by omega)]
          exact ⟨_, rfl⟩
      · rintro rfl
        have hlt : ofLe (slice ctx.body start PrimitiveKind.u32.layout.bytes) < 2 ^ 32 := hlt
        rw [ValidatedValue.u32, hinteger, ok_bind, rejectIf_of_not (not_le.2 hlt)]
        exact ⟨_, rfl⟩
      · rintro rfl
        exact ⟨_, hinteger⟩
  | bytes =>
    obtain ⟨bs, hbs, _, hle, hslice, hnext⟩ := bytesLike_part (validateNode_kind hk h)
    exact ⟨bs, by simp only [ValidatedValue.bytes, hk, hbs], hle, hslice, hnext⟩
  | string =>
    obtain ⟨bs, hbs, htext, hle, hslice, hnext⟩ := bytesLike_part (validateNode_kind hk h)
    refine ⟨bs, ?_, hle, hslice, hnext⟩
    simp only [ValidatedValue.string, hk, hbs, ok_bind,
      rejectIf_of_not (show ¬ isUtf8 bs = false by simp [htext rfl]), pure_eq_ok]
  | struct fields =>
    obtain ⟨_, hparts⟩ := field_part hcheck (validateNode_kind hk h)
    intro index
    simp only [ValidatedValue.structureField, hk]
    constructor
    · intro hindex
      obtain ⟨_, hlt, _⟩ := hparts fields[index] (getElem_mem hindex)
      rw [getElem?_eq_getElem hindex]
      exact ⟨_, by simp only [add_eq_ok.2 ⟨hlt, rfl⟩]; rfl⟩
    · intro hindex
      rw [getElem?_eq_none hindex]
  | vector =>
    obtain ⟨_, view, hview, hcount, hparts⟩ := vector_part hcheck (validateNode_kind hk h)
    refine ⟨view, by simp only [ValidatedValue.vector, hk, hview, ok_bind, pure_eq_ok], hcount, ?_⟩
    intro index
    unfold ValidatedVector.get
    constructor
    · intro hindex
      obtain ⟨hlt, hlt', _⟩ := hparts index hindex
      rw [if_neg (by omega), checkedMul_eq_some.2 ⟨hlt, rfl⟩]
      exact ⟨_, by simp only [bind_eq_bind, bind_some, checkedAdd_eq_some.2 ⟨hlt', rfl⟩]; rfl⟩
    · intro hindex
      exact if_pos hindex
  | optional =>
    obtain ⟨_, view, hview, _⟩ := optional_part hcheck (validateNode_kind hk h)
    exact ⟨_, by simp only [ValidatedValue.optional, hk, hview]; rfl⟩
  | table =>
    obtain ⟨_, htotal, _⟩ := table_part hcheck (hd.table hk).1 (validateNode_kind hk h)
    intro ordinal
    simp only [ValidatedValue.tableField, hk]
    split
    · exact ⟨_, rfl⟩
    · obtain ⟨view, hview⟩ := htotal ordinal
      exact ⟨_, by simp only [hview]; rfl⟩
  | closedEnum enumeration =>
    obtain ⟨_, he, _⟩ := validateNode_kind hk h
    simp only [validateClosedEnum, bind_eq_ok] at he
    obtain ⟨_, _, _, _, raw, hraw, _⟩ := he
    obtain ⟨_, _, rfl⟩ := (readScalar_eq_ok enumeration.repr.bytes_ne_zero).1 hraw
    simp only [ValidatedValue.enumRaw, hk, hraw]
  | closedUnion =>
    obtain ⟨_, view, hview, _⟩ := union_part hcheck (hd.alternative hk) (validateNode_kind hk h)
    exact ⟨_, by simp only [ValidatedValue.union, hk, hview]; rfl⟩

/-! ### One step of a walk -/

/-- The part of a value that a view shows: the unit at the start of the body, or a value that was checked
on the way to accepting the whole, inside the region of the whole. -/
def PartOf (ctx : SchemaContext) (levels : ℕ) (d : TypeDescriptor) (start : ℕ) (κ r : Cursor)
    (w : ValidatedValue) : Prop :=
  Valid w.descriptor ∧ ((w.descriptor.isUnit = true ∧ w.start = 0) ∨
    ∃ κ' r', validateValue ctx levels w.descriptor w.start κ' = .ok r' ∧
      RestsOn (fun c => validateNode ctx levels c d start κ) (validateValue ctx levels) w.descriptor
        w.start κ' ∧ region w.descriptor w.start κ' r' ⊆ region d start κ r)

variable {start' : ℕ} {κ' : Cursor}

/-- What a kind rests on, the value rests on. -/
theorem RestsOn.node {d' : TypeDescriptor} {check : Check} {run : Check → Outcome BodyError Cursor}
    (h : RestsOn run check d' start' κ')
    (hrun : ∀ c a, validateNode ctx levels c d start κ = .ok a → run c = .ok a) :
    RestsOn (fun c => validateNode ctx levels c d start κ) check d' start' κ' :=
  fun check' hw a ha => h check' hw a (hrun check' a ha)

theorem region_of_outline {d' : TypeDescriptor} {r' : Cursor}
    (h : region d' start' κ' r' ⊆ Set.Ico κ.next r.next) :
    region d' start' κ' r' ⊆ region d start κ r := fun _ hi => .inr (h hi)

/-- An accessor leads to a part of the value. -/
theorem part_of_step (hd : Valid d)
    (h : validateNode ctx levels (validateValue ctx levels) d start κ = .ok r) {w : ValidatedValue}
    (hs : Step ctx.body ⟨start, d⟩ w) : PartOf ctx levels d start κ r w := by
  have hcheck := validateValue_forward ctx levels
  cases hs with
  | @field index hs =>
    cases hk : d.kind with
    | struct fields =>
      simp only [ValidatedValue.structureField, hk] at hs
      cases hf : fields[index]? with
      | none => simp [hf] at hs
      | some field =>
        simp only [hf, run_eq_ok, add_eq_ok, some.injEq] at hs
        obtain ⟨_, ⟨_, rfl⟩, rfl⟩ := hs
        have hmem := mem_of_getElem? hf
        obtain ⟨hle, _, κ', r', hr', hκ', hr, hrests⟩ :=
          (field_part hcheck (validateNode_kind hk h)).2 field hmem
        refine ⟨hd.fields hk field hmem, .inr ⟨κ', r', hr', hrests.node fun _ _ =>
          validateNode_kind hk, ?_⟩⟩
        rintro i (⟨hlo, hhi⟩ | ⟨hlo, hhi⟩)
        · have hlo : start + field.offset ≤ i := hlo
          have hhi : i < start + field.offset + field.ty.layout.bytes := hhi
          exact .inl ⟨by omega, by omega⟩
        · exact .inr ⟨hκ'.trans hlo, lt_of_lt_of_le hhi hr⟩
    | _ => simp [ValidatedValue.structureField, hk] at hs
  | @element view element index hs hw =>
    cases hk : d.kind with
    | vector maximum element' =>
      obtain ⟨_, view', hview, _, hparts⟩ := vector_part hcheck (validateNode_kind hk h)
      simp only [ValidatedValue.vector, hk, hview] at hs
      obtain ⟨rfl, rfl⟩ := hs
      unfold ValidatedVector.get at hw
      split at hw
      case isTrue => cases hw
      case isFalse hindex =>
        simp only [bind_eq_bind, bind_eq_some_iff, checkedMul_eq_some,
          checkedAdd_eq_some, Option.pure_def, some.injEq] at hw
        obtain ⟨_, ⟨_, rfl⟩, _, ⟨_, rfl⟩, rfl⟩ := hw
        obtain ⟨_, _, κ', r', hr', hrests, hregion⟩ := hparts index (by omega)
        exact ⟨hd.element hk, .inr ⟨κ', r', hr', hrests.node fun _ _ => validateNode_kind hk,
          region_of_outline hregion⟩⟩
    | _ => simp [ValidatedValue.vector, hk] at hs
  | @tableField ordinal field hs hw =>
    cases hk : d.kind with
    | table table =>
      obtain ⟨hsorted, hvalid⟩ := hd.table hk
      obtain ⟨_, _, hparts⟩ := table_part hcheck hsorted (validateNode_kind hk h)
      simp only [ValidatedValue.tableField, hk] at hs
      split at hs
      case h_1 => cases hs
      case h_2 f hf =>
        have hmem := mem_of_find?_eq_some hf
        have ho : f.ordinal = ordinal := by simpa using find?_some hf
        obtain ⟨found, hfound, hs⟩ := bind_eq_ok.1 hs
        obtain ⟨payload, rfl, rfl⟩ := map_eq_some_iff.1 (Except.ok.inj hs)
        obtain ⟨range, rfl, rfl⟩ := map_eq_some_iff.1 hw
        obtain ⟨κ', r', hr', hrests, hregion⟩ := hparts f hmem range (ho ▸ hfound)
        exact ⟨hvalid f hmem, .inr ⟨κ', r', hr', hrests.node fun _ _ => validateNode_kind hk,
          region_of_outline hregion⟩⟩
    | _ => simp [ValidatedValue.tableField, hk] at hs
  | optional hs =>
    cases hk : d.kind with
    | optional value =>
      obtain ⟨_, view, hview, hparts⟩ := optional_part hcheck (validateNode_kind hk h)
      simp only [ValidatedValue.optional, hk, hview, ok_bind, return_eq_ok] at hs
      obtain ⟨s, rfl, rfl⟩ := map_eq_some_iff.1 hs
      refine ⟨hd.value hk, ?_⟩
      rcases hparts s rfl with hunit | ⟨κ', r', hr', hrests, hregion⟩
      · exact .inl hunit
      · exact .inr ⟨κ', r', hr', hrests.node fun _ _ => validateNode_kind hk, region_of_outline hregion⟩
    | _ => simp [ValidatedValue.optional, hk] at hs
  | @payload ordinal hs =>
    cases hk : d.kind with
    | closedUnion alternatives =>
      obtain ⟨_, view, hview, hparts⟩ := union_part hcheck (hd.alternative hk) (validateNode_kind hk h)
      simp only [ValidatedValue.union, hk, hview, ok_bind, return_eq_ok, Prod.mk.injEq] at hs
      obtain ⟨⟨d', s⟩, hp, rfl⟩ := map_eq_some_iff.1 hs.2
      obtain ⟨hvalid, κ', r', hr', hrests, hregion⟩ := hparts d' s hp
      exact ⟨hvalid, .inr ⟨κ', r', hr', hrests.node fun _ _ => validateNode_kind hk,
          region_of_outline hregion⟩⟩
    | _ => simp [ValidatedValue.union, hk] at hs

end

/-! ### Walks -/

/-- The view shows a value as the validator has checked it: the unit, or a value whose acceptance the
acceptance of the body rests on, whose accessors answer, and whose bytes lie inside the body. -/
def Shown (ctx : SchemaContext) (root : TypeDescriptor) (v : ValidatedValue) : Prop :=
  v.start + v.descriptor.layout.bytes ≤ ctx.body.length ∧
    (v.descriptor.isUnit = true ∨ ∃ levels κ r, Visited ctx root levels v.descriptor v.start κ ∧
      validateValue ctx levels v.descriptor v.start κ = .ok r ∧
      region v.descriptor v.start κ r ⊆ Set.Iio ctx.body.length ∧ Answers ctx.body v κ r)

variable {v w : ValidatedValue}

/-- The unit has no parts. -/
theorem not_step_unit {body : List UInt8} (hu : v.descriptor.isUnit = true) : ¬ Step body v w := by
  have hk := kind_of_isUnit hu
  intro hs
  cases hs with
  | field h => simp [ValidatedValue.structureField, hk] at h
  | element h => simp [ValidatedValue.vector, hk] at h
  | tableField h => simp [ValidatedValue.tableField, hk] at h
  | optional h => simp [ValidatedValue.optional, hk] at h
  | payload h => simp [ValidatedValue.union, hk] at h

theorem Valid.unit_bytes {d : TypeDescriptor} (h : Valid d) (hu : d.isUnit = true) : d.layout.bytes = 0 := by
  obtain ⟨nesting, visits, left, h⟩ := h.visit
  simp only [validateTypeDescriptor, kind_of_isUnit hu, bind_eq_ok, requireLayout_eq_ok] at h
  obtain ⟨_, _, _, _, _, hl, _⟩ := h
  rw [hl]
  rfl

/-- One step of a walk keeps to what was checked. -/
theorem Shown.step {ctx : SchemaContext} {root : TypeDescriptor}
    (h : Valid v.descriptor ∧ Shown ctx root v) (hs : Step ctx.body v w) :
    Valid w.descriptor ∧ Shown ctx root w := by
  obtain ⟨hd, _, hu | ⟨levels, κ, r, hvisited, hv, hinside, _⟩⟩ := h
  · exact absurd hs (not_step_unit hu)
  · cases levels with
    | zero => cases hv
    | succ levels =>
      obtain ⟨hd', hpart⟩ := part_of_step hd hv hs
      refine ⟨hd', ?_⟩
      rcases hpart with ⟨hu, hzero⟩ | ⟨κ', r', hr', hrests, hregion⟩
      · exact ⟨by rw [hzero, hd'.unit_bytes hu]; exact Nat.zero_le _, .inl hu⟩
      · cases levels with
        | zero => cases hr'
        | succ =>
          exact ⟨validateNode_inline hr', .inr ⟨_, κ', r', hvisited.part hrests, hr',
            hregion.trans hinside, answers_of_validateNode hd' hr'⟩⟩

end NSWP
