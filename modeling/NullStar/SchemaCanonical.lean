/-
**NSWP bodies are canonical.**

A value has one encoding: two bodies that the validator accepts along the same descriptor, whose
tables have no unknown fields, and that mean the same value, are the same bytes.  The proof follows
the validator.  Two runs of it stand at the same place, with cursors that have the same next free
byte; what the first body stores inline is either part of the value or a reference, and a reference
is forced by the cursor and by the length of what it refers to.  So the two runs leave their cursors
at the same place again, and the bodies agree on the inline bytes and on everything the cursor has
passed.

* `Determined.allocation`, `Determined.fields`, `Determined.elements`,
  `Determined.envelopes` — the loops of the validator keep two runs together;
* `determined` — the value determines the bytes at every level;
* `validateBody_canonical` — accepted bodies with the same value are equal.
-/

import NullStar.SchemaReadable

set_option autoImplicit false

namespace NSWP

open Bytes Rust Agree Option List

/-- The validator accepts the value at `start` and leaves its cursor at `result`, no table has an
unknown ordinal, and the value is `v`. -/
structure Reads (ctx : SchemaContext) (levels : ℕ) (d : TypeDescriptor) (start : ℕ)
    (cursor result : Cursor) (v : Value) : Prop where
  accepted : validateValue ctx levels d start cursor = .ok result
  known : knownOrdinals ctx.body levels d start = true
  value : materialize ctx.body levels d start = .ok v

/-- A payload with known ordinals, and its value. -/
structure ReadsPayload (ctx : SchemaContext) (levels : ℕ) (d : TypeDescriptor)
    (payload : Option PayloadRange) (w : Option Value) : Prop where
  known : ∀ range ∈ payload, knownOrdinals ctx.body levels d range.start = true
  value : readPayload (materialize ctx.body levels) d payload = .ok w

/-- Two runs over the same value stay together, and the bodies agree on what they pass. -/
def Determined (c₁ c₂ : SchemaContext) (levels : ℕ) : Prop :=
  ∀ (d : TypeDescriptor) (start : ℕ) (κ₁ κ₂ r₁ r₂ : Cursor) (v : Value), Valid d →
    κ₁.next = κ₂.next → Reads c₁ levels d start κ₁ r₁ v → Reads c₂ levels d start κ₂ r₂ v →
      r₁.next = r₂.next ∧ Agree c₁.body c₂.body start (start + d.layout.bytes) ∧
        Agree c₁.body c₂.body κ₁.next r₁.next

/-- Two alternatives that are decided by the same condition. -/
theorem both_or {p A B A' B' : Prop} (h : p ∧ A ∨ ¬ p ∧ B) (h' : p ∧ A' ∨ ¬ p ∧ B') :
    (p ∧ A ∧ A') ∨ (¬ p ∧ B ∧ B') := by
  tauto

/-- Two reads that give the same value under an injective constructor read the same. -/
theorem read_same {ε α β : Type} {x y : Outcome ε α} {f : α → β} {v : β} (hf : ∀ a b, f a = f b → a = b)
    (hx : (x >>= fun a => pure (f a)) = .ok v) (hy : (y >>= fun a => pure (f a)) = .ok v) :
    ∃ a, x = .ok a ∧ y = .ok a := by
  simp only [run_eq_ok] at hx hy
  obtain ⟨a, ha, rfl⟩ := hx
  obtain ⟨b, hb, heq⟩ := hy
  exact ⟨a, ha, hf _ _ heq ▸ hb⟩

namespace Determined

variable {c c1 c2 : SchemaContext} {d element : TypeDescriptor} {levels start m1 m2 : ℕ} {v : Value}
  {s s1 s2 κ κ1 κ2 r1 r2 : Cursor} {vs : List Value} {indices : List ℕ} {es1 es2 : List Envelope}

/-! ### Values of the parts -/

/-- Two tables with the same fields: every field is read the same in both. -/
theorem readTable_same {fields : List (TableFieldDescriptor TypeDescriptor)}
    {read1 read2 : TypeDescriptor → ℕ → Outcome BodyError Value} {a b : List UInt8}
    {vs : List (Option (Option Value))} (h1 : readTable read1 a start fields = .ok vs)
    (h2 : readTable read2 b start fields = .ok vs) :
    ∀ f ∈ fields, ∃ x, readTableField read1 a start f = .ok x ∧ readTableField read2 b start f = .ok x := by
  induction fields generalizing vs with
  | nil => simp
  | cons field fields ih =>
    simp only [readTable, run_eq_ok] at h1 h2
    obtain ⟨x, hx1, xs, hxs1, rfl⟩ := h1
    obtain ⟨x', hx2, xs', hxs2, heq⟩ := h2
    cases heq
    exact forall_mem_cons.2 ⟨⟨_, hx1, hx2⟩, ih hxs1 hxs2⟩

/-- Every ordinal of the first table is one of the second when the fields are read the same. -/
theorem ordinal_mem {table : TableDescriptor TypeDescriptor} {r1 r2 : TableRef}
    (run1 : TableRun c1 levels table start κ1 s1 r1 es1) (run2 : TableRun c2 levels table start κ2 s2 r2 es2)
    (hknown : ∀ e ∈ es1, ∃ f ∈ table.fields, f.ordinal = e.ordinal) (hsame : ∀ f ∈ table.fields, ∃ x,
      readTableField (materialize c1.body levels) c1.body start f = .ok x ∧
        readTableField (materialize c2.body levels) c2.body start f = .ok x) :
    ∀ o ∈ es1.map (·.ordinal), o ∈ es2.map (·.ordinal) := by
  intro o ho
  obtain ⟨e, he, rfl⟩ := mem_map.1 ho
  obtain ⟨f, hf, hfo⟩ := hknown e he
  obtain ⟨x, hx1, hx2⟩ := hsame f hf
  obtain ⟨w, rfl, _⟩ := readTableField_of_some (hfo ▸ run1.found e he) hx1
  obtain ⟨p, hp, _⟩ := readTableField_eq_some hx2
  obtain ⟨e', he', ho', _⟩ := run2.only _ _ hp
  exact mem_map.2 ⟨e', he', ho'.trans hfo⟩

/-- The ordinals and the payloads of the table at `start` are known. -/
structure TableKnown (c : SchemaContext) (levels : ℕ) (table : TableDescriptor TypeDescriptor)
    (es : List Envelope) : Prop where
  ordinal : ∀ e ∈ es, ∃ f ∈ table.fields, f.ordinal = e.ordinal
  payload : ∀ f ∈ table.fields, ∀ e ∈ es, f.ordinal = e.ordinal →
    ∀ range ∈ e.payload, knownOrdinals c.body levels f.ty range.start = true

theorem known_of_tableRun {table : TableDescriptor TypeDescriptor} {r : TableRef}
    {es : List Envelope} (run : TableRun c levels table start κ s r es)
    (h : (holdsFor (tableOrdinals c.body start)
        (·.all fun ordinal => table.fields.any (·.ordinal = ordinal)) &&
      table.fields.all fun field => holdsFor (tableField c.body start field.ordinal) fun view =>
        view.all fun payload => payload.all fun range =>
          knownOrdinals c.body levels field.ty range.start) = true) : TableKnown c levels table es := by
  obtain ⟨hord, hpay⟩ := Bool.and_eq_true_iff.1 h
  refine ⟨?_, ?_⟩
  · intro e he
    simp only [run.ordinals, holdsFor, List.all_eq_true, List.any_eq_true, decide_eq_true_eq] at hord
    exact hord _ (mem_map_of_mem he)
  · intro f hf e he ho range hr
    have hfield := all_eq_true.1 hpay f hf
    rw [ho, run.found e he] at hfield
    simp only [holdsFor, all_some, Option.all_eq_true] at hfield
    exact hfield range hr

theorem length_readElements {read : TypeDescriptor → ℕ → Outcome BodyError Value} {view : ValidatedVector}
    (h : readElements read element view indices = .ok vs) : vs.length = indices.length := by
  induction indices generalizing vs with
  | nil => exact congrArg length (Except.ok.inj h).symm
  | cons index rest ih =>
    simp only [readElements, run_eq_ok] at h
    obtain ⟨_, _, _, _, vs', hvs, rfl⟩ := h
    simp [ih hvs]

/-- The payload of an accepted selection is read as the value at its start. -/
theorem readsPayload {check : Check} {p : Option PayloadRange}
    (h : validateSelectedPayload c levels check d p κ = .ok s)
    (hk : knownOrdinals c.body levels d (payloadStart p) = true)
    (hv : materialize c.body levels d (payloadStart p) = .ok v) :
    ReadsPayload c levels d p (if d.isUnit then none else some v) := by
  rcases validateSelectedPayload_eq_ok h with ⟨hu, rfl, _⟩ | ⟨hu, range, rfl, _⟩
  · refine ⟨by simp, ?_⟩
    rw [if_pos hu]
    rfl
  · refine ⟨?_, ?_⟩
    · intro r hr
      cases hr
      exact hk
    · rw [hu, readPayload, show materialize c.body levels d range.start = .ok v from hv]
      rfl

def readOptional (c : SchemaContext) (levels : ℕ) (d : TypeDescriptor) (view : Option ℕ) :
    Outcome BodyError Value :=
  match view with
  | none => .ok (.optional none)
  | some start => do
    let value ← materialize c.body levels d start
    return .optional (some value)

def readUnion (c : SchemaContext) (levels : ℕ) (view : ValidatedUnion) : Outcome BodyError Value :=
  match view.payload with
  | none => .ok (.union view.ordinal none)
  | some (d, start) => do
    let value ← materialize c.body levels d start
    return .union view.ordinal (some value)

theorem readUnion_ordinal {view : ValidatedUnion} (h : readUnion c levels view = .ok v) :
    ∃ w, v = .union view.ordinal w := by
  obtain ⟨o, p⟩ := view
  cases p with
  | none => exact ⟨none, (Except.ok.inj h).symm⟩
  | some =>
    obtain ⟨x, _, hv⟩ := bind_eq_ok.1 h
    exact ⟨some x, (Except.ok.inj hv).symm⟩

/-! ### Allocations and payloads -/

variable (ih : Determined c1 c2 levels) (hκ : κ1.next = κ2.next)

include ih

/-- Two allocations with the same start and the same value have the same end and the same bytes. -/
theorem allocation {stop1 stop2 : ℕ}
    (hd : Valid d) (h1 : validateAllocation c1 (validateValue c1 levels) d start stop1 = .ok ())
    (h2 : validateAllocation c2 (validateValue c2 levels) d start stop2 = .ok ())
    (k1 : knownOrdinals c1.body levels d start = true)
    (k2 : knownOrdinals c2.body levels d start = true) (v1 : materialize c1.body levels d start = .ok v)
    (v2 : materialize c2.body levels d start = .ok v) :
    stop1 = stop2 ∧ Agree c1.body c2.body start stop1 := by
  obtain ⟨cs, r1, hcs, hz1, hr1, rfl⟩ := validateAllocation_eq_ok h1
  obtain ⟨cs', r2, hcs', hz2, hr2, rfl⟩ := validateAllocation_eq_ok h2
  cases hcs.symm.trans hcs'
  obtain ⟨hnext, hinline, hregion⟩ := ih d start ⟨cs, r1.next⟩ ⟨cs, r2.next⟩ r1 r2 v hd rfl
    ⟨hr1, k1, v1⟩ ⟨hr2, k2, v2⟩
  exact ⟨hnext, hinline.trans ((agree_of_requireZero hz1 hz2).trans hregion)⟩

include hκ

/-- Two selected payloads with the same value are the same range with the same bytes. -/
theorem payload {p1 p2 : Option PayloadRange} {w : Option Value} (hd : Valid d)
    (h1 : validateSelectedPayload c1 levels (validateValue c1 levels) d p1 κ1 = .ok r1)
    (h2 : validateSelectedPayload c2 levels (validateValue c2 levels) d p2 κ2 = .ok r2)
    (v1 : ReadsPayload c1 levels d p1 w) (v2 : ReadsPayload c2 levels d p2 w) :
    p1 = p2 ∧ r1.next = r2.next ∧ Agree c1.body c2.body κ1.next r1.next := by
  obtain ⟨k1, v1⟩ := v1
  obtain ⟨k2, v2⟩ := v2
  rcases validateSelectedPayload_eq_ok h1 with ⟨hu, rfl, rfl⟩ | ⟨hu, range1, rfl, hs1, ha1, rfl⟩
  · rcases validateSelectedPayload_eq_ok h2 with ⟨_, rfl, rfl⟩ | ⟨hu', _⟩
    · exact ⟨rfl, hκ, empty le_rfl⟩
    · rw [hu] at hu'
      cases hu'
  · rcases validateSelectedPayload_eq_ok h2 with ⟨hu', _⟩ | ⟨_, range2, rfl, hs2, ha2, rfl⟩
    · rw [hu] at hu'
      cases hu'
    · obtain ⟨start1, stop1⟩ := range1
      obtain ⟨start2, stop2⟩ := range2
      obtain rfl : start1 = start2 := hs1.trans (hκ.trans hs2.symm)
      simp only [readPayload, run_eq_ok] at v1 v2
      obtain ⟨v, v1, rfl⟩ := v1
      obtain ⟨v', v2, heq⟩ := v2
      cases heq
      obtain ⟨rfl, hagree⟩ := ih.allocation hd ha1 ha2 (k1 _ rfl) (k2 ⟨start1, stop2⟩ rfl) v1 v2
      refine ⟨rfl, rfl, ?_⟩
      rw [← hs1]
      exact hagree

/-! ### Structures -/

/-- The fields of a structure, from the end of one field on. -/
theorem fields {bytes previousEnd : ℕ} {fields : List (StructureFieldDescriptor TypeDescriptor)}
    (hd : ∀ field ∈ fields, Valid field.ty)
    (h1 : checkFields c1 (validateValue c1 levels) bytes start fields previousEnd κ1 = .ok r1)
    (h2 : checkFields c2 (validateValue c2 levels) bytes start fields previousEnd κ2 = .ok r2)
    (k1 : ∀ field ∈ fields, knownOrdinals c1.body levels field.ty (start + field.offset) = true)
    (k2 : ∀ field ∈ fields, knownOrdinals c2.body levels field.ty (start + field.offset) = true)
    (v1 : readFields (materialize c1.body levels) start fields = .ok vs)
    (v2 : readFields (materialize c2.body levels) start fields = .ok vs) :
    r1.next = r2.next ∧ Agree c1.body c2.body (start + previousEnd) (start + bytes) ∧
      Agree c1.body c2.body κ1.next r1.next := by
  induction fields generalizing previousEnd κ1 κ2 vs with
  | nil =>
    simp only [checkFields, run_eq_ok, add_eq_ok] at h1 h2
    obtain ⟨_, ⟨_, rfl⟩, _, ⟨_, rfl⟩, _, hz1, rfl⟩ := h1
    obtain ⟨_, ⟨_, rfl⟩, _, ⟨_, rfl⟩, _, hz2, rfl⟩ := h2
    exact ⟨hκ, agree_of_requireZero hz1 hz2, empty le_rfl⟩
  | cons field fields step =>
    simp only [checkFields, run_eq_ok, add_eq_ok] at h1 h2
    obtain ⟨n, hn, _, _, ⟨_, rfl⟩, _, _, ⟨_, rfl⟩, _, ⟨_, rfl⟩, _, hz1, m1, hm1, h1⟩ := h1
    obtain ⟨n', hn', _, _, ⟨_, rfl⟩, _, _, ⟨_, rfl⟩, _, ⟨_, rfl⟩, _, hz2, m2, hm2, h2⟩ := h2
    obtain rfl := descriptorInlineBytes_eq_ok hn
    obtain rfl := descriptorInlineBytes_eq_ok hn'
    simp only [readFields, run_eq_ok, add_eq_ok] at v1 v2
    obtain ⟨_, ⟨_, rfl⟩, v, v1, vs, vs1, rfl⟩ := v1
    obtain ⟨_, ⟨_, rfl⟩, v', v2, vs', vs2, heq⟩ := v2
    cases heq
    -- one field keeps the runs together, and the rest starts where it ends
    obtain ⟨hm, hinline, hregion⟩ := ih field.ty _ κ1 κ2 m1 m2 _ (hd _ mem_cons_self) hκ
      ⟨hm1, k1 _ mem_cons_self, v1⟩ ⟨hm2, k2 _ mem_cons_self, v2⟩
    obtain ⟨hr, hrest, hregions⟩ := step hm (fun f hf => hd f (mem_cons_of_mem _ hf)) h1 h2
      (fun f hf => k1 f (mem_cons_of_mem _ hf))
      (fun f hf => k2 f (mem_cons_of_mem _ hf)) vs1 vs2
    rw [← Nat.add_assoc] at hrest
    exact ⟨hr, (agree_of_requireZero hz1 hz2).trans (hinline.trans hrest), hregion.trans hregions⟩

/-! ### Vectors -/

/-- The elements of a vector. -/
theorem elements {target stride n1 n2 : ℕ} (hd : Valid element)
    (h1 : checkElements (validateValue c1 levels) element target stride indices κ1 = .ok r1)
    (h2 : checkElements (validateValue c2 levels) element target stride indices κ2 = .ok r2)
    (k1 : ∀ index ∈ indices, knownOrdinals c1.body levels element (target + index * stride) = true)
    (k2 : ∀ index ∈ indices, knownOrdinals c2.body levels element (target + index * stride) = true)
    (v1 : readElements (materialize c1.body levels) element ⟨target, n1, stride⟩ indices = .ok vs)
    (v2 : readElements (materialize c2.body levels) element ⟨target, n2, stride⟩ indices = .ok vs) :
    r1.next = r2.next ∧ (∀ index ∈ indices, Agree c1.body c2.body (target + index * stride)
        (target + index * stride + element.layout.bytes)) ∧ Agree c1.body c2.body κ1.next r1.next := by
  induction indices generalizing κ1 κ2 vs with
  | nil =>
    cases h1
    cases h2
    exact ⟨hκ, by simp, empty le_rfl⟩
  | cons index rest step =>
    simp only [checkElements, bind_eq_ok, elementStart_eq_ok] at h1 h2
    obtain ⟨_, ⟨_, _, rfl⟩, m1, hm1, h1⟩ := h1
    obtain ⟨_, ⟨_, _, rfl⟩, m2, hm2, h2⟩ := h2
    simp only [readElements, run_eq_ok, elementStart_eq_ok]
      at v1 v2
    obtain ⟨_, ⟨_, _, rfl⟩, v, v1, vs, vs1, rfl⟩ := v1
    obtain ⟨_, ⟨_, _, rfl⟩, v', v2, vs', vs2, heq⟩ := v2
    cases heq
    obtain ⟨hm, hinline, hregion⟩ := ih element _ κ1 κ2 m1 m2 _ hd hκ
      ⟨hm1, k1 _ mem_cons_self, v1⟩ ⟨hm2, k2 _ mem_cons_self, v2⟩
    obtain ⟨hr, hrest, hregions⟩ := step hm h1 h2
      (fun i hi => k1 i (mem_cons_of_mem _ hi))
      (fun i hi => k2 i (mem_cons_of_mem _ hi)) vs1 vs2
    exact ⟨hr, forall_mem_cons.2 ⟨hinline, hrest⟩, hregion.trans hregions⟩

/-! ### Tables -/

omit hκ in
/-- The envelopes of a table with the same ordinals: they have the same payloads, one behind the
other, with the same bytes. -/
theorem envelopes {fields : List (TableFieldDescriptor TypeDescriptor)}
    {tableStart end1 end2 payloadCursor left1 left2 : ℕ} (hd : ∀ f ∈ fields, Valid f.ty)
    (hs : fields.Pairwise (fun f g => f.ordinal < g.ordinal))
    (h1 : checkTable c1 levels (validateValue c1 levels) tableStart end1 indices fields
      payloadCursor = .ok left1)
    (h2 : checkTable c2 levels (validateValue c2 levels) tableStart end2 indices fields
      payloadCursor = .ok left2) (he1 : envelopesAt c1.body tableStart indices = .ok es1)
    (he2 : envelopesAt c2.body tableStart indices = .ok es2)
    (hes : es1.Pairwise (fun e e' => e.ordinal < e'.ordinal))
    (hord : es1.map (·.ordinal) = es2.map (·.ordinal))
    (hknown : ∀ e ∈ es1, ∃ f ∈ fields, f.ordinal = e.ordinal)
    (hval : ∀ f ∈ fields, ∀ e1 ∈ es1, ∀ e2 ∈ es2, f.ordinal = e1.ordinal →
      f.ordinal = e2.ordinal → ∃ w, ReadsPayload c1 levels f.ty e1.payload w ∧
        ReadsPayload c2 levels f.ty e2.payload w) :
    es1 = es2 ∧ left1 = left2 ∧ Agree c1.body c2.body payloadCursor left1 := by
  induction indices generalizing fields payloadCursor es1 es2 with
  | nil =>
    simp only [checkTable, run_eq_ok] at h1 h2
    obtain ⟨_, _, rfl⟩ := h1
    obtain ⟨_, _, rfl⟩ := h2
    exact ⟨(Except.ok.inj he1).symm.trans (Except.ok.inj he2), rfl, empty le_rfl⟩
  | cons index rest step =>
    obtain ⟨e1, es1, hat1, hrest1, rfl⟩ := envelopesAt_cons.1 he1
    obtain ⟨e2, es2, hat2, hrest2, rfl⟩ := envelopesAt_cons.1 he2
    simp only [map_cons, cons.injEq] at hord
    obtain ⟨ho, hord⟩ := hord
    obtain ⟨hgt, hes⟩ := pairwise_cons.1 hes
    obtain ⟨f, hf, hfo⟩ := hknown e1 mem_cons_self
    simp only [checkTable, bind_eq_ok, hat1, hat2, Except.ok.injEq, exists_eq_left'] at h1 h2
    obtain ⟨_, hskip1, _, hcheck1, h1⟩ := h1
    obtain ⟨_, hskip2, _, hcheck2, h2⟩ := h2
    -- both runs skip to the field `f`
    obtain ⟨later, hdrop, hsuffix, hlater⟩ := dropWhile_of_mem hs hf
    rw [skipFields_eq_ok hskip1, ← hfo, hdrop] at hcheck1
    rw [skipFields_eq_ok hskip2, ← ho, ← hfo, hdrop] at hcheck2
    obtain ⟨hlater1, r1, hr1⟩ := checkEnvelope_eq_ok hfo hcheck1
    obtain ⟨hlater2, r2, hr2⟩ := checkEnvelope_eq_ok (hfo.trans ho) hcheck2
    obtain ⟨w, hw1, hw2⟩ := hval f hf e1 mem_cons_self e2 mem_cons_self hfo
      (hfo.trans ho)
    obtain ⟨hp, hnext, hregion⟩ := ih.payload
      (show (Cursor.mk payloadCursor end1).next = (Cursor.mk payloadCursor end2).next from rfl)
      (hd f hf) hr1 hr2 hw1 hw2
    have hmem : ∀ g ∈ later, g ∈ fields := fun g hg =>
      hsuffix.subset (mem_cons_of_mem _ hg)
    rw [advance_eq hr1, hlater1] at h1
    rw [advance_eq hr2, hlater2, ← hnext] at h2
    have hknown' : ∀ e ∈ es1, ∃ g ∈ later, g.ordinal = e.ordinal := by
      intro e he
      obtain ⟨g, hg, hgo⟩ := hknown e (mem_cons_of_mem _ he)
      exact ⟨g, hlater g hg (by rw [hfo, hgo]; exact hgt e he), hgo⟩
    obtain ⟨rfl, hleft, hregions⟩ := step (fun g hg => hd g (hmem g hg))
      (pairwise_cons.1 (hs.sublist hsuffix.sublist)).2 h1 h2 hrest1 hrest2 hes hord hknown'
      (fun g hg e he e' he' => hval g (hmem g hg) e (mem_cons_of_mem _ he) e'
        (mem_cons_of_mem _ he'))
    refine ⟨?_, hleft, hregion.trans hregions⟩
    obtain ⟨o1, p1⟩ := e1
    obtain ⟨o2, p2⟩ := e2
    obtain rfl : o1 = o2 := ho
    obtain rfl : p1 = p2 := hp
    rfl

/-- Two tables at the same place with the same fields. -/
theorem table {table : TableDescriptor TypeDescriptor}
    {r1 r2 : TableRef} {vs : List (Option (Option Value))} (hd : ∀ f ∈ table.fields, Valid f.ty)
    (hs : table.fields.Pairwise (fun f g => f.ordinal < g.ordinal))
    (run1 : TableRun c1 levels table start κ1 s1 r1 es1)
    (run2 : TableRun c2 levels table start κ2 s2 r2 es2) (k1 : TableKnown c1 levels table es1)
    (k2 : TableKnown c2 levels table es2)
    (v1 : readTable (materialize c1.body levels) c1.body start table.fields = .ok vs)
    (v2 : readTable (materialize c2.body levels) c2.body start table.fields = .ok vs) :
    s1.next = s2.next ∧ Agree c1.body c2.body start (start + 16) ∧ Agree c1.body c2.body κ1.next s1.next := by
  have hsame := readTable_same v1 v2
  have hsame' : ∀ f ∈ table.fields, ∃ x, readTableField (materialize c2.body levels) c2.body start f = .ok x ∧
        readTableField (materialize c1.body levels) c1.body start f = .ok x :=
    fun f hf => (hsame f hf).imp fun _ h => h.symm
  have hord : es1.map (·.ordinal) = es2.map (·.ordinal) := by
    refine Pairwise.eq_of_mem_iff (pairwise_map.2 run1.sorted)
      (pairwise_map.2 run2.sorted) fun o => ⟨?_, ?_⟩
    · exact ordinal_mem run1 run2 k1.ordinal hsame o
    · exact ordinal_mem run2 run1 k2.ordinal hsame' o
  have hcount : r1.fieldCount = r2.fieldCount := by
    rw [← run1.length, ← run2.length]
    simpa using congrArg length hord
  have hval : ∀ f ∈ table.fields, ∀ e1 ∈ es1, ∀ e2 ∈ es2, f.ordinal = e1.ordinal →
      f.ordinal = e2.ordinal → ∃ w, ReadsPayload c1 levels f.ty e1.payload w ∧
        ReadsPayload c2 levels f.ty e2.payload w := by
    intro f hf e1 he1 e2 he2 ho1 ho2
    obtain ⟨x, hx1, hx2⟩ := hsame f hf
    obtain ⟨w, rfl, hw1⟩ := readTableField_of_some (ho1 ▸ run1.found e1 he1) hx1
    obtain ⟨w', hw, hw2⟩ := readTableField_of_some (ho2 ▸ run2.found e2 he2) hx2
    cases hw
    exact ⟨w, ⟨k1.payload f hf e1 he1 ho1, hw1⟩, ⟨k2.payload f hf e2 he2 ho2, hw2⟩⟩
  obtain ⟨o1, n1, res1, g1, t1⟩ := r1
  obtain ⟨o2, n2, res2, g2, t2⟩ := r2
  obtain rfl : n1 = n2 := hcount
  obtain ⟨rfl, rfl⟩ : res1 = 0 ∧ t1 = 0 := run1.reserved
  obtain ⟨rfl, rfl⟩ : res2 = 0 ∧ t2 = 0 := run2.reserved
  have href1 := run1.ref
  have href2 := run2.ref
  rcases both_or run1.region run2.region with ⟨-, ⟨ho1, hb1, rfl⟩, ho2, hb2, rfl⟩ |
    ⟨-, ⟨ht1, hes1, hcheck1, rfl⟩, ht2, hes2, hcheck2, rfl⟩
  · obtain rfl : o1 = o2 := ho1.trans ho2.symm
    obtain rfl : g1 = g2 := hb1.trans hb2.symm
    exact ⟨hκ, TableRef.agree href1 href2, empty le_rfl⟩
  · rw [← hκ] at ht2 hes2 hcheck2 ⊢
    obtain ⟨rfl, hleft, hpayloads⟩ := ih.envelopes hd hs hcheck1 hcheck2 hes1 hes2 run1.sorted
      hord k1.ordinal hval
    obtain rfl : o1 = o2 := Nat.add_left_cancel (ht1.trans ht2.symm)
    obtain rfl : g1 = g2 := Nat.add_left_cancel hleft
    refine ⟨rfl, TableRef.agree href1 href2, trans ?_ hpayloads⟩
    exact agree_slots (agree_of_envelopesAt hes1 hes2)

/-! ### Vectors, strings and byte strings -/

/-- Two vectors at the same place with the same elements. -/
theorem vector {view1 view2 : ValidatedVector} (hd : Valid element)
    (h1 : validateVector c1 (validateValue c1 levels) m1 element start κ1 = .ok s1)
    (h2 : validateVector c2 (validateValue c2 levels) m2 element start κ2 = .ok s2)
    (w1 : vectorView c1.body element start = .ok view1) (w2 : vectorView c2.body element start = .ok view2)
    (k1 : ∀ index ∈ range view1.count, knownOrdinals c1.body levels element
      (view1.elementsStart + index * view1.stride) = true)
    (k2 : ∀ index ∈ range view2.count, knownOrdinals c2.body levels element
      (view2.elementsStart + index * view2.stride) = true)
    (v1 : readElements (materialize c1.body levels) element view1 (range view1.count) = .ok vs)
    (v2 : readElements (materialize c2.body levels) element view2 (range view2.count) = .ok vs) :
    s1.next = s2.next ∧ Agree c1.body c2.body start (start + 16) ∧ Agree c1.body c2.body κ1.next s1.next := by
  obtain ⟨r1, stride, hr1, hres1, _, hs1, h1⟩ := validateVector_eq_ok h1
  obtain ⟨r2, stride', hr2, hres2, _, hs2, h2⟩ := validateVector_eq_ok h2
  cases hs1.symm.trans hs2
  have hcount : r1.count = r2.count := by
    have hl1 := length_readElements v1
    have hl2 := length_readElements v2
    rw [length_range, view_count hr1 w1] at hl1
    rw [length_range, view_count hr2 w2] at hl2
    exact hl1.symm.trans hl2
  have hview1 := vectorView_eq hr1 w1
  have hview2 := vectorView_eq hr2 w2
  obtain ⟨o1, n1, g1, t1⟩ := r1
  obtain ⟨o2, n2, g2, t2⟩ := r2
  obtain rfl : n1 = n2 := hcount
  obtain rfl : t1 = 0 := hres1
  obtain rfl : t2 = 0 := hres2
  rcases both_or h1 h2 with ⟨-, ⟨ho1, hb1, rfl⟩, ho2, hb2, rfl⟩ |
    ⟨hc, ⟨ht1, _, cs, inner1, hcs1, hpad1, hz1, hin1, hnext1, rfl⟩,
      ht2, _, cs', inner2, hcs2, hpad2, hz2, hin2, hnext2, rfl⟩
  · obtain rfl : o1 = o2 := ho1.trans ho2.symm
    obtain rfl : g1 = g2 := hb1.trans hb2.symm
    exact ⟨hκ, SliceRef.agree hr1 hr2, empty le_rfl⟩
  · obtain ⟨stride1, hst1, rfl⟩ := (hview1.resolve_left fun h => hc h.1).2
    obtain ⟨stride2, hst2, rfl⟩ := (hview2.resolve_left fun h => hc h.1).2
    cases hs1.symm.trans hst1
    cases hs1.symm.trans hst2
    rw [← hκ] at ht2 hcs2 hpad2 hz2 hin2 hnext2 ⊢
    cases hcs1.symm.trans hcs2
    simp only [ht1, ht2] at k1 k2 v1 v2
    obtain ⟨hinner, hinline, hchildren⟩ := ih.elements
      (show (Cursor.mk cs (κ1.next + g1)).next = (Cursor.mk cs (κ1.next + g2)).next from rfl)
      hd hin1 hin2 k1 k2 v1 v2
    rw [hnext1, hnext2] at hinner
    obtain rfl : o1 = o2 := Nat.add_left_cancel (ht1.trans ht2.symm)
    obtain rfl : g1 = g2 := Nat.add_left_cancel hinner
    rw [hnext1] at hchildren
    refine ⟨rfl, SliceRef.agree hr1 hr2, trans ?_ ((agree_of_requireZero hz1 hz2).trans
      hchildren)⟩
    refine agree_slots fun index hi => (hinline index hi).trans ?_
    exact agree_of_checkElementPadding (hpad1 index hi) (hpad2 index hi)

omit ih in
/-- Two strings or byte strings at the same place with the same bytes. -/
theorem bytesLike {u1 u2 : Bool} {bs : List UInt8} (h1 : validateBytesLike c1 start m1 u1 κ1 = .ok s1)
    (h2 : validateBytesLike c2 start m2 u2 κ2 = .ok s2)
    (v1 : materializedSlice c1.body start = .ok bs) (v2 : materializedSlice c2.body start = .ok bs) :
    s1.next = s2.next ∧ Agree c1.body c2.body start (start + 16) ∧ Agree c1.body c2.body κ1.next s1.next := by
  obtain ⟨r1, hr1, hres1, _, h1⟩ := validateBytesLike_eq_ok h1
  obtain ⟨r2, hr2, hres2, _, h2⟩ := validateBytesLike_eq_ok h2
  have hbs1 := materializedSlice_eq hr1 v1
  have hbs2 := materializedSlice_eq hr2 v2
  have hcount : r1.count = r2.count := hbs1.1.symm.trans hbs2.1
  obtain ⟨o1, n1, g1, t1⟩ := r1
  obtain ⟨o2, n2, g2, t2⟩ := r2
  obtain rfl : n1 = n2 := hcount
  obtain rfl : t1 = 0 := hres1
  obtain rfl : t2 = 0 := hres2
  rcases both_or h1 h2 with ⟨-, ⟨ho1, hb1, rfl⟩, ho2, hb2, rfl⟩ |
    ⟨hc, ⟨hg1, ht1, _, hz1, _, _, rfl⟩, hg2, ht2, _, hz2, _, _, rfl⟩
  · obtain rfl : o1 = o2 := ho1.trans ho2.symm
    obtain rfl : g1 = g2 := hb1.trans hb2.symm
    exact ⟨hκ, SliceRef.agree hr1 hr2, empty le_rfl⟩
  · obtain rfl : g1 = g2 := Except.ok.inj (hg1.symm.trans hg2)
    rw [← hκ] at ht2 hz2 ⊢
    obtain rfl : o1 = o2 := Nat.add_left_cancel (ht1.trans ht2.symm)
    have hdata := (hbs1.2 hc).symm.trans (hbs2.2 hc)
    simp only [ht1] at hdata
    exact ⟨rfl, SliceRef.agree hr1 hr2, (of_slice_eq hdata).trans (agree_of_requireZero hz1 hz2)⟩

/-! ### Optionals and unions -/

/-- Two optionals at the same place with the same value. -/
theorem optional {view1 view2 : Option ℕ} (hd : Valid d)
    (h1 : validateOptional c1 levels (validateValue c1 levels) d start κ1 = .ok s1)
    (h2 : validateOptional c2 levels (validateValue c2 levels) d start κ2 = .ok s2)
    (w1 : optionalView c1.body start = .ok view1) (w2 : optionalView c2.body start = .ok view2)
    (k1 : ∀ x ∈ view1, knownOrdinals c1.body levels d x = true)
    (k2 : ∀ x ∈ view2, knownOrdinals c2.body levels d x = true)
    (v1 : readOptional c1 levels d view1 = .ok v) (v2 : readOptional c2 levels d view2 = .ok v) :
    s1.next = s2.next ∧ Agree c1.body c2.body start (start + 24) ∧ Agree c1.body c2.body κ1.next s1.next := by
  rcases validateOptional_eq_ok h1 with ⟨hl1, hs1, hz1, rfl⟩ | ⟨e1, he1, ho1, h1⟩
  · cases (optionalView_zero hs1 hz1).symm.trans w1
    cases v1
    rcases validateOptional_eq_ok h2 with ⟨hl2, hs2, hz2, rfl⟩ | ⟨e2, he2, ho2, h2⟩
    · exact ⟨hκ, agree_of_all_zero hl1 hl2 hz1 hz2, empty le_rfl⟩
    · cases (optionalView_one he2 ho2).symm.trans w2
      obtain ⟨_, _, hv⟩ := bind_eq_ok.1 v2
      cases hv
  · cases (optionalView_one he1 ho1).symm.trans w1
    obtain ⟨x, hx, hv⟩ := bind_eq_ok.1 v1
    cases hv
    rcases validateOptional_eq_ok h2 with ⟨hl2, hs2, hz2, rfl⟩ | ⟨e2, he2, ho2, h2⟩
    · cases (optionalView_zero hs2 hz2).symm.trans w2
      cases v2
    · cases (optionalView_one he2 ho2).symm.trans w2
      obtain ⟨y, hy, hv⟩ := bind_eq_ok.1 v2
      obtain rfl : x = y := by simpa using (Except.ok.inj hv).symm
      obtain ⟨hp, hnext, hregion⟩ := ih.payload hκ hd h1 h2 (readsPayload h1 (k1 _ rfl) hx)
        (readsPayload h2 (k2 _ rfl) hy)
      obtain ⟨o1, p1⟩ := e1
      obtain ⟨o2, p2⟩ := e2
      obtain rfl : o1 = o2 := ho1.trans ho2.symm
      obtain rfl : p1 = p2 := hp
      exact ⟨hnext, Envelope.agree he1 he2, hregion⟩

/-- Two unions at the same place with the same value. -/
theorem union {xs : List (UnionAlternativeDescriptor TypeDescriptor)} {view1 view2 : ValidatedUnion}
    (hd : ∀ x ∈ xs, ∀ p, x.payload = some p → Valid p ∧ p.isUnit = false)
    (h1 : validateClosedUnion c1 levels (validateValue c1 levels) xs start κ1 = .ok s1)
    (h2 : validateClosedUnion c2 levels (validateValue c2 levels) xs start κ2 = .ok s2)
    (w1 : unionView c1.body xs start = .ok view1) (w2 : unionView c2.body xs start = .ok view2)
    (k1 : ∀ p ∈ view1.payload, knownOrdinals c1.body levels p.1 p.2 = true)
    (k2 : ∀ p ∈ view2.payload, knownOrdinals c2.body levels p.1 p.2 = true)
    (v1 : readUnion c1 levels view1 = .ok v) (v2 : readUnion c2 levels view2 = .ok v) :
    s1.next = s2.next ∧ Agree c1.body c2.body start (start + 24) ∧ Agree c1.body c2.body κ1.next s1.next := by
  obtain ⟨⟨o1, p1⟩, x1, he1, hx1, h1⟩ := validateClosedUnion_eq_ok hd h1
  obtain ⟨⟨o2, p2⟩, x2, he2, hx2, h2⟩ := validateClosedUnion_eq_ok hd h2
  -- the value names the ordinal, so both envelopes select the same alternative
  have ho : o1 = o2 := by
    obtain ⟨w, hw1⟩ := readUnion_ordinal v1
    obtain ⟨w', hw2⟩ := readUnion_ordinal v2
    rw [hw1, unionView_ordinal he1 w1, unionView_ordinal he2 w2] at hw2
    exact (Value.union.inj hw2).1
  obtain rfl := ho
  cases hx1.symm.trans hx2
  rw [unionView, he1, ok_bind, hx1, okOr_some, ok_bind] at w1
  rw [unionView, he2, ok_bind, hx1, okOr_some, ok_bind] at w2
  rcases h1 with ⟨hp, hn1, rfl⟩ | ⟨d, range1, hp, hr1, hvalid, h1⟩
  · rcases h2 with ⟨_, hn2, rfl⟩ | ⟨d', _, hp', _⟩
    · obtain rfl : p1 = none := hn1
      obtain rfl : p2 = none := hn2
      exact ⟨hκ, Envelope.agree he1 he2, empty le_rfl⟩
    · rw [hp] at hp'
      cases hp'
  · rcases h2 with ⟨hp', _⟩ | ⟨d', range2, hp', hr2, _, h2⟩
    · rw [hp] at hp'
      cases hp'
    · cases hp.symm.trans hp'
      obtain rfl : p1 = some range1 := hr1
      obtain rfl : p2 = some range2 := hr2
      simp only [hp] at w1 w2
      cases w1
      cases w2
      obtain ⟨x, hx, hy⟩ := read_same (by simp) v1 v2
      obtain ⟨hrange, hnext, hregion⟩ := ih.payload hκ hvalid h1 h2
        (readsPayload h1 (k1 _ rfl) hx) (readsPayload h2 (k2 _ rfl) hy)
      cases hrange
      exact ⟨hnext, Envelope.agree he1 he2, hregion⟩

end Determined

/-! ### The value determines the bytes -/

variable {a b body : List UInt8} {start raw : ℕ} {bound : BoundProtocol} {limits : BodyLimits}
  {schema : ProtocolBodyDescriptor} {u : Unit}

/-- Two bodies in which the same scalar is read agree on its bytes. -/
theorem agree_of_scalar {w : ℕ} (hw : w ≠ 0) (ha : readScalar a start w = .ok raw)
    (hb : readScalar b start w = .ok raw) : Agree a b start (start + w) := by
  obtain ⟨_, hla, hwa⟩ := (readScalar_eq_ok hw).1 ha
  obtain ⟨_, hlb, hwb⟩ := (readScalar_eq_ok hw).1 hb
  refine of_slice_eq (ofLe_injective ?_ (hwa.symm.trans hwb))
  rw [length_slice_of_le hla, length_slice_of_le hlb]

theorem agree_of_primitive {kind : PrimitiveKind} (ha : readPrimitiveRaw a start kind = .ok raw)
    (hb : readPrimitiveRaw b start kind = .ok raw) : Agree a b start (start + kind.layout.bytes) := by
  cases kind with
  | id128 => cases ha
  | _ => exact agree_of_scalar (by decide) ha hb

theorem agree_of_id {n : ℕ} {bs : List UInt8} (ha : sliceAt a start n = .ok bs)
    (hb : sliceAt b start n = .ok bs) : Agree a b start (start + n) := by
  obtain ⟨_, _, rfl⟩ := sliceAt_eq_ok.1 ha
  obtain ⟨_, _, heq⟩ := sliceAt_eq_ok.1 hb
  exact of_slice_eq heq

/-- At every number of levels, the value determines the bytes. -/
theorem determined (c1 c2 : SchemaContext) (levels : ℕ) : Determined c1 c2 levels := by
  induction levels with
  | zero =>
    rintro d start κ1 κ2 r1 r2 v _ _ ⟨h, _, _⟩ _
    cases h
  | succ levels ih =>
    rintro d start κ1 κ2 r1 r2 v hd hκ ⟨h1, k1, v1⟩ ⟨h2, k2, v2⟩
    simp only [validateValue, validateNode, bind_eq_ok] at h1 h2
    obtain ⟨_, _, _, _, _, _, _, _, h1⟩ := h1
    obtain ⟨_, _, _, _, _, _, _, _, h2⟩ := h2
    simp only [materialize] at v1 v2
    simp only [knownOrdinals] at k1 k2
    cases hk : d.kind <;> simp only [hk] at v1 v2 k1 k2 <;>
      simp only [hk, bind_eq_ok, requireLayout_eq_ok, exists_const, return_eq_ok] at h1 h2
    case unit =>
      obtain ⟨hl, rfl⟩ := h1
      obtain ⟨_, rfl⟩ := h2
      rw [hl]
      exact ⟨hκ, empty (by simp [InlineLayout.unit]), empty le_rfl⟩
    case primitive kind =>
      obtain ⟨hl, _, _, rfl⟩ := h1
      obtain ⟨_, _, _, rfl⟩ := h2
      refine ⟨hκ, ?_, empty le_rfl⟩
      rw [hl]
      cases kind with
      | id128 =>
        obtain ⟨bs, ha, hb⟩ := read_same (by simp) v1 v2
        exact agree_of_id ha hb
      | _ =>
        obtain ⟨raw, ha, hb⟩ := read_same (by simp) v1 v2
        exact agree_of_primitive ha hb
    case bytes =>
      obtain ⟨bs, ha, hb⟩ := read_same (by simp) v1 v2
      rw [h1.1]
      exact Determined.bytesLike hκ h1.2 h2.2 ha hb
    case string =>
      simp only [bind_eq_ok, rejectIf_eq_ok, exists_const, return_eq_ok] at v1 v2
      obtain ⟨bs, ha, _, rfl⟩ := v1
      obtain ⟨bs', hb, _, hv⟩ := v2
      cases hv
      rw [h1.1]
      exact Determined.bytesLike hκ h1.2 h2.2 ha hb
    case struct =>
      simp only [validateStructure, bind_eq_ok, rejectIf_eq_ok, exists_const] at h1 h2
      obtain ⟨vs, ha, hb⟩ := read_same (by simp) v1 v2
      simp only [List.all_eq_true] at k1 k2
      exact ih.fields hκ (hd.fields hk) h1.2 h2.2 k1 k2 ha hb
    case vector =>
      obtain ⟨view1, w1, v1⟩ := bind_eq_ok.1 v1
      obtain ⟨view2, w2, v2⟩ := bind_eq_ok.1 v2
      obtain ⟨vs, ha, hb⟩ := read_same (by simp) v1 v2
      simp only [w1, holdsFor, List.all_eq_true] at k1
      simp only [w2, holdsFor, List.all_eq_true] at k2
      rw [h1.1]
      exact ih.vector hκ (hd.element hk) h1.2 h2.2 w1 w2 k1 k2 ha hb
    case optional =>
      obtain ⟨view1, w1, ha⟩ := bind_eq_ok.1 v1
      obtain ⟨view2, w2, hb⟩ := bind_eq_ok.1 v2
      simp only [w1, holdsFor, Option.all_eq_true] at k1
      simp only [w2, holdsFor, Option.all_eq_true] at k2
      rw [h1.1]
      refine ih.optional hκ (hd.value hk) h1.2 h2.2 w1 w2 k1 k2 (v := v) ?_ ?_
      · cases view1 <;> exact ha
      · cases view2 <;> exact hb
    case table =>
      obtain ⟨vs, ha, hb⟩ := read_same (by simp) v1 v2
      obtain ⟨ref1, es1, run1⟩ := exists_tableRun h1.2
      obtain ⟨ref2, es2, run2⟩ := exists_tableRun h2.2
      obtain ⟨hs, hvalid⟩ := hd.table hk
      rw [h1.1]
      exact ih.table hκ hvalid hs run1 run2 (Determined.known_of_tableRun run1 k1)
        (Determined.known_of_tableRun run2 k2) ha hb
    case closedEnum enumeration =>
      simp only [validateClosedEnum, bind_eq_ok, requireLayout_eq_ok, exists_const] at h1
      obtain ⟨_, ⟨hl, _⟩, rfl⟩ := h1
      obtain ⟨_, _, rfl⟩ := h2
      obtain ⟨raw, ha, hb⟩ := read_same (by simp) v1 v2
      rw [hl]
      exact ⟨hκ, agree_of_scalar enumeration.repr.bytes_ne_zero ha hb, empty le_rfl⟩
    case closedUnion =>
      obtain ⟨view1, w1, ha⟩ := bind_eq_ok.1 v1
      obtain ⟨view2, w2, hb⟩ := bind_eq_ok.1 v2
      simp only [w1, holdsFor, Option.all_eq_true] at k1
      simp only [w2, holdsFor, Option.all_eq_true] at k2
      rw [h1.1]
      exact ih.union hκ (hd.alternative hk) h1.2 h2.2 w1 w2 k1 k2 ha hb

/-! ### Bodies -/

theorem validateBody_eq_ok (h : validateBody schema bound limits body = .ok u) :
    Valid schema.root ∧ validateAllocation ⟨body, bound, limits⟩
      (validateValue ⟨body, bound, limits⟩ limits.maxDepth) schema.root 0 body.length = .ok () := by
  simp only [validateBody, validateDescriptorGraph, bind_eq_ok, rejectIf_eq_ok, exists_const] at h
  obtain ⟨_, _, _, _, _, ⟨left, hgraph, _⟩, h⟩ := h
  exact ⟨⟨_, _, left, hgraph⟩, h⟩

/-- A body that the validator accepts has a value. -/
theorem exists_value_of_validateBody (h : validateBody schema bound limits body = .ok u) :
    ∃ v, materialize body limits.maxDepth schema.root 0 = .ok v := by
  obtain ⟨hvalid, h⟩ := validateBody_eq_ok h
  obtain ⟨_, _, _, _, hv, _⟩ := validateAllocation_eq_ok h
  exact readable ⟨body, bound, limits⟩ _ _ _ _ _ hvalid hv

/-- Bodies that the validator accepts, without unknown ordinals and with the same value, are the same
bytes. -/
theorem validateBody_canonical (schema : ProtocolBodyDescriptor) (bound : BoundProtocol)
    (limits : BodyLimits) (b₁ b₂ : List UInt8) (h₁ : validateBody schema bound limits b₁ = .ok ())
    (h₂ : validateBody schema bound limits b₂ = .ok ())
    (k₁ : knownOrdinals b₁ limits.maxDepth schema.root 0 = true)
    (k₂ : knownOrdinals b₂ limits.maxDepth schema.root 0 = true)
    (hv : materialize b₁ limits.maxDepth schema.root 0 =
      materialize b₂ limits.maxDepth schema.root 0) : b₁ = b₂ := by
  obtain ⟨v, v1⟩ := exists_value_of_validateBody h₁
  have v2 : materialize b₂ limits.maxDepth schema.root 0 = .ok v := hv.symm.trans v1
  obtain ⟨hvalid, a1⟩ := validateBody_eq_ok h₁
  obtain ⟨_, a2⟩ := validateBody_eq_ok h₂
  obtain ⟨hlength, hagree⟩ := (determined ⟨b₁, bound, limits⟩ ⟨b₂, bound, limits⟩
    limits.maxDepth).allocation hvalid a1 a2 k₁ k₂ v1 v2
  exact eq hlength (hlength ▸ hagree)

/-- A protocol whose body is a table with one text. -/
def noteSchema : ProtocolBodyDescriptor where
  protocolId := Buf.zero 16
  protocolMajor := 1
  root := .mk .table (.table
    { maximumPresentFields := 1
      fields := [{ ordinal := 1, ty := .mk .slice (.string 16), required := true,
                   availability := ⟨0, []⟩ }]
      reservedOrdinals := [] })

def noteBound : BoundProtocol where
  protocolId := Buf.zero 16
  major := 1
  minor := 0
  maxBodyBytes := 64
  features := []

/-- The table reference, one envelope, the reference of the text, and the text. -/
def noteBody : List UInt8 :=
  [16, 0, 0, 0, 1, 0, 0, 0, 48, 0, 0, 0, 0, 0, 0, 0,
    1, 0, 0, 0, 0, 0, 0, 0, 16, 0, 0, 0, 24, 0, 0, 0, 0, 0, 0, 0, 0, 0, 0, 0,
    16, 0, 0, 0, 2, 0, 0, 0, 8, 0, 0, 0, 0, 0, 0, 0, 104, 105, 0, 0, 0, 0, 0, 0]

theorem validateBody_canonical_note : validateBody noteSchema noteBound ⟨2, 1⟩ noteBody = .ok () ∧
      knownOrdinals noteBody 2 noteSchema.root 0 = true ∧ noteBody = noteBody :=
  have h : validateBody noteSchema noteBound ⟨2, 1⟩ noteBody = .ok () := by decide +kernel
  have k : knownOrdinals noteBody 2 noteSchema.root 0 = true := by decide +kernel
  ⟨h, k, validateBody_canonical noteSchema noteBound ⟨2, 1⟩ noteBody noteBody h h k k rfl⟩

end NSWP
